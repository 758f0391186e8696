import PessiStreamer.Base.InOrder
import PessiStreamer.System.Streams

/-!
# Streams that arrive

While nobody subscribes or leaves and the packets of a stream arrive in order and once each, they
come whole and in order to all that are connected with the server by subscriptions.
-/

namespace PessiStreamer.System
open Base Common Node Server

/-- What is kept along a steady run: the stream is where it should be, and everyone who gets it can
take the next packet. -/
structure Flows (o₀ : Overlay) (v : VideoId) (r : SocketAddr) (k : UInt64)
    (tr : List (Overlay × OverlayEvent)) (o : Overlay) : Prop where
  subscribers : ∀ a, o.subscribersAt v a = o₀.subscribersAt v a
  nodes : ∀ a, o₀.subscribersAt v a ≠ [] → (o.HasNode a ↔ o₀.HasNode a)
  server : ∃ s video, o.hosts.lookup r = some (.server s) ∧ s.videos.lookup v = some video ∧
    video.sequenceNumber = k + .ofNat (broadcasts v (serverTurns r tr)).length
  numbered : ∀ i q, (broadcasts v (serverTurns r tr))[i]? = some q →
    q.sequenceNumber = k + .ofNat (i + 1)
  chunks : o₀.subscribersAt v r ≠ [] → (broadcasts v (serverTurns r tr)).map
    VideoPacket.streamData = (serverTurns r tr).filterMap fun p ↦ p.2.chunk v
  inOrder : InOrder (o₀.Supplies v r) (passedOn v r tr) fun x y ↦ streamBetween v x y o.inFlight
  sources : ∀ m ∈ o.inFlight, (ofStream v m.packet).isSome → ∀ x, o₀.Supplies v r x m.target →
    m.source = x
  upToDate : ∀ x s, o₀.Reached v r x → o.hosts.lookup x = some (.node s) →
    s.lastVideoSequenceNumber.lookup v = some (k + .ofNat (received v x tr).length) ∨
      received v x tr = [] ∧ s.lastVideoSequenceNumber.lookup v = none

namespace Flows

variable {o₀ o o' : Overlay} {v : VideoId} {r : SocketAddr} {k : UInt64}
  {tr : List (Overlay × OverlayEvent)} {l rest : List Message} {m : Message} {x y : SocketAddr}
  {q : VideoPacket} {qs : List VideoPacket}

private theorem start (h : o₀.Settled v r k) : Flows o₀ v r k [] o₀ where
  subscribers _ := rfl
  nodes _ _ := Iff.rfl
  server := by
    obtain ⟨s, video, hs, hvideo, hk⟩ := h.server
    exact ⟨s, video, hs, hvideo, hk.trans (UInt64.add_zero k).symm⟩
  numbered := by
    intro i q hq
    cases hq
  chunks _ := rfl
  inOrder := by
    intro x y _
    have hchannel : streamBetween v x y o₀.inFlight = [] := by
      apply streamBetween_eq_nil
      intro m hm hq
      rw [h.idle m hm] at hq
      cases hq
    show passedOn v r [] x = passedOn v r [] y ++ streamBetween v x y o₀.inFlight
    rw [hchannel, passedOn, passedOn]
    simp [broadcasts, serverTurns, received]
  sources := by
    intro m hm hq
    rw [h.idle m hm] at hq
    cases hq
  upToDate := by
    intro x s hx hs
    rcases h.upToDate x s hx hs with hk | hnone
    · exact .inl (hk.trans (congrArg some (UInt64.add_zero k).symm))
    · exact .inr ⟨rfl, hnone⟩

/-- Who passes the stream on is the server or a node. -/
theorem hasNode (h : Flows o₀ v r k tr o) (hxy : o₀.Supplies v r x y) (hne : x ≠ r) :
    o.HasNode x :=
  (h.nodes x (List.ne_nil_of_mem hxy.2.1)).mpr (hxy.2.2.2.resolve_left hne)

/-- A packet of the stream that overtakes none is the first in the channel to its target. -/
theorem first_in_channel (h : Flows o₀ v r k tr o) (hflight : o.inFlight = l ++ m :: rest)
    (hq : ofStream v m.packet = some q)
    (hfifo : ∀ m' ∈ l, m'.source = m.source → m'.target = m.target → ofStream v m'.packet = none)
    (hreach : o₀.Reached v r m.target) (hne : m.target ≠ r) :
    o₀.Supplies v r m.source m.target ∧ streamBetween v m.source m.target l = [] ∧
      streamBetween v m.source m.target o.inFlight =
        q :: streamBetween v m.source m.target rest := by
  obtain ⟨x, hx, hfeeds⟩ : ∃ x, o₀.Reached v r x ∧ o₀.Feeds v r x m.target := by
    rcases Relation.ReflTransGen.cases_tail hreach with heq | h
    · exact (hne heq).elim
    · exact h
  have hxy : o₀.Supplies v r x m.target := ⟨hx, hfeeds⟩
  obtain rfl : m.source = x := by
    apply h.sources m (by simp [hflight]) _ x hxy
    rw [hq]
    rfl
  have hnothing : streamBetween v m.source m.target l = [] := by
    apply streamBetween_eq_nil
    intro m' hm' hq' hx' hy'
    rw [hfifo m' hm' hx' hy'] at hq'
    cases hq'
  refine ⟨hxy, hnothing, ?_⟩
  rw [hflight, streamBetween_append, streamBetween_cons, hnothing, hq]
  simp

/-- The next packet for an address has the next number. -/
theorem next_number (h : Flows o₀ v r k tr o) (hxy : o₀.Supplies v r x y)
    (hfirst : streamBetween v x y o.inFlight = q :: qs) :
    q.sequenceNumber = k + .ofNat ((received v y tr).length + 1) := by
  have hpassed : passedOn v r tr y = received v y tr := if_neg hxy.2.2.1
  have hprefix : passedOn v r tr x <+: passedOn v r tr r := h.inOrder.isPrefix hxy.1.path
  have hchannel : passedOn v r tr x = passedOn v r tr y ++ streamBetween v x y o.inFlight :=
    h.inOrder x y hxy
  rw [hchannel, hpassed, hfirst] at hprefix
  have hserver : passedOn v r tr r = broadcasts v (serverTurns r tr) := if_pos rfl
  obtain ⟨later, hlater⟩ := hprefix
  apply h.numbered
  rw [← hserver, ← hlater]
  simp

end Flows

/-- A message `m` arrives in the step `p`, and its target answers by the messages `out`: the copies
for its subscribers if it passes packets of the stream on. -/
structure Arrives (o₀ : Overlay) (v : VideoId) (r : SocketAddr) (l : List Message) (m : Message)
    (out : List Message) (p : Overlay × OverlayEvent) : Prop where
  fifo : (ofStream v m.packet).isSome → ∀ m' ∈ l, m'.source = m.source →
    m'.target = m.target → ofStream v m'.packet = none
  source : ∀ m' ∈ out, (ofStream v m'.packet).isSome → m'.source = m.target ∧ m.target ≠ r
  copies : ∀ w, m.target ≠ r → o₀.Supplies v r m.target w →
    streamBetween v m.target w out = (ofStream v m.packet).toList
  emitted : emittedIn v r p = none
  received : ∀ a, receivedIn v a p = if m.target = a then ofStream v m.packet else none

namespace Arrives

variable {o₀ o : Overlay} {v : VideoId} {r : SocketAddr} {k : UInt64}
  {tr : List (Overlay × OverlayEvent)} {l rest out : List Message} {m : Message}
  {p : Overlay × OverlayEvent} {x y : SocketAddr} {q : VideoPacket}

private theorem channel_out (h : Arrives o₀ v r l m out p) (hx : x ≠ m.target ∨ x = r) :
    streamBetween v x y out = [] := by
  apply streamBetween_eq_nil
  rintro m' hm' hq rfl
  obtain ⟨hsource, hne⟩ := h.source m' hm' hq
  rcases hx with hx | hx
  · exact (hx hsource).elim
  · exact (hne (hsource.symm.trans hx)).elim

private theorem passedOn (h : Arrives o₀ v r l m out p) (a : SocketAddr) :
    passedOn v r (tr ++ [p]) a = System.passedOn v r tr a ++
      if a = m.target ∧ a ≠ r then (ofStream v m.packet).toList else [] := by
  rw [passedOn_concat, h.emitted, h.received]
  by_cases har : a = r
  · simp [har]
  · by_cases ha : a = m.target
    · simp [ha, ha ▸ har]
    · simp [har, ha, Ne.symm ha]

/-- The channels while the message is in flight, and after it arrived. -/
theorem channels (hflight : o.inFlight = l ++ m :: rest) (v : VideoId) (out : List Message)
    (x y : SocketAddr) :
    streamBetween v x y o.inFlight = streamBetween v x y l ++
        ((if m.source = x ∧ m.target = y then (ofStream v m.packet).toList else []) ++
          streamBetween v x y rest) ∧
      streamBetween v x y (l ++ rest ++ out) =
        streamBetween v x y l ++ streamBetween v x y rest ++ streamBetween v x y out := by
  constructor
  · rw [hflight, streamBetween_append, streamBetween_cons]
  · rw [streamBetween_append, streamBetween_append]

/-- The message is no packet of the stream. -/
theorem inOrder_of_other (h : Arrives o₀ v r l m out p) (hflows : Flows o₀ v r k tr o)
    (hflight : o.inFlight = l ++ m :: rest) (hq : ofStream v m.packet = none) :
    InOrder (o₀.Supplies v r) (System.passedOn v r (tr ++ [p]))
      fun x y ↦ streamBetween v x y (l ++ rest ++ out) := by
  apply hflows.inOrder.congr
  · intro x y _
    rw [h.passedOn, h.passedOn, hq]
    simp
  · intro x y hxy
    have hnone : streamBetween v x y out = [] := by
      by_cases hx : x ≠ m.target ∨ x = r
      · exact h.channel_out hx
      · simp only [not_or, not_not] at hx
        obtain ⟨rfl, hne⟩ := hx
        rw [h.copies y hne hxy, hq]
        rfl
    rw [(channels hflight v out x y).1, (channels hflight v out x y).2, hnone, hq]
    simp

/-- The message is for someone that does not get the stream, or for the server. -/
theorem inOrder_of_astray (h : Arrives o₀ v r l m out p) (hflows : Flows o₀ v r k tr o)
    (hflight : o.inFlight = l ++ m :: rest) (hreach : ¬ (o₀.Reached v r m.target ∧ m.target ≠ r)) :
    InOrder (o₀.Supplies v r) (System.passedOn v r (tr ++ [p]))
      fun x y ↦ streamBetween v x y (l ++ rest ++ out) := by
  apply hflows.inOrder.congr
  · intro x y hxy
    rw [h.passedOn, h.passedOn]
    have hnot {a : SocketAddr} (ha : o₀.Reached v r a) : ¬ (a = m.target ∧ a ≠ r) := by
      rintro ⟨rfl, hne⟩
      exact hreach ⟨ha, hne⟩
    simp [hnot hxy.1, hnot (hxy.1.tail hxy.2)]
  · intro x y hxy
    have hx : x ≠ m.target ∨ x = r := by
      by_contra hx
      simp only [not_or, not_not] at hx
      exact hreach ⟨hx.1 ▸ hxy.1, hx.1 ▸ hx.2⟩
    have hy : m.target ≠ y := by
      rintro rfl
      exact hreach ⟨hxy.1.tail hxy.2, hxy.2.2.1⟩
    rw [(channels hflight v out x y).1, (channels hflight v out x y).2, h.channel_out hx]
    simp [hy]

/-- The message is the next packet for someone that gets the stream. -/
theorem inOrder_of_packet (h : Arrives o₀ v r l m out p) (hflows : Flows o₀ v r k tr o)
    (hs : o₀.Settled v r k) (hflight : o.inFlight = l ++ m :: rest)
    (hq : ofStream v m.packet = some q) (hreach : o₀.Reached v r m.target) (hne : m.target ≠ r) :
    InOrder (o₀.Supplies v r) (System.passedOn v r (tr ++ [p]))
      fun x y ↦ streamBetween v x y (l ++ rest ++ out) := by
  have hsome : (ofStream v m.packet).isSome := by
    rw [hq]
    rfl
  obtain ⟨hxy, hnothing, hfirst⟩ :=
    hflows.first_in_channel hflight hq (h.fifo hsome) hreach hne
  have hloop := hflows.inOrder.ne_of_channel hxy hfirst
  have hchannels := channels hflight v out
  apply hflows.inOrder.deliver hxy _ hfirst
  · intro z
    rw [h.passedOn, hq]
    by_cases hz : z = m.target
    · simp [hz, hne]
    · simp [hz]
  · rw [(hchannels m.source m.target).2, hnothing, h.channel_out (.inl hloop)]
    simp
  · intro z hz hzne
    rw [(hchannels m.source z).1, (hchannels m.source z).2, h.channel_out (.inl hloop)]
    simp [Ne.symm hzne]
  · intro z w hzw hzx
    rw [(hchannels z w).1, (hchannels z w).2]
    have hnot : ¬ (m.source = z ∧ m.target = w) := by
      rintro ⟨hz, -⟩
      exact hzx hz.symm
    by_cases hz : z = m.target
    · subst hz
      rw [h.copies w hne hzw, hq]
      simp [hnot]
    · rw [h.channel_out (.inl hz)]
      simp [hnot, hz]
  · intro z hz
    exact hs.single m.source z m.target hxy hz.2.1

private theorem inOrder (h : Arrives o₀ v r l m out p) (hflows : Flows o₀ v r k tr o)
    (hs : o₀.Settled v r k) (hflight : o.inFlight = l ++ m :: rest) :
    InOrder (o₀.Supplies v r) (System.passedOn v r (tr ++ [p]))
      fun x y ↦ streamBetween v x y (l ++ rest ++ out) := by
  cases hq : ofStream v m.packet with
  | none => exact h.inOrder_of_other hflows hflight hq
  | some q =>
    by_cases hreach : o₀.Reached v r m.target ∧ m.target ≠ r
    · exact h.inOrder_of_packet hflows hs hflight hq hreach.1 hreach.2
    · exact h.inOrder_of_astray hflows hflight hreach

end Arrives

namespace Flows

variable {o₀ o o' : Overlay} {v : VideoId} {r : SocketAddr} {k : UInt64}
  {tr : List (Overlay × OverlayEvent)} {l rest : List Message} {m : Message}
  {p : Overlay × OverlayEvent} {e : OverlayEvent} {x y w : SocketAddr}
  {q : VideoPacket} {qs : List VideoPacket}

/-- A message arrives where no node is. -/
theorem inOrder_leaf (h : Flows o₀ v r k tr o) (hs : o₀.Settled v r k)
    (hflight : o.inFlight = l ++ m :: rest)
    (hfifo : (ofStream v m.packet).isSome → ∀ m' ∈ l, m'.source = m.source →
      m'.target = m.target → ofStream v m'.packet = none)
    (hnode : ¬ o.HasNode m.target) (hturn : emittedIn v r p = none)
    (hreceived : ∀ a, receivedIn v a p = if m.target = a then ofStream v m.packet else none) :
    InOrder (o₀.Supplies v r) (passedOn v r (tr ++ [p]))
      fun x y ↦ streamBetween v x y (l ++ rest) := by
  have harrives : Arrives o₀ v r l m [] p := by
    refine ⟨hfifo, ?_, ?_, hturn, hreceived⟩
    · intro m' hm'
      cases hm'
    · intro w hne hw
      exact (hnode (h.hasNode hw hne)).elim
  rw [← List.append_nil (l ++ rest)]
  exact harrives.inOrder h hs hflight

/-- No message arrives, and the stream remains where it is. -/
theorem inOrder_quiet (h : Flows o₀ v r k tr o) (hturn : emittedIn v r p = none)
    (hreceived : ∀ a, receivedIn v a p = none) {ms : List Message}
    (hms : ∀ x y, o₀.Supplies v r x y → streamBetween v x y ms = streamBetween v x y o.inFlight) :
    InOrder (o₀.Supplies v r) (passedOn v r (tr ++ [p])) fun x y ↦ streamBetween v x y ms := by
  apply h.inOrder.congr
  · intro x y _
    rw [passedOn_concat, passedOn_concat, hturn, hreceived, hreceived]
    simp
  · exact hms

/-- A node passes the next packet of the stream on to each of its subscribers. -/
theorem copies_of_packet (h : Flows o₀ v r k tr o) (hs : o₀.Settled v r k) {s view : Node.State}
    {env : Env} (hhost : o.hosts.lookup m.target = some (.node s)) (hview : s.Reorder view)
    (hok : env.AllOk) (hp : m.packet = .videoPacket q) (hv : q.streamId = v)
    (hxy : o₀.Supplies v r x m.target)
    (hfirst : streamBetween v x m.target o.inFlight = q :: qs)
    (hw : w ∈ o₀.subscribersAt v m.target) :
    streamBetween v m.target w
      (outgoing m.target (Event.after ⟨.packet m.packet m.source, env, view⟩).sent) = [q] := by
  have hreach : o₀.Reached v r m.target := hxy.1.tail hxy.2
  have hnumber := h.next_number hxy hfirst
  have hsubscribers : view.subscribers q.streamId = o₀.subscribersAt v m.target := by
    rw [hview.subscribers, hv, ← h.subscribers]
    simp [Overlay.subscribersAt, hhost, Host.subscribers]
  have hexpected : ¬ view.expected q < q.sequenceNumber := by
    rw [State.expected, hv, AList.perm_lookup hview.lastVideoSequenceNumber]
    rcases h.upToDate m.target s hreach hhost with hsome | ⟨hempty, hnone⟩
    · rw [hsome, hnumber, UInt64.ofNat_add, ← UInt64.add_assoc]
      exact UInt64.lt_irrefl _
    · -- the first packet at a node that was just started
      rw [hempty] at hnumber
      have hnumber : q.sequenceNumber = k + 1 := hnumber
      rw [hnone, hnumber]
      exact UInt64.lt_asymm hs.bounded
  have hsome : view.subscribers q.streamId ≠ [] := by
    rw [hsubscribers]
    exact List.ne_nil_of_mem hw
  rw [hp]
  have hsent := ((Event.forwards_iff (e := ⟨.packet (.videoPacket q) m.source, env, view⟩) rfl
    hsome).mpr hexpected).2 hok
  rw [streamBetween_outgoing, if_pos rfl, hsent, hsubscribers, List.filterMap_map]
  have hcopies := copies_of_nodup (hs.nodup m.target hreach) q w
  rw [if_pos hw] at hcopies
  simpa [Function.comp_def, ofStream, hv] using hcopies

/-- The server takes a turn. -/
theorem inOrder_turn (h : Flows o₀ v r k tr o) (hs : o₀.Settled v r k) {s : Server.State}
    {e : Server.Event} {sendResult : Nat → Except ReliableUdpSocketError Unit}
    (hserver : o.hosts.lookup r = some (.server s)) (hok : (Server.Input.event e sendResult).AllOk)
    (hnew : ¬ (Server.Input.event e sendResult).Enters v) :
    InOrder (o₀.Supplies v r) (passedOn v r (tr ++ [(o, .server r e sendResult)]))
      fun x y ↦ streamBetween v x y (o.inFlight ++ outgoing r (e.run sendResult s).2) := by
  obtain ⟨s₀, video, hs₀, hvideo, -⟩ := h.server
  obtain rfl : s = s₀ := by
    rw [hserver] at hs₀
    exact Host.server.inj (Option.some.inj hs₀)
  obtain ⟨video', -, hturned⟩ := exists_turned hvideo hok hnew
  have hemitted : emittedIn v r (o, .server r e sendResult) =
      broadcasted v (s, .event e sendResult) := by
    simp [emittedIn, turnIn, hserver]
  have hchannel (x y : SocketAddr) :
      streamBetween v x y (o.inFlight ++ outgoing r (e.run sendResult s).2) =
        streamBetween v x y o.inFlight ++
          if r = x then packetsTo v y (s, .event e sendResult) else [] := by
    rw [streamBetween_append, streamBetween_outgoing]
    rfl
  have hsubscribers : o₀.subscribersAt v r = video.interested := by
    rw [← h.subscribers]
    simp [Overlay.subscribersAt, hserver, Host.subscribers, Server.State.subscribers, hvideo]
  have hcopies {y : SocketAddr} (hy : o₀.Supplies v r r y) :
      packetsTo v y (s, .event e sendResult) =
        (broadcasted v (s, .event e sendResult)).toList := by
    have hnodup := hs.nodup r .refl
    rw [hsubscribers] at hnodup
    rw [hturned.copies hnodup, if_pos]
    rw [← hsubscribers]
    exact hy.2.1
  cases hq : broadcasted v (s, .event e sendResult) with
  | none =>
    apply h.inOrder_quiet (hemitted.trans hq) fun _ ↦ rfl
    intro x y hxy
    rw [hchannel]
    split
    · next hx =>
      subst hx
      rw [hcopies hxy, hq]
      exact List.append_nil _
    · exact List.append_nil _
  | some q =>
    apply h.inOrder.emit (x := r)
    · exact fun y hy ↦ hy.2.2.1 rfl
    · intro y
      rw [passedOn_concat, hemitted, hq]
      split
      · rfl
      · exact List.append_nil _
    · intro y z hyz
      rw [hchannel]
      by_cases hy : y = r
      · subst hy
        rw [if_pos rfl, if_pos rfl, hcopies hyz, hq]
        rfl
      · rw [if_neg (Ne.symm hy), if_neg hy, List.append_nil]

/-- Where a step leaves the stream. -/
theorem inOrder_step (h : Flows o₀ v r k tr o) (hs : o₀.Settled v r k) (hstep : o.Step e o')
    (hsteady : o.Steady v r e) :
    InOrder (o₀.Supplies v r) (passedOn v r (tr ++ [(o, e)])) fun x y ↦
      streamBetween v x y o'.inFlight := by
  obtain ⟨server, video, hserver, hvideo, -⟩ := h.server
  have hplan := hsteady.2
  cases hstep.transition with
  | @deliverNode l rest m env s view hflight hhost hview =>
    have hm : o.inFlight[l.length]? = some m := by simp [hflight]
    have htake : o.inFlight.take l.length = l := by simp [hflight]
    have hne : m.target ≠ r := by
      intro heq
      rw [heq, hserver] at hhost
      cases hhost
    have hplan := hplan m hm
    rw [htake] at hplan
    have hfifo (hq : (ofStream v m.packet).isSome) := (hplan hq).2
    apply Arrives.inOrder _ h hs hflight
    constructor
    · exact hfifo
    · intro m' hm' _
      obtain ⟨p, -, rfl⟩ := List.mem_map.mp hm'
      exact ⟨rfl, hne⟩
    · intro w _ hw
      cases hq : ofStream v m.packet with
      | none =>
        apply streamBetween_eq_nil
        intro m' hm' hq'
        obtain ⟨p, hp, rfl⟩ := List.mem_map.mp hm'
        obtain ⟨q', hq'⟩ := Option.isSome_iff_exists.mp hq'
        obtain ⟨addr, haddr⟩ := input_of_sent hp hq'
        rw [(Node.Input.packet.inj haddr).1] at hq
        cases hq.symm.trans hq'
      | some q =>
        have hsome : (ofStream v m.packet).isSome := by
          rw [hq]
          rfl
        obtain ⟨hxy, -, hfirst⟩ := h.first_in_channel hflight hq (hfifo hsome) hw.1 hne
        obtain ⟨hp, hv⟩ := ofStream_eq_some.mp hq
        exact h.copies_of_packet hs hhost hview (hplan hsome).1 hp hv hxy hfirst hw.2.1
    · rfl
    · intro a
      simp [receivedIn, hm]
  | @deliverServer l rest m env s view hflight hhost =>
    have hm : o.inFlight[l.length]? = some m := by simp [hflight]
    have hplan := hplan m hm
    rw [hflight, List.take_left] at hplan
    rw [Overlay.update_inFlight, outgoing, List.map_nil, List.append_nil]
    apply h.inOrder_leaf hs hflight (fun hq ↦ (hplan hq).2) _ rfl
    · intro a
      simp [receivedIn, hm]
    · rintro ⟨s', hs'⟩
      cases hhost.symm.trans hs'
  | @deliverNone l rest m env view hflight hhost =>
    have hm : o.inFlight[l.length]? = some m := by simp [hflight]
    have hplan := hplan m hm
    rw [hflight, List.take_left] at hplan
    apply h.inOrder_leaf hs hflight (fun hq ↦ (hplan hq).2) _ rfl
    · intro a
      simp [receivedIn, hm]
    · rintro ⟨s', hs'⟩
      cases hhost.symm.trans hs'
  | @lose l rest m hflight =>
    have hq := hplan m (by simp [hflight])
    apply h.inOrder_quiet rfl fun _ ↦ rfl
    intro x y _
    rw [hflight, streamBetween_append, streamBetween_append, streamBetween_cons, hq]
    simp
  | @duplicate l rest m hflight =>
    have hq := hplan m (by simp [hflight])
    apply h.inOrder_quiet rfl fun _ ↦ rfl
    intro x y _
    rw [streamBetween_append, streamBetween_cons, hq]
    simp [streamBetween]
  | @client m _ =>
    have hq : ofStream v m.packet = none := hplan
    apply h.inOrder_quiet rfl fun _ ↦ rfl
    intro x y _
    rw [streamBetween_append, streamBetween_cons, hq]
    simp [streamBetween]
  | stop => exact h.inOrder_quiet rfl (fun _ ↦ rfl) fun _ _ _ ↦ rfl
  | @node addr e s hhost hview hpacket =>
    apply h.inOrder_quiet rfl fun _ ↦ rfl
    intro x y _
    have hnone : streamBetween v x y (outgoing addr e.after.sent) = [] := by
      apply streamBetween_eq_nil
      intro m hm hq
      obtain ⟨p, hp, rfl⟩ := List.mem_map.mp hm
      obtain ⟨q, hq⟩ := Option.isSome_iff_exists.mp hq
      obtain ⟨b, hb⟩ := input_of_sent hp hq
      rw [hb] at hpacket
      cases hpacket
    rw [Overlay.update_inFlight, streamBetween_append, hnone, List.append_nil]
  | @server addr e s sendResult hhost =>
    by_cases haddr : addr = r
    · subst haddr
      obtain ⟨hok, hnew⟩ := hplan rfl
      exact h.inOrder_turn hs hhost hok hnew
    · have hturn : turnIn r (o, .server addr e sendResult) = none := by
        simp [turnIn, hhost, haddr]
      apply h.inOrder_quiet (congrArg (Option.bind · _) hturn) fun _ ↦ rfl
      intro x y hxy
      have hx : addr ≠ x := by
        rintro rfl
        obtain ⟨s', hs'⟩ := h.hasNode hxy haddr
        cases hhost.symm.trans hs'
      rw [Overlay.update_inFlight, streamBetween_append, streamBetween_outgoing, if_neg hx,
        List.append_nil]

/-- A node that gets the stream remembers the number of the last packet. -/
theorem upToDate_step (h : Flows o₀ v r k tr o) (hstep : o.Step e o')
    (hsteady : o.Steady v r e) {s : Node.State} (hreach : o₀.Reached v r x)
    (hx : o'.hosts.lookup x = some (.node s)) :
    s.lastVideoSequenceNumber.lookup v =
        some (k + .ofNat (received v x (tr ++ [(o, e)])).length) ∨
      received v x (tr ++ [(o, e)]) = [] ∧ s.lastVideoSequenceNumber.lookup v = none := by
  obtain ⟨server, video, hserver, -⟩ := h.server
  have hplan := hsteady.2
  rw [received_concat]
  -- nothing arrives at `x`
  have hsame {s₀ : Node.State} (h₀ : o.hosts.lookup x = some (.node s₀))
      (hlast : s.lastVideoSequenceNumber.lookup v = s₀.lastVideoSequenceNumber.lookup v)
      (hreceived : receivedIn v x (o, e) = none) :
      s.lastVideoSequenceNumber.lookup v =
          some (k + .ofNat (received v x tr ++ (receivedIn v x (o, e)).toList).length) ∨
        received v x tr ++ (receivedIn v x (o, e)).toList = [] ∧
          s.lastVideoSequenceNumber.lookup v = none := by
    rw [hreceived, Option.toList_none, List.append_nil, hlast]
    exact h.upToDate x s₀ hreach h₀
  -- a packet arrives somewhere else
  have helsewhere {l rest : List Message} {m : Message} {env : Env} {view : Node.State}
      (hflight : o.inFlight = l ++ m :: rest) (hne : m.target ≠ x) :
      receivedIn v x (o, .deliver l.length env view) = none := by
    simp [receivedIn, hflight, hne]
  cases hstep.transition with
  | @deliverNode l rest m env s₀ view hflight hhost hview =>
    rw [Overlay.update_lookup] at hx
    split at hx
    · next heq =>
      subst heq
      rw [hhost, Option.map_some, Option.some.injEq, Host.node.injEq] at hx
      have hlast := Event.lastSequenceNumber_after ⟨.packet m.packet m.source, env, view⟩ v
      rw [hx, received_packet, AList.perm_lookup hview.lastVideoSequenceNumber] at hlast
      have hreceived : receivedIn v m.target (o, .deliver l.length env view) =
          ofStream v m.packet := by
        simp [receivedIn, hflight]
      cases hq : ofStream v m.packet with
      | none =>
        rw [hq] at hlast hreceived
        exact hsame hhost hlast hreceived
      | some q =>
        have hplan := hplan m (by simp [hflight])
        rw [hflight, List.take_left, hq] at hplan
        have hne : m.target ≠ r := by
          intro heq
          rw [heq, hserver] at hhost
          cases hhost
        obtain ⟨hxy, -, hfirst⟩ := h.first_in_channel hflight hq (hplan rfl).2 hreach hne
        apply Or.inl
        rw [hlast, hreceived, hq, Option.toList_some, List.length_append]
        exact congrArg some (h.next_number hxy hfirst)
    · next hne => exact hsame hx rfl (helsewhere hflight (Ne.symm hne))
  | deliverServer hflight hhost =>
    have hx := Overlay.node_of_update_server hx
    apply hsame hx rfl (helsewhere hflight _)
    rintro rfl
    cases hhost.symm.trans hx
  | deliverNone hflight hhost =>
    apply hsame hx rfl (helsewhere hflight _)
    rintro rfl
    cases hhost.symm.trans hx
  | lose | duplicate | client => exact hsame hx rfl rfl
  | stop => exact hsame (Map.lookup_of_erase hx) rfl rfl
  | @node a e s₀ hhost hview hpacket =>
    rw [Overlay.update_lookup] at hx
    split at hx
    · next heq =>
      subst heq
      rw [hhost, Option.map_some, Option.some.injEq, Host.node.injEq] at hx
      apply hsame hhost _ rfl
      have hvideo : e.input.videoPacket? = none := by
        unfold Input.videoPacket?
        split
        · next hin =>
          rw [hin] at hpacket
          cases hpacket
        · rfl
      rw [← hx, (Event.after_of_no_videoPacket hvideo).1,
        AList.perm_lookup hview.lastVideoSequenceNumber]
    · exact hsame hx rfl rfl
  | server hhost => exact hsame (Overlay.node_of_update_server hx) rfl rfl

private theorem step (h : Flows o₀ v r k tr o) (hs : o₀.Settled v r k) (hstep : o.Step e o')
    (hsteady : o.Steady v r e) : Flows o₀ v r k (tr ++ [(o, e)]) o' := by
  have hsubscribers (a : SocketAddr) : o'.subscribersAt v a = o₀.subscribersAt v a := by
    rw [hstep.2, hsteady.1, h.subscribers]
  obtain ⟨s, video, hserver, hvideo, hnumber⟩ := h.server
  obtain ⟨s', video', hserver', hvideo', hentry⟩ := hstep.entry hsteady hserver hvideo
  constructor
  · exact hsubscribers
  · intro a ha
    rw [← hsubscribers] at ha
    rw [hstep.hasNode ha]
    exact h.nodes a (hsubscribers a ▸ ha)
  · refine ⟨s', video', hserver', hvideo', ?_⟩
    rw [hentry.number, broadcasts_concat]
    cases hq : emittedIn v r (o, e) with
    | none => simp [hnumber]
    | some q => simp [hentry.next q hq, hnumber, UInt64.ofNat_add, UInt64.add_assoc]
  · intro i q hi
    rw [broadcasts_concat] at hi
    rcases getElem?_append_toList hi with hi | ⟨rfl, hq⟩
    · exact h.numbered i q hi
    · rw [hentry.next q hq, hnumber, UInt64.ofNat_add, UInt64.add_assoc]
      rfl
  · intro hsome
    have hinterested : video.interested ≠ [] := by
      rw [← h.subscribers] at hsome
      simpa [Overlay.subscribersAt, hserver, Host.subscribers, Server.State.subscribers, hvideo]
        using hsome
    rw [broadcasts_concat, serverTurns_concat, List.map_append, List.filterMap_append,
      h.chunks hsome, ← Option.toList_map, hentry.chunk hinterested]
    cases turnIn r (o, e) with
    | none => rfl
    | some turn =>
      cases hc : turn.2.chunk v with
      | none => simp [hc]
      | some data => simp [hc]
  · exact h.inOrder_step hs hstep hsteady
  · intro m hm hq x hx
    have houtside (m' : Message) (he : e = .client m') : ofStream v m'.packet = none := by
      subst he
      exact hsteady.2
    rcases hstep.new_to_subscriber houtside hm hq with hm | hm
    · exact h.sources m hm hq x hx
    · rw [h.subscribers] at hm
      exact hs.single x m.source m.target hx hm
  · exact fun x s hreach hx ↦ h.upToDate_step hstep hsteady hreach hx

private theorem run (hs : o₀.Settled v r k) (hrun : Run Overlay.Step o₀ tr o)
    (hsteady : ∀ p ∈ tr, p.1.Steady v r p.2) : Flows o₀ v r k tr o := by
  induction hrun with
  | refl => exact start hs
  | @tail o o' tr e _ he ih =>
    rw [List.forall_mem_append, List.forall_mem_singleton] at hsteady
    exact (ih hsteady.1).step hs he hsteady.2

end Flows

section Runs

variable {o₀ o : Overlay} {v : VideoId} {r a : SocketAddr} {k : UInt64}
  {tr : List (Overlay × OverlayEvent)}

/-- To all that the stream comes to come the first of the packets that the server broadcasts. -/
theorem received_isPrefix (hs : o₀.Settled v r k) (ha : o₀.Reached v r a) (hne : a ≠ r)
    (hrun : Run Overlay.Step o₀ tr o) (hsteady : ∀ p ∈ tr, p.1.Steady v r p.2) :
    received v a tr <+: broadcasts v (serverTurns r tr) := by
  have h := Flows.run hs hrun hsteady
  have hserver : passedOn v r tr r = broadcasts v (serverTurns r tr) := if_pos rfl
  have hreceived : passedOn v r tr a = received v a tr := if_neg hne
  rw [← hserver, ← hreceived]
  exact h.inOrder.isPrefix ha.path

/-- Where a stream comes to at all, the server broadcasts the data of the child process. -/
theorem broadcast_chunks (hs : o₀.Settled v r k) (ha : o₀.Reached v r a) (hne : a ≠ r)
    (hrun : Run Overlay.Step o₀ tr o) (hsteady : ∀ p ∈ tr, p.1.Steady v r p.2) :
    (broadcasts v (serverTurns r tr)).map VideoPacket.streamData =
      (serverTurns r tr).filterMap fun p ↦ p.2.chunk v := by
  apply (Flows.run hs hrun hsteady).chunks
  rcases Relation.ReflTransGen.cases_head ha with heq | ⟨b, hb, -⟩
  · exact (hne heq.symm).elim
  · exact List.ne_nil_of_mem hb.1

/-- Once no packet of the stream is in flight all have come. -/
theorem received_of_idle (hs : o₀.Settled v r k) (ha : o₀.Reached v r a) (hne : a ≠ r)
    (hrun : Run Overlay.Step o₀ tr o) (hsteady : ∀ p ∈ tr, p.1.Steady v r p.2)
    (hidle : ∀ m ∈ o.inFlight, ofStream v m.packet = none) :
    received v a tr = broadcasts v (serverTurns r tr) := by
  have h := Flows.run hs hrun hsteady
  have hserver : passedOn v r tr r = broadcasts v (serverTurns r tr) := if_pos rfl
  have hreceived : passedOn v r tr a = received v a tr := if_neg hne
  rw [← hserver, ← hreceived]
  apply h.inOrder.eq_of_drained _ ha.path
  intro x y _
  apply streamBetween_eq_nil
  intro m hm hq
  rw [hidle m hm] at hq
  cases hq

/-- To all that the stream comes to come the first of the packets that the server broadcasts, with
consecutive numbers and the data of the child process, and once none is in flight all of them. -/
theorem streams_arrive (hs : o₀.Settled v r k) (ha : o₀.Reached v r a) (hne : a ≠ r)
    (hrun : Run Overlay.Step o₀ tr o) (hsteady : ∀ p ∈ tr, p.1.Steady v r p.2) :
    received v a tr <+: broadcasts v (serverTurns r tr) ∧
    (received v a tr).map VideoPacket.streamData <+:
      (serverTurns r tr).filterMap (fun p ↦ p.2.chunk v) ∧
    (∀ i q, (received v a tr)[i]? = some q → q.sequenceNumber = k + .ofNat (i + 1)) ∧
    ((∀ m ∈ o.inFlight, ofStream v m.packet = none) →
      (received v a tr).map VideoPacket.streamData =
        (serverTurns r tr).filterMap fun p ↦ p.2.chunk v) := by
  have hfirst := received_isPrefix hs ha hne hrun hsteady
  have hchunks := broadcast_chunks hs ha hne hrun hsteady
  refine ⟨hfirst, ?_, ?_, ?_⟩
  · rw [← hchunks]
    exact hfirst.map _
  · intro i q hq
    obtain ⟨hlt, heq⟩ := List.getElem?_eq_some_iff.mp hq
    apply (Flows.run hs hrun hsteady).numbered i q
    rw [List.prefix_iff_getElem?.mp hfirst i hlt, heq]
  · intro hidle
    rw [← hchunks, received_of_idle hs ha hne hrun hsteady hidle]

/-- The number of the last packet of the stream at a node. -/
def Host.lastNumber (h : Host) (v : VideoId) : Option UInt64 :=
  match h with
  | .server _ => none
  | .node s => s.lastVideoSequenceNumber.lookup v

namespace Overlay

/-- A step changes no subscribers where it changes none of those that there are hosts for. -/
theorem subscribersAt_of_entries {e : OverlayEvent} (hstep : o.Step e (o.next e))
    (h : ∀ p ∈ o.hosts.entries, (o.next e).subscribersAt v p.1 = o.subscribersAt v p.1)
    (a : SocketAddr) : (o.next e).subscribersAt v a = o.subscribersAt v a := by
  cases ha : o.hosts.lookup a with
  | some host => exact h ⟨a, host⟩ (Map.mem_entries_iff.mpr ha)
  | none =>
    have hnone : (o.next e).subscribersAt v a = [] := by
      by_contra hsome
      obtain ⟨host, hhost⟩ := exists_host hsome
      obtain ⟨host₀, hhost₀, -⟩ := hstep.kind hhost
      cases ha.symm.trans hhost₀
    rw [hnone, subscribersAt, ha]
    rfl

/-- Subscriber lists without repetitions. -/
theorem nodup_of_entries (h : ∀ p ∈ o.hosts.entries, (p.2.subscribers v).Nodup) (x : SocketAddr) :
    (o.subscribersAt v x).Nodup := by
  by_cases hx : o.subscribersAt v x = []
  · rw [hx]
    exact List.nodup_nil
  · obtain ⟨k, hk⟩ := exists_host hx
    simp only [subscribersAt, hk, Option.map_some, Option.getD_some]
    exact h ⟨x, k⟩ (Map.mem_entries_iff.mpr hk)

/-- A state in which the hosts have no subscribers in common and no node heard of the stream. -/
theorem settled_of_entries {s : Server.State} {video : Video}
    (hserver : o.hosts.lookup r = some (.server s)) (hvideo : s.videos.lookup v = some video)
    (hbounded : video.sequenceNumber + 1 < video.sequenceNumber + 1 + 1) (hidle : o.inFlight = [])
    (hnodup : ∀ p ∈ o.hosts.entries, (p.2.subscribers v).Nodup)
    (hsingle : ∀ p ∈ o.hosts.entries, ∀ p' ∈ o.hosts.entries, ∀ z ∈ p.2.subscribers v,
      z ∈ p'.2.subscribers v → p'.1 = p.1)
    (hnew : ∀ p ∈ o.hosts.entries, p.2.lastNumber v = none) :
    o.Settled v r video.sequenceNumber where
  server := ⟨s, video, hserver, hvideo, rfl⟩
  bounded := hbounded
  idle := by
    rw [hidle]
    exact fun m hm ↦ nomatch hm
  single := by
    intro x y z hxz hz
    obtain ⟨h, hh⟩ := exists_host (List.ne_nil_of_mem hxz.2.1)
    obtain ⟨h', hh'⟩ := exists_host (List.ne_nil_of_mem hz)
    have hx := hxz.2.1
    simp only [subscribersAt, hh, hh', Option.map_some, Option.getD_some] at hx hz
    exact hsingle ⟨x, h⟩ (Map.mem_entries_iff.mpr hh) ⟨y, h'⟩ (Map.mem_entries_iff.mpr hh') z hx hz
  nodup x _ := nodup_of_entries hnodup x
  upToDate := by
    intro x s _ hs
    exact .inr (hnew ⟨x, .node s⟩ (Map.mem_entries_iff.mpr hs))

/-- The oldest packet that arrives, and data of the child process, are steady. -/
theorem steady_of_entries {e : OverlayEvent} (hstep : o.Step e (o.next e))
    (he : (∃ view, e = .deliver 0 (.calm 0) view) ∨
      ∃ data, e = .server r (.streamVideo v data) fun _ ↦ .ok ())
    (hsame : ∀ p ∈ o.hosts.entries, (o.next e).subscribersAt v p.1 = o.subscribersAt v p.1) :
    o.Steady v r e := by
  refine ⟨subscribersAt_of_entries hstep hsame, ?_⟩
  rcases he with ⟨view, rfl⟩ | ⟨data, rfl⟩
  · intro m _ _
    exact ⟨Env.calm_allOk 0, fun m' hm' ↦ nomatch hm'⟩
  · exact fun _ ↦ ⟨fun _ ↦ rfl, id⟩

/-- Packets that arrive one after the other, and data of the child process, are steady. -/
theorem steady_play {es : List OverlayEvent}
    (hes : ∀ e ∈ es, e = deliverNext ∨
      ∃ data, e = .server r (.streamVideo v data) fun _ ↦ .ok ())
    (hsame : ∀ p ∈ (o.play es).1, ∀ q ∈ p.1.hosts.entries,
      (p.1.next p.2).subscribersAt v q.1 = p.1.subscribersAt v q.1) :
    ∀ p ∈ (o.play es).1, p.1.Steady v r p.2 := by
  intro p hp
  obtain ⟨e, he, hsettle⟩ := mem_play hp
  obtain ⟨l, l', hl, -⟩ := (run_play o es).exists_split hp
  obtain ⟨-, u, hstep, -⟩ := Run.split (hl ▸ run_play o es)
  obtain rfl : u = p.1.next p.2 := hstep.2
  refine steady_of_entries hstep ?_ (hsame p hp)
  rw [hsettle]
  rcases hes e he with rfl | hdata
  · exact .inl ⟨_, rfl⟩
  · obtain ⟨data, rfl⟩ := hdata
    exact .inr ⟨data, rfl⟩

end Overlay

/-- A server next to a node that has another node as its neighbour. -/
def chain : Overlay where
  hosts :=
    AList.insert (hostAddr 9) (.server ((Server.State.new 9 [hostAddr 1]).addVideo 5 "")) <|
    AList.insert (hostAddr 1) (.node (.new 1 [.v4 2] (hostAddr 1))) <|
    AList.insert (hostAddr 2) (.node (.new 2 [.v4 1] (hostAddr 2))) ∅
  inFlight := []

/-- A client asks the second node for the video, and another one the first node. -/
def watchedChain : Overlay :=
  (chain.play ([.server (hostAddr 9) (.flood 0) fun _ ↦ .ok ()] ++ List.replicate 3 deliverNext ++
    [.client ⟨hostAddr 7, hostAddr 2, .serverPacket (.requestVideo 5)⟩,
     .client ⟨hostAddr 8, hostAddr 1, .serverPacket (.requestVideo 5)⟩] ++
      List.replicate 4 deliverNext)).2

/-- Two chunks of the video on their way through the chain. -/
def chainRun : List (Overlay × OverlayEvent) × Overlay :=
  watchedChain.play ([.server (hostAddr 9) (.streamVideo 5 [10]) fun _ ↦ .ok (), deliverNext,
    .server (hostAddr 9) (.streamVideo 5 [11]) fun _ ↦ .ok ()] ++ List.replicate 7 deliverNext)

/-- The stream has come everywhere along the chain. -/
theorem watchedChain_settled : watchedChain.Settled 5 (hostAddr 9) 0 := by
  let server : Server.State := ((Server.State.new 9 [hostAddr 1]).addVideo 5 "").handlePacket
    (.serverPacket (.requestVideo 5)) (hostAddr 1)
  have hserver : watchedChain.hosts.lookup (hostAddr 9) = some (.server server) := rfl
  have hvideo : server.videos.lookup 5 = some ⟨"", [hostAddr 1], 0⟩ := rfl
  exact Overlay.settled_of_entries hserver hvideo (by decide) (by decide +kernel)
    (by decide +kernel) (by decide +kernel) (by decide +kernel)

/-- It comes to the first client. -/
theorem watchedChain_reached : watchedChain.Reached 5 (hostAddr 9) (hostAddr 7) := by
  have hnode {a : SocketAddr} (ha : (watchedChain.hosts.lookup a).any Host.isNode) :
      watchedChain.HasNode a := ⟨_, Overlay.nodeAt_eq ha noNode⟩
  apply Relation.ReflTransGen.tail (b := hostAddr 2)
  · apply Relation.ReflTransGen.tail (b := hostAddr 1)
    · exact .single ⟨by decide +kernel, by decide, .inl rfl⟩
    · exact ⟨by decide +kernel, by decide, .inr (hnode (by decide +kernel))⟩
  · exact ⟨by decide +kernel, by decide, .inr (hnode (by decide +kernel))⟩

/-- The client received both chunks. -/
theorem streams_arrive_chain :
    (received 5 (hostAddr 7) chainRun.1).map VideoPacket.streamData = [[10], [11]] := by
  have hrun : Run Overlay.Step watchedChain chainRun.1 chainRun.2 := Overlay.run_play _ _
  have hsteady : ∀ p ∈ chainRun.1, p.1.Steady 5 (hostAddr 9) p.2 := by
    apply Overlay.steady_play
    · simp
    · decide +kernel
  have h := streams_arrive watchedChain_settled watchedChain_reached (by decide) hrun hsteady
  rw [h.2.2.2 (by decide +kernel)]
  decide +kernel

end Runs
end PessiStreamer.System
