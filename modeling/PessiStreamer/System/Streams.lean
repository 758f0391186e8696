import Mathlib.Logic.Relation
import PessiStreamer.Node.Forwarding
import PessiStreamer.Node.Sent
import PessiStreamer.Server.Subscriptions
import PessiStreamer.System.Overlay

/-!
# A stream on its way through the network

A server broadcasts the packets of a stream to its subscribers, and the nodes among them pass them
on to theirs. What a step of the network does to the packets of a stream that are on their way, to
the subscribers, and to the entry of the video at the server.
-/

namespace PessiStreamer.System
open Base Common Node Server

namespace Overlay

/-- The subscribers of a video at an address. -/
def subscribersAt (o : Overlay) (v : VideoId) (a : SocketAddr) : List SocketAddr :=
  ((o.hosts.lookup a).map fun h ↦ h.subscribers v).getD []

/-- `x` sends the packets of the stream to `y`: the server at `r`, which streams it, or a node. -/
def Feeds (o : Overlay) (v : VideoId) (r x y : SocketAddr) : Prop :=
  y ∈ o.subscribersAt v x ∧ y ≠ r ∧ (x = r ∨ o.HasNode x)

/-- The packets of the stream come to the address from the server at `r`. -/
abbrev Reached (o : Overlay) (v : VideoId) (r a : SocketAddr) : Prop :=
  Relation.ReflTransGen (o.Feeds v r) r a

/-- `x` sends the packets of the stream that come to it from `r` to `y`. -/
def Supplies (o : Overlay) (v : VideoId) (r x y : SocketAddr) : Prop :=
  o.Reached v r x ∧ o.Feeds v r x y

/-- The state in which the stream has come everywhere as far as it was broadcast, and nobody who
gets it gets it twice. -/
structure Settled (o : Overlay) (v : VideoId) (r : SocketAddr) (k : UInt64) : Prop where
  server : ∃ s video, o.hosts.lookup r = some (.server s) ∧ s.videos.lookup v = some video ∧
    video.sequenceNumber = k
  bounded : k + 1 < k + 1 + 1
  idle : ∀ m ∈ o.inFlight, ofStream v m.packet = none
  single : ∀ x y z, o.Supplies v r x z → z ∈ o.subscribersAt v y → y = x
  nodup : ∀ x, o.Reached v r x → (o.subscribersAt v x).Nodup
  upToDate : ∀ x s, o.Reached v r x → o.hosts.lookup x = some (.node s) →
    s.lastVideoSequenceNumber.lookup v = some k ∨ s.lastVideoSequenceNumber.lookup v = none

/-- A step that leaves the subscribers of the video alone and loses, repeats and reorders none of
its packets. -/
def Steady (o : Overlay) (v : VideoId) (r : SocketAddr) (e : OverlayEvent) : Prop :=
  (∀ a, (o.next e).subscribersAt v a = o.subscribersAt v a) ∧
    match e with
    | .deliver index env _ => ∀ m, o.inFlight[index]? = some m → (ofStream v m.packet).isSome →
        env.AllOk ∧ ∀ m' ∈ o.inFlight.take index, m'.source = m.source → m'.target = m.target →
          ofStream v m'.packet = none
    | .lose index | .duplicate index =>
      ∀ m, o.inFlight[index]? = some m → ofStream v m.packet = none
    | .server addr e sendResult =>
      addr = r → (Server.Input.event e sendResult).AllOk ∧
        ¬ (Server.Input.event e sendResult).Enters v
    | .client m => ofStream v m.packet = none
    | .node _ _ => True
    | .stop addr => addr ≠ r

end Overlay

/-- The packet of the stream that arrives at an address in a step. -/
def receivedIn (v : VideoId) (a : SocketAddr) (p : Overlay × OverlayEvent) : Option VideoPacket :=
  match p.2 with
  | .deliver index _ _ => (p.1.inFlight[index]?).bind fun m ↦
      if m.target = a then ofStream v m.packet else none
  | _ => none

/-- The packets of the stream that arrive at an address, oldest first. -/
def received (v : VideoId) (a : SocketAddr) (tr : List (Overlay × OverlayEvent)) :
    List VideoPacket := tr.filterMap (receivedIn v a)

/-- The turn of the server at `r` that a step is. -/
def turnIn (r : SocketAddr) (p : Overlay × OverlayEvent) : Option (Server.State × Server.Input) :=
  match p.2 with
  | .server addr e sendResult =>
    match p.1.hosts.lookup addr with
    | some (.server s) => if addr = r then some (s, .event e sendResult) else none
    | _ => none
  | _ => none

/-- The turns of the server at `r`, oldest first. -/
def serverTurns (r : SocketAddr) (tr : List (Overlay × OverlayEvent)) :
    List (Server.State × Server.Input) := tr.filterMap (turnIn r)

/-- The packets of the stream on their way from one address to another, oldest first. -/
def streamBetween (v : VideoId) (x y : SocketAddr) (ms : List Message) : List VideoPacket :=
  ms.filterMap fun m ↦ if m.source = x ∧ m.target = y then ofStream v m.packet else none

/-- What came to an address and went on from there: at `r` the packets that the server broadcast. -/
def passedOn (v : VideoId) (r : SocketAddr) (tr : List (Overlay × OverlayEvent)) (a : SocketAddr) :
    List VideoPacket :=
  if a = r then broadcasts v (serverTurns r tr) else received v a tr

/-- An entry of a list with at most one more. -/
theorem getElem?_append_toList {α : Type} {l : List α} {o : Option α} {i : Nat} {x : α}
    (h : (l ++ o.toList)[i]? = some x) : l[i]? = some x ∨ i = l.length ∧ o = some x := by
  rw [List.getElem?_append] at h
  split at h
  · exact .inl h
  · cases o with
    | none => cases h
    | some y =>
      obtain ⟨hlt, rfl⟩ := List.getElem?_eq_some_iff.mp h
      simp only [Option.toList_some, List.length_singleton] at hlt
      exact .inr ⟨by omega, by simp⟩

section Between

variable {v : VideoId} {x y a : SocketAddr} {ms ms' : List Message} {m : Message} {q : VideoPacket}

/-- Only its video packets are of the stream. -/
theorem ofStream_eq_some {p : Packet} :
    ofStream v p = some q ↔ p = .videoPacket q ∧ q.streamId = v := by
  constructor
  · intro h
    unfold ofStream at h
    split at h
    · split at h
      · next hv =>
        cases h
        exact ⟨rfl, hv⟩
      · cases h
    · cases h
  · rintro ⟨rfl, hv⟩
    exact if_pos hv

/-- The number under which a node receives a packet. -/
theorem received_packet (v : VideoId) (p : Packet) (b : SocketAddr) (env : Env)
    (view : Node.State) : (⟨.packet p b, env, view⟩ : Node.Event).received v =
      (ofStream v p).map VideoPacket.sequenceNumber := by
  cases p with
  | videoPacket q =>
    by_cases hv : q.streamId = v
    · simp [Event.received, Input.videoPacket?, ofStream, hv]
    · simp [Event.received, Input.videoPacket?, ofStream, hv]
  | nodePacket | serverPacket | clientPacket => rfl

/-- A node sends the packet of a stream that its input brings, and no other one. -/
theorem input_of_sent {e : Node.Event} {p : SocketAddr × Packet} (hp : p ∈ e.after.sent)
    (hq : ofStream v p.2 = some q) : ∃ addr, e.input = .packet p.2 addr := by
  obtain ⟨b, p⟩ := p
  obtain ⟨rfl, -⟩ := ofStream_eq_some.mp hq
  exact Event.videoPacket_of_sent hp

/-- The packets of two lists of messages. -/
theorem streamBetween_append (v : VideoId) (x y : SocketAddr) (ms ms' : List Message) :
    streamBetween v x y (ms ++ ms') = streamBetween v x y ms ++ streamBetween v x y ms' :=
  List.filterMap_append

/-- The packets of one message more. -/
theorem streamBetween_cons (v : VideoId) (x y : SocketAddr) (m : Message) (ms : List Message) :
    streamBetween v x y (m :: ms) =
      (if m.source = x ∧ m.target = y then (ofStream v m.packet).toList else []) ++
        streamBetween v x y ms := by
  unfold streamBetween
  rw [List.filterMap_cons]
  by_cases hxy : m.source = x ∧ m.target = y
  · cases hq : ofStream v m.packet with
    | none => simp [hxy]
    | some q => simp [hxy]
  · simp [hxy]

/-- Other packets, and packets between others, do not matter. -/
theorem streamBetween_eq_nil (h : ∀ m ∈ ms, (ofStream v m.packet).isSome →
    m.source = x → m.target ≠ y) : streamBetween v x y ms = [] := by
  apply List.filterMap_eq_nil_iff.mpr
  intro m hm
  cases hq : ofStream v m.packet with
  | none => exact ite_self none
  | some q => exact if_neg fun hxy ↦ h m hm (by rw [hq]; rfl) hxy.1 hxy.2

/-- What a host sends to a place. -/
theorem streamBetween_outgoing (v : VideoId) (x y a : SocketAddr)
    (sent : List (SocketAddr × Packet)) : streamBetween v x y (outgoing a sent) =
      if a = x then sent.filterMap fun p ↦ if p.1 = y then ofStream v p.2 else none else [] := by
  unfold streamBetween outgoing
  rw [List.filterMap_map]
  by_cases ha : a = x
  · simp [ha]
  · simp [ha]

end Between

section Recipients

variable {v : VideoId} {p : SocketAddr × Packet} {q : VideoPacket}

/-- A node sends the packets of a stream to its subscribers. -/
theorem to_subscriber_of_node {e : Node.Event} (hp : p ∈ e.after.sent)
    (hq : ofStream v p.2 = some q) : p.1 ∈ e.view.subscribers v := by
  obtain ⟨b, p⟩ := p
  obtain ⟨rfl, rfl⟩ := ofStream_eq_some.mp hq
  obtain ⟨addr, hin⟩ := Event.videoPacket_of_sent hp
  have hvideo : e.input.videoPacket? = some q := by
    rw [hin]
    rfl
  rw [(Event.after_of_videoPacket hvideo).sent] at hp
  obtain ⟨a, ha, heq⟩ := List.mem_map.mp (List.mem_append.mp hp |>.resolve_left List.not_mem_nil)
  cases heq
  have hrecipient : b ∈ e.view.recipients q :=
    (takenUntilFailure_sublist.trans taken_sublist).subset ha
  unfold State.recipients at hrecipient
  split at hrecipient
  · cases hrecipient
  · exact hrecipient

/-- So does a server. -/
theorem to_subscriber_of_server {s : Server.State} {e : Server.Event}
    {sendResult : Nat → Except ReliableUdpSocketError Unit}
    (hp : p ∈ (e.run sendResult s).2) (hq : ofStream v p.2 = some q) :
    p.1 ∈ s.subscribers v := by
  cases e with
  | addVideo videoId name => cases hp
  | streamVideo videoId streamData =>
    simp only [Server.Event.run, Server.State.streamVideo] at hp
    split at hp
    · cases hp
    · next video hvideo =>
      split at hp
      · cases hp
      · obtain ⟨heq, hmem⟩ := mem_broadcast hp
        rw [heq] at hq
        obtain ⟨hq, hv⟩ := ofStream_eq_some.mp hq
        cases hq
        rw [← hv, Server.State.subscribers, hvideo]
        exact hmem
  | flood now =>
    rw [(mem_broadcast hp).1] at hq
    cases hq

end Recipients

section Steps

variable {v : VideoId} {r a : SocketAddr} {tr : List (Overlay × OverlayEvent)}
  {p : Overlay × OverlayEvent}

/-- What was received, one step later. -/
theorem received_concat (v : VideoId) (a : SocketAddr) (tr : List (Overlay × OverlayEvent))
    (p : Overlay × OverlayEvent) :
    received v a (tr ++ [p]) = received v a tr ++ (receivedIn v a p).toList := by
  unfold received
  rw [List.filterMap_append]
  cases h : receivedIn v a p with
  | none => simp [h]
  | some q => simp [h]

/-- The turns of the server, one step later. -/
theorem serverTurns_concat (r : SocketAddr) (tr : List (Overlay × OverlayEvent))
    (p : Overlay × OverlayEvent) :
    serverTurns r (tr ++ [p]) = serverTurns r tr ++ (turnIn r p).toList := by
  unfold serverTurns
  rw [List.filterMap_append]
  cases h : turnIn r p with
  | none => simp [h]
  | some q => simp [h]

/-- The packet of the stream that the server at `r` broadcasts in a step. -/
def emittedIn (v : VideoId) (r : SocketAddr) (p : Overlay × OverlayEvent) : Option VideoPacket :=
  (turnIn r p).bind (broadcasted v)

/-- What was broadcast, one step later. -/
theorem broadcasts_concat (v : VideoId) (r : SocketAddr) (tr : List (Overlay × OverlayEvent))
    (p : Overlay × OverlayEvent) : broadcasts v (serverTurns r (tr ++ [p])) =
      broadcasts v (serverTurns r tr) ++ (emittedIn v r p).toList := by
  rw [serverTurns_concat, broadcasts, List.filterMap_append]
  congr 1
  unfold emittedIn
  cases turnIn r p with
  | none => rfl
  | some turn =>
    rw [Option.toList_some, Option.bind_some, List.filterMap_cons]
    cases broadcasted v turn with
    | none => rfl
    | some q => rfl

/-- What a host passed on, one step later. -/
theorem passedOn_concat (v : VideoId) (r : SocketAddr) (tr : List (Overlay × OverlayEvent))
    (p : Overlay × OverlayEvent) (a : SocketAddr) : passedOn v r (tr ++ [p]) a =
      passedOn v r tr a ++ (if a = r then emittedIn v r p else receivedIn v a p).toList := by
  unfold passedOn
  split
  · exact broadcasts_concat v r tr p
  · exact received_concat v a tr p

end Steps

namespace Overlay

/-- A step keeps the kinds of the hosts. -/
theorem Step.kind {o o' : Overlay} {e : OverlayEvent} (h : o.Step e o') {a : SocketAddr} {k : Host}
    (hk : o'.hosts.lookup a = some k) :
    ∃ k₀, o.hosts.lookup a = some k₀ ∧ k₀.isNode = k.isNode := by
  -- a host that acts stays what it is
  have hupdate {o₁ : Overlay} {b : SocketAddr} {k₀ k₁ : Host} {sent : List (SocketAddr × Packet)}
      (hk : (o₁.update b k₁ sent).hosts.lookup a = some k) (hhosts : o₁.hosts = o.hosts)
      (h₀ : o.hosts.lookup b = some k₀) (hsame : k₀.isNode = k₁.isNode) :
      ∃ k₀, o.hosts.lookup a = some k₀ ∧ k₀.isNode = k.isNode := by
    rw [update_lookup, hhosts] at hk
    split at hk
    · next hab =>
      rw [h₀, Option.map_some, Option.some.injEq] at hk
      exact ⟨k₀, hab ▸ h₀, hk ▸ hsame⟩
    · exact ⟨k, hk, rfl⟩
  cases h.transition with
  | deliverNode _ hhost _ => exact hupdate hk rfl hhost rfl
  | deliverServer _ hhost => exact hupdate hk rfl hhost rfl
  | node hhost _ _ => exact hupdate hk rfl hhost rfl
  | server hhost => exact hupdate hk rfl hhost rfl
  | stop =>
    exact ⟨k, Map.lookup_of_erase hk, rfl⟩
  | deliverNone _ _ => exact ⟨k, hk, rfl⟩
  | lose _ => exact ⟨k, hk, rfl⟩
  | duplicate _ => exact ⟨k, hk, rfl⟩
  | client _ => exact ⟨k, hk, rfl⟩

/-- There is a node where there is a host that is one. -/
theorem hasNode_iff {o : Overlay} {a : SocketAddr} :
    o.HasNode a ↔ ∃ k, o.hosts.lookup a = some k ∧ k.isNode = true := by
  constructor
  · rintro ⟨s, hs⟩
    exact ⟨.node s, hs, rfl⟩
  · rintro ⟨k, hk, hnode⟩
    cases k with
    | node s => exact ⟨s, hk⟩
    | server s => cases hnode

/-- An address with subscribers is that of a host. -/
theorem exists_host {o : Overlay} {v : VideoId} {a : SocketAddr} (h : o.subscribersAt v a ≠ []) :
    ∃ k, o.hosts.lookup a = some k := by
  unfold subscribersAt at h
  cases hk : o.hosts.lookup a with
  | none => simp [hk] at h
  | some k => exact ⟨k, rfl⟩

/-- A host with subscribers is of the kind that it was. -/
theorem Step.hasNode {o o' : Overlay} {e : OverlayEvent} (h : o.Step e o') {a : SocketAddr}
    {v : VideoId} (ha : o'.subscribersAt v a ≠ []) : o'.HasNode a ↔ o.HasNode a := by
  obtain ⟨k, hk⟩ := exists_host ha
  obtain ⟨k₀, hk₀, hsame⟩ := h.kind hk
  rw [hasNode_iff, hasNode_iff, hk, hk₀]
  simp [hsame]

/-- What a step makes of the entry of the video at the server at `r`. -/
structure Entry (v : VideoId) (r : SocketAddr) (p : Overlay × OverlayEvent)
    (video video' : Video) : Prop where
  number : video'.sequenceNumber =
    ((emittedIn v r p).map VideoPacket.sequenceNumber).getD video.sequenceNumber
  next : ∀ q, emittedIn v r p = some q → q.sequenceNumber = video.sequenceNumber + 1
  chunk : video.interested ≠ [] →
    (emittedIn v r p).map VideoPacket.streamData = (turnIn r p).bind fun turn ↦ turn.2.chunk v

/-- A steady step leaves the entry there, and only counts the packets that are sent. -/
theorem Step.entry {o o' : Overlay} {e : OverlayEvent} {v : VideoId} {r : SocketAddr}
    (hstep : o.Step e o') (hsteady : o.Steady v r e) {s : Server.State} {video : Video}
    (hserver : o.hosts.lookup r = some (.server s)) (hvideo : s.videos.lookup v = some video) :
    ∃ s' video', o'.hosts.lookup r = some (.server s') ∧ s'.videos.lookup v = some video' ∧
      Entry v r (o, e) video video' := by
  have hplan := hsteady.2
  have hsame {s' : Server.State} {video' : Video}
      (hs' : o'.hosts.lookup r = some (.server s')) (hvideo' : s'.videos.lookup v = some video')
      (hnumber : video'.sequenceNumber = video.sequenceNumber) (hturn : turnIn r (o, e) = none) :
      ∃ s' video', o'.hosts.lookup r = some (.server s') ∧ s'.videos.lookup v = some video' ∧
        Entry v r (o, e) video video' := by
    have hemitted : emittedIn v r (o, e) = none := congrArg (Option.bind · _) hturn
    refine ⟨s', video', hs', hvideo', ?_, ?_, ?_⟩
    · rw [hemitted]
      exact hnumber
    · intro q hq
      cases hemitted.symm.trans hq
    · intro _
      rw [hemitted, hturn]
      rfl
  -- the step of another host
  have hother {o₁ : Overlay} {a : SocketAddr} {k₁ : Host} {sent : List (SocketAddr × Packet)}
      (hhosts : o₁.hosts = o.hosts) (ha : r ≠ a) :
      (o₁.update a k₁ sent).hosts.lookup r = some (.server s) := by
    rw [update_lookup, if_neg ha, hhosts, hserver]
  have hnode {a : SocketAddr} {s' : Node.State} (ha : o.hosts.lookup a = some (.node s')) :
      r ≠ a := by
    rintro rfl
    cases hserver.symm.trans ha
  cases hstep.transition with
  | deliverNode _ hhost _ => exact hsame (hother rfl (hnode hhost)) hvideo rfl rfl
  | @deliverServer l rest m env s' view hflight hhost =>
    by_cases hm : r = m.target
    · obtain rfl : s = s' := by
        rw [← hm, hserver] at hhost
        exact Host.server.inj (Option.some.inj hhost)
      have hok : (Server.Input.packet m.packet m.source).AllOk := trivial
      obtain ⟨video', hvideo', hturned⟩ := exists_turned hvideo hok id
      apply hsame _ hvideo' _ rfl
      · rw [update_lookup, if_pos hm, hhost]
        rfl
      · rw [hturned.number, (silent (silent_packet v s m.packet m.source)).1]
        rfl
    · exact hsame (hother rfl hm) hvideo rfl rfl
  | deliverNone | lose | duplicate | client => exact hsame hserver hvideo rfl rfl
  | node hhost _ _ => exact hsame (hother rfl (hnode hhost)) hvideo rfl rfl
  | stop => exact hsame ((AList.lookup_erase_ne hplan.symm).trans hserver) hvideo rfl rfl
  | @server a e s' sendResult hhost =>
    by_cases ha : r = a
    · subst ha
      obtain rfl : s = s' := by
        rw [hserver] at hhost
        exact Host.server.inj (Option.some.inj hhost)
      obtain ⟨hok, hnew⟩ := hplan rfl
      obtain ⟨video', hvideo', hturned⟩ := exists_turned hvideo hok hnew
      have hturn : turnIn r (o, .server r e sendResult) = some (s, .event e sendResult) := by
        simp [turnIn, hserver]
      have hemitted : emittedIn v r (o, .server r e sendResult) =
          broadcasted v (s, .event e sendResult) := congrArg (Option.bind · _) hturn
      refine ⟨_, video', ?_, hvideo', ?_, ?_, ?_⟩
      · rw [update_lookup, if_pos rfl, hserver]
        rfl
      · rw [hemitted]
        exact hturned.number
      · rw [hemitted]
        exact hturned.next
      · intro hsome
        rw [hemitted, hturn, hturned.chunk, if_neg hsome]
        rfl
    · apply hsame (hother rfl ha) hvideo rfl
      simp [turnIn, hhost, Ne.symm ha]

/-- A packet of the stream that a host sends goes to a subscriber. -/
theorem Step.new_to_subscriber {o o' : Overlay} {e : OverlayEvent} {v : VideoId}
    (hstep : o.Step e o') (houtside : ∀ m, e = .client m → ofStream v m.packet = none)
    {m : Message} (hm : m ∈ o'.inFlight) (hq : (ofStream v m.packet).isSome) :
    m ∈ o.inFlight ∨ m.target ∈ o.subscribersAt v m.source := by
  obtain ⟨q, hq⟩ := Option.isSome_iff_exists.mp hq
  -- what a node sends when it is busy with some event
  have hsent {a : SocketAddr} {s : Node.State} {e : Node.Event}
      (ha : o.hosts.lookup a = some (.node s)) (hview : s.Reorder e.view)
      (hm : m ∈ outgoing a e.after.sent) :
      m.target ∈ o.subscribersAt v m.source := by
    obtain ⟨p, hp, rfl⟩ := List.mem_map.mp hm
    have hsub := to_subscriber_of_node hp hq
    rw [hview.subscribers] at hsub
    simp only [subscribersAt, ha, Option.map_some, Option.getD_some]
    exact hsub
  cases hstep.transition with
  | @deliverNode l rest m₀ env s view hflight hhost hview =>
    rcases List.mem_append.mp hm with hm | hm
    · exact .inl (mem_of_mem_rest hflight hm)
    · exact .inr (hsent hhost hview hm)
  | deliverServer hflight _ =>
    rcases List.mem_append.mp hm with hm | hm
    · exact .inl (mem_of_mem_rest hflight hm)
    · cases hm
  | deliverNone hflight _ => exact .inl (mem_of_mem_rest hflight hm)
  | lose hflight => exact .inl (mem_of_mem_rest hflight hm)
  | @duplicate l rest m₀ hflight =>
    rcases List.mem_append.mp hm with hm | hm
    · exact .inl hm
    · rw [List.mem_singleton.mp hm, hflight]
      exact .inl (by simp)
  | @client m₀ _ =>
    rcases List.mem_append.mp hm with hm | hm
    · exact .inl hm
    · rw [List.mem_singleton.mp hm, houtside m₀ rfl] at hq
      cases hq
  | stop => exact .inl hm
  | node hhost hview _ =>
    rcases List.mem_append.mp hm with hm | hm
    · exact .inl hm
    · exact .inr (hsent hhost hview hm)
  | @server a e s sendResult hhost =>
    rcases List.mem_append.mp hm with hm | hm
    · exact .inl hm
    · obtain ⟨p, hp, rfl⟩ := List.mem_map.mp hm
      apply Or.inr
      simp only [subscribersAt, hhost, Option.map_some, Option.getD_some]
      exact to_subscriber_of_server hp hq

/-- The way of the stream to an address. -/
theorem Reached.path {o : Overlay} {v : VideoId} {r a : SocketAddr} (h : o.Reached v r a) :
    Relation.ReflTransGen (o.Supplies v r) r a := by
  induction h with
  | refl => exact .refl
  | tail hx hxy ih => exact ih.tail ⟨hx, hxy⟩

end Overlay

end PessiStreamer.System
