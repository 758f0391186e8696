import PessiStreamer.Base.Losses
import PessiStreamer.System.Viewing

/-!
# Streams with losses

Packets of a stream may be lost, sends may fail, and hosts subscribe, leave and stop: whoever gets
the stream from one place only, and this place from one only, and so on to the server, gets a part
of what the server broadcast, in its order. So does the process that shows it at a client.
-/

namespace PessiStreamer.System
open Base Common Node Server

namespace Overlay

/-- The packets of the stream can only come from `x` to `y`, and `x` is the server at `r` or a
node. -/
def OnlySource (o : Overlay) (v : VideoId) (r x y : SocketAddr) : Prop :=
  y ≠ r ∧ ∀ z, y ∈ o.subscribersAt v z → z = x ∧ (z = r ∨ o.HasNode z)

/-- A step in which no packet of the stream is repeated, or overtaken by one from the same host to
the same target, or comes from outside. -/
def Orderly (o : Overlay) (v : VideoId) : OverlayEvent → Prop
  | .deliver index _ _ => ∀ m, o.inFlight[index]? = some m → (ofStream v m.packet).isSome →
      ∀ m' ∈ o.inFlight.take index, m'.source = m.source → m'.target = m.target →
        ofStream v m'.packet = none
  | .duplicate index => ∀ m, o.inFlight[index]? = some m → ofStream v m.packet = none
  | .client m => ofStream v m.packet = none
  | _ => True

end Overlay

section Copies

variable {v : VideoId} {x y a : SocketAddr} {q : VideoPacket}

/-- Copies of one packet for different addresses: at most one is for `y`. -/
theorem copies_sublist {addrs l : List SocketAddr} (hnodup : addrs.Nodup)
    (hl : l.Sublist addrs) (p : Packet) :
    ((l.map (·, p)).filterMap fun message ↦
      if message.1 = y then ofStream v message.2 else none).Sublist (ofStream v p).toList := by
  rw [List.filterMap_map]
  cases hq : ofStream v p with
  | none => simp [hq]
  | some q =>
    have hcopies := copies_of_nodup (hnodup.sublist hl) q y
    simp only [Function.comp_def, hq]
    rw [hcopies]
    split
    · exact List.Sublist.refl _
    · exact List.nil_sublist _

/-- A node passes on one copy of a packet of the stream to a subscriber at most. -/
theorem sent_sublist_of_node {e : Node.Event} {p : Packet} (hin : e.input = .packet p a)
    (hnodup : (e.view.subscribers v).Nodup) :
    (e.after.sent.filterMap fun message ↦
      if message.1 = y then ofStream v message.2 else none).Sublist (ofStream v p).toList := by
  cases hq : ofStream v p with
  | none =>
    rw [Option.toList_none, List.sublist_nil, List.filterMap_eq_nil_iff]
    intro message hmessage
    split
    · by_contra hsome
      obtain ⟨q, hsent⟩ := Option.ne_none_iff_exists'.mp hsome
      obtain ⟨addr, haddr⟩ := input_of_sent hmessage hsent
      rw [hin] at haddr
      rw [(Input.packet.inj haddr).1, hsent] at hq
      cases hq
    · rfl
  | some q =>
    obtain ⟨rfl, rfl⟩ := ofStream_eq_some.mp hq
    have hvideo : e.input.videoPacket? = some q := by
      rw [hin]
      rfl
    have hrecipients : (e.view.recipients q).Sublist (e.view.subscribers q.streamId) := by
      unfold State.recipients
      split
      · exact List.nil_sublist _
      · exact List.Sublist.refl _
    rw [(Event.after_of_videoPacket hvideo).sent, ← hq]
    exact copies_sublist hnodup
      ((takenUntilFailure_sublist.trans taken_sublist).trans hrecipients) _

/-- A broadcast reaches the first of its addresses. -/
theorem exists_broadcast (sendResult : Nat → Except ReliableUdpSocketError Unit) (packet : Packet)
    (i : Nat) (addrs : List SocketAddr) : ∃ l : List SocketAddr, l.Sublist addrs ∧
      (broadcast sendResult packet i addrs).1 = l.map (·, packet) := by
  induction addrs generalizing i with
  | nil => exact ⟨[], List.Sublist.refl _, rfl⟩
  | cons addr addrs ih =>
    rw [broadcast]
    split
    · obtain ⟨l, hl, heq⟩ := ih (i + 1)
      exact ⟨addr :: l, hl.cons_cons addr, congrArg ((addr, packet) :: ·) heq⟩
    · exact ⟨[], List.nil_sublist _, rfl⟩

/-- The packets of streams that a server sends bring the chunk that its child process wrote, under
the next number. -/
theorem stream_of_sent {s : Server.State} {turn : Server.Input} {x : SocketAddr × Packet}
    (hx : x ∈ turn.sent s) (hq : x.2 = .videoPacket q) : ∃ video data sendResult,
      turn = .event (.streamVideo q.streamId data) sendResult ∧
        s.videos.lookup q.streamId = some video ∧
          q = ⟨q.streamId, video.sequenceNumber + 1, data⟩ := by
  cases turn with
  | packet p addr => cases hx
  | event e sendResult =>
    cases e with
    | addVideo u name => cases hx
    | flood now =>
      rw [(mem_broadcast hx).1] at hq
      cases hq
    | streamVideo u data =>
      have hx : x ∈ (s.streamVideo u data sendResult).2 := hx
      simp only [Server.State.streamVideo] at hx
      split at hx
      · cases hx
      · next video hvideo =>
        split at hx
        · cases hx
        · rw [(mem_broadcast hx).1] at hq
          cases hq
          exact ⟨video, data, sendResult, rfl, hvideo, rfl⟩

/-- A server sends one copy of the packet that it broadcasts to a subscriber at most. -/
theorem packetsTo_sublist {s : Server.State} (turn : Server.Input)
    (hnodup : (s.subscribers v).Nodup) :
    (packetsTo v y (s, turn)).Sublist (Server.broadcasted v (s, turn)).toList := by
  by_cases hsilent : ∀ message ∈ turn.sent s, ofStream v message.2 = none
  · rw [(silent hsilent).2]
    exact List.nil_sublist _
  · simp only [not_forall] at hsilent
    obtain ⟨x, hx, hsome⟩ := hsilent
    obtain ⟨q, hstream⟩ := Option.ne_none_iff_exists'.mp hsome
    obtain ⟨hq, rfl⟩ := ofStream_eq_some.mp hstream
    obtain ⟨video, data, sendResult, rfl, hvideo, -⟩ := stream_of_sent hx hq
    have hinterested : video.interested ≠ [] := by
      intro hidle
      have hnothing : s.streamVideo q.streamId data sendResult = (s, []) := by
        apply streamVideo_of_idle
        intro w hw
        rwa [← Option.some.inj (hvideo.symm.trans hw)]
      have hx : x ∈ (s.streamVideo q.streamId data sendResult).2 := hx
      rw [hnothing] at hx
      cases hx
    obtain ⟨l, hl, heq⟩ := exists_broadcast sendResult
      (.videoPacket ⟨q.streamId, video.sequenceNumber + 1, data⟩) 0 video.interested
    have hsent : (Input.event (.streamVideo q.streamId data) sendResult).sent s =
        l.map (·, .videoPacket ⟨q.streamId, video.sequenceNumber + 1, data⟩) := by
      show (s.streamVideo q.streamId data sendResult).2 = _
      rw [streamVideo_of_interested hvideo hinterested, heq]
    rw [Server.State.subscribers, hvideo] at hnodup
    rw [packetsTo, Server.broadcasted, hsent]
    cases l with
    | nil => exact List.nil_sublist _
    | cons addr l =>
      refine (copies_sublist hnodup hl _).trans ?_
      simp [ofStream]

end Copies

section Subscribers

variable {v : VideoId}

/-- A node enters nobody twice. -/
theorem nodup_after {e : Node.Event} (h : (e.view.subscribers v).Nodup) :
    (e.after.state.subscribers v).Nodup := by
  refine e.reaches_after.invariant (I := fun c ↦ (c.state.subscribers v).Nodup)
    (fun c d hc hd ↦ ?_) h
  cases hd with
  | @subscribe u a _ =>
    rw [Ctx.setState_state, State.subscribe_subscribers]
    split
    · next hvu =>
      subst hvu
      split
      · exact hc
      · next ha => exact List.concat_eq_append ▸ (List.nodup_concat _ _).mpr ⟨ha, hc⟩
    · exact hc
  | @unsubscribe u a _ =>
    rw [Ctx.setState_state, State.unsubscribe_subscribers]
    split
    · next hvu =>
      subst hvu
      exact hc.filter _
    · exact hc
  | _ => exact hc

/-- Nor does a server. -/
theorem nodup_run {s : Server.State} (turn : Server.Input) (h : (s.subscribers v).Nodup) :
    ((turn.run s).subscribers v).Nodup := by
  have hmodify {u : VideoId} {f : Video → Video}
      (hf : ∀ w, w.interested.Nodup → (f w).interested.Nodup) :
      ((({ s with videos := s.videos.modify u f } : Server.State)).subscribers v).Nodup := by
    simp only [Server.State.subscribers, Map.lookup_modify]
    split
    · next hvu =>
      subst hvu
      rw [Server.State.subscribers] at h
      cases hw : s.videos.lookup v with
      | none => exact List.nodup_nil
      | some w =>
        rw [hw] at h
        exact hf w h
    · exact h
  cases turn with
  | packet p addr =>
    simp only [Server.Input.run, Server.State.handlePacket]
    split
    · apply hmodify
      intro w hw
      split
      · exact hw
      · next ha => exact List.concat_eq_append ▸ (List.nodup_concat _ _).mpr ⟨ha, hw⟩
    · exact hmodify fun w hw ↦ hw.filter _
    all_goals exact h
  | event e sendResult =>
    cases e with
    | addVideo u name =>
      simp only [Server.Input.run, Server.Event.run, Server.State.addVideo,
        Server.State.subscribers, Map.lookup_insert_ite]
      split
      · exact List.nodup_nil
      · exact h
    | streamVideo u data =>
      simp only [Server.Input.run, Server.Event.run, Server.State.streamVideo]
      split
      · exact h
      · split
        · exact h
        · exact hmodify fun w hw ↦ hw
    | flood now => exact h

end Subscribers

namespace Overlay

variable {o o' : Overlay} {e : OverlayEvent} {v : VideoId} {r : SocketAddr}

/-- No step enters anybody twice. -/
theorem Step.nodup_subscribers (h : o.Step e o') (hnodup : ∀ a, (o.subscribersAt v a).Nodup)
    (a : SocketAddr) : (o'.subscribersAt v a).Nodup := by
  -- the step of one host
  have hupdate {o₁ : Overlay} {b : SocketAddr} {k : Host} {sent : List (SocketAddr × Packet)}
      (hhosts : o₁.hosts = o.hosts) (hk : (k.subscribers v).Nodup) :
      ((o₁.update b k sent).subscribersAt v a).Nodup := by
    rw [subscribersAt, update_lookup, hhosts]
    split
    · cases o.hosts.lookup b with
      | none => exact List.nodup_nil
      | some k₀ => exact hk
    · exact hnodup a
  have hhost {b : SocketAddr} {k : Host} (hk : o.hosts.lookup b = some k) :
      (k.subscribers v).Nodup := by
    have hb := hnodup b
    rwa [subscribersAt, hk] at hb
  have hnode {b : SocketAddr} {s : Node.State} {e : Node.Event}
      (hs : o.hosts.lookup b = some (.node s)) (hview : s.Reorder e.view) :
      (e.after.state.subscribers v).Nodup := by
    apply nodup_after
    rw [hview.subscribers]
    exact hhost hs
  cases h.transition with
  | deliverNode _ hs hview => exact hupdate rfl (hnode hs hview)
  | @deliverServer _ _ m _ s _ _ hs =>
    exact hupdate rfl (nodup_run (.packet m.packet m.source) (hhost hs))
  | node hs hview _ => exact hupdate rfl (hnode hs hview)
  | @server _ e s sendResult hs =>
    exact hupdate rfl (nodup_run (.event e sendResult) (hhost hs))
  | deliverNone | lose | duplicate | client => exact hnodup a
  | @stop b =>
    rw [subscribersAt, Map.lookup_erase_ite]
    split
    · exact List.nodup_nil
    · exact hnodup a

end Overlay

/-- What is kept along a run in which the stream comes from `x` alone to `y` where `feeds x y`. -/
structure Trickles (feeds : SocketAddr → SocketAddr → Prop) (v : VideoId) (r : SocketAddr)
    (tr : List (Overlay × OverlayEvent)) (o : Overlay) : Prop where
  nodup : ∀ a, (o.subscribersAt v a).Nodup
  noNode : ¬ o.HasNode r
  sources : ∀ m ∈ o.inFlight, (ofStream v m.packet).isSome → ∀ x, feeds x m.target → m.source = x
  inPart : InPart feeds (passedOn v r tr) fun x y ↦ streamBetween v x y o.inFlight

namespace Trickles

variable {feeds : SocketAddr → SocketAddr → Prop} {o o' : Overlay} {v : VideoId} {r : SocketAddr}
  {tr : List (Overlay × OverlayEvent)} {l rest out ms : List Message} {m : Message}
  {p : Overlay × OverlayEvent} {e : OverlayEvent}

private theorem start (hidle : ∀ m ∈ o.inFlight, ofStream v m.packet = none)
    (hnodup : ∀ a, (o.subscribersAt v a).Nodup) (hnode : ¬ o.HasNode r) :
    Trickles feeds v r [] o where
  nodup := hnodup
  noNode := hnode
  sources := by
    intro m hm hq
    rw [hidle m hm] at hq
    cases hq
  inPart := by
    intro x y _
    have hchannel : streamBetween v x y o.inFlight = [] := by
      apply streamBetween_eq_nil
      intro m hm hq
      rw [hidle m hm] at hq
      cases hq
    have hpassed : passedOn v r [] y = [] := by
      simp [passedOn, broadcasts, serverTurns, received]
    show (passedOn v r [] y ++ streamBetween v x y o.inFlight).Sublist (passedOn v r [] x)
    rw [hchannel, hpassed]
    exact List.nil_sublist _

/-- A message arrives, and its target answers by the messages `out`. -/
theorem inPart_deliver (h : Trickles feeds v r tr o) (hflight : o.inFlight = l ++ m :: rest)
    (hfifo : (ofStream v m.packet).isSome → ∀ m' ∈ l, m'.source = m.source →
      m'.target = m.target → ofStream v m'.packet = none)
    (hfeeds : ∀ x y, feeds x y → y ≠ r)
    (hreceived : ∀ a, receivedIn v a p = if m.target = a then ofStream v m.packet else none)
    (hout : ∀ x y, feeds x y → (streamBetween v x y out).Sublist
      (if m.target = x ∧ x ≠ r then (ofStream v m.packet).toList else [])) :
    InPart feeds (passedOn v r (tr ++ [p])) fun x y ↦ streamBetween v x y (l ++ rest ++ out) := by
  apply h.inPart.step (passedOn_concat v r tr p)
  intro x y hxy
  refine ⟨_, _, streamBetween_append v x y _ _, ?_, (hout x y hxy).trans ?_⟩
  · have hkept : (streamBetween v x y (l ++ rest)).Sublist (streamBetween v x y o.inFlight) := by
      rw [hflight]
      exact ((List.sublist_cons_self m rest).append_left l).filterMap _
    rw [if_neg (hfeeds x y hxy), hreceived]
    split
    · next hy =>
      subst hy
      cases hq : ofStream v m.packet with
      | none => exact hkept
      | some q =>
        have hsome : (ofStream v m.packet).isSome := by
          rw [hq]
          rfl
        have hsource : m.source = x := h.sources m (by simp [hflight]) hsome x hxy
        have hnothing : streamBetween v x m.target l = [] := by
          apply streamBetween_eq_nil
          intro m' hm' hq' hx hy
          rw [hfifo hsome m' hm' (hx.trans hsource.symm) hy] at hq'
          cases hq'
        rw [hflight, streamBetween_append, streamBetween_append, streamBetween_cons, hnothing, hq]
        simp [hsource]
    · exact hkept
  · split
    · next hx => rw [if_neg hx.2, hreceived, if_pos hx.1]
    · exact List.nil_sublist _

/-- No message arrives; packets of the stream may be lost, and the server may broadcast one. -/
theorem inPart_quiet (h : Trickles feeds v r tr o) (hms : ms.Sublist o.inFlight)
    (hfeeds : ∀ x y, feeds x y → y ≠ r) (hreceived : ∀ a, receivedIn v a p = none)
    (hout : ∀ x y, feeds x y → (streamBetween v x y out).Sublist
      (if x = r then (emittedIn v r p).toList else [])) :
    InPart feeds (passedOn v r (tr ++ [p])) fun x y ↦ streamBetween v x y (ms ++ out) := by
  apply h.inPart.step (passedOn_concat v r tr p)
  intro x y hxy
  refine ⟨_, _, streamBetween_append v x y _ _, ?_, (hout x y hxy).trans ?_⟩
  · rw [if_neg (hfeeds x y hxy), hreceived]
    exact hms.filterMap _
  · split
    · exact List.Sublist.refl _
    · exact List.nil_sublist _

/-- Where a step leaves the stream. -/
theorem inPart_step (h : Trickles feeds v r tr o) (hstep : o.Step e o') (horderly : o.Orderly v e)
    (honly : ∀ x y, feeds x y → o.OnlySource v r x y) :
    InPart feeds (passedOn v r (tr ++ [(o, e)])) fun x y ↦ streamBetween v x y o'.inFlight := by
  have hfeeds (x y : SocketAddr) (hxy : feeds x y) : y ≠ r := (honly x y hxy).1
  have hnothing {x y : SocketAddr} {new : List VideoPacket} :
      (streamBetween v x y []).Sublist new := List.nil_sublist _
  cases hstep.transition with
  | @deliverNode l rest m env s view hflight hhost hview =>
    have hm : o.inFlight[l.length]? = some m := by simp [hflight]
    have hfifo := horderly m hm
    rw [hflight, List.take_left] at hfifo
    apply h.inPart_deliver hflight hfifo hfeeds fun a ↦ by simp [receivedIn, hm]
    intro x y _
    rw [streamBetween_outgoing]
    split
    · next hx =>
      subst hx
      have hne : m.target ≠ r := by
        rintro heq
        exact h.noNode ⟨s, heq ▸ hhost⟩
      rw [if_pos ⟨rfl, hne⟩]
      apply sent_sublist_of_node rfl
      have hnodup := h.nodup m.target
      rw [Overlay.subscribersAt, hhost] at hnodup
      rw [hview.subscribers]
      exact hnodup
    · exact List.nil_sublist _
  | @deliverServer l rest m env s view hflight hhost =>
    have hm : o.inFlight[l.length]? = some m := by simp [hflight]
    have hfifo := horderly m hm
    rw [hflight, List.take_left] at hfifo
    exact h.inPart_deliver hflight hfifo hfeeds (fun a ↦ by simp [receivedIn, hm])
      fun _ _ _ ↦ hnothing
  | @deliverNone l rest m env view hflight hhost =>
    have hm : o.inFlight[l.length]? = some m := by simp [hflight]
    have hfifo := horderly m hm
    rw [hflight, List.take_left] at hfifo
    have hreceived (a : SocketAddr) : receivedIn v a (o, .deliver l.length env view) =
        if m.target = a then ofStream v m.packet else none := by
      simp [receivedIn, hm]
    have hquiet := h.inPart_deliver hflight hfifo hfeeds hreceived fun _ _ _ ↦ hnothing
    rwa [List.append_nil] at hquiet
  | @lose l rest m hflight =>
    have hless : (l ++ rest).Sublist o.inFlight := by
      rw [hflight]
      exact (List.sublist_cons_self m rest).append_left l
    have hquiet := h.inPart_quiet (p := (o, .lose l.length)) hless hfeeds (fun _ ↦ rfl)
      fun _ _ _ ↦ hnothing
    rwa [List.append_nil] at hquiet
  | @duplicate l rest m hflight =>
    have hq : ofStream v m.packet = none := horderly m (by simp [hflight])
    apply h.inPart_quiet (List.Sublist.refl _) hfeeds fun _ ↦ rfl
    intro x y _
    rw [streamBetween_cons, hq]
    simp [streamBetween]
  | @client m _ =>
    have hq : ofStream v m.packet = none := horderly
    apply h.inPart_quiet (List.Sublist.refl _) hfeeds fun _ ↦ rfl
    intro x y _
    rw [streamBetween_cons, hq]
    simp [streamBetween]
  | @stop addr =>
    have hquiet := h.inPart_quiet (p := (o, .stop addr)) (List.Sublist.refl _) hfeeds
      (fun _ ↦ rfl) fun _ _ _ ↦ hnothing
    rwa [List.append_nil] at hquiet
  | @node addr e s hhost hview hpacket =>
    apply h.inPart_quiet (List.Sublist.refl _) hfeeds fun _ ↦ rfl
    intro x y _
    have hnone : streamBetween v x y (outgoing addr e.after.sent) = [] := by
      apply streamBetween_eq_nil
      intro m hm hq
      obtain ⟨p, hp, rfl⟩ := List.mem_map.mp hm
      obtain ⟨q, hq⟩ := Option.isSome_iff_exists.mp hq
      obtain ⟨b, hb⟩ := input_of_sent hp hq
      rw [hb] at hpacket
      cases hpacket
    rw [hnone]
    exact List.nil_sublist _
  | @server addr e s sendResult hhost =>
    apply h.inPart_quiet (List.Sublist.refl _) hfeeds fun _ ↦ rfl
    intro x y hxy
    by_cases haddr : addr = r
    · subst haddr
      have hemitted : emittedIn v addr (o, .server addr e sendResult) =
          Server.broadcasted v (s, .event e sendResult) := by
        simp [emittedIn, turnIn, hhost]
      have hnodup := h.nodup addr
      rw [Overlay.subscribersAt, hhost] at hnodup
      rw [streamBetween_outgoing, hemitted]
      by_cases hx : addr = x
      · rw [if_pos hx, if_pos hx.symm]
        exact packetsTo_sublist (.event e sendResult) hnodup
      · rw [if_neg hx]
        exact List.nil_sublist _
    · -- another server has no subscriber that the stream comes to
      have hnone : streamBetween v x y (outgoing addr (e.run sendResult s).2) = [] := by
        apply streamBetween_eq_nil
        intro m hm hq hx hy
        obtain ⟨p, hp, rfl⟩ := List.mem_map.mp hm
        obtain ⟨q, hq⟩ := Option.isSome_iff_exists.mp hq
        have hsub : y ∈ o.subscribersAt v addr := by
          rw [Overlay.subscribersAt, hhost, ← hy]
          exact to_subscriber_of_server hp hq
        obtain ⟨s', hs'⟩ := ((honly x y hxy).2 addr hsub).2.resolve_left haddr
        cases hhost.symm.trans hs'
      rw [hnone]
      exact List.nil_sublist _

private theorem step (h : Trickles feeds v r tr o) (hstep : o.Step e o') (horderly : o.Orderly v e)
    (honly : ∀ x y, feeds x y → o.OnlySource v r x y) :
    Trickles feeds v r (tr ++ [(o, e)]) o' where
  nodup := hstep.nodup_subscribers h.nodup
  noNode := by
    rintro ⟨s, hs⟩
    obtain ⟨k, hk, hkind⟩ := hstep.kind hs
    exact h.noNode (Overlay.hasNode_iff.mpr ⟨k, hk, hkind⟩)
  sources := by
    intro m hm hq x hx
    have houtside (m' : Message) (he : e = .client m') : ofStream v m'.packet = none := by
      subst he
      exact horderly
    rcases hstep.new_to_subscriber houtside hm hq with hm | hm
    · exact h.sources m hm hq x hx
    · exact ((honly x m.target hx).2 m.source hm).1
  inPart := h.inPart_step hstep horderly honly

private theorem run {o₀ : Overlay} (h : Trickles feeds v r [] o₀) (hrun : Run Overlay.Step o₀ tr o)
    (horderly : ∀ p ∈ tr, p.1.Orderly v p.2)
    (honly : ∀ p ∈ tr, ∀ x y, feeds x y → p.1.OnlySource v r x y) :
    Trickles feeds v r tr o := by
  induction hrun with
  | refl => exact h
  | tail _ he ih =>
    rw [List.forall_mem_append, List.forall_mem_singleton] at horderly honly
    exact (ih horderly.1 honly.1).step he horderly.2 honly.2

end Trickles

namespace Theatre

/-- A step in which no packet of the stream is repeated, overtaken or comes from outside. -/
def Orderly (v : VideoId) (s : Theatre) : TheatreEvent → Prop
  | .audience (.network e) => s.audience.overlay.Orderly v e
  | .audience (.receive index _ _) => s.audience.overlay.Orderly v (.deliver index (.calm 0) noNode)
  | .audience (.client _) | .feed _ _ => True

/-- Throughout the run the packets of the stream can only come from `x` to `y`. -/
def OnlySource (v : VideoId) (r : SocketAddr) (tr : List (Theatre × TheatreEvent))
    (x y : SocketAddr) : Prop :=
  ∀ p ∈ tr, p.1.audience.overlay.OnlySource v r x y

end Theatre

section Clients

variable {c r x y : SocketAddr} {v : VideoId} {s₀ s : Theatre} {tr : List (Theatre × TheatreEvent)}

private theorem Overlay.OnlySource.congr {o o' : Overlay} (h : o.OnlySource v r x y)
    (hhosts : o'.hosts = o.hosts) : o'.OnlySource v r x y := by
  simpa only [OnlySource, subscribersAt, HasNode, hhosts] using h

/-- What comes from outside changes no host. -/
theorem hosts_sends {o : Overlay} {l : List Message} : ∀ p ∈ sends o l, p.1.hosts = o.hosts := by
  induction l generalizing o with
  | nil =>
    intro p hp
    cases hp
  | cons m l ih =>
    intro p hp
    rcases List.mem_cons.mp hp with rfl | hp
    · rfl
    · have hrest := ih p hp
      exact hrest

/-- The hosts are the same during a step of the network and the client. -/
theorem hosts_overlayStep (p : Audience × AudienceEvent) :
    ∀ q ∈ overlayStep c p, q.1.hosts = p.1.overlay.hosts := by
  obtain ⟨a, e⟩ := p
  intro q hq
  cases e with
  | network e => rw [List.mem_singleton.mp hq]
  | receive index env view =>
    simp only [overlayStep] at hq
    split at hq
    · rcases List.mem_cons.mp hq with rfl | hq
      · rfl
      · have hrest := hosts_sends q hq
        exact hrest
    · cases hq
  | client e => exact hosts_sends q hq

/-- What comes from outside is no packet of the stream. -/
theorem orderly_sends {o : Overlay} {l : List Message}
    (hl : ∀ m ∈ l, ofStream v m.packet = none) : ∀ p ∈ sends o l, p.1.Orderly v p.2 := by
  induction l generalizing o with
  | nil =>
    intro p hp
    cases hp
  | cons m l ih =>
    intro p hp
    rcases List.mem_cons.mp hp with rfl | hp
    · exact hl m List.mem_cons_self
    · exact ih (fun m' hm' ↦ hl m' (List.mem_cons_of_mem m hm')) p hp

private theorem orderly_overlayStep {e : AudienceEvent} (horderly : s.Orderly v (.audience e)) :
    ∀ p ∈ overlayStep c (s.audience, e), p.1.Orderly v p.2 := by
  intro p hp
  cases e with
  | network e =>
    rw [List.mem_singleton.mp hp]
    exact horderly
  | receive index env view =>
    simp only [overlayStep] at hp
    split at hp
    · rcases List.mem_cons.mp hp with rfl | hp
      · exact horderly
      · exact orderly_sends (ofStream_of_client _) p hp
    · cases hp
  | client e => exact orderly_sends (ofStream_of_client _) p hp

/-- The data of the packets that a server broadcasts come from the child process of the video. -/
theorem broadcasted_chunk {turn : Server.State × Server.Input} {q : VideoPacket}
    (h : Server.broadcasted v turn = some q) : turn.2.chunk v = some q.streamData := by
  obtain ⟨message, hmessage, hq⟩ := List.exists_of_findSome?_eq_some h
  obtain ⟨hp, rfl⟩ := ofStream_eq_some.mp hq
  obtain ⟨video, data, sendResult, hturn, -, heq⟩ := stream_of_sent hmessage hp
  rw [hturn, heq]
  exact if_pos rfl

private theorem broadcasts_sublist (turns : List (Server.State × Server.Input)) :
    ((broadcasts v turns).map VideoPacket.streamData).Sublist
      (turns.filterMap fun p ↦ p.2.chunk v) := by
  induction turns with
  | nil => exact List.Sublist.refl _
  | cons turn turns ih =>
    rw [broadcasts, List.filterMap_cons, List.filterMap_cons]
    cases hq : Server.broadcasted v turn with
    | some q =>
      simp only [broadcasted_chunk hq]
      exact ih.cons_cons q.streamData
    | none =>
      cases turn.2.chunk v with
      | none => exact ih
      | some data => exact ih.cons data

/-- Losses leave the order as it is: where all on the way from the server to a client can only get
the stream from one place each, the client receives a part of what the server broadcast, in its
order, and the process that shows the video is fed chunks that the child process of the server
wrote, in the order in which it wrote them. -/
theorem shown_in_order (habsent : s₀.audience.overlay.hosts.lookup c = none)
    {server : Server.State} (hserver : s₀.audience.overlay.hosts.lookup r = some (.server server))
    (hidle : ∀ m ∈ s₀.audience.overlay.inFlight, ofStream v m.packet = none)
    (hnodup : ∀ a, (s₀.audience.overlay.subscribersAt v a).Nodup)
    (hplayer : s₀.players.lookup v = none) (hrun : Run (Theatre.Step c) s₀ tr s)
    (horderly : ∀ p ∈ tr, p.1.Orderly v p.2)
    (hpath : Relation.ReflTransGen (Theatre.OnlySource v r tr) r c) :
    (receivedBy v (Theatre.audienceSteps tr)).Sublist
      (broadcasts v (serverTurns r (networkSteps (Theatre.audienceSteps tr)))) ∧
    ∀ p, s.players.lookup v = some p → ∃ chunks : List (List UInt8),
      chunks.Sublist ((serverTurns r (networkSteps (Theatre.audienceSteps tr))).filterMap
        fun p ↦ p.2.chunk v) ∧ p.Plays chunks.flatten := by
  have haudience := Theatre.run_audienceSteps hrun
  have hnetwork := (run_overlaySteps haudience habsent).1
  have hnode : ¬ s₀.audience.overlay.HasNode r := by
    rintro ⟨n, hn⟩
    cases hserver.symm.trans hn
  have hne : c ≠ r := by
    rintro rfl
    cases habsent.symm.trans hserver
  have horderlySteps : ∀ p ∈ overlaySteps c (Theatre.audienceSteps tr), p.1.Orderly v p.2 := by
    apply forall_overlaySteps (P := fun p ↦ p.1.Orderly v p.2) haudience habsent
    rintro ⟨a, e⟩ hp - -
    obtain ⟨s, rfl, hs⟩ := Theatre.mem_audienceSteps hp
    exact orderly_overlayStep (horderly _ hs)
  have honly : ∀ p ∈ overlaySteps c (Theatre.audienceSteps tr), ∀ x y,
      Theatre.OnlySource v r tr x y → p.1.OnlySource v r x y := by
    apply forall_overlaySteps
      (P := fun p ↦ ∀ x y, Theatre.OnlySource v r tr x y → p.1.OnlySource v r x y) haudience habsent
    rintro ⟨a, e⟩ hp - - q hq x y hxy
    obtain ⟨s, rfl, hs⟩ := Theatre.mem_audienceSteps hp
    exact (hxy _ hs).congr (hosts_overlayStep _ q hq)
  have h := (Trickles.start hidle hnodup hnode).run hnetwork horderlySteps honly
  have hpart := h.inPart.sublist hpath
  have hreceived : passedOn v r (overlaySteps c (Theatre.audienceSteps tr)) c =
      receivedBy v (Theatre.audienceSteps tr) :=
    (if_neg hne).trans (received_overlaySteps haudience)
  have hbroadcasts : passedOn v r (overlaySteps c (Theatre.audienceSteps tr)) r =
      broadcasts v (serverTurns r (networkSteps (Theatre.audienceSteps tr))) := by
    rw [← serverTurns_overlaySteps (c := c)]
    exact if_pos rfl
  rw [hreceived, hbroadcasts] at hpart
  refine ⟨hpart, fun p hp ↦ ?_⟩
  obtain ⟨packets, hsuffix, hplays⟩ := plays_received hplayer hrun hp
  exact ⟨packets.map VideoPacket.streamData, ((hsuffix.sublist.trans hpart).map
    VideoPacket.streamData).trans (broadcasts_sublist _), hplays⟩

end Clients

/-- Where no other host has the address as a subscriber. -/
theorem Overlay.onlySource_of_entries {o : Overlay} {v : VideoId} {r x y : SocketAddr} (hne : y ≠ r)
    (h : ∀ p ∈ o.hosts.entries, y ∈ p.2.subscribers v → p.1 = x ∧ (p.1 = r ∨ p.2.isNode)) :
    o.OnlySource v r x y := by
  refine ⟨hne, fun z hz ↦ ?_⟩
  obtain ⟨k, hk⟩ := exists_host (List.ne_nil_of_mem hz)
  rw [subscribersAt, hk] at hz
  obtain ⟨hx, hkind⟩ := h ⟨z, k⟩ (Map.mem_entries_iff.mpr hk) hz
  exact ⟨hx, hkind.imp_right fun hnode ↦ hasNode_iff.mpr ⟨k, hk, hnode⟩⟩

namespace Theatre

/-- An event in which no packet overtakes another one or is repeated, and none comes from
outside. -/
def inTurn : TheatreEvent → Bool
  | .audience (.network (.deliver index _ _)) | .audience (.receive index _ _) => index = 0
  | .audience (.network (.duplicate _)) | .audience (.network (.client _)) => false
  | _ => true

private theorem orderly_of_inTurn {v : VideoId} {s : Theatre} {e : TheatreEvent} (h : inTurn e) :
    s.Orderly v e := by
  have hfirst (o : Overlay) (env : Env) (view : Node.State) :
      o.Orderly v (.deliver 0 env view) := by
    intro m _ _ m' hm'
    cases hm'
  rcases e with (e | ⟨index, env, view⟩ | e) | ⟨u, turn⟩
  · cases e with
    | deliver index env view =>
      obtain rfl : index = 0 := of_decide_eq_true h
      exact hfirst _ env view
    | duplicate | client => cases h
    | _ => trivial
  · obtain rfl : index = 0 := of_decide_eq_true h
    exact hfirst _ (.calm 0) noNode
  · trivial
  · trivial

private theorem inTurn_settle (s : Theatre) (e : TheatreEvent) :
    inTurn (s.settle e) = inTurn e := by
  rcases e with (e | e | e) | e
  · cases e with
    | _ => rfl
  · rfl
  · rfl
  · rfl

private theorem orderly_play {c : SocketAddr} {v : VideoId} {s : Theatre} {es : List TheatreEvent}
    (hes : ∀ e ∈ es, inTurn e) : ∀ p ∈ (Run.play (next? c) s es).1, p.1.Orderly v p.2 := by
  rintro ⟨s', e'⟩ hp
  obtain ⟨e, he, t, hnext⟩ := Run.mem_play hp
  obtain rfl : e' = s'.settle e := settle_of_next? hnext
  apply orderly_of_inTurn
  rw [inTurn_settle]
  exact hes e he

end Theatre

/-- The chain when its client starts to watch the video. -/
def startingChain : Theatre := ⟨⟨watchedChain, .new [.v4 2]⟩, ∅⟩

/-- A chunk of the video. -/
def writes (data : List UInt8) : TheatreEvent :=
  .audience (.network (.server (hostAddr 9) (.streamVideo 5 data) fun _ ↦ .ok ()))

/-- The second of five chunks is lost behind the server, and the next two with it, one for each
node that it would have passed. -/
def lossyScreening : List (Theatre × TheatreEvent) × Theatre :=
  let arrives : TheatreEvent := .audience (.network deliverNext)
  let comes : TheatreEvent := .audience (.receive 0 (Client.calmEnv 0) (.new []))
  Run.play (Theatre.next? (hostAddr 7)) startingChain
    [.audience (.client ⟨.uiStartPlaying 5, Client.calmEnv 0, .new []⟩),
      writes [10], arrives, arrives, arrives, comes, .feed 5 .receive, .feed 5 (.write 1),
      writes [11], .audience (.network (.lose 0)), writes [12], arrives,
      writes [13], arrives, arrives, arrives,
      writes [14], arrives, arrives, arrives, comes, .feed 5 .receive, .feed 5 (.write 1)]

/-- The process was fed the first and the last of five chunks, in order. -/
theorem shown_in_order_chain : ∃ p, lossyScreening.2.players.lookup 5 = some p ∧
    p.stdin = [10, 14] ∧ ∃ chunks : List (List UInt8),
      chunks.Sublist [[10], [11], [12], [13], [14]] ∧ p.Plays chunks.flatten := by
  have hrun : Run (Theatre.Step (hostAddr 7)) startingChain lossyScreening.1 lossyScreening.2 := by
    apply Run.run_play
    exact fun _ _ _ _ ↦ Theatre.step_of_next?
  have horderly : ∀ p ∈ lossyScreening.1, p.1.Orderly 5 p.2 := by
    apply Theatre.orderly_play
    decide
  obtain ⟨server, -, hserver, -, -⟩ := watchedChain_settled.server
  -- the way from the server over the two nodes to the client
  have hway {x y : SocketAddr} (hne : y ≠ hostAddr 9)
      (h : ∀ p ∈ lossyScreening.1, ∀ q ∈ p.1.audience.overlay.hosts.entries,
        y ∈ q.2.subscribers 5 → q.1 = x ∧ (q.1 = hostAddr 9 ∨ q.2.isNode)) :
      Theatre.OnlySource 5 (hostAddr 9) lossyScreening.1 x y :=
    fun p hp ↦ Overlay.onlySource_of_entries hne (h p hp)
  have hpath : Relation.ReflTransGen (Theatre.OnlySource 5 (hostAddr 9) lossyScreening.1)
      (hostAddr 9) (hostAddr 7) := by
    apply Relation.ReflTransGen.tail (b := hostAddr 2)
    · apply Relation.ReflTransGen.tail (b := hostAddr 1)
      · exact .single (hway (by decide) (by decide +kernel))
      · exact hway (by decide) (by decide +kernel)
    · exact hway (by decide) (by decide +kernel)
  have habsent : startingChain.audience.overlay.hosts.lookup (hostAddr 7) = none := by
    decide +kernel
  have h := shown_in_order habsent hserver watchedChain_settled.idle
    (Overlay.nodup_of_entries (by decide +kernel)) rfl hrun horderly hpath
  have hplayer : (lossyScreening.2.players.lookup 5).map Client.VideoPlayer.stdin =
      some [10, 14] := by
    decide +kernel
  obtain ⟨p, hp, hstdin⟩ := Option.map_eq_some_iff.mp hplayer
  obtain ⟨chunks, hchunks, hplays⟩ := h.2 p hp
  refine ⟨p, hp, hstdin, chunks, ?_, hplays⟩
  have hwritten : ((serverTurns (hostAddr 9)
      (networkSteps (Theatre.audienceSteps lossyScreening.1))).filterMap fun p ↦ p.2.chunk 5) =
        [[10], [11], [12], [13], [14]] := by
    decide +kernel
  exact hwritten ▸ hchunks

end PessiStreamer.System
