import Mathlib.Data.List.Count
import PessiStreamer.Node.GivingUp

/-!
# What becomes of the videos of a node that is given up

`State::handle_unresponsive_node` and the handling of a flood packet that was not acknowledged.
-/

namespace PessiStreamer.Node
open Base Common

/-- What depended on `a` is moved, and nothing else. -/
structure Moved (s : State) (a : SocketAddr) (c : Ctx) : Prop where
  subscribers : ∀ v b, b ∈ c.state.subscribers v ↔ b ∈ s.subscribers v ∧ b ≠ a
  received : ∀ v, s.videoRoutes.lookup v = some a →
    (∃ n, n ≠ a ∧ c.state.Offers n v ∧ c.state.videoRoutes.lookup v = some n) ∨
      v ∈ c.state.pendingVideoRequests
  others : ∀ v m, s.videoRoutes.lookup v = some m → m ≠ a →
    if s.OnlySubscriber v a then
      c.state.videoRoutes.lookup v = none ∧ c.sent.count (m, .serverPacket (.stopVideo v)) = 1
    else c.state.videoRoutes.lookup v = some m
  availableRoutes : c.state.availableRoutes = s.availableRoutes
  pending : s.pendingVideoRequests <+: c.state.pendingVideoRequests

section Messages

variable {s : State} {a n : SocketAddr} {env : Env} {asked : List (VideoId × SocketAddr)}
  {queued : List VideoId} {hellos : List (SocketAddr × Packet)} {v : VideoId} {c : Ctx}

private theorem stopMessage_injective : Function.Injective stopMessage := by
  rintro ⟨v, n⟩ ⟨u, m⟩ h
  cases h
  rfl

private theorem stops_map_fst_sublist (s : State) (a : SocketAddr) (vs : List VideoId) :
    ((s.stops a vs).map Prod.fst).Sublist vs := by
  induction vs with
  | nil => exact List.Sublist.refl []
  | cons v vs ih =>
    have hcons : s.stops a (v :: vs) = s.stops a [v] ++ s.stops a vs :=
      List.filterMap_append (l := [v])
    rw [hcons, List.map_append]
    have hone : ((s.stops a [v]).map Prod.fst).Sublist [v] := by
      by_cases honly : s.OnlySubscriber v a
      · cases hr : s.videoRoutes.lookup v with
        | none => simp [State.stops, hr]
        | some m => simp [State.stops, honly, hr]
      · simp [State.stops, honly]
    exact hone.append ih

/-- Each video is stopped once. -/
theorem nodup_stopsFor (s : State) (a : SocketAddr) : (s.stopsFor a).Nodup :=
  ((nodup_videosSending s a).sublist (stops_map_fst_sublist s a _)).of_map Prod.fst

/-- The only stops are those that were tried as such. -/
theorem Outcome.count_stop (h : Outcome s a env asked queued hellos c) :
    c.sent.count (n, .serverPacket (.stopVideo v)) =
      (taken env.accepts 0 (s.stopsFor a)).count (v, n) := by
  have hasks : ((taken env.accepts (s.stopsFor a).length asked).map askMessage).count
      (n, .serverPacket (.stopVideo v)) = 0 := by
    rw [List.count_eq_zero]
    intro hx
    obtain ⟨x, -, hx⟩ := List.mem_map.mp hx
    cases hx
  have hgreets : hellos.count (n, .serverPacket (.stopVideo v)) = 0 := by
    rw [List.count_eq_zero]
    intro hx
    cases h.greets _ hx
  rw [h.sent, List.count_append, List.count_append, hasks, hgreets, Nat.add_zero]
  exact List.count_map_of_injective _ stopMessage stopMessage_injective (v, n)

end Messages

section Moves

variable {s : State} {a : SocketAddr} {env : Env}

/-- With all sends succeeding, giving up a node that was marked moves exactly what depended on
it. -/
theorem handleUnresponsiveNode_moves
    (hmarked : (s.availableRoutes.lookup a).map RouteInfo.status = some .unresponsive)
    (hok : env.AllOk) : Moved s a (finalState (handleUnresponsiveNode a) (.start env s)) := by
  obtain ⟨asked, hellos, hasks, h⟩ := handleUnresponsiveNode_outcome s a env
  have hall {α : Type} (k : Nat) (l : List α) : taken env.accepts k l = l :=
    taken_of_all fun i _ ↦ hok.accepts (k + i)
  have hinactive : ¬ s.IsActive a := by
    rintro ⟨r, hr, hactive⟩
    rw [hr] at hmarked
    cases hactive.symm.trans (Option.some.inj hmarked)
  constructor
  · intro v b
    rw [h.subscribers, List.mem_filter, decide_eq_true_eq]
  · intro v hv
    by_cases hoffered : s.Offered v
    · left
      have hmem : v ∈ asked.map Prod.fst := by
        rw [hasks]
        exact State.mem_asksFor.mpr ⟨hv, hoffered⟩
      obtain ⟨x, hx, rfl⟩ := List.mem_map.mp hmem
      have hoffers := h.offers x hx
      refine ⟨x.2, ?_, (State.offers_congr h.availableRoutes x.2 x.1).mpr hoffers, ?_⟩
      · intro hxa
        rw [hxa] at hoffers
        exact hinactive hoffers.isActive
      · apply h.rerouted
        rw [hall]
        exact hx
    · right
      rw [h.pending]
      exact List.mem_append_right _ (State.mem_leftFor.mpr ⟨hv, hoffered⟩)
  · intro v m hm hma
    have hroute := h.routes v
    rw [hall, hasks] at hroute
    have hkept := hroute fun hv ↦ by
      have hva := (State.mem_asksFor.mp hv).1
      rw [hm] at hva
      exact hma (Option.some.inj hva)
    split
    · next honly =>
      constructor
      · rw [hkept, if_pos honly]
      · rw [h.count_stop, hall]
        exact List.count_eq_one_of_mem (nodup_stopsFor s a)
          (State.mem_stopsFor.mpr ⟨honly, hm⟩)
    · next honly =>
      rw [hkept, if_neg honly, hm]
  · exact h.availableRoutes
  · rw [h.pending]
    exact List.prefix_append _ _

/-- A flood packet that lists videos. -/
def offer (vs : List VideoId) : Packet := .nodePacket (.floodPacket ⟨0, vs.map (·, ""), [], []⟩)

/-- A client of the node. -/
def viewer : SocketAddr := ⟨.v4 3, 4000⟩

/-- Node 9 after packets that it handled while all sends succeeded. -/
def handled (packets : List (Packet × SocketAddr)) : State :=
  simulate (.new 9 [] (IpAddr.v4 9).atPort) (packets.map fun x ↦ (.packet x.1 x.2, .calm 0))

/-- What packets lead to is reachable. -/
theorem reachable_handled (packets : List (Packet × SocketAddr)) :
    Reachable 9 [] (IpAddr.v4 9).atPort (handled packets) := by
  apply reachable_simulate
  intro i hi
  obtain ⟨x, -, rfl⟩ := List.mem_map.mp hi
  exact Env.calm_allOk 0

/-- Neighbour 1 offers videos 5 and 6, neighbour 2 videos 5 and 7. The node passes 5 and 6 on to
a client, and 7 to neighbour 1. -/
def betweenTwo : State :=
  handled [(offer [5, 6], (IpAddr.v4 1).atPort), (.serverPacket (.requestVideo 5), viewer),
    (offer [5, 7], (IpAddr.v4 2).atPort), (.serverPacket (.requestVideo 6), viewer),
    (.serverPacket (.requestVideo 7), (IpAddr.v4 1).atPort)]

/-- The node after neighbour 1 was given up. -/
def withoutFirst : Ctx :=
  finalState (handleUnresponsiveNode (IpAddr.v4 1).atPort)
    (.start (.calm 0) (betweenTwo.markUnresponsive (IpAddr.v4 1).atPort))

/-- When neighbour 1 is given up, video 5 moves to neighbour 2, video 6 is queued and video 7 is
stopped. -/
theorem handleUnresponsiveNode_moves_two :
    Moved (betweenTwo.markUnresponsive (IpAddr.v4 1).atPort) (IpAddr.v4 1).atPort withoutFirst ∧
    withoutFirst.state.videoRoutes.lookup 5 = some (IpAddr.v4 2).atPort ∧
    withoutFirst.state.pendingVideoRequests = [6] ∧
    withoutFirst.state.videoRoutes.lookup 7 = none ∧
    withoutFirst.sent.count ((IpAddr.v4 2).atPort, .serverPacket (.stopVideo 7)) = 1 := by
  refine ⟨handleUnresponsiveNode_moves (by decide +kernel) (Env.calm_allOk 0), ?_⟩
  decide +kernel

end Moves

section Unacknowledged

/-- A node that does not acknowledge floods is no longer fed: it is in no list, and each video that
only it wanted was stopped where it came from and has no route. -/
structure Unfed (s : State) (a : SocketAddr) (c : Ctx) : Prop where
  left : c.state.Left a
  stopped : ∀ v, s.OnlySubscriber v a → c.state.videoRoutes.lookup v = none ∧
    ∀ m, s.videoRoutes.lookup v = some m → (m, .serverPacket (.stopVideo v)) ∈ c.sent

/-- The route over the node is active, the socket takes its stops, and no video that comes from
the node and goes to nobody else is asked for elsewhere. -/
structure Quiets (s : State) (a : SocketAddr) (env : Env) : Prop where
  active : s.IsActive a
  stops : ∀ i < (s.stopsFor a).length, env.accepts i
  asks : ∀ j v, ((s.markUnresponsive a).asksFor a)[j]? = some v → s.OnlySubscriber v a →
    ¬ env.accepts ((s.stopsFor a).length + j)

variable {s : State} {a : SocketAddr} {env : Env} {asked : List (VideoId × SocketAddr)}
  {queued : List VideoId} {hellos : List (SocketAddr × Packet)} {v : VideoId} {c : Ctx}

/-- A video is routed anew just if its request was due and went through. -/
theorem mem_taken_asked (hasks : asked.map Prod.fst = s.asksFor a) {k : Nat} :
    v ∈ (taken env.accepts k asked).map Prod.fst ↔
      ∃ j, (s.asksFor a)[j]? = some v ∧ env.accepts (k + j) := by
  rw [← taken_map, hasks, mem_taken_iff]

/-- A video that only `a` wanted has a route afterwards just if its request went through. -/
theorem Outcome.route_eq_none_iff (h : Outcome s a env asked queued hellos c)
    (honly : s.OnlySubscriber v a) : c.state.videoRoutes.lookup v = none ↔
      v ∉ (taken env.accepts (s.stopsFor a).length asked).map Prod.fst := by
  constructor
  · intro hnone hv
    obtain ⟨x, hx, rfl⟩ := List.mem_map.mp hv
    cases hnone.symm.trans (h.rerouted x hx)
  · intro hv
    rw [h.routes v hv, if_pos honly]

/-- Giving up an active node that was not reached. -/
theorem Outcome.unfed_iff (hasks : asked.map Prod.fst = (s.markUnresponsive a).asksFor a)
    (h : Outcome (s.markUnresponsive a) a env asked queued hellos c) (hactive : s.IsActive a) :
    Unfed s a c ↔ Quiets s a env := by
  have hsent (u : VideoId) (m : SocketAddr) : (m, .serverPacket (.stopVideo u)) ∈ c.sent ↔
      (u, m) ∈ taken env.accepts 0 (s.stopsFor a) := by
    rw [← List.count_pos_iff, h.count_stop, List.count_pos_iff]
    rfl
  have hstops : (∀ x ∈ s.stopsFor a, x ∈ taken env.accepts 0 (s.stopsFor a)) ↔
      ∀ i < (s.stopsFor a).length, env.accepts i := by
    rw [forall_mem_taken_iff (nodup_stopsFor s a)]
    simp only [Nat.zero_add]
  have hroute (u : VideoId) (honly : s.OnlySubscriber u a) :
      c.state.videoRoutes.lookup u = none ↔
        ¬ ∃ j, ((s.markUnresponsive a).asksFor a)[j]? = some u ∧
          env.accepts ((s.stopsFor a).length + j) := by
    rw [h.route_eq_none_iff honly, mem_taken_asked hasks]
    rfl
  constructor
  · intro hunfed
    constructor
    · exact hactive
    · apply hstops.mp
      rintro ⟨u, m⟩ hx
      obtain ⟨honly, hm⟩ := State.mem_stopsFor.mp hx
      exact (hsent u m).mp ((hunfed.stopped u honly).2 m hm)
    · intro j u hj honly hok
      exact (hroute u honly).mp (hunfed.stopped u honly).1 ⟨j, hj, hok⟩
  · intro hquiet
    constructor
    · intro u hu
      rw [h.subscribers] at hu
      simp at hu
    · intro u honly
      constructor
      · apply (hroute u honly).mpr
        rintro ⟨j, hj, hok⟩
        exact hquiet.asks j u hj honly hok
      · intro m hm
        exact (hsent u m).mpr (hstops.mpr hquiet.stops _ (State.mem_stopsFor.mpr ⟨honly, hm⟩))

/-- Who was in no list before is in none afterwards, and nothing had to be stopped. -/
theorem Unfed.of_left {c : Ctx} (h : s.Left a) (hc : c.state.Left a) : Unfed s a c where
  left := hc
  stopped := fun v honly ↦ absurd honly.mem (h v)

/-- A node is active just if its entry says so. -/
theorem status_eq_active_iff :
    (s.availableRoutes.lookup a).map RouteInfo.status = some .active ↔ s.IsActive a := by
  simp only [Option.map_eq_some_iff, State.IsActive]

/-- An active node that was not reached is marked and given up; any other is left alone. -/
theorem handleSendFloodPacketResult_eq
    {result : Except ReliableUdpSocketError (Except RecvError ReliablePacketResult)}
    (hresult : floodUnreached result) (c : Ctx) :
    (c.state.IsActive a → handleSendFloodPacketResult a result c =
      handleUnresponsiveNode a (c.setState (c.state.markUnresponsive a))) ∧
    (¬ c.state.IsActive a → handleSendFloodPacketResult a result c = .ok () c) := by
  simp only [handleSendFloodPacketResult, bind_apply, getState_apply, hresult, true_and]
  constructor
  · intro h
    rw [if_pos (status_eq_active_iff.mpr h)]
    rfl
  · intro h
    rw [if_neg fun hstatus ↦ h (status_eq_active_iff.mp hstatus)]
    rfl

/-- A node that lets a flood packet time out, or cannot be reached, is no longer fed just if it
was in no list, or its route was active, the socket takes the stops, and no video that comes from
it and goes to nobody else is asked for elsewhere. -/
theorem handleSendFloodPacketResult_unfed_iff (s : State) (a : SocketAddr) (env : Env)
    {result : Except ReliableUdpSocketError (Except RecvError ReliablePacketResult)}
    (hresult : floodUnreached result) :
    Unfed s a (finalState (handleSendFloodPacketResult a result) (.start env s)) ↔
      s.Left a ∨ Quiets s a env := by
  obtain ⟨hgives, hleaves⟩ := handleSendFloodPacketResult_eq (a := a) hresult (.start env s)
  by_cases ha : s.IsActive a
  · obtain ⟨asked, hellos, hasks, h⟩ := handleUnresponsiveNode_outcome (s.markUnresponsive a) a env
    have hrun : finalState (handleSendFloodPacketResult a result) (.start env s) =
        finalState (handleUnresponsiveNode a) (.start env (s.markUnresponsive a)) := by
      rw [finalState, hgives ha]
      rfl
    rw [hrun, h.unfed_iff hasks ha]
    constructor
    · exact .inr
    · rintro (hleft | hquiet)
      · apply (h.unfed_iff hasks ha).mp
        apply Unfed.of_left hleft
        exact fun u hu ↦ hleft u (List.mem_of_mem_filter (h.subscribers u ▸ hu))
      · exact hquiet
  · have hrun : finalState (handleSendFloodPacketResult a result) (.start env s) =
        .start env s := by
      rw [finalState, hleaves ha]
    rw [hrun]
    constructor
    · exact fun h ↦ .inl h.left
    · rintro (hleft | hquiet)
      · exact .of_left hleft hleft
      · exact absurd hquiet.active ha

/-- Neighbour 1 is a subscriber of video 7 only, and no flood to it is acknowledged. -/
theorem handleSendFloodPacketResult_unfed_two : Unfed betweenTwo (IpAddr.v4 1).atPort
    (finalState (handleSendFloodPacketResult (IpAddr.v4 1).atPort (.ok (.ok .timeout)))
      (.start (.calm 0) betweenTwo)) := by
  have hcalm (i : Nat) : (Env.calm 0).accepts i := (Env.calm_allOk 0).accepts i
  have hothers : ((betweenTwo.markUnresponsive (IpAddr.v4 1).atPort).asksFor
      (IpAddr.v4 1).atPort).all fun v ↦ ¬ betweenTwo.OnlySubscriber v (IpAddr.v4 1).atPort := by
    decide +kernel
  apply (handleSendFloodPacketResult_unfed_iff betweenTwo (IpAddr.v4 1).atPort (.calm 0) rfl).mpr
  right
  constructor
  · exact status_eq_active_iff.mp (by decide +kernel)
  · exact fun i _ ↦ hcalm i
  · intro j v hj honly
    have hv := List.all_eq_true.mp hothers v (List.mem_of_getElem? hj)
    exact absurd honly (of_decide_eq_true hv)

/-- Neighbour 4 never sent a flood packet of its own and asks for video 5. -/
def feedingChild : State :=
  handled [(offer [5], (IpAddr.v4 1).atPort),
    (.serverPacket (.requestVideo 5), (IpAddr.v4 4).atPort)]

/-- It is fed on when a flood to it times out. -/
theorem child_fed_on : Reachable 9 [] (IpAddr.v4 9).atPort feedingChild ∧
    ¬ Unfed feedingChild (IpAddr.v4 4).atPort
      (finalState (handleSendFloodPacketResult (IpAddr.v4 4).atPort (.ok (.ok .timeout)))
        (.start (.calm 0) feedingChild)) := by
  constructor
  · exact reachable_handled _
  · intro h
    have hfed : (IpAddr.v4 4).atPort ∈ (finalState (handleSendFloodPacketResult
        (IpAddr.v4 4).atPort (.ok (.ok .timeout)))
          (.start (.calm 0) feedingChild)).state.subscribers 5 := by
      decide +kernel
    exact h.left 5 hfed

end Unacknowledged
end PessiStreamer.Node
