import PessiStreamer.Node.Rules

/-!
# Subscribers do not disturb each other

What a node does because of one address leaves the subscriptions of every other address as
they are, and the videos these are subscribed to flowing, whatever becomes of its sends.
-/

namespace PessiStreamer.Node
open Base Common

/-- Why a node acts because of an address. -/
inductive Cause where
  | packet (p : Packet)
  /-- a turn of `run_client_health_check_task` over its last ping -/
  | lastPing (time : SystemTime)
  /-- `run_check_neighbours_task` gives it up -/
  | neighbourUnresponsive
  | floodPacketResult
      (result : Except ReliableUdpSocketError (Except RecvError ReliablePacketResult))
  | parentAnswer (result : Except RecvError ReliablePacketResult)

/-- What a node does because of the address `a`. -/
def Cause.handler (a : SocketAddr) : Cause → Handler Unit
  | .packet p => handlePacket p a
  | .lastPing time => do
    let t ← now
    checkClient t ⟨a, time⟩
  | .neighbourUnresponsive => Node.neighbourUnresponsive a
  | .floodPacketResult result => handleSendFloodPacketResult a result
  | .parentAnswer result => handleParentAnswer a result

/-- The context that a node in state `s` ends in. -/
def Cause.after (cause : Cause) (a : SocketAddr) (env : Env) (s : State) : Ctx :=
  finalState (cause.handler a) (.start env s)

/-- Since the state `s` nothing has changed for the address `b`. -/
structure Undisturbed (s : State) (b : SocketAddr) (c : Ctx) : Prop where
  subscribed : ∀ v, b ∈ c.state.subscribers v ↔ b ∈ s.subscribers v
  unstopped : ∀ v, b ∈ s.subscribers v → ∀ n, (n, .serverPacket (.stopVideo v)) ∉ c.sent
  routed : ∀ v, b ∈ s.subscribers v → (s.videoRoutes.lookup v).isSome →
    (c.state.videoRoutes.lookup v).isSome

namespace Undisturbed

variable {s t : State} {a b n : SocketAddr} {c : Ctx} {v : VideoId}

private theorem start (env : Env) (s : State) (b : SocketAddr) :
    Undisturbed s b (.start env s) where
  subscribed := fun _ ↦ .rfl
  unstopped := by
    intro v _ n h
    cases h
  routed := fun _ _ h ↦ h

/-- It is about the subscribers and the routes. -/
theorem congr (h : Undisturbed s b c) (hsub : ∀ v, t.subscribers v = c.state.subscribers v)
    (hroutes : t.videoRoutes = c.state.videoRoutes) : Undisturbed s b (c.setState t) where
  subscribed := by
    intro v
    rw [Ctx.setState_state, hsub]
    exact h.subscribed v
  unstopped := h.unstopped
  routed := by
    intro v hv hr
    rw [Ctx.setState_state, hroutes]
    exact h.routed v hv hr

/-- Packets other than stops may be sent. -/
theorem push {p : Packet} (h : Undisturbed s b c) (hp : ∀ v, p ≠ .serverPacket (.stopVideo v)) :
    Undisturbed s b (c.push p n) where
  subscribed := h.subscribed
  unstopped := by
    intro v hv m hm
    rw [Ctx.push_sent, List.mem_append, List.mem_singleton] at hm
    rcases hm with hm | hm
    · exact h.unstopped v hv m hm
    · exact hp v (Prod.mk.inj hm).2.symm
  routed := h.routed

private theorem fail (h : Undisturbed s b c) : Undisturbed s b c.fail :=
  ⟨h.subscribed, h.unstopped, h.routed⟩

private theorem setRoute (h : Undisturbed s b c) :
    Undisturbed s b (c.setState (c.state.setRoute v n)) where
  subscribed := h.subscribed
  unstopped := h.unstopped
  routed := by
    intro u hu hr
    rw [Ctx.setState_state, State.setRoute_lookup]
    split
    · rfl
    · exact h.routed u hu hr

/-- Another address may subscribe. -/
theorem subscribe (h : Undisturbed s b c) (hab : b ≠ a) :
    Undisturbed s b (c.setState (c.state.subscribe v a)) where
  subscribed := by
    intro u
    rw [← h.subscribed u, Ctx.setState_state, State.subscribe_subscribers]
    by_cases huv : u = v
    · rw [if_pos huv, huv]
      split
      · exact .rfl
      · simp [hab]
    · rw [if_neg huv]
  unstopped := h.unstopped
  routed := h.routed

/-- Another address may leave. -/
theorem unsubscribe (h : Undisturbed s b c) (hab : b ≠ a) :
    Undisturbed s b (c.setState (c.state.unsubscribe v a)) where
  subscribed := by
    intro u
    rw [← h.subscribed u, Ctx.setState_state, State.unsubscribe_subscribers]
    by_cases huv : u = v
    · rw [if_pos huv, huv]
      simp [hab]
    · rw [if_neg huv]
  unstopped := h.unstopped
  routed := h.routed

/-- The route of a video may go while the address is no subscriber of it. -/
theorem dropRoute (h : Undisturbed s b c) (hv : b ∉ c.state.subscribers v) :
    Undisturbed s b (c.setState (c.state.dropRoute v)) where
  subscribed := h.subscribed
  unstopped := h.unstopped
  routed := by
    intro u hu hr
    have huv : u ≠ v := by
      rintro rfl
      exact hv ((h.subscribed u).mpr hu)
    rw [Ctx.setState_state, State.dropRoute_lookup, if_neg huv]
    exact h.routed u hu hr

/-- A stop may be sent while the address is no subscriber of the video. -/
theorem pushStop (h : Undisturbed s b c) (hv : b ∉ c.state.subscribers v) :
    Undisturbed s b (c.push (.serverPacket (.stopVideo v)) n) where
  subscribed := h.subscribed
  unstopped := by
    intro u hu m hm
    rw [Ctx.push_sent, List.mem_append, List.mem_singleton] at hm
    rcases hm with hm | hm
    · exact h.unstopped u hu m hm
    · cases hm
      exact hv ((h.subscribed v).mpr hu)
  routed := h.routed

end Undisturbed

section Handlers

variable {s : State} {a b n : SocketAddr} {v : VideoId} {E : HandlerError → Ctx → Prop}

private theorem send_undisturbed {p : Packet} (hp : ∀ v, p ≠ .serverPacket (.stopVideo v)) :
    Maintains (Undisturbed s b) (send p n) := by
  intro c hc
  rcases send_cases p n c with h | ⟨e, -, h⟩
  · rw [h]
    exact hc.push hp
  · rw [h]
    exact hc.fail

/-- An update of the state that leaves the subscribers and the routes alone. -/
theorem modifyState_undisturbed {f : State → State}
    (hsub : ∀ t v, (f t).subscribers v = t.subscribers v)
    (hroutes : ∀ t, (f t).videoRoutes = t.videoRoutes) :
    Maintains (Undisturbed s b) (modifyState f) :=
  fun c hc ↦ hc.congr (hsub c.state) (hroutes c.state)

private theorem registerNewNeighbour_undisturbed (ip : IpAddr) :
    Maintains (Undisturbed s b) (modifyState fun t ↦ t.registerNewNeighbour ip) :=
  modifyState_undisturbed (fun _ _ ↦ rfl) fun _ ↦ rfl

private theorem getState_undisturbed : Maintains (Undisturbed s b) getState := fun _ hc ↦ hc

private theorem now_undisturbed : Maintains (Undisturbed s b) now := fun _ hc ↦ hc

private theorem requestVideoToNode_undisturbed :
    Maintains (Undisturbed s b) (requestVideoToNode v n) := by
  apply Maintains.bind
  · exact send_undisturbed (by simp)
  · exact fun _ c hc ↦ hc.setRoute

private theorem handleRequestVideo_undisturbed (hab : b ≠ a) :
    Maintains (Undisturbed s b) (handleRequestVideo v a) := by
  apply Maintains.bind
  · exact fun c hc ↦ hc.subscribe hab
  intro _
  apply getState_undisturbed.bind
  intro t
  apply Maintains.ite
  · exact fun _ ↦ Maintains.pure ()
  · intro _
    cases t.getBestNodeToRedirect v with
    | some n => exact requestVideoToNode_undisturbed
    | none => exact modifyState_undisturbed (fun _ _ ↦ rfl) fun _ ↦ rfl

private theorem handleStopVideo_undisturbed (hab : b ≠ a) :
    Maintains (Undisturbed s b) (handleStopVideo v a) := by
  intro c hc
  have hleft := hc.unsubscribe (v := v) hab
  rcases handleStopVideo_cases v a c with ⟨-, h⟩ | ⟨hnone, n, -, h⟩
  · rw [h]
    exact hleft
  · -- the last subscriber has left, so the address is none
    have hv : b ∉ (c.state.unsubscribe v a).subscribers v := by
      rw [hnone]
      exact List.not_mem_nil
    have hdrop := hleft.dropRoute hv
    rw [h]
    rcases send_cases (.serverPacket (.stopVideo v)) n
      (c.setState ((c.state.unsubscribe v a).dropRoute v)) with hs | ⟨e, -, hs⟩
    · rw [hs]
      exact hdrop.pushStop hv
    · rw [hs]
      exact hdrop.fail

private theorem connectToParents_undisturbed (addr : SocketAddr) (vs : List VideoId) :
    Maintains (Undisturbed s b) (connectToParents addr vs) := by
  apply getState_undisturbed.bind
  intro t
  apply Maintains.ite
  · exact fun _ ↦ Maintains.pure ()
  · intro _
    apply Maintains.forM
    intro parent _
    apply Maintains.ite
    · exact fun _ ↦ Maintains.pure ()
    · exact fun _ ↦ (send_undisturbed (by simp)).attempt

private theorem redirectVideos_undisturbed (vs : List VideoId) :
    Maintains (Undisturbed s b) (redirectVideos vs) := by
  apply redirectVideos_rule (I := fun _ _ ↦ Undisturbed s b)
  · intro v rest left n
    exact requestVideoToNode_undisturbed.strengthen fun c hc ↦ hc.1
  · exact fun _ _ _ c _ hc ↦ hc
  · exact []

private theorem handleUnresponsiveNode_undisturbed (hab : b ≠ a) :
    Maintains (Undisturbed s b) (handleUnresponsiveNode a) := by
  apply getState_undisturbed.bind
  intro t
  apply Maintains.bind
  · exact Maintains.forM fun v _ ↦ (handleStopVideo_undisturbed hab).attempt
  intro _
  apply (redirectVideos_undisturbed _).bind
  intro remaining
  apply (connectToParents_undisturbed a remaining).bind
  exact fun _ ↦ modifyState_undisturbed (fun _ _ ↦ rfl) fun _ ↦ rfl

/-- Marking a node and giving it up. -/
theorem giveUp_undisturbed (hab : b ≠ a) : Maintains (Undisturbed s b) (do
    modifyState fun t ↦ t.markUnresponsive a
    handleUnresponsiveNode a) := by
  apply Maintains.bind
  · exact modifyState_undisturbed (fun _ _ ↦ rfl) fun _ ↦ rfl
  · exact fun _ ↦ handleUnresponsiveNode_undisturbed hab

private theorem checkPendingVideos_undisturbed (videos : List (VideoId × String)) :
    Maintains (Undisturbed s b) (checkPendingVideos a videos) := by
  apply getState_undisturbed.bind
  intro t
  apply Maintains.bind
  · exact Maintains.forM fun v _ ↦ requestVideoToNode_undisturbed.attempt
  · exact fun _ ↦ modifyState_undisturbed (fun _ _ ↦ rfl) fun _ ↦ rfl

private theorem handleFloodPacket_undisturbed (p : FloodPacket) :
    Maintains (Undisturbed s b) (handleFloodPacket a p) := by
  apply getState_undisturbed.bind
  intro t
  apply Maintains.ite
  · exact fun _ ↦ Maintains.pure ()
  intro _
  apply now_undisturbed.bind
  intro time
  apply Maintains.bind
  · exact modifyState_undisturbed (fun _ _ ↦ rfl) fun _ ↦ rfl
  intro _
  apply Maintains.bind
  · exact modifyState_undisturbed (fun _ _ ↦ rfl) fun _ ↦ rfl
  intro _
  apply (checkPendingVideos_undisturbed p.videosAvailable).bind
  intro _
  apply getState_undisturbed.bind
  intro t
  apply Maintains.forM
  intro addr _
  apply Maintains.attempt
  apply getState_undisturbed.bind
  exact fun t ↦ send_undisturbed (by simp)

private theorem handleClientPing_undisturbed (hab : b ≠ a) (n : UInt64) (requested : List VideoId) :
    Maintains (Undisturbed s b) (handleClientPing n requested a) := by
  apply getState_undisturbed.bind
  intro t
  apply now_undisturbed.bind
  intro time
  apply Maintains.bind
  · exact modifyState_undisturbed (fun _ _ ↦ rfl) fun _ ↦ rfl
  intro _
  apply Maintains.bind
  · apply Maintains.forM
    intro v _
    apply getState_undisturbed.bind
    intro t
    exact Maintains.ite (fun _ ↦ Maintains.pure ()) fun _ ↦ handleRequestVideo_undisturbed hab
  intro _
  apply getState_undisturbed.bind
  intro t
  apply Maintains.bind
  · apply Maintains.forM
    intro video _
    exact Maintains.ite (fun _ ↦ handleStopVideo_undisturbed hab) fun _ ↦ Maintains.pure ()
  · exact fun _ ↦ send_undisturbed (by simp)

private theorem handleVideoPacket_undisturbed (packet : VideoPacket) :
    Maintains (Undisturbed s b) (handleVideoPacket packet) := by
  apply getState_undisturbed.bind
  intro t
  apply now_undisturbed.bind
  intro time
  apply Maintains.bind
  · exact modifyState_undisturbed (fun _ _ ↦ rfl) fun _ ↦ rfl
  intro _
  apply Maintains.ite
  · exact fun _ ↦ Maintains.pure ()
  · intro _
    cases t.interested.lookup packet.streamId with
    | some subscribers => exact Maintains.forM fun addr _ ↦ send_undisturbed (by simp)
    | none => exact Maintains.pure ()

private theorem checkClient_undisturbed (hab : b ≠ a) (t last : SystemTime) :
    Maintains (Undisturbed s b) (checkClient t ⟨a, last⟩) := by
  apply getState_undisturbed.bind
  intro u
  apply Maintains.ite
  · exact fun _ ↦ Maintains.forM fun v _ ↦ (handleStopVideo_undisturbed hab).attempt
  · exact fun _ ↦ Maintains.pure ()

private theorem handlePacket_undisturbed (hab : b ≠ a) (p : Packet) :
    Maintains (Undisturbed s b) (handlePacket p a) := by
  rcases p with p | (⟨n, requested⟩ | _ | p) | (v | v) | p
  · exact handleVideoPacket_undisturbed p
  · exact handleClientPing_undisturbed hab n requested
  · exact registerNewNeighbour_undisturbed a.ip
  · exact handleFloodPacket_undisturbed p
  · exact handleRequestVideo_undisturbed hab
  · exact handleStopVideo_undisturbed hab
  · exact fun _ hc ↦ hc

private theorem Cause.handler_undisturbed (hab : b ≠ a) (cause : Cause) :
    Maintains (Undisturbed s b) (cause.handler a) := by
  cases cause with
  | packet p => exact handlePacket_undisturbed hab p
  | lastPing last => exact now_undisturbed.bind fun t ↦ checkClient_undisturbed hab t last
  | neighbourUnresponsive =>
    apply getState_undisturbed.bind
    intro t
    exact Maintains.ite (fun _ ↦ giveUp_undisturbed hab) fun _ _ hc ↦ hc
  | floodPacketResult result =>
    apply getState_undisturbed.bind
    intro t
    exact Maintains.ite (fun _ ↦ giveUp_undisturbed hab) fun _ ↦ Maintains.pure ()
  | parentAnswer result =>
    rcases result with e | _ | _
    · exact Maintains.pure ()
    · exact registerNewNeighbour_undisturbed a.ip
    · exact Maintains.pure ()

end Handlers

/-- A step because of one address leaves the subscriptions of every other address as they are;
no video this is subscribed to is stopped upstream or loses its route. -/
theorem subscribers_isolated {a b : SocketAddr} (hab : b ≠ a) (cause : Cause) (env : Env)
    (s : State) (v : VideoId) :
    (b ∈ (cause.after a env s).state.subscribers v ↔ b ∈ s.subscribers v) ∧
    (b ∈ s.subscribers v →
      (∀ n, (n, .serverPacket (.stopVideo v)) ∉ (cause.after a env s).sent) ∧
      ((s.videoRoutes.lookup v).isSome →
        ((cause.after a env s).state.videoRoutes.lookup v).isSome)) := by
  have h := (cause.handler_undisturbed (s := s) hab).finalState (.start env s b)
  exact ⟨h.subscribed v, fun hv ↦ ⟨h.unstopped v hv, h.routed v hv⟩⟩

/-- Two clients watch a video that comes from a neighbour. -/
def watchedByTwo : State :=
  let flood : Packet := .nodePacket (.floodPacket ⟨0, [(5, "five")], [9], []⟩)
  simulate (.new 1 [] (IpAddr.v4 1).atPort) (List.map (·, .calm 0)
    [.packet flood (IpAddr.v4 2).atPort,
      .packet (.serverPacket (.requestVideo 5)) (IpAddr.v4 3).atPort,
      .packet (.serverPacket (.requestVideo 5)) (IpAddr.v4 4).atPort])

/-- The first one stops. -/
theorem subscribers_isolated_watched :
    (IpAddr.v4 4).atPort ∈
      ((Cause.packet (.serverPacket (.stopVideo 5))).after (IpAddr.v4 3).atPort (.calm 0)
        watchedByTwo).state.subscribers 5 :=
  (subscribers_isolated (by decide) _ _ _ 5).1.mpr (by decide)

end PessiStreamer.Node
