import PessiStreamer.Node.Calm

/-!
# What the handlers leave alone

A property of the state that has nothing to do with subscribers and routes survives the handlers
that change only these, whatever becomes of their sends.
-/

namespace PessiStreamer.Node
open Base Common

/-- The property does not depend on the subscribers and the routes of the videos. -/
structure Indifferent (P : State → Prop) : Prop where
  subscribe : ∀ s v a, P s → P (s.subscribe v a)
  unsubscribe : ∀ s v a, P s → P (s.unsubscribe v a)
  setRoute : ∀ s v n, P s → P (s.setRoute v n)
  dropRoute : ∀ s v, P s → P (s.dropRoute v)

section Primitives

variable {P : State → Prop}

/-- A send leaves the state as it is. -/
theorem send_frame (p : Packet) (n : SocketAddr) : Maintains (OnState P) (send p n) := by
  intro c hc
  rcases send_cases p n c with h | ⟨e, -, h⟩
  · rw [h]
    exact hc
  · rw [h]
    exact hc

/-- A change of the state maintains what it is shown to keep. -/
theorem modifyState_frame {f : State → State} (hf : ∀ s, P s → P (f s)) :
    Maintains (OnState P) (modifyState f) :=
  fun c hc ↦ hf c.state hc

/-- Reading the state leaves it as it is. -/
theorem getState_frame : Maintains (OnState P) getState := fun _ hc ↦ hc

/-- Reading the clock leaves the state as it is. -/
theorem now_frame : Maintains (OnState P) now := fun _ hc ↦ hc

end Primitives

namespace Indifferent

variable {P : State → Prop} {v : VideoId} {a n : SocketAddr}

/-- A request to a node sets a route at most. -/
theorem requestVideoToNode (h : Indifferent P) :
    Maintains (OnState P) (requestVideoToNode v n) := by
  apply Maintains.bind
  · exact send_frame _ n
  · exact fun _ ↦ modifyState_frame fun s ↦ h.setRoute s v n

/-- A stop removes a subscriber and drops a route at most. -/
theorem handleStopVideo (h : Indifferent P) : Maintains (OnState P) (handleStopVideo v a) := by
  apply Maintains.bind
  · exact modifyState_frame fun s ↦ h.unsubscribe s v a
  intro _
  apply getState_frame.bind
  intro t
  apply Maintains.ite
  · intro _
    cases t.videoRoutes.lookup v with
    | some n =>
      apply Maintains.bind
      · exact modifyState_frame fun s ↦ h.dropRoute s v
      · exact fun _ ↦ send_frame _ n
    | none => exact Maintains.pure ()
  · exact fun _ ↦ Maintains.pure ()

/-- The second loop of `handle_client_ping`. -/
theorem stopUnrequested (h : Indifferent P) (requested : List VideoId) (s : State) :
    Maintains (OnState P) (s.interested.entries.forM fun video ↦
      if video.1 ∉ requested ∧ a ∈ video.2 then Node.handleStopVideo video.1 a else pure ()) :=
  Maintains.forM fun _ _ ↦ Maintains.ite (fun _ ↦ h.handleStopVideo) fun _ ↦ Maintains.pure ()

/-- The sweep for silent clients only stops videos. -/
theorem clientHealthCheck (h : Indifferent P) : Maintains (OnState P) clientHealthCheck := by
  apply getState_frame.bind
  intro t
  apply now_frame.bind
  intro time
  apply Maintains.forM
  intro ping _
  apply getState_frame.bind
  intro t
  apply Maintains.ite
  · exact fun _ ↦ Maintains.forM fun v _ ↦ h.handleStopVideo.attempt
  · exact fun _ ↦ Maintains.pure ()

/-- The sweep for silent videos only asks for videos. -/
theorem videoHealthCheck (h : Indifferent P) : Maintains (OnState P) videoHealthCheck := by
  apply getState_frame.bind
  intro t
  apply now_frame.bind
  intro time
  apply Maintains.forM
  intro packet _
  apply getState_frame.bind
  intro t
  apply Maintains.ite
  · intro _
    cases t.videoRoutes.lookup packet.1 with
    | some n => exact h.requestVideoToNode
    | none => exact Maintains.pure ()
  · exact fun _ ↦ Maintains.pure ()

/-- A flood packet enters names and a route, and empties the queue of what it lists. -/
theorem handleFloodPacket {p : FloodPacket} (h : Indifferent P)
    (hnames : ∀ s vs, P s → P (s.updateVideoNames vs))
    (hroute : ∀ s t, P s → P (s.updateRoute a p t)) (hdequeue : ∀ s vs, P s → P (s.dequeue vs)) :
    Maintains (OnState P) (handleFloodPacket a p) := by
  apply getState_frame.bind
  intro t
  apply Maintains.ite
  · exact fun _ ↦ Maintains.pure ()
  intro _
  apply now_frame.bind
  intro time
  apply Maintains.bind
  · exact modifyState_frame fun s ↦ hnames s _
  intro _
  apply Maintains.bind
  · exact modifyState_frame fun s ↦ hroute s time
  intro _
  apply Maintains.bind
  · apply getState_frame.bind
    intro t
    apply Maintains.bind
    · exact Maintains.forM fun v _ ↦ h.requestVideoToNode.attempt
    · exact fun _ ↦ modifyState_frame fun s ↦ hdequeue s _
  intro _
  apply getState_frame.bind
  intro t
  apply Maintains.forM
  intro addr _
  apply Maintains.attempt
  apply getState_frame.bind
  exact fun t ↦ send_frame _ addr

end Indifferent

/-- A parent that answered becomes a neighbour. -/
theorem handleParentAnswer_frame {P : State → Prop} {a : SocketAddr}
    (hregister : ∀ s ip, P s → P (s.registerNewNeighbour ip))
    (result : Except RecvError ReliablePacketResult) :
    Maintains (OnState P) (handleParentAnswer a result) := by
  rcases result with e | _ | _
  · exact Maintains.pure ()
  · exact modifyState_frame fun s ↦ hregister s _
  · exact Maintains.pure ()

/-- Greeting the parents of a node changes no state. -/
theorem connectToParents_frame {P : State → Prop} {a : SocketAddr} (vs : List VideoId) :
    Maintains (OnState P) (connectToParents a vs) := by
  apply getState_frame.bind
  intro t
  apply Maintains.ite
  · exact fun _ ↦ Maintains.pure ()
  · intro _
    apply Maintains.forM
    intro parent _
    apply Maintains.ite
    · exact fun _ ↦ Maintains.pure ()
    · exact fun _ ↦ (send_frame _ parent).attempt

end PessiStreamer.Node
