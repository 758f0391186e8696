import PessiStreamer.Base.Panic
import PessiStreamer.Node.Frames
import PessiStreamer.Node.Ping

/-!
# The delays a node averages

`RouteInfo::average_delay_to_server` divides by the number of samples and panics where there are
none. The handlers that select a node are given once more with this panic; over all runs each
route has a sample, since a flood packet enters one along with the route, and no handler panics.
-/

namespace PessiStreamer.Node
open Base Common

/-- A handler that may panic. -/
abbrev PanickingHandler := Panicking HandlerError Ctx

/-- `RouteInfo::average_delay_to_server` with its panic; `node/src/node.rs:43`. -/
def RouteInfo.averageDelayToServer? (r : RouteInfo) : Option Duration :=
  div? r.lastDelaysToServer.toList.sum r.lastDelaysToServer.toList.length

/-- `State::get_best_node_to_redirect` with its panics; `node/src/node.rs:113`. -/
def State.getBestNodeToRedirect? (s : State) (videoId : VideoId) :
    Option (Option SocketAddr) := do
  let best ← selectNear? (fun e ↦ e.2.averageDelayToServer?)
    (fun d ↦ d + d / 100 * State.DELAY_THRESHOLD_PERCENTAGE) s.redirectKey (s.routesListing videoId)
  return best.map fun e ↦ e.1

section Handlers

/-- `State::handle_request_video`; `node/src/handle.rs:48`. -/
def handleRequestVideo? (videoId : VideoId) (addr : SocketAddr) : PanickingHandler Unit := do
  modifyState fun s ↦ s.subscribe videoId addr
  let s ← getState
  if (s.videoRoutes.lookup videoId).isSome then
    pure ()
  else
    match ← s.getBestNodeToRedirect? videoId with
    | some node => requestVideoToNode videoId node
    | none =>
      modifyState fun s ↦ s.enqueue [videoId]

/-- One turn of the first loop of `handle_client_ping`; `node/src/handle.rs:29`. -/
def requestMissing? (addr : SocketAddr) (videoId : VideoId) : PanickingHandler Unit := do
  let s ← getState
  if (s.videoRoutes.lookup videoId).isSome then pure ()
  else handleRequestVideo? videoId addr

/-- `State::handle_client_ping`; `node/src/handle.rs:14`. -/
def handleClientPing? (sequenceNumber : UInt64) (requestedVideos : List VideoId)
    (addr : SocketAddr) : PanickingHandler Unit := do
  let s ← getState
  let t ← now
  modifyState fun s ↦ s.recordPing addr t
  requestedVideos.forM (requestMissing? addr)
  let u ← getState
  (u.interested.entries.forM (stopUnrequested requestedVideos addr) : Handler Unit)
  send (pingAnswer sequenceNumber (s.getVideos addr) t) addr

/-- The loop of `handle_unresponsive_node` that redirects the videos it received;
`node/src/node.rs:269`. -/
def redirectVideos? : List VideoId → PanickingHandler (List VideoId)
  | [] => pure []
  | videoId :: videos => do
    let s ← getState
    match ← s.getBestNodeToRedirect? videoId with
    | some newNodeAddr => do
      attempt (requestVideoToNode videoId newNodeAddr)
      redirectVideos? videos
    | none => do
      let remaining ← redirectVideos? videos
      return videoId :: remaining

/-- `State::handle_unresponsive_node`; `node/src/node.rs:235`. -/
def handleUnresponsiveNode? (addr : SocketAddr) : PanickingHandler Unit := do
  let s ← getState
  let videosReceiving := s.videosReceiving addr
  let videosSending := s.videosSending addr
  (videosSending.forM fun videoId ↦ attempt (handleStopVideo videoId addr) : Handler Unit)
  let remainingVideos ← redirectVideos? videosReceiving
  connectToParents addr remainingVideos
  modifyState fun s ↦ s.enqueue remainingVideos

/-- `State::handle_send_flood_packet_result`; `node/src/handle.rs:165`. -/
def handleSendFloodPacketResult? (target : SocketAddr)
    (result : Except ReliableUdpSocketError (Except RecvError ReliablePacketResult)) :
    PanickingHandler Unit := do
  let s ← getState
  if floodUnreached result ∧
      (s.availableRoutes.lookup target).map RouteInfo.status = some .active then do
    modifyState fun s ↦ s.markUnresponsive target
    handleUnresponsiveNode? target
  else pure ()

/-- One turn of the second loop of `run_check_neighbours_task`; `node/src/node.rs:385`. -/
def neighbourUnresponsive? (addr : SocketAddr) : PanickingHandler Unit := do
  let s ← getState
  if (s.availableRoutes.lookup addr).isSome then do
    modifyState fun s ↦ s.markUnresponsive addr
    handleUnresponsiveNode? addr
  else
    (throw .unwrapNone : Handler Unit)

/-- The handler of an input; those that select no node cannot panic. -/
def handleInput? : Input → PanickingHandler Unit
  | .packet (.nodePacket (.clientPing sequenceNumber requestedVideos)) addr =>
    handleClientPing? sequenceNumber requestedVideos addr
  | .packet (.serverPacket (.requestVideo id)) addr => handleRequestVideo? id addr
  | .neighbourUnresponsive addr => neighbourUnresponsive? addr
  | .floodPacketResult target result => handleSendFloodPacketResult? target result
  | input => liftM (handleInput input)

end Handlers

/-- Each route has a sample of its delay. -/
def Sampled (s : State) : Prop :=
  ∀ n r, s.availableRoutes.lookup n = some r → r.lastDelaysToServer.toList ≠ []

namespace Sampled

variable {s t : State}

private theorem congr (h : Sampled s) (hroutes : ∀ n r, t.availableRoutes.lookup n = some r →
    ∃ r', s.availableRoutes.lookup n = some r' ∧ r'.lastDelaysToServer = r.lastDelaysToServer) :
    Sampled t := by
  intro n r hr
  obtain ⟨r', hr', hdelays⟩ := hroutes n r hr
  rw [← hdelays]
  exact h n r' hr'

private theorem reorder (h : Sampled s) (hview : s.Reorder t) : Sampled t := by
  apply h.congr
  intro n r hr
  exact ⟨r, (hview.availableRoute n).symm.trans hr, rfl⟩

private theorem markUnresponsive (h : Sampled s) (a : SocketAddr) :
    Sampled (s.markUnresponsive a) := by
  apply h.congr
  intro n r hr
  simp only [State.markUnresponsive, Map.lookup_modify] at hr
  split at hr
  · next hn =>
    obtain ⟨r', hr', rfl⟩ := Option.map_eq_some_iff.mp hr
    exact ⟨r', hn ▸ hr', rfl⟩
  · exact ⟨r, hr, rfl⟩

/-- A flood packet enters a sample, whether the route is new or not. -/
theorem updateRoute (h : Sampled s) (a : SocketAddr) (p : FloodPacket) (now : SystemTime) :
    Sampled (s.updateRoute a p now) := by
  intro n r hr
  simp only [State.updateRoute, Map.lookup_upsert] at hr
  split at hr
  · cases hr
    exact CircularBuffer.pushBack_ne_nil (by decide) _ _
  · exact h n r hr

private theorem indifferent : Indifferent Sampled where
  subscribe := fun _ _ _ ↦ id
  unsubscribe := fun _ _ _ ↦ id
  setRoute := fun _ _ _ ↦ id
  dropRoute := fun _ _ ↦ id

/-- The selection among sampled routes does not panic. -/
theorem getBestNodeToRedirect? (h : Sampled s) (v : VideoId) :
    s.getBestNodeToRedirect? v = some (s.getBestNodeToRedirect v) := by
  have hdelay : ∀ e ∈ s.routesListing v,
      e.2.averageDelayToServer? = some e.2.averageDelayToServer := by
    intro e he
    have hne := h e.1 e.2 (State.mem_routesListing.mp he).1
    exact div?_eq (Nat.pos_iff_ne_zero.mp (List.length_pos_of_ne_nil hne))
  rw [State.getBestNodeToRedirect?, selectNear?_eq hdelay, State.getBestNodeToRedirect_eq]
  rfl

end Sampled

/-- While each route has a sample, `g` does not panic and does what `m` does. -/
abbrev Safe {α : Type} (g : PanickingHandler α) (m : Handler α) : Prop :=
  NoPanic (OnState Sampled) g m (fun _ ↦ OnState Sampled) fun _ ↦ OnState Sampled

namespace Safe

variable {α : Type} {v : VideoId} {a : SocketAddr}

private theorem lift {m : Handler α} (h : Maintains (OnState Sampled) m) : Safe (liftM m) m :=
  NoPanic.lift h

/-- The state that is read has samples. -/
theorem bind_getState {g : State → PanickingHandler α} {f : State → Handler α}
    (h : ∀ s, Sampled s → Safe (g s) (f s)) :
    Safe (liftM getState >>= g) (getState >>= f) where
  eq_some := fun c hc ↦ (h c.state hc).eq_some c hc
  triple := fun c hc ↦ (h c.state hc).triple c hc

private theorem modifyState {f : State → State} (hf : ∀ s, Sampled s → Sampled (f s)) :
    Safe (liftM (modifyState f)) (modifyState f) :=
  lift (modifyState_frame hf)

private theorem requestVideoToNode {n : SocketAddr} :
    Safe (liftM (requestVideoToNode v n)) (requestVideoToNode v n) :=
  lift Sampled.indifferent.requestVideoToNode

private theorem handleRequestVideo : Safe (handleRequestVideo? v a) (handleRequestVideo v a) := by
  apply NoPanic.bind
  · exact modifyState fun _ hs ↦ hs
  intro _
  apply bind_getState
  intro s hs
  apply NoPanic.ite
  · exact fun _ ↦ NoPanic.pure fun _ ↦ id
  · intro _
    apply NoPanic.bind_value (hs.getBestNodeToRedirect? v)
    cases s.getBestNodeToRedirect v with
    | some node => exact requestVideoToNode
    | none => exact modifyState fun _ hs ↦ hs

private theorem handleClientPing (n : UInt64) (requested : List VideoId) :
    Safe (handleClientPing? n requested a) (handleClientPing n requested a) := by
  rw [handleClientPing_eq]
  apply bind_getState
  intro s _
  apply NoPanic.bind (lift now_frame)
  intro t
  apply NoPanic.bind
  · exact modifyState fun _ hs ↦ hs
  intro _
  apply NoPanic.bind (Q := fun _ ↦ OnState Sampled)
  · apply NoPanic.forM
    intro v _
    apply bind_getState
    intro s _
    exact NoPanic.ite (fun _ ↦ NoPanic.pure fun _ ↦ id) fun _ ↦ handleRequestVideo
  intro _
  apply bind_getState
  intro u _
  apply NoPanic.bind (lift (Sampled.indifferent.stopUnrequested requested u))
  intro _
  exact lift (send_frame _ a)

private theorem redirectVideos (vs : List VideoId) :
    Safe (redirectVideos? vs) (redirectVideos vs) := by
  induction vs with
  | nil => exact NoPanic.pure fun _ ↦ id
  | cons v vs ih =>
    apply bind_getState
    intro s hs
    apply NoPanic.bind_value (hs.getBestNodeToRedirect? v)
    cases s.getBestNodeToRedirect v with
    | some node =>
      apply NoPanic.bind (lift Sampled.indifferent.requestVideoToNode.attempt)
      exact fun _ ↦ ih
    | none =>
      apply ih.bind
      exact fun _ ↦ NoPanic.pure fun _ ↦ id

private theorem handleUnresponsiveNode :
    Safe (handleUnresponsiveNode? a) (handleUnresponsiveNode a) := by
  apply bind_getState
  intro s _
  apply NoPanic.bind (lift (Maintains.forM fun v _ ↦ Sampled.indifferent.handleStopVideo.attempt))
  intro _
  apply (redirectVideos _).bind
  intro remaining
  apply NoPanic.bind (lift (connectToParents_frame remaining))
  exact fun _ ↦ modifyState fun _ hs ↦ hs

/-- Both callers mark the node first. -/
theorem giveUp : Safe (do Node.modifyState fun s ↦ s.markUnresponsive a; handleUnresponsiveNode? a)
    (do Node.modifyState fun s ↦ s.markUnresponsive a; Node.handleUnresponsiveNode a) := by
  apply NoPanic.bind
  · exact modifyState fun s hs ↦ hs.markUnresponsive a
  exact fun _ ↦ handleUnresponsiveNode

end Safe

namespace Sampled

private theorem handleFloodPacket (a : SocketAddr) (p : FloodPacket) :
    Maintains (OnState Sampled) (handleFloodPacket a p) := by
  apply indifferent.handleFloodPacket
  · exact fun _ _ hs ↦ hs
  · exact fun s t hs ↦ hs.updateRoute a p t
  · exact fun _ _ hs ↦ hs

private theorem handleVideoPacket (packet : VideoPacket) :
    Maintains (OnState Sampled) (handleVideoPacket packet) := by
  apply getState_frame.bind
  intro t
  apply now_frame.bind
  intro time
  apply Maintains.bind
  · exact modifyState_frame fun _ hs ↦ hs
  intro _
  apply Maintains.ite
  · exact fun _ ↦ Maintains.pure ()
  · intro _
    cases t.interested.lookup packet.streamId with
    | some subscribers => exact Maintains.forM fun addr _ ↦ send_frame _ addr
    | none => exact Maintains.pure ()

end Sampled

/-- While each route has a sample, no handler panics. -/
theorem Safe.handleInput (input : Input) : Safe (handleInput? input) (handleInput input) := by
  rcases input with ⟨packet, addr⟩ | addr | _ | _ | ⟨target, result⟩ | ⟨addr, result⟩
  · rcases packet with packet | (⟨n, requested⟩ | _ | packet) | (v | v) | _
    · exact lift (Sampled.handleVideoPacket packet)
    · exact handleClientPing n requested
    · exact modifyState (f := fun s ↦ s.registerNewNeighbour addr.ip) fun _ hs ↦ hs
    · exact lift (Sampled.handleFloodPacket addr packet)
    · exact handleRequestVideo
    · exact lift Sampled.indifferent.handleStopVideo
    · exact lift fun _ hc ↦ hc
  · apply bind_getState
    intro s _
    exact NoPanic.ite (fun _ ↦ giveUp) fun _ ↦ lift fun _ hc ↦ hc
  · exact lift Sampled.indifferent.clientHealthCheck
  · exact lift Sampled.indifferent.videoHealthCheck
  · apply bind_getState
    intro s _
    exact NoPanic.ite (fun _ ↦ giveUp) fun _ ↦ NoPanic.pure fun _ hc ↦ hc
  · exact lift (handleParentAnswer_frame (fun _ _ hs ↦ hs) result)

section Runs

variable {id : NodeId} {neighbours : List IpAddr} {localAddr : SocketAddr} {s : State}
  {tr : List (State × Event)}

/-- In every state of every run each route has a sample. -/
theorem sampled_of_run (hrun : Run Step (.new id neighbours localAddr) tr s) : Sampled s := by
  apply hrun.invariant (I := Sampled)
  · rintro s e t hs ⟨hview, rfl⟩
    exact Triple.finalState (Safe.handleInput e.input).triple (hs.reorder hview)
  · intro n r hr
    cases hr

/-- Whatever a node meets after a run, its handler does not panic. -/
theorem not_panics (hrun : Run Step (.new id neighbours localAddr) tr s) {e : Event}
    (hview : s.Reorder e.view) :
    handleInput? e.input (.start e.env e.view) =
      some (handleInput e.input (.start e.env e.view)) :=
  (Safe.handleInput e.input).eq_some _ ((sampled_of_run hrun).reorder hview)

end Runs
end PessiStreamer.Node
