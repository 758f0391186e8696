import PessiStreamer.Base.Transition
import PessiStreamer.Node.Handle

/-!
# Tasks of a node and its atomic steps

The loops of `node/src/node.rs:352-441` and the step relation of a node: a step is a packet,
a sweep, a neighbour given up, or an answer that a spawned task was waiting for.
-/

namespace PessiStreamer.Node
open Base Common

/-- The parents whose last flood packet is too old; `node/src/node.rs:357`. -/
def State.staleParents (s : State) (now : SystemTime) : List SocketAddr :=
  (s.availableRoutes.entries.filter fun e ↦
    match e.2.status, e.2.nodeType with
    | .unresponsive, _ => false
    | .active, .child => false
    | .active, .parent parentData =>
      FLOOD_PACKET_INTERVAL * 3 < durationSince now parentData.dateLastFloodPacketReceived).map
    fun e ↦ e.1

/-- One turn of the second loop of `run_check_neighbours_task`; `node/src/node.rs:385`. -/
def neighbourUnresponsive (addr : SocketAddr) : Handler Unit := do
  let s ← getState
  if (s.availableRoutes.lookup addr).isSome then do
    modifyState fun s ↦ s.markUnresponsive addr
    handleUnresponsiveNode addr
  else
    throw .unwrapNone

/-- One sweep of `run_check_neighbours_task`. -/
def checkNeighbours : Handler Unit := do
  let s ← getState
  let t ← now
  (s.staleParents t).forM neighbourUnresponsive

/-- One turn of the loop of `run_client_health_check_task` over the last pings;
`node/src/node.rs:395`. -/
def checkClient (now : SystemTime) (ping : Sigma fun _ : SocketAddr ↦ SystemTime) :
    Handler Unit := do
  let s ← getState
  if CLIENT_PING_INTERVAL * 3 < durationSince now ping.2 then
    (s.videosSending ping.1).forM fun videoId ↦ attempt (handleStopVideo videoId ping.1)
  else pure ()

/-- One turn of `run_client_health_check_task`. -/
def clientHealthCheck : Handler Unit := do
  let s ← getState
  let t ← now
  s.lastPings.entries.forM (checkClient t)

/-- One turn of the loop of `run_video_health_check_task` over the videos;
`node/src/node.rs:426`. -/
def checkVideo (now : SystemTime) (packet : Sigma fun _ : VideoId ↦ SystemTime) :
    Handler Unit := do
  let s ← getState
  if VIDEO_PACKET_MAX_DELAY < durationSince now packet.2 then
    match s.videoRoutes.lookup packet.1 with
    | some addr => requestVideoToNode packet.1 addr
    | none => pure ()
  else pure ()

/-- One turn of `run_video_health_check_task`; its first failed send ends the task. -/
def videoHealthCheck : Handler Unit := do
  let s ← getState
  let t ← now
  s.lastVideoPacketTime.entries.forM (checkVideo t)

/-- What sets a node going. -/
inductive Input where
  /-- `run_packet_task` received a packet -/
  | packet (packet : Packet) (addr : SocketAddr)
  /-- `run_check_neighbours_task` gives up a neighbour it found silent -/
  | neighbourUnresponsive (addr : SocketAddr)
  | clientHealthCheck
  | videoHealthCheck
  /-- a flood packet was acknowledged, timed out or could not be sent -/
  | floodPacketResult (target : SocketAddr)
      (result : Except ReliableUdpSocketError (Except RecvError ReliablePacketResult))
  /-- a `NewNeighbour` packet was acknowledged or timed out -/
  | parentAnswer (addr : SocketAddr) (result : Except RecvError ReliablePacketResult)

/-- The input is a packet that reached the node. -/
def Input.isPacket : Input → Bool
  | .packet _ _ => true
  | _ => false

/-- The handler of an input. -/
def handleInput : Input → Handler Unit
  | .packet packet addr => handlePacket packet addr
  | .neighbourUnresponsive addr => neighbourUnresponsive addr
  | .clientHealthCheck => clientHealthCheck
  | .videoHealthCheck => videoHealthCheck
  | .floodPacketResult target result => handleSendFloodPacketResult target result
  | .parentAnswer addr result => handleParentAnswer addr result

/-- An input, what its handler meets outside the node, and the state it starts in, with the
maps in the order in which this run iterates them. -/
structure Event where
  input : Input
  env : Env
  view : State

/-- The node that the handler of an event gives up. -/
def Event.givesUp (e : Event) : Option SocketAddr :=
  match e.input with
  | .neighbourUnresponsive addr =>
    if (e.view.availableRoutes.lookup addr).isSome then some addr else none
  | .floodPacketResult target result =>
    if floodUnreached result ∧
        (e.view.availableRoutes.lookup target).map RouteInfo.status = some .active then
      some target
    else none
  | _ => none

/-- The subscribers that the handler of an event removes from a video. -/
def Event.Removes (e : Event) (v : VideoId) (b : SocketAddr) : Prop :=
  match e.input with
  | .packet (.serverPacket (.stopVideo u)) addr => v = u ∧ b = addr
  | .packet (.nodePacket (.clientPing _ requestedVideos)) addr =>
    v ∉ requestedVideos ∧ b = addr
  | .clientHealthCheck =>
    ∃ t, e.view.lastPings.lookup b = some t ∧ CLIENT_PING_INTERVAL * 3 < durationSince e.env.now t
  | _ => e.givesUp = some b

/-- The context a handler is started in. -/
def Ctx.start (env : Env) (s : State) : Ctx := ⟨env, s, 0, []⟩

/-- The context the handler of an event ends in. -/
def Event.after (e : Event) : Ctx := finalState (handleInput e.input) (.start e.env e.view)

/-- One atomic step. Maps are iterated in an order the code does not control. -/
def Step (s : State) (e : Event) (t : State) : Prop :=
  s.Reorder e.view ∧ t = e.after.state

/-- The states of a node started with the given identity and neighbours, after any run in
which every send succeeds. -/
def Reachable (id : NodeId) (neighbours : List IpAddr) (localAddr : SocketAddr) (s : State) :
    Prop :=
  ∃ tr, Run Step (.new id neighbours localAddr) tr s ∧ ∀ p ∈ tr, p.2.env.AllOk

/-- Handle inputs one after the other, in the iteration order the maps happen to have. -/
def simulate (s : State) : List (Input × Env) → State
  | [] => s
  | (input, env) :: rest => simulate (Event.after ⟨input, env, s⟩).state rest

/-- A simulation is a run over the same inputs. -/
theorem run_simulate (s : State) (inputs : List (Input × Env)) :
    ∃ tr, Run Step s tr (simulate s inputs) ∧
      tr.map (fun p ↦ (p.2.input, p.2.env)) = inputs := by
  induction inputs generalizing s with
  | nil => exact ⟨[], .refl s, rfl⟩
  | cons i rest ih =>
    obtain ⟨tr, hrun, htr⟩ := ih (Event.after ⟨i.1, i.2, s⟩).state
    have hstep : Step s ⟨i.1, i.2, s⟩ (Event.after ⟨i.1, i.2, s⟩).state := ⟨.refl s, rfl⟩
    exact ⟨_, hrun.head hstep, by simp [htr]⟩

/-- The steps of a simulation. -/
def record (s : State) : List (Input × Env) → List (State × Event)
  | [] => []
  | (input, env) :: rest =>
    (s, ⟨input, env, s⟩) :: record (Event.after ⟨input, env, s⟩).state rest

/-- The recorded states and events are a run. -/
theorem run_record (s : State) (inputs : List (Input × Env)) :
    Run Step s (record s inputs) (simulate s inputs) := by
  induction inputs generalizing s with
  | nil => exact .refl s
  | cons i rest ih =>
    have hstep : Step s ⟨i.1, i.2, s⟩ (Event.after ⟨i.1, i.2, s⟩).state := ⟨.refl s, rfl⟩
    exact Run.head hstep (ih _)

/-- A simulation whose sends succeed reaches a reachable state. -/
theorem reachable_simulate (id : NodeId) (neighbours : List IpAddr) (localAddr : SocketAddr)
    {inputs : List (Input × Env)} (hok : ∀ i ∈ inputs, i.2.AllOk) :
    Reachable id neighbours localAddr (simulate (.new id neighbours localAddr) inputs) := by
  obtain ⟨tr, hrun, htr⟩ := run_simulate (.new id neighbours localAddr) inputs
  refine ⟨tr, hrun, fun p hp ↦ hok (p.2.input, p.2.env) ?_⟩
  rw [← htr]
  exact List.mem_map_of_mem hp

end PessiStreamer.Node
