import PessiStreamer.Base.Effect
import PessiStreamer.Node.Update

/-!
# Packet handlers of a node

`node/src/handle.rs` and the asynchronous methods of `node/src/node.rs`, each run as one
atomic computation on the node's state. `self.socket.send_reliable(..).await?` fails or
returns once the first copy is handed to the network; what its acknowledgement or timeout
sets off later is a task of its own (`handleSendFloodPacketResult`, `handleParentAnswer`).
-/

namespace PessiStreamer.Node
open Base Common

/-- The errors a handler passes up to its task. -/
inductive HandlerError where
  | socket (e : ReliableUdpSocketError)
  /-- "Received unexpected packet" -/
  | unexpectedPacket
  /-- a panic: `unwrap` of `None` -/
  | unwrapNone
  deriving DecidableEq, Repr

/-- What one run of a handler meets outside the node: the clock, and for each of its sends,
in order, whether the socket takes the datagram. -/
structure Env where
  now : SystemTime
  sendResult : Nat → Except ReliableUdpSocketError Unit

/-- Every send of the run succeeds. -/
def Env.AllOk (env : Env) : Prop := ∀ i, env.sendResult i = .ok ()

/-- An environment in which every send succeeds. -/
def Env.calm (now : SystemTime) : Env := ⟨now, fun _ ↦ .ok ()⟩

/-- In a calm environment all sends succeed. -/
theorem Env.calm_allOk (now : SystemTime) : (Env.calm now).AllOk := fun _ ↦ rfl

/-- A handler run in progress. -/
structure Ctx where
  env : Env
  state : State
  /-- the number of sends tried so far -/
  attempts : Nat
  /-- the packets handed to the network so far, oldest first -/
  sent : List (SocketAddr × Packet)

/-- A handler runs on a state of its run, and may fail. -/
abbrev Handler := EStateM HandlerError Ctx

namespace Ctx

/-- The run goes on with another state of the node. -/
def setState (c : Ctx) (s : State) : Ctx := { c with state := s }

/-- The context after one more send. -/
def push (c : Ctx) (packet : Packet) (addr : SocketAddr) : Ctx :=
  { c with attempts := c.attempts + 1, sent := c.sent ++ [(addr, packet)] }

/-- The context after one more failed send. -/
def fail (c : Ctx) : Ctx := { c with attempts := c.attempts + 1 }

end Ctx

/-- The state of the node. -/
def getState : Handler State := fun c ↦ .ok c.state c

/-- The time of the run. -/
def now : Handler SystemTime := fun c ↦ .ok c.env.now c

/-- Change the state of the node. -/
def modifyState (f : State → State) : Handler Unit := fun c ↦ .ok () (c.setState (f c.state))

/-- The first transmission of `send_reliable`; `common/src/reliable.rs:77`. Sends of
`send_unreliable_broadcast` behave alike for the sender. -/
def send (packet : Packet) (addr : SocketAddr) : Handler Unit := fun c ↦
  match c.env.sendResult c.attempts with
  | .ok () => .ok () (c.push packet addr)
  | .error e => .error (.socket e) c.fail

/-- `send_unreliable_broadcast` stops at the first send that fails;
`common/src/reliable.rs:122`. -/
def sendUnreliableBroadcast (packet : Packet) (addrs : List SocketAddr) : Handler Unit :=
  addrs.forM fun addr ↦ send packet addr

/-- `State::request_video_to_node`; `node/src/node.rs:317`. -/
def requestVideoToNode (videoId : VideoId) (node : SocketAddr) : Handler Unit := do
  send (.serverPacket (.requestVideo videoId)) node
  modifyState fun s ↦ s.setRoute videoId node

/-- `State::handle_request_video`; `node/src/handle.rs:48`. -/
def handleRequestVideo (videoId : VideoId) (addr : SocketAddr) : Handler Unit := do
  modifyState fun s ↦ s.subscribe videoId addr
  let s ← getState
  if (s.videoRoutes.lookup videoId).isSome then
    -- already receiving this video
    pure ()
  else
    match s.getBestNodeToRedirect videoId with
    | some node => requestVideoToNode videoId node
    | none =>
      modifyState fun s ↦ s.enqueue [videoId]

/-- `State::handle_stop_video`; `node/src/handle.rs:81`. -/
def handleStopVideo (videoId : VideoId) (addr : SocketAddr) : Handler Unit := do
  modifyState fun s ↦ s.unsubscribe videoId addr
  let s ← getState
  if (s.subscribers videoId).length = 0 then
    match s.videoRoutes.lookup videoId with
    | some nodeAddr => do
      modifyState fun s ↦ s.dropRoute videoId
      send (.serverPacket (.stopVideo videoId)) nodeAddr
    | none => pure ()
  else pure ()

/-- `State::handle_client_ping`; `node/src/handle.rs:14`. The list of videos answered is the
one from before the ping is processed. -/
def handleClientPing (sequenceNumber : UInt64) (requestedVideos : List VideoId)
    (addr : SocketAddr) : Handler Unit := do
  let s ← getState
  let t ← now
  let packet := Packet.clientPacket (.videoList {
    sequenceNumber := sequenceNumber
    videos := s.getVideos addr
    answerCreationDate := t })
  modifyState fun s ↦ s.recordPing addr t
  requestedVideos.forM fun videoId ↦ do
    let s ← getState
    if (s.videoRoutes.lookup videoId).isSome then pure ()
    else handleRequestVideo videoId addr
  let s ← getState
  s.interested.entries.forM fun video ↦
    if video.1 ∉ requestedVideos ∧ addr ∈ video.2 then handleStopVideo video.1 addr
    else pure ()
  send packet addr

/-- The queued videos a list offers; `node/src/node.rs:212`. -/
def State.pendingListed (s : State) (receivedVideoList : List (VideoId × String)) :
    List VideoId :=
  s.pendingVideoRequests.filter fun videoId ↦
    receivedVideoList.any fun video ↦ video.1 = videoId

/-- `State::check_pending_videos`; `node/src/node.rs:207`. A failed request is logged, and the
video leaves the queue all the same. -/
def checkPendingVideos (fromAddr : SocketAddr) (receivedVideoList : List (VideoId × String)) :
    Handler Unit := do
  let s ← getState
  let toRemove := s.pendingListed receivedVideoList
  toRemove.forM fun videoId ↦ attempt (requestVideoToNode videoId fromAddr)
  modifyState fun s ↦ s.dequeue toRemove

/-- The neighbours a flood packet from `fromAddr` is passed on to; `node/src/handle.rs:140`. -/
def State.broadcastTo (s : State) (fromAddr : SocketAddr) : List SocketAddr :=
  (s.neighbours.map IpAddr.atPort).filter (· ≠ fromAddr)

/-- `State::handle_flood_packet`; `node/src/handle.rs:107`. The result of each send goes to a
task of its own, so a failed send does not end the loop. -/
def handleFloodPacket (fromAddr : SocketAddr) (floodPacket : FloodPacket) : Handler Unit := do
  let s ← getState
  if s.id ∈ floodPacket.visitedNodes then
    -- loop detected, ignore
    pure ()
  else do
    let t ← now
    modifyState fun s ↦ s.updateVideoNames floodPacket.videosAvailable
    modifyState fun s ↦ s.updateRoute fromAddr floodPacket t
    checkPendingVideos fromAddr floodPacket.videosAvailable
    let s ← getState
    let visitedNodes := floodPacket.visitedNodes ++ [s.id]
    (s.broadcastTo fromAddr).forM fun addr ↦ attempt do
      let s ← getState
      send (.nodePacket (.floodPacket { floodPacket with
        myParents := s.getParents
        visitedNodes := visitedNodes
        videosAvailable := s.getVideos addr })) addr

/-- `State::connect_to_node_parent` up to the task it spawns; `node/src/node.rs:183`. -/
def connectToNodeParent (nodeParentAddr : SocketAddr) : Handler Unit :=
  send (.nodePacket .newNeighbour) nodeParentAddr

/-- The task `connect_to_node_parent` spawns, once the receiver has answered;
`node/src/node.rs:189`. -/
def handleParentAnswer (nodeParentAddr : SocketAddr)
    (result : Except RecvError ReliablePacketResult) : Handler Unit :=
  match result with
  | .ok (.acknowledged _) => modifyState fun s ↦ s.registerNewNeighbour nodeParentAddr.ip
  | .ok .timeout => pure ()
  | .error _ => pure ()

/-- The videos a node receives from `addr`; `node/src/node.rs:238`. -/
def State.videosReceiving (s : State) (addr : SocketAddr) : List VideoId :=
  (s.videoRoutes.entries.filter fun e ↦ e.2 = addr).map fun e ↦ e.1

/-- The videos a node sends to `addr`; `node/src/node.rs:245`. -/
def State.videosSending (s : State) (addr : SocketAddr) : List VideoId :=
  (s.interested.entries.filter fun e ↦ addr ∈ e.2).map fun e ↦ e.1

/-- The loop of `handle_unresponsive_node` that redirects the videos it received, and
returns those left without a node; `node/src/node.rs:269`. -/
def redirectVideos : List VideoId → Handler (List VideoId)
  | [] => pure []
  | videoId :: videos => do
    let s ← getState
    match s.getBestNodeToRedirect videoId with
    | some newNodeAddr => do
      attempt (requestVideoToNode videoId newNodeAddr)
      redirectVideos videos
    | none => do
      let remaining ← redirectVideos videos
      return videoId :: remaining

/-- The parents a node last advertised; `node/src/node.rs:282`. -/
def State.parentsOf (s : State) (addr : SocketAddr) : List SocketAddr :=
  match (s.availableRoutes.lookup addr).map RouteInfo.nodeType with
  | some (.parent parentData) => parentData.parents
  | _ => []

/-- The part of `handle_unresponsive_node` that connects to the parents of the node when
videos are left; `node/src/node.rs:282`. -/
def connectToParents (addr : SocketAddr) (remainingVideos : List VideoId) : Handler Unit := do
  let s ← getState
  if remainingVideos = [] then pure ()
  else (s.parentsOf addr).forM fun parent ↦
    -- ignore connecting to self
    if parent = s.localAddr then pure ()
    else attempt (connectToNodeParent parent)

/-- `State::handle_unresponsive_node`; `node/src/node.rs:235`. -/
def handleUnresponsiveNode (addr : SocketAddr) : Handler Unit := do
  let s ← getState
  let videosReceiving := s.videosReceiving addr
  let videosSending := s.videosSending addr
  videosSending.forM fun videoId ↦ attempt (handleStopVideo videoId addr)
  let remainingVideos ← redirectVideos videosReceiving
  connectToParents addr remainingVideos
  modifyState fun s ↦ s.enqueue remainingVideos

/-- The results that speak against the target; `node/src/handle.rs:176`. A dropped sender and
a payload that could not be encoded do not. -/
def floodUnreached :
    Except ReliableUdpSocketError (Except RecvError ReliablePacketResult) → Bool
  | .error .ioError => true
  | .ok (.ok .timeout) => true
  | _ => false

/-- `State::handle_send_flood_packet_result`, once the receiver has answered;
`node/src/handle.rs:165`. -/
def handleSendFloodPacketResult (target : SocketAddr)
    (result : Except ReliableUdpSocketError (Except RecvError ReliablePacketResult)) :
    Handler Unit := do
  let s ← getState
  if floodUnreached result ∧
      (s.availableRoutes.lookup target).map RouteInfo.status = some .active then do
    modifyState fun s ↦ s.markUnresponsive target
    handleUnresponsiveNode target
  else pure ()

/-- The part of `handle_video_packet` after the clock was read; `node/src/handle.rs:192`. The
comparison is that of the source, which drops the packets with a number above the expected
one. -/
def handleVideoPacket (packet : VideoPacket) : Handler Unit := do
  let s ← getState
  let t ← now
  let lastSequenceNumber :=
    (s.lastVideoSequenceNumber.lookup packet.streamId).getD packet.sequenceNumber
  modifyState fun s ↦ s.recordVideoPacket packet t
  let expected := lastSequenceNumber + 1
  if expected < packet.sequenceNumber then
    pure ()
  else
    match s.interested.lookup packet.streamId with
    | some subscribers => sendUnreliableBroadcast (.videoPacket packet) subscribers
    | none => pure ()

/-- `State::handle_packet`; `node/src/node.rs:328`. -/
def handlePacket (packet : Packet) (addr : SocketAddr) : Handler Unit :=
  match packet with
  | .nodePacket (.clientPing sequenceNumber requestedVideos) =>
    handleClientPing sequenceNumber requestedVideos addr
  | .nodePacket (.floodPacket packet) => handleFloodPacket addr packet
  | .nodePacket .newNeighbour => modifyState fun s ↦ s.registerNewNeighbour addr.ip
  | .serverPacket (.requestVideo id) => handleRequestVideo id addr
  | .serverPacket (.stopVideo id) => handleStopVideo id addr
  | .videoPacket packet => handleVideoPacket packet
  | .clientPacket _ => throw .unexpectedPacket

end PessiStreamer.Node
