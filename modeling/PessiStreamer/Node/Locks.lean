import PessiStreamer.Base.Guard
import PessiStreamer.Node.Ping

/-!
# The guards the routines of a node hold

Every `DashMap` is split into shards, and every access to an entry takes a guard on its shard,
whether the entry exists or not. The routines below are those of `PessiStreamer.Node.Handle`
with these guards: a guard that the source binds is held until its binding goes out of scope,
the guard of an iterated entry during its turn. An iteration that only collects, as in
`get_parents`, is a loop without a body.
-/

namespace PessiStreamer.Node
open Base Common

/-- The maps and locks of a node; a lock is a table of one shard. -/
inductive Table where
  | videoNames
  | interested
  | lastPings
  | availableRoutes
  | videoRoutes
  | lastVideoSequenceNumber
  | lastVideoPacketTime
  | neighbours
  | pendingVideoRequests
  /-- of the socket -/
  | pendingPackets
  deriving DecidableEq

/-- A shard of a table. -/
structure Shard where
  table : Table
  index : Nat
  deriving DecidableEq

/-- The shard of every key, in each table. -/
structure Sharding where
  video : VideoId → Table → Nat
  addr : SocketAddr → Table → Nat
  /-- by the number of the send -/
  packet : Nat → Nat

/-- A routine with its guards. -/
abbrev Locking := Guarded Shard HandlerError Ctx

namespace Locking

/-- Take a guard for the time of one access. -/
def access {α : Type} (g : Guard Shard) (m : Handler α) : Locking α :=
  Guarded.holding g (liftM m)

/-- Take a guard and let it go. -/
def touch (g : Guard Shard) : Locking PUnit := access g (pure ())

end Locking

/-- The number of the next send. -/
def attempts : Handler Nat := fun c ↦ .ok c.attempts c

namespace Sharding
open Guarded Locking

variable (sh : Sharding)

/-- A guard for reading the entry of a video. -/
def readVideo (t : Table) (v : VideoId) : Guard Shard := .read ⟨t, sh.video v t⟩

/-- A guard for writing the entry of a video. -/
def writeVideo (t : Table) (v : VideoId) : Guard Shard := .write ⟨t, sh.video v t⟩

/-- A guard for reading the entry of an address. -/
def readAddr (t : Table) (a : SocketAddr) : Guard Shard := .read ⟨t, sh.addr a t⟩

/-- A guard for writing the entry of an address. -/
def writeAddr (t : Table) (a : SocketAddr) : Guard Shard := .write ⟨t, sh.addr a t⟩

/-- The guard is over a shard of its table. -/
@[simp] theorem readVideo_table (t : Table) (v : VideoId) :
    (sh.readVideo t v).resource.table = t := rfl

/-- The guard is over a shard of its table. -/
@[simp] theorem writeVideo_table (t : Table) (v : VideoId) :
    (sh.writeVideo t v).resource.table = t := rfl

/-- The guard is over a shard of its table. -/
@[simp] theorem readAddr_table (t : Table) (a : SocketAddr) :
    (sh.readAddr t a).resource.table = t := rfl

/-- The guard is over a shard of its table. -/
@[simp] theorem writeAddr_table (t : Table) (a : SocketAddr) :
    (sh.writeAddr t a).resource.table = t := rfl

/-- `send_reliable` enters the packet among the pending ones after its first transmission;
`common/src/reliable.rs:104`. -/
def send (packet : Packet) (addr : SocketAddr) : Locking Unit := do
  let i ← attempts
  Node.send packet addr
  touch (.write ⟨.pendingPackets, sh.packet i⟩)

/-- The routes counted for one candidate; `node/src/node.rs:147`. -/
def getNumberOfVideosRequestedViaNode : Locking Unit := do
  let s ← getState
  iterate (fun e ↦ sh.readVideo .videoRoutes e.1) s.videoRoutes.entries fun _ ↦ pure ()

/-- The second pass of `get_best_node_to_redirect`. While it looks at an entry `min_by_key` still
holds the best one before; here all entries before it are held. -/
def rank : List (Sigma fun _ : SocketAddr ↦ RouteInfo) → Locking Unit
  | [] => pure ()
  | e :: es => holding (sh.readAddr .availableRoutes e.1) do
    getNumberOfVideosRequestedViaNode sh
    rank es

/-- `node/src/node.rs:113` -/
def getBestNodeToRedirect (videoId : VideoId) : Locking (Option SocketAddr) := do
  let s ← getState
  iterate (fun e ↦ sh.readAddr .availableRoutes e.1) s.availableRoutes.entries fun _ ↦ pure ()
  rank sh s.availableRoutes.entries
  return s.getBestNodeToRedirect videoId

/-- `node/src/node.rs:154` -/
def getVideos (toAddr : SocketAddr) : Locking (List (VideoId × String)) := do
  let s ← getState
  iterate (fun e ↦ sh.readVideo .videoNames e.1) s.videoNames.entries fun _ ↦
    iterate (fun e ↦ sh.readAddr .availableRoutes e.1) s.availableRoutes.entries fun _ ↦ pure ()
  return s.getVideos toAddr

/-- `node/src/node.rs:171` -/
def getParents : Locking (List SocketAddr) := do
  let s ← getState
  iterate (fun e ↦ sh.readAddr .availableRoutes e.1) s.availableRoutes.entries fun _ ↦ pure ()
  return s.getParents

/-- `node/src/node.rs:317` -/
def requestVideoToNode (videoId : VideoId) (node : SocketAddr) : Locking Unit := do
  send sh (.serverPacket (.requestVideo videoId)) node
  access (sh.writeVideo .videoRoutes videoId) (modifyState fun s ↦ s.setRoute videoId node)

/-- `node/src/handle.rs:48`; the guard of the entry lives until the handler returns. -/
def handleRequestVideo (videoId : VideoId) (addr : SocketAddr) : Locking Unit :=
  holding (sh.writeVideo .interested videoId) do
    modifyState fun s ↦ s.subscribe videoId addr
    let s ← access (sh.readVideo .videoRoutes videoId) getState
    if (s.videoRoutes.lookup videoId).isSome then
      pure ()
    else
      match ← getBestNodeToRedirect sh videoId with
      | some node => requestVideoToNode sh videoId node
      | none =>
        access (.write ⟨.pendingVideoRequests, 0⟩) (modifyState fun s ↦ s.enqueue [videoId])

/-- `node/src/handle.rs:81` -/
def handleStopVideo (videoId : VideoId) (addr : SocketAddr) : Locking Unit := do
  access (sh.writeVideo .interested videoId) (modifyState fun s ↦ s.unsubscribe videoId addr)
  let s ← access (sh.readVideo .interested videoId) getState
  if (s.subscribers videoId).length = 0 then
    touch (sh.writeVideo .videoRoutes videoId)
    match s.videoRoutes.lookup videoId with
    | some nodeAddr => do
      modifyState fun s ↦ s.dropRoute videoId
      send sh (.serverPacket (.stopVideo videoId)) nodeAddr
    | none => pure ()
  else pure ()

/-- One turn of the first loop of `handle_client_ping`. -/
def requestMissing (addr : SocketAddr) (videoId : VideoId) : Locking Unit := do
  let s ← access (sh.readVideo .videoRoutes videoId) getState
  if (s.videoRoutes.lookup videoId).isSome then pure ()
  else handleRequestVideo sh videoId addr

/-- One turn of the second loop of `handle_client_ping`. -/
def stopUnrequested (requestedVideos : List VideoId) (addr : SocketAddr)
    (video : Sigma fun _ : VideoId ↦ List SocketAddr) : Locking Unit :=
  if video.1 ∉ requestedVideos ∧ addr ∈ video.2 then handleStopVideo sh video.1 addr
  else pure ()

/-- `node/src/handle.rs:14`; the second loop holds the guard of the entry it visits. -/
def handleClientPing (sequenceNumber : UInt64) (requestedVideos : List VideoId)
    (addr : SocketAddr) : Locking Unit := do
  let videos ← getVideos sh addr
  let t ← now
  access (sh.writeAddr .lastPings addr) (modifyState fun s ↦ s.recordPing addr t)
  requestedVideos.forM (requestMissing sh addr)
  let s ← getState
  iterate (fun video ↦ sh.readVideo .interested video.1) s.interested.entries
    (stopUnrequested sh requestedVideos addr)
  send sh (pingAnswer sequenceNumber videos t) addr

/-- `node/src/node.rs:207` -/
def checkPendingVideos (fromAddr : SocketAddr) (receivedVideoList : List (VideoId × String)) :
    Locking Unit := do
  let s ← access (.read ⟨.pendingVideoRequests, 0⟩) getState
  let toRemove := s.pendingListed receivedVideoList
  toRemove.forM fun videoId ↦ Guarded.attempt (requestVideoToNode sh videoId fromAddr)
  access (.write ⟨.pendingVideoRequests, 0⟩) (modifyState fun s ↦ s.dequeue toRemove)

/-- `node/src/handle.rs:107` -/
def handleFloodPacket (fromAddr : SocketAddr) (floodPacket : FloodPacket) : Locking Unit := do
  let s ← getState
  if s.id ∈ floodPacket.visitedNodes then
    pure ()
  else do
    let t ← now
    iterate (fun video ↦ sh.writeVideo .videoNames video.1) floodPacket.videosAvailable fun _ ↦
      pure ()
    modifyState fun s ↦ s.updateVideoNames floodPacket.videosAvailable
    access (sh.writeAddr .availableRoutes fromAddr)
      (modifyState fun s ↦ s.updateRoute fromAddr floodPacket t)
    checkPendingVideos sh fromAddr floodPacket.videosAvailable
    let s ← access (.read ⟨.neighbours, 0⟩) getState
    let visitedNodes := floodPacket.visitedNodes ++ [s.id]
    (s.broadcastTo fromAddr).forM fun addr ↦ Guarded.attempt do
      let parents ← getParents sh
      let videos ← getVideos sh addr
      send sh (.nodePacket (.floodPacket { floodPacket with
        myParents := parents
        visitedNodes := visitedNodes
        videosAvailable := videos })) addr

/-- The loop of `handle_unresponsive_node` over the videos it received. -/
def redirectVideos : List VideoId → Locking (List VideoId)
  | [] => pure []
  | videoId :: videos => do
    match ← getBestNodeToRedirect sh videoId with
    | some newNodeAddr => do
      Guarded.attempt (requestVideoToNode sh videoId newNodeAddr)
      redirectVideos videos
    | none => do
      let remaining ← redirectVideos videos
      return videoId :: remaining

/-- The part of `handle_unresponsive_node` that connects to the parents of the node. -/
def connectToParents (addr : SocketAddr) (remainingVideos : List VideoId) : Locking Unit := do
  let s ← access (sh.readAddr .availableRoutes addr) getState
  if remainingVideos = [] then pure ()
  else (s.parentsOf addr).forM fun parent ↦
    if parent = s.localAddr then pure ()
    else Guarded.attempt (send sh (.nodePacket .newNeighbour) parent)

/-- `node/src/node.rs:235` -/
def handleUnresponsiveNode (addr : SocketAddr) : Locking Unit := do
  let s ← getState
  iterate (fun e ↦ sh.readVideo .videoRoutes e.1) s.videoRoutes.entries fun _ ↦ pure ()
  iterate (fun e ↦ sh.readVideo .interested e.1) s.interested.entries fun _ ↦ pure ()
  (s.videosSending addr).forM fun videoId ↦ Guarded.attempt (handleStopVideo sh videoId addr)
  let remainingVideos ← redirectVideos sh (s.videosReceiving addr)
  connectToParents sh addr remainingVideos
  access (.write ⟨.pendingVideoRequests, 0⟩) (modifyState fun s ↦ s.enqueue remainingVideos)

/-- `node/src/handle.rs:165`; the guard of the route is dropped before the node is given up. -/
def handleSendFloodPacketResult (target : SocketAddr)
    (result : Except ReliableUdpSocketError (Except RecvError ReliablePacketResult)) :
    Locking Unit := do
  let s ← getState
  if floodUnreached result then
    if (s.availableRoutes.lookup target).map RouteInfo.status = some .active then
      access (sh.writeAddr .availableRoutes target)
        (modifyState fun s ↦ s.markUnresponsive target)
      handleUnresponsiveNode sh target
    else touch (sh.writeAddr .availableRoutes target)
  else pure ()

/-- `node/src/handle.rs:192`; the guard of the list is held while the packet is passed on. -/
def handleVideoPacket (packet : VideoPacket) : Locking Unit := do
  let s ← access (sh.writeVideo .lastVideoSequenceNumber packet.streamId) getState
  let t ← now
  let lastSequenceNumber :=
    (s.lastVideoSequenceNumber.lookup packet.streamId).getD packet.sequenceNumber
  access (sh.writeVideo .lastVideoPacketTime packet.streamId)
    (modifyState fun s ↦ s.recordVideoPacket packet t)
  let expected := lastSequenceNumber + 1
  if expected < packet.sequenceNumber then
    pure ()
  else holding (sh.readVideo .interested packet.streamId) do
    match s.interested.lookup packet.streamId with
    | some subscribers => sendUnreliableBroadcast (.videoPacket packet) subscribers
    | none => pure ()

/-- One turn of the second loop of `run_check_neighbours_task`. -/
def neighbourUnresponsive (addr : SocketAddr) : Locking Unit := do
  let s ← getState
  if (s.availableRoutes.lookup addr).isSome then do
    access (sh.writeAddr .availableRoutes addr) (modifyState fun s ↦ s.markUnresponsive addr)
    handleUnresponsiveNode sh addr
  else access (sh.writeAddr .availableRoutes addr) (throw .unwrapNone)

/-- `node/src/node.rs:352` -/
def checkNeighbours : Locking Unit := do
  let s ← getState
  let t ← now
  iterate (fun e ↦ sh.readAddr .availableRoutes e.1) s.availableRoutes.entries fun _ ↦ pure ()
  (s.staleParents t).forM (neighbourUnresponsive sh)

/-- `node/src/node.rs:391`; the ping of the client stays guarded while its videos are stopped. -/
def clientHealthCheck : Locking Unit := do
  let s ← getState
  let t ← now
  iterate (fun ping ↦ sh.readAddr .lastPings ping.1) s.lastPings.entries fun ping ↦ do
    let s ← getState
    if CLIENT_PING_INTERVAL * 3 < durationSince t ping.2 then
      iterate (fun e ↦ sh.readVideo .interested e.1) s.interested.entries fun _ ↦ pure ()
      (s.videosSending ping.1).forM fun videoId ↦
        Guarded.attempt (handleStopVideo sh videoId ping.1)
    else pure ()

/-- `node/src/node.rs:422`; the guard of the route is dropped before the request. -/
def videoHealthCheck : Locking Unit := do
  let s ← getState
  let t ← now
  iterate (fun e ↦ sh.readVideo .lastVideoPacketTime e.1) s.lastVideoPacketTime.entries
    fun packet ↦ do
      let s ← getState
      if VIDEO_PACKET_MAX_DELAY < durationSince t packet.2 then
        touch (sh.readVideo .videoRoutes packet.1)
        match s.videoRoutes.lookup packet.1 with
        | some addr => requestVideoToNode sh packet.1 addr
        | none => pure ()
      else pure ()

end Sharding

end PessiStreamer.Node
