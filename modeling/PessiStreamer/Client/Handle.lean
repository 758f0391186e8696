import PessiStreamer.Base.Effect
import PessiStreamer.Base.Transition
import PessiStreamer.Client.State

/-!
# Operations of a client and its atomic steps

The methods and task loops of `client/src/client.rs`, each run as one atomic computation on
the client's state. Failed sends are logged and change nothing.
-/

namespace PessiStreamer.Client
open Base Common

/-- Why a handler of the client ends early. -/
inductive ClientError where
  | socket (e : ReliableUdpSocketError)
  /-- the process of the video player could not be started -/
  | launchFailed
  /-- a panic: `unwrap` of `None` -/
  | unwrapNone
  deriving DecidableEq, Repr

/-- What one run meets outside the client: the clock, for each of its sends, in order, whether
the socket takes the datagram, and whether the video player starts and takes data. -/
structure Env where
  now : SystemTime
  sendResult : Nat → Except ReliableUdpSocketError Unit
  launches : Bool
  writes : Bool

/-- A run in progress. -/
structure Ctx where
  env : Env
  state : State
  /-- the number of sends tried so far -/
  attempts : Nat
  /-- the packets handed to the network so far, oldest first -/
  sent : List (SocketAddr × Packet)

/-- A handler runs on a state of its run, and may fail. -/
abbrev Handler := EStateM ClientError Ctx

namespace State

/-- Enter the names an answer brings; `client/src/client.rs:191`. -/
def updateVideoNames (s : State) (videos : List (VideoId × String)) : State :=
  { s with videoNames := videos.foldl (fun m video ↦ m.insert video.1 video.2) s.videoNames }

/-- `client/src/client.rs:195`. -/
def dropPing (s : State) (sequenceNumber : UInt64) : State :=
  { s with pendingPings := s.pendingPings.erase sequenceNumber }

/-- `client/src/client.rs:379`. -/
def nextPing (s : State) : State := { s with pingSequenceNumber := s.pingSequenceNumber + 1 }

/-- `client/src/client.rs:389`. -/
def recordPing (s : State) (sequenceNumber : UInt64) (addr : SocketAddr) (now : SystemTime) :
    State :=
  { s with pendingPings := s.pendingPings.insert sequenceNumber (addr, now) }

/-- Enter the answer of a node, if the node is known; `client/src/client.rs:213`. -/
def answered (s : State) (addr : SocketAddr) (rtt : Duration) (videos : List VideoId)
    (now : SystemTime) : State :=
  { s with nodes := s.nodes.modify addr fun node ↦ node.registerPingAnswer rtt videos now }

/-- `client/src/client.rs:347`. -/
def markUnresponsive (s : State) (addr : SocketAddr) : State :=
  { s with nodes := s.nodes.modify addr fun node ↦ { node with status := .unresponsive } }

/-- Enter a video that is played; `client/src/client.rs:310`. -/
def startPlaying (s : State) (source : Option SocketAddr) (videoId : VideoId) : State :=
  { s with playingVideos := s.playingVideos.insert videoId ⟨source, 0, 0⟩ }

/-- `client/src/client.rs:179`, `client/src/client.rs:265`. -/
def stopPlaying (s : State) (videoId : VideoId) : State :=
  { s with playingVideos := s.playingVideos.erase videoId }

/-- `client/src/client.rs:230`, `client/src/client.rs:360`. -/
def setSource (s : State) (videoId : VideoId) (source : Option SocketAddr) : State :=
  { s with playingVideos := s.playingVideos.modify videoId fun video ↦
      { video with source := source } }

/-- Note number and size of a video packet; `client/src/client.rs:244`. -/
def recordVideoPacket (s : State) (packet : VideoPacket) : State :=
  { s with playingVideos := s.playingVideos.modify packet.streamId fun video ↦
      { video with
        lastSequenceNumber := packet.sequenceNumber
        bytesWritten := video.bytesWritten + .ofNat packet.streamData.length } }

end State

/-- The run goes on with another state of the client. -/
def Ctx.setState (c : Ctx) (s : State) : Ctx := { c with state := s }

/-- The state of the client. -/
def getState : Handler State := fun c ↦ .ok c.state c

/-- The time of the run. -/
def now : Handler SystemTime := fun c ↦ .ok c.env.now c

/-- Change the state of the client. -/
def modifyState (f : State → State) : Handler Unit := fun c ↦ .ok () (c.setState (f c.state))

/-- The first transmission of `send_reliable`; `common/src/reliable.rs:77`. -/
def send (packet : Packet) (addr : SocketAddr) : Handler Unit := fun c ↦
  match c.env.sendResult c.attempts with
  | .ok () => .ok () { c with attempts := c.attempts + 1, sent := c.sent ++ [(addr, packet)] }
  | .error e => .error (.socket e) { c with attempts := c.attempts + 1 }

/-- `VideoPlayer::launch`; `client/src/video.rs:48`. -/
def launchVideoPlayer : Handler Unit := fun c ↦
  if c.env.launches then .ok () c else .error .launchFailed c

/-- `VideoPlayer::write`: whether the player took the data; `client/src/video.rs:76`. -/
def writeVideoPlayer : Handler Bool := fun c ↦ .ok c.env.writes c

/-- `State::request_start_video`; `client/src/client.rs:127`. -/
def requestStartVideo (addr : SocketAddr) (videoId : VideoId) : Handler Unit :=
  send (.serverPacket (.requestVideo videoId)) addr

/-- `State::request_stop_video`; `client/src/client.rs:137`. -/
def requestStopVideo (addr : SocketAddr) (videoId : VideoId) : Handler Unit :=
  send (.serverPacket (.stopVideo videoId)) addr

/-- `State::select_best_server_and_request`; `client/src/client.rs:147`. The node is returned
whether the request could be sent or not. -/
def selectBestServerAndRequest (videoId : VideoId) : Handler (Option SocketAddr) := do
  let s ← getState
  match s.selectBestNode videoId with
  | some bestNodeAddr => do
    attempt (requestStartVideo bestNodeAddr videoId)
    return some bestNodeAddr
  | none => return none

/-- `State::start_video_process`; `client/src/client.rs:304`. -/
def startVideoProcess (source : Option SocketAddr) (videoId : VideoId) : Handler Unit := do
  launchVideoPlayer
  modifyState fun s ↦ s.startPlaying source videoId

/-- The task of `State::ui_start_playing`; `client/src/client.rs:159`. -/
def uiStartPlaying (videoId : VideoId) : Handler Unit := do
  let bestNodeAddr ← selectBestServerAndRequest videoId
  attempt (startVideoProcess bestNodeAddr videoId)

/-- The task of `State::ui_stop_playing_id`; `client/src/client.rs:176`. -/
def uiStopPlayingId (videoId : VideoId) : Handler Unit := do
  let s ← getState
  match s.playingVideos.lookup videoId with
  | some video => do
    modifyState fun s ↦ s.stopPlaying videoId
    match video.source with
    | some source => attempt (requestStopVideo source videoId)
    | none => pure ()
  | none => pure ()

/-- One turn of the loop of `handle_ping_answer` that finds nodes for the waiting videos;
`client/src/client.rs:227`. -/
def redirectPendingVideo (videoId : VideoId) : Handler Unit := do
  let source ← selectBestServerAndRequest videoId
  let s ← getState
  if (s.playingVideos.lookup videoId).isSome then modifyState fun s ↦ s.setSource videoId source
  else throw .unwrapNone

/-- `State::handle_ping_answer`; `client/src/client.rs:189`. An answer whose number is not
expected changes the names only; one from another address than was asked is taken all the same. -/
def handlePingAnswer (addr : SocketAddr) (videoListPacket : VideoListPacket) : Handler Unit := do
  modifyState fun s ↦ s.updateVideoNames videoListPacket.videos
  let s ← getState
  match s.pendingPings.lookup videoListPacket.sequenceNumber with
  | some (_, startTime) => do
    modifyState fun s ↦ s.dropPing videoListPacket.sequenceNumber
    let t ← now
    let videos := videoListPacket.videos.map Prod.fst
    modifyState fun s ↦ s.answered addr (durationSince t startTime) videos t
    let s ← getState
    (s.pendingVideos videos).forM redirectPendingVideo
  | none => pure ()

/-- `State::handle_video_packet`; `client/src/client.rs:235`. A player that takes no more data
ends its video, and the sender is told to stop. -/
def handleVideoPacket (source : SocketAddr) (videoPacket : VideoPacket) : Handler Unit := do
  let s ← getState
  if (s.playingVideos.lookup videoPacket.streamId).isSome then do
    modifyState fun s ↦ s.recordVideoPacket videoPacket
    let written ← writeVideoPlayer
    if written then pure ()
    else do
      attempt (requestStopVideo source videoPacket.streamId)
      modifyState fun s ↦ s.stopPlaying videoPacket.streamId
  else pure ()

/-- One turn of the inner loop of `handle_unresponsive_pings_nodes_task`;
`client/src/client.rs:357`. -/
def redirectVideo (videoId : VideoId) : Handler Unit := do
  let source ← selectBestServerAndRequest videoId
  modifyState fun s ↦ s.setSource videoId source

/-- One turn of the loop over the nodes found silent; `client/src/client.rs:345`. -/
def nodeUnresponsive (addr : SocketAddr) : Handler Unit := do
  modifyState fun s ↦ s.markUnresponsive addr
  let s ← getState
  (s.getVideosPlayingFromNode addr).forM redirectVideo

/-- One sweep of `handle_unresponsive_pings_nodes_task`; `client/src/client.rs:325`. The clock
is read anew for each node. -/
def handleUnresponsivePingsNodes (now : SocketAddr → SystemTime) : Handler Unit := do
  let s ← getState
  (s.unresponsiveNodes now).forM nodeUnresponsive

/-- One turn of the loop of `start_ping_nodes_task`; `client/src/client.rs:378`. -/
def pingNode (addr : SocketAddr) : Handler Unit := do
  let s ← getState
  modifyState fun s ↦ s.nextPing
  let requestedVideos := s.getVideosPlayingFromNode addr
  let t ← now
  attempt do
    send (.nodePacket (.clientPing s.pingSequenceNumber requestedVideos)) addr
    modifyState fun s' ↦ s'.recordPing s.pingSequenceNumber addr t

/-- One sweep of `start_ping_nodes_task`; `client/src/client.rs:374`. -/
def startPingNodes : Handler Unit := do
  let s ← getState
  s.nodes.entries.forM fun e ↦ pingNode e.2.addr

/-- What sets a client going. -/
inductive Input where
  | uiStartPlaying (videoId : VideoId)
  | uiStopPlayingId (videoId : VideoId)
  /-- `handle_packet_task` received a packet -/
  | packet (packet : Packet) (addr : SocketAddr)
  | unresponsivePingsNodes (now : SocketAddr → SystemTime)
  | pingNodes

/-- The handler of an input; packets that are not meant for a client are logged. -/
def handleInput : Input → Handler Unit
  | .uiStartPlaying videoId => uiStartPlaying videoId
  | .uiStopPlayingId videoId => uiStopPlayingId videoId
  | .packet (.videoPacket packet) addr => handleVideoPacket addr packet
  | .packet (.clientPacket (.videoList packet)) addr => handlePingAnswer addr packet
  | .packet (.nodePacket _) _ | .packet (.serverPacket _) _ => pure ()
  | .unresponsivePingsNodes now => handleUnresponsivePingsNodes now
  | .pingNodes => startPingNodes

/-- An input, what its handler meets outside the client, and the state it starts in, with the
maps in the order in which this run iterates them. -/
structure Event where
  input : Input
  env : Env
  view : State

/-- The context the handler of an event ends in. -/
def Event.after (e : Event) : Ctx := finalState (handleInput e.input) ⟨e.env, e.view, 0, []⟩

/-- One atomic step. Maps are iterated in an order the code does not control. -/
def Step (s : State) (e : Event) (t : State) : Prop :=
  s.Reorder e.view ∧ t = e.after.state

/-- The states of a client started with the given nodes, after any run. -/
def Reachable (servers : List IpAddr) (s : State) : Prop := ∃ tr, Run Step (.new servers) tr s

/-- Handle inputs one after the other, in the iteration order the maps happen to have. -/
def simulate (s : State) : List (Input × Env) → State
  | [] => s
  | (input, env) :: rest => simulate (Event.after ⟨input, env, s⟩).state rest

end PessiStreamer.Client
