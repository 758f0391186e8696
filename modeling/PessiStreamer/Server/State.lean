import PessiStreamer.Base.Map
import PessiStreamer.Common.Packet

/-!
# State of a server and its packet loop

`server/src/server.rs`, without the child processes that produce the streams.
-/

namespace PessiStreamer.Server
open Base Common

/-- `Video`; `server/src/server.rs:14`. -/
structure Video where
  name : String
  interested : List SocketAddr
  sequenceNumber : UInt64
  deriving DecidableEq, Repr

/-- `State`; `server/src/server.rs:23`. -/
structure State where
  id : NodeId
  /-- the streamed videos with their subscribers -/
  videos : Map VideoId Video
  neighbours : List SocketAddr
  deriving DecidableEq

/-- `State::send_unreliable_broadcast` of the socket: the copies that were sent, and the
failure that ended the loop; `common/src/reliable.rs:122`. The sends are counted from `i`. -/
def broadcast (sendResult : Nat → Except ReliableUdpSocketError Unit) (packet : Packet) (i : Nat) :
    List SocketAddr → List (SocketAddr × Packet) × Except ReliableUdpSocketError Unit
  | [] => ([], .ok ())
  | addr :: addrs =>
    match sendResult i with
    | .ok () =>
      let r := broadcast sendResult packet (i + 1) addrs
      ((addr, packet) :: r.1, r.2)
    | .error e => ([], .error e)

/-- A broadcast whose sends succeed reaches every address. -/
theorem broadcast_of_ok {sendResult : Nat → Except ReliableUdpSocketError Unit}
    (h : ∀ i, sendResult i = .ok ()) (packet : Packet) (i : Nat) (addrs : List SocketAddr) :
    broadcast sendResult packet i addrs = (addrs.map (·, packet), .ok ()) := by
  induction addrs generalizing i with
  | nil => rfl
  | cons addr addrs ih => simp [broadcast, h i, ih]

namespace State

/-- `State::new`; `server/src/server.rs:32`. -/
def new (id : NodeId) (neighbours : List SocketAddr) : State := ⟨id, ∅, neighbours⟩

/-- `State::get_video_list`; `server/src/server.rs:145`. -/
def getVideoList (s : State) : List (VideoId × String) :=
  s.videos.entries.map fun e ↦ (e.1, e.2.name)

/-- The answer to one packet in `run_client_socket`; `server/src/server.rs:178`. Flood packets
are ignored, and packets that are not meant for a server are logged. -/
def handlePacket (s : State) (packet : Packet) (addr : SocketAddr) : State :=
  match packet with
  | .serverPacket (.requestVideo videoId) =>
    { s with videos := s.videos.modify videoId fun video ↦
        if addr ∈ video.interested then video
        else { video with interested := video.interested ++ [addr] } }
  | .serverPacket (.stopVideo videoId) =>
    { s with videos := s.videos.modify videoId fun video ↦
        { video with interested := video.interested.filter (· ≠ addr) } }
  | .nodePacket (.floodPacket _) => s
  | .nodePacket .newNeighbour => { s with neighbours := s.neighbours ++ [addr] }
  | .nodePacket (.clientPing _ _) | .videoPacket _ | .clientPacket _ => s

/-- The packet of one turn of `run_periodic_flood_packets`; `server/src/server.rs:249`. -/
def floodPacket (s : State) (now : SystemTime) : FloodPacket where
  createdAtServerTime := now
  videosAvailable := s.getVideoList
  visitedNodes := [s.id]
  myParents := []

/-- What one turn of `run_periodic_flood_packets` sends; its failure ends the task. -/
def flood (s : State) (now : SystemTime)
    (sendResult : Nat → Except ReliableUdpSocketError Unit) :
    List (SocketAddr × Packet) × Except ReliableUdpSocketError Unit :=
  broadcast sendResult (.nodePacket (.floodPacket (s.floodPacket now))) 0 s.neighbours

/-- A child process for a new video was started; `server/src/server.rs:88`. The id is the hash of
the name. -/
def addVideo (s : State) (videoId : VideoId) (name : String) : State :=
  { s with videos := s.videos.insert videoId ⟨name, [], 0⟩ }

/-- A child process produced data of its video; `server/src/server.rs:109`. -/
def streamVideo (s : State) (videoId : VideoId) (streamData : List UInt8)
    (sendResult : Nat → Except ReliableUdpSocketError Unit) :
    State × List (SocketAddr × Packet) :=
  match s.videos.lookup videoId with
  | none => (s, [])
  | some video =>
    if video.interested = [] then (s, [])
    else
      let sequenceNumber := video.sequenceNumber + 1
      let packet := Packet.videoPacket ⟨videoId, sequenceNumber, streamData⟩
      ({ s with videos := s.videos.modify videoId fun video ↦
          { video with sequenceNumber := sequenceNumber } },
        (broadcast sendResult packet 0 video.interested).1)

/-- The subscribers of a video; none where the video is not streamed. -/
def subscribers (s : State) (v : VideoId) : List SocketAddr :=
  ((s.videos.lookup v).map Video.interested).getD []

/-- The server streams the video. -/
def Hosts (s : State) (v : VideoId) : Prop := (s.videos.lookup v).isSome

section Commands

variable {s : State} {v : VideoId} {a : SocketAddr}

/-- A request for a streamed video makes its sender a subscriber. -/
theorem mem_subscribers_request (h : s.Hosts v) :
    a ∈ (s.handlePacket (.serverPacket (.requestVideo v)) a).subscribers v := by
  obtain ⟨video, hvideo⟩ := Option.isSome_iff_exists.mp h
  by_cases ha : a ∈ video.interested
  · simp [handlePacket, subscribers, hvideo, ha]
  · simp [handlePacket, subscribers, hvideo, ha]

/-- A stop leaves its sender no subscriber. -/
theorem not_mem_subscribers_stop :
    a ∉ (s.handlePacket (.serverPacket (.stopVideo v)) a).subscribers v := by
  cases hvideo : s.videos.lookup v with
  | some video => simp [handlePacket, subscribers, hvideo]
  | none => simp [handlePacket, subscribers, hvideo]

/-- Only a new neighbour changes the neighbours of a server. -/
theorem handlePacket_neighbours (s : State) {p : Packet} (addr : SocketAddr)
    (h : p ≠ .nodePacket .newNeighbour) : (s.handlePacket p addr).id = s.id ∧
      (s.handlePacket p addr).neighbours = s.neighbours := by
  unfold handlePacket
  split
  · exact ⟨rfl, rfl⟩
  · exact ⟨rfl, rfl⟩
  · exact ⟨rfl, rfl⟩
  · exact (h rfl).elim
  all_goals exact ⟨rfl, rfl⟩

end Commands
end State

/-- What sets a server going besides the packets that reach it. -/
inductive Event where
  | addVideo (videoId : VideoId) (name : String)
  | streamVideo (videoId : VideoId) (streamData : List UInt8)
  | flood (now : SystemTime)
  deriving DecidableEq, Repr

/-- The state after an event, and the packets sent. -/
def Event.run (e : Event) (sendResult : Nat → Except ReliableUdpSocketError Unit) (s : State) :
    State × List (SocketAddr × Packet) :=
  match e with
  | .addVideo videoId name => (s.addVideo videoId name, [])
  | .streamVideo videoId streamData => s.streamVideo videoId streamData sendResult
  | .flood now => (s, (s.flood now sendResult).1)

/-- What a server handles: a packet that reached it, or an event of its own. -/
inductive Input where
  | packet (packet : Packet) (addr : SocketAddr)
  | event (e : Event) (sendResult : Nat → Except ReliableUdpSocketError Unit)

/-- The state after an input. -/
def Input.run (s : State) : Input → State
  | .packet p addr => s.handlePacket p addr
  | .event e sendResult => (e.run sendResult s).1

/-- One step of a server. -/
def Step (s : State) (i : Input) (t : State) : Prop := t = i.run s

/-- A server keeps its id and its neighbours. -/
theorem Event.run_neighbours (e : Event) (sendResult : Nat → Except ReliableUdpSocketError Unit)
    (s : State) : (e.run sendResult s).1.id = s.id ∧
      (e.run sendResult s).1.neighbours = s.neighbours := by
  cases e with
  | addVideo videoId name => exact ⟨rfl, rfl⟩
  | streamVideo videoId streamData =>
    simp only [run, State.streamVideo]
    split
    · exact ⟨rfl, rfl⟩
    · split
      · exact ⟨rfl, rfl⟩
      · exact ⟨rfl, rfl⟩
  | flood now => exact ⟨rfl, rfl⟩

/-- A broadcast sends copies of one packet. -/
theorem mem_broadcast {sendResult : Nat → Except ReliableUdpSocketError Unit} {packet : Packet}
    {i : Nat} {addrs : List SocketAddr} {x : SocketAddr × Packet}
    (h : x ∈ (broadcast sendResult packet i addrs).1) : x.2 = packet ∧ x.1 ∈ addrs := by
  induction addrs generalizing i with
  | nil => cases h
  | cons addr addrs ih =>
    rw [broadcast] at h
    split at h
    · rcases List.mem_cons.mp h with rfl | h
      · exact ⟨rfl, List.mem_cons_self⟩
      · exact ⟨(ih h).1, List.mem_cons_of_mem addr (ih h).2⟩
    · cases h

/-- Apart from its floods a server sends video packets only. -/
theorem Event.sent_cases {e : Event} {sendResult : Nat → Except ReliableUdpSocketError Unit}
    {s : State} {x : SocketAddr × Packet} (h : x ∈ (e.run sendResult s).2) :
    (∃ packet, x.2 = .videoPacket packet) ∨
      ∃ now, e = .flood now ∧ x.2 = .nodePacket (.floodPacket (s.floodPacket now)) := by
  cases e with
  | addVideo videoId name => cases h
  | streamVideo videoId streamData =>
    simp only [run, State.streamVideo] at h
    split at h
    · cases h
    · split at h
      · cases h
      · exact .inl ⟨_, (mem_broadcast h).1⟩
  | flood now => exact .inr ⟨now, rfl, (mem_broadcast h).1⟩

/-- A server sends flood packets only when it floods. -/
theorem Event.no_flood_sent {e : Event} {sendResult : Nat → Except ReliableUdpSocketError Unit}
    {s : State} (h : ∀ now, e ≠ .flood now) {a : SocketAddr} {q : FloodPacket} :
    (a, .nodePacket (.floodPacket q)) ∉ (e.run sendResult s).2 := by
  intro hx
  rcases sent_cases hx with ⟨packet, hp⟩ | ⟨now, rfl, -⟩
  · cases hp
  · exact h now rfl

end PessiStreamer.Server
