import Mathlib.Algebra.GroupWithZero.Nat
import Mathlib.Data.Prod.Lex
import PessiStreamer.Base.CircularBuffer
import PessiStreamer.Base.Map
import PessiStreamer.Base.Selection
import PessiStreamer.Common.Packet

/-!
# State of a client and its pure queries

`client/src/client.rs:16-125` and the selection of a node, without the processes that play
the videos: whether one can be started and takes data is up to the environment.
-/

namespace PessiStreamer.Client
open Base Common

/-- `NodeStatus`; `client/src/client.rs:17`. -/
inductive NodeStatus where
  | connecting
  | connected
  | unresponsive
  deriving DecidableEq, Repr

/-- A node that the client may ask for videos. -/
structure Node where
  addr : SocketAddr
  latestRtts : CircularBuffer 10 Duration
  lastReceivedPing : Option SystemTime
  status : NodeStatus
  availableVideos : List VideoId
  deriving DecidableEq, Repr

namespace Node

/-- `Node::new`; `client/src/client.rs:32`. -/
def new (addr : SocketAddr) : Node := ⟨addr, .empty, none, .connecting, []⟩

/-- `Node::register_ping_answer`; `client/src/client.rs:42`. -/
def registerPingAnswer (n : Node) (rtt : Duration) (videoList : List VideoId) (now : SystemTime) :
    Node :=
  { n with
    latestRtts := n.latestRtts.pushBack rtt
    lastReceivedPing := some now
    status := .connected
    availableVideos := videoList }

/-- `Node::average_rtt`; the truncated mean. The source divides by the number of samples,
which is zero only in a node that was never connected. -/
def averageRtt (n : Node) : Duration := n.latestRtts.toList.sum / n.latestRtts.toList.length

end Node

/-- A video that is played, without its player. -/
structure PlayingVideo where
  /-- the node the video comes from, if it is not waiting for one -/
  source : Option SocketAddr
  lastSequenceNumber : UInt64
  /-- an `AtomicUsize`, which wraps around -/
  bytesWritten : UInt64
  deriving DecidableEq, Repr

/-- `State`; `client/src/client.rs:64`. -/
structure State where
  /-- the possible nodes to connect to -/
  nodes : Map SocketAddr Node
  /-- the pings that were not answered yet, by their numbers -/
  pendingPings : Map UInt64 (SocketAddr × SystemTime)
  pingSequenceNumber : UInt64
  videoNames : Map VideoId String
  playingVideos : Map VideoId PlayingVideo
  deriving DecidableEq

namespace State

/-- `State::new`; `client/src/client.rs:82`. -/
def new (servers : List IpAddr) : State where
  nodes := servers.foldl (fun m ip ↦ m.insert ip.atPort (.new ip.atPort)) ∅
  pendingPings := ∅
  pingSequenceNumber := 0
  videoNames := ∅
  playingVideos := ∅

/-- `State::get_videos_playing_from_node`; `client/src/client.rs:119`. -/
def getVideosPlayingFromNode (s : State) (addr : SocketAddr) : List VideoId :=
  (s.playingVideos.entries.filter fun e ↦ e.2.source = some addr).map fun e ↦ e.1

/-- `DELAY_THRESHOLD_PERCENTAGE`; `client/src/client.rs:277`. -/
def DELAY_THRESHOLD_PERCENTAGE : Nat := 30

/-- The entries both passes of `select_best_node` start from: connected nodes that list the
video. -/
def nodesListing (s : State) (videoId : VideoId) : List (Sigma fun _ : SocketAddr ↦ Node) :=
  s.nodes.entries.filter fun e ↦ e.2.status = .connected ∧ videoId ∈ e.2.availableVideos

/-- The key by which `select_best_node` ranks the nodes within the delay bound. -/
def selectKey (s : State) (e : Sigma fun _ : SocketAddr ↦ Node) : ℕ ×ₗ ℕ :=
  toLex ((s.getVideosPlayingFromNode e.1).length, e.2.availableVideos.length)

/-- `State::select_best_node`; `client/src/client.rs:272`. -/
def selectBestNode (s : State) (videoId : VideoId) : Option SocketAddr :=
  (selectNear (fun e ↦ e.2.averageRtt) (fun d ↦ d + d / 100 * DELAY_THRESHOLD_PERCENTAGE)
    s.selectKey (s.nodesListing videoId)).map fun e ↦ e.1

/-- A known node that answered its pings. -/
def IsConnected (s : State) (n : SocketAddr) : Prop :=
  ∃ node, s.nodes.lookup n = some node ∧ node.status = .connected

/-- A connected node that lists the video. -/
def Offers (s : State) (n : SocketAddr) (v : VideoId) : Prop :=
  ∃ node, s.nodes.lookup n = some node ∧ node.status = .connected ∧ v ∈ node.availableVideos

/-- Who offers a video is connected. -/
theorem Offers.isConnected {s : State} {n : SocketAddr} {v : VideoId} (h : s.Offers n v) :
    s.IsConnected n := by
  obtain ⟨node, hn, hs, -⟩ := h
  exact ⟨node, hn, hs⟩

/-- The entries of both passes are the nodes that offer the video. -/
theorem mem_nodesListing {s : State} {v : VideoId} {e : Sigma fun _ : SocketAddr ↦ Node} :
    e ∈ s.nodesListing v ↔
      s.nodes.lookup e.1 = some e.2 ∧ e.2.status = .connected ∧ v ∈ e.2.availableVideos := by
  simp [nodesListing, ← Map.mem_entries_iff]

/-- The selected node is connected and lists the video. -/
theorem offers_of_selectBestNode {s : State} {v : VideoId} {n : SocketAddr}
    (h : s.selectBestNode v = some n) : s.Offers n v := by
  obtain ⟨e, he, rfl⟩ := Option.map_eq_some_iff.mp h
  obtain ⟨hn, hs, hv⟩ := mem_nodesListing.mp (mem_of_selectNear he)
  exact ⟨e.2, hn, hs, hv⟩

/-- No node is selected only when no connected node lists the video. -/
theorem selectBestNode_eq_none_iff {s : State} {v : VideoId} :
    s.selectBestNode v = none ↔ ∀ n, ¬ s.Offers n v := by
  rw [selectBestNode, Option.map_eq_none_iff,
    selectNear_eq_none_iff fun d ↦ Nat.le_add_right d _, List.eq_nil_iff_forall_not_mem]
  constructor
  · rintro h n ⟨node, hn, hs, hv⟩
    exact h ⟨n, node⟩ (mem_nodesListing.mpr ⟨hn, hs, hv⟩)
  · intro h e he
    obtain ⟨hn, hs, hv⟩ := mem_nodesListing.mp he
    exact h e.1 ⟨e.2, hn, hs, hv⟩

/-- A video is played from its source. -/
theorem mem_getVideosPlayingFromNode {s : State} {a : SocketAddr} {v : VideoId} :
    v ∈ s.getVideosPlayingFromNode a ↔
      ∃ p, s.playingVideos.lookup v = some p ∧ p.source = some a := by
  simp only [getVideosPlayingFromNode, List.mem_map, List.mem_filter, decide_eq_true_eq]
  constructor
  · rintro ⟨e, ⟨he, hsource⟩, rfl⟩
    exact ⟨e.2, Map.mem_entries_iff.mp he, hsource⟩
  · rintro ⟨p, hp, hsource⟩
    exact ⟨⟨v, p⟩, ⟨Map.mem_entries_iff.mpr hp, hsource⟩, rfl⟩

/-- The waiting videos that a list offers; `client/src/client.rs:219`. -/
def pendingVideos (s : State) (videos : List VideoId) : List VideoId :=
  (s.playingVideos.entries.filter fun e ↦ e.2.source = none ∧ e.1 ∈ videos).map fun e ↦ e.1

/-- The videos to redirect are listed and have no source. -/
theorem mem_pendingVideos {s : State} {videos : List VideoId} {v : VideoId} :
    v ∈ s.pendingVideos videos ↔
      (∃ p, s.playingVideos.lookup v = some p ∧ p.source = none) ∧ v ∈ videos := by
  simp only [pendingVideos, List.mem_map, List.mem_filter, decide_eq_true_eq]
  constructor
  · rintro ⟨e, ⟨he, hsource, hv⟩, rfl⟩
    exact ⟨⟨e.2, Map.mem_entries_iff.mp he, hsource⟩, hv⟩
  · rintro ⟨⟨p, hp, hsource⟩, hv⟩
    exact ⟨⟨v, p⟩, ⟨Map.mem_entries_iff.mpr hp, hsource, hv⟩, rfl⟩

/-- The connected nodes whose last answer is too old, each by the time at which the loop
looks at it; `client/src/client.rs:327`. -/
def unresponsiveNodes (s : State) (now : SocketAddr → SystemTime) : List SocketAddr :=
  (s.nodes.entries.filter fun e ↦ e.2.status = .connected ∧
    e.2.lastReceivedPing.any fun lastPing ↦
      CLIENT_PING_INTERVAL * 3 < durationSince (now e.1) lastPing).map fun e ↦ e.1

/-- Two states that differ at most in the iteration order of their maps. -/
structure Reorder (s t : State) : Prop where
  nodes : t.nodes.entries.Perm s.nodes.entries
  pendingPings : t.pendingPings.entries.Perm s.pendingPings.entries
  pingSequenceNumber : t.pingSequenceNumber = s.pingSequenceNumber
  videoNames : t.videoNames.entries.Perm s.videoNames.entries
  playingVideos : t.playingVideos.entries.Perm s.playingVideos.entries

/-- A state is in its own order. -/
theorem Reorder.refl (s : State) : s.Reorder s := ⟨.refl _, .refl _, rfl, .refl _, .refl _⟩

end State
end PessiStreamer.Client
