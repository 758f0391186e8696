import Mathlib.Algebra.GroupWithZero.Nat
import Mathlib.Data.Prod.Lex
import PessiStreamer.Base.CircularBuffer
import PessiStreamer.Base.Map
import PessiStreamer.Base.Selection
import PessiStreamer.Common.Packet

/-!
# State of a node and its pure queries

`node/src/node.rs:10-177`. Each `DashMap` is a finite map whose entries stand in its
iteration order. Of the socket the state keeps the local address; its protocol is
the subject of `PessiStreamer.Reliable`.
-/

namespace PessiStreamer.Node
open Base Common

/-- `RouteStatus`; `node/src/node.rs:12`. -/
inductive RouteStatus where
  | active
  | unresponsive
  deriving DecidableEq, Repr

/-- `ParentData`; `node/src/node.rs:19`. -/
structure ParentData where
  parents : List SocketAddr
  dateLastFloodPacketReceived : SystemTime
  deriving DecidableEq, Repr

/-- A parent is a node that can reach a server without passing through this node again;
it comes with its own parents. -/
inductive NodeType where
  | parent (data : ParentData)
  | child
  deriving DecidableEq, Repr

/-- What a node knows about one neighbour as a route to the servers. The field values
are those of `Default`. -/
structure RouteInfo where
  hops : Nat := 0
  lastDelaysToServer : CircularBuffer 10 Duration := .empty
  availableVideos : List VideoId := []
  status : RouteStatus := .active
  nodeType : NodeType := .child
  deriving DecidableEq, Repr

namespace RouteInfo

/-- `RouteInfo::average_delay_to_server`; the truncated mean. The source divides by the
number of samples, which is zero only in an entry no flood packet has updated. -/
def averageDelayToServer (r : RouteInfo) : Duration :=
  r.lastDelaysToServer.toList.sum / r.lastDelaysToServer.toList.length

/-- `RouteInfo::update_from_flood_packet`; `node/src/node.rs:48`. -/
def updateFromFloodPacket (r : RouteInfo) (p : FloodPacket) (now : SystemTime) : RouteInfo where
  hops := p.hops
  availableVideos := p.videosAvailable.map Prod.fst
  lastDelaysToServer := r.lastDelaysToServer.pushBack (durationSince now p.createdAtServerTime)
  status := .active
  nodeType := .parent ⟨p.myParents, now⟩

end RouteInfo

/-- `State`; `node/src/node.rs:71`. -/
structure State where
  /-- the id of this node -/
  id : NodeId
  /-- `self.socket.local_addr()` -/
  localAddr : SocketAddr
  /-- the known neighbours of this node -/
  neighbours : List IpAddr
  /-- the known names of the videos -/
  videoNames : Map VideoId String
  /-- the subscribers of each video -/
  interested : Map VideoId (List SocketAddr)
  /-- the last received pings from the clients -/
  lastPings : Map SocketAddr SystemTime
  /-- all the possible routes to reach a server -/
  availableRoutes : Map SocketAddr RouteInfo
  /-- the videos that are being received, with the node they come from -/
  videoRoutes : Map VideoId SocketAddr
  /-- the last sequence number received for each video -/
  lastVideoSequenceNumber : Map VideoId UInt64
  /-- the last time a packet of each video was received -/
  lastVideoPacketTime : Map VideoId SystemTime
  /-- the requests that no available node could serve -/
  pendingVideoRequests : List VideoId
  deriving DecidableEq

namespace State

/-- `State::new`; `node/src/node.rs:97`. -/
def new (id : NodeId) (neighbours : List IpAddr) (localAddr : SocketAddr) : State where
  id := id
  localAddr := localAddr
  neighbours := neighbours
  videoNames := ∅
  interested := ∅
  lastPings := ∅
  availableRoutes := ∅
  videoRoutes := ∅
  lastVideoSequenceNumber := ∅
  lastVideoPacketTime := ∅
  pendingVideoRequests := []

/-- The subscribers of a video; an absent entry counts as an empty list, as in
`handle_stop_video`. -/
def subscribers (s : State) (v : VideoId) : List SocketAddr := (s.interested.lookup v).getD []

/-- `State::get_number_of_videos_requested_via_node`; `node/src/node.rs:147`. -/
def getNumberOfVideosRequestedViaNode (s : State) (node : SocketAddr) : Nat :=
  s.videoRoutes.entries.countP fun e ↦ e.2 = node

/-- `DELAY_THRESHOLD_PERCENTAGE`; `node/src/node.rs:119`. -/
def DELAY_THRESHOLD_PERCENTAGE : Nat := 30

/-- The entries both passes of `get_best_node_to_redirect` start from: active routes
that list the video. -/
def routesListing (s : State) (videoId : VideoId) : List (Sigma fun _ : SocketAddr ↦ RouteInfo) :=
  s.availableRoutes.entries.filter fun e ↦
    e.2.status = .active ∧ videoId ∈ e.2.availableVideos

/-- The key by which `get_best_node_to_redirect` ranks the routes within the delay bound. -/
def redirectKey (s : State) (e : Sigma fun _ : SocketAddr ↦ RouteInfo) : ℕ ×ₗ ℕ ×ₗ ℕ :=
  toLex (e.2.hops, toLex (s.getNumberOfVideosRequestedViaNode e.1, e.2.availableVideos.length))

/-- `State::get_best_node_to_redirect`; `node/src/node.rs:113`. `min_by_key` keeps the first of
several minima, as `List.argmin` does. -/
def getBestNodeToRedirect (s : State) (videoId : VideoId) : Option SocketAddr := do
  let minAverageDelay ← ((s.routesListing videoId).map fun e ↦ e.2.averageDelayToServer).min?
  let maxDelayThreshold :=
    minAverageDelay + minAverageDelay / 100 * DELAY_THRESHOLD_PERCENTAGE
  let best ← ((s.routesListing videoId).filter fun e ↦
    e.2.averageDelayToServer ≤ maxDelayThreshold).argmin s.redirectKey
  return best.1

/-- A node over which the servers can be reached at the moment. -/
def IsActive (s : State) (n : SocketAddr) : Prop :=
  ∃ r, s.availableRoutes.lookup n = some r ∧ r.status = .active

/-- An active node that lists the video. -/
def Offers (s : State) (n : SocketAddr) (v : VideoId) : Prop :=
  ∃ r, s.availableRoutes.lookup n = some r ∧ r.status = .active ∧ v ∈ r.availableVideos

/-- Who offers a video is active. -/
theorem Offers.isActive {s : State} {n : SocketAddr} {v : VideoId} (h : s.Offers n v) :
    s.IsActive n := by
  obtain ⟨r, hr, hs, -⟩ := h
  exact ⟨r, hr, hs⟩

/-- Who offers what depends on the routes to the servers only. -/
theorem offers_congr {s t : State} (h : t.availableRoutes = s.availableRoutes) (n : SocketAddr)
    (v : VideoId) : t.Offers n v ↔ s.Offers n v := by
  simp only [Offers, h]

/-- Who is active depends on the routes to the servers only. -/
theorem isActive_congr {s t : State} (h : t.availableRoutes = s.availableRoutes)
    (n : SocketAddr) : t.IsActive n ↔ s.IsActive n := by
  simp only [IsActive, h]

/-- The entries of both passes are the nodes that offer the video. -/
theorem mem_routesListing {s : State} {v : VideoId} {e : Sigma fun _ : SocketAddr ↦ RouteInfo} :
    e ∈ s.routesListing v ↔
      s.availableRoutes.lookup e.1 = some e.2 ∧ e.2.status = .active ∧ v ∈ e.2.availableVideos := by
  simp [routesListing, ← Map.mem_entries_iff]

/-- The two passes are those of the library's selection. -/
theorem getBestNodeToRedirect_eq (s : State) (v : VideoId) : s.getBestNodeToRedirect v =
    (selectNear (fun e ↦ e.2.averageDelayToServer)
      (fun d ↦ d + d / 100 * DELAY_THRESHOLD_PERCENTAGE) s.redirectKey (s.routesListing v)).map
        fun e ↦ e.1 := by
  cases hd : ((s.routesListing v).map fun e ↦ e.2.averageDelayToServer).min? with
  | none => simp [getBestNodeToRedirect, selectNear, hd]
  | some d =>
    cases hb : ((s.routesListing v).filter fun e ↦ e.2.averageDelayToServer ≤
        d + d / 100 * DELAY_THRESHOLD_PERCENTAGE).argmin s.redirectKey with
    | none => simp [getBestNodeToRedirect, selectNear, hd, hb]
    | some e => simp [getBestNodeToRedirect, selectNear, hd, hb]

/-- The selected node is active and lists the video. -/
theorem offers_of_best {s : State} {v : VideoId} {n : SocketAddr}
    (h : s.getBestNodeToRedirect v = some n) : s.Offers n v := by
  rw [getBestNodeToRedirect_eq] at h
  obtain ⟨e, he, rfl⟩ := Option.map_eq_some_iff.mp h
  obtain ⟨hr, hs, hv⟩ := mem_routesListing.mp (mem_of_selectNear he)
  exact ⟨e.2, hr, hs, hv⟩

/-- No node is selected only when no active node lists the video. -/
theorem best_eq_none_iff {s : State} {v : VideoId} :
    s.getBestNodeToRedirect v = none ↔ ∀ n, ¬ s.Offers n v := by
  rw [getBestNodeToRedirect_eq, Option.map_eq_none_iff,
    selectNear_eq_none_iff fun d ↦ Nat.le_add_right d _, List.eq_nil_iff_forall_not_mem]
  constructor
  · rintro h n ⟨r, hr, hs, hv⟩
    exact h ⟨n, r⟩ (mem_routesListing.mpr ⟨hr, hs, hv⟩)
  · intro h e he
    obtain ⟨hr, hs, hv⟩ := mem_routesListing.mp he
    exact h e.1 ⟨e.2, hr, hs, hv⟩

/-- `State::get_videos`; `node/src/node.rs:154`. A video that only `toAddr` can provide
is not offered to it. -/
def getVideos (s : State) (toAddr : SocketAddr) : List (VideoId × String) :=
  (s.videoNames.entries.map fun e ↦ (e.1, e.2)).filter fun video ↦
    s.availableRoutes.entries.any fun e ↦
      e.1 ≠ toAddr ∧ e.2.status = .active ∧ video.1 ∈ e.2.availableVideos

/-- A video with a known name is offered to a node that some other active node lists it for. -/
theorem mem_getVideos {s : State} {a : SocketAddr} {v : VideoId} :
    v ∈ (s.getVideos a).map Prod.fst ↔
      (s.videoNames.lookup v).isSome ∧ ∃ n, n ≠ a ∧ s.Offers n v := by
  simp only [getVideos, List.mem_map, List.mem_filter, List.any_eq_true, decide_eq_true_eq]
  constructor
  · rintro ⟨_, ⟨⟨e, he, rfl⟩, e', he', hne, hs, hv⟩, rfl⟩
    refine ⟨?_, e'.1, hne, e'.2, Map.mem_entries_iff.mp he', hs, hv⟩
    exact Option.isSome_iff_exists.mpr ⟨e.2, Map.mem_entries_iff.mp he⟩
  · rintro ⟨hname, n, hne, r, hr, hs, hv⟩
    obtain ⟨name, hname⟩ := Option.isSome_iff_exists.mp hname
    refine ⟨(v, name), ⟨⟨⟨v, name⟩, Map.mem_entries_iff.mpr hname, rfl⟩, ⟨n, r⟩,
      Map.mem_entries_iff.mpr hr, hne, hs, hv⟩, rfl⟩

/-- `State::get_parents`; `node/src/node.rs:171`. -/
def getParents (s : State) : List SocketAddr :=
  (s.availableRoutes.entries.filter fun e ↦
    match e.2.nodeType with
    | .parent _ => true
    | .child => false).map fun e ↦ e.1

/-- Two states that differ at most in the iteration order of their maps. -/
structure Reorder (s t : State) : Prop where
  id : t.id = s.id
  localAddr : t.localAddr = s.localAddr
  neighbours : t.neighbours = s.neighbours
  videoNames : t.videoNames.entries.Perm s.videoNames.entries
  interested : t.interested.entries.Perm s.interested.entries
  lastPings : t.lastPings.entries.Perm s.lastPings.entries
  availableRoutes : t.availableRoutes.entries.Perm s.availableRoutes.entries
  videoRoutes : t.videoRoutes.entries.Perm s.videoRoutes.entries
  lastVideoSequenceNumber :
    t.lastVideoSequenceNumber.entries.Perm s.lastVideoSequenceNumber.entries
  lastVideoPacketTime : t.lastVideoPacketTime.entries.Perm s.lastVideoPacketTime.entries
  pendingVideoRequests : t.pendingVideoRequests = s.pendingVideoRequests

namespace Reorder

/-- A state is in its own order. -/
theorem refl (s : State) : s.Reorder s where
  id := rfl
  localAddr := rfl
  neighbours := rfl
  videoNames := .refl _
  interested := .refl _
  lastPings := .refl _
  availableRoutes := .refl _
  videoRoutes := .refl _
  lastVideoSequenceNumber := .refl _
  lastVideoPacketTime := .refl _
  pendingVideoRequests := rfl

variable {s t : State}

/-- The order of the entries does not change what the queries answer. -/
theorem subscribers (h : s.Reorder t) (v : VideoId) : t.subscribers v = s.subscribers v := by
  rw [State.subscribers, AList.perm_lookup h.interested, State.subscribers]

/-- The routes of the videos are the same. -/
theorem route (h : s.Reorder t) (v : VideoId) :
    t.videoRoutes.lookup v = s.videoRoutes.lookup v := AList.perm_lookup h.videoRoutes

/-- The routes to the servers are the same. -/
theorem availableRoute (h : s.Reorder t) (n : SocketAddr) :
    t.availableRoutes.lookup n = s.availableRoutes.lookup n := AList.perm_lookup h.availableRoutes

/-- The same nodes are active. -/
theorem isActive (h : s.Reorder t) (n : SocketAddr) : t.IsActive n ↔ s.IsActive n := by
  simp only [IsActive, h.availableRoute]

/-- The same nodes offer the same videos. -/
theorem offers (h : s.Reorder t) (n : SocketAddr) (v : VideoId) :
    t.Offers n v ↔ s.Offers n v := by
  simp only [Offers, h.availableRoute]

end Reorder
end State
end PessiStreamer.Node
