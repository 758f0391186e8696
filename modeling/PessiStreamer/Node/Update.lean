import PessiStreamer.Node.State

/-!
# Updates of a node's state

The changes the handlers make, one definition for each, with what the queries answer
after it.
-/

namespace PessiStreamer.Node
open Base Common

namespace State

/-- Enter a subscriber once; `node/src/handle.rs:53`. -/
def subscribe (s : State) (videoId : VideoId) (addr : SocketAddr) : State :=
  { s with interested := s.interested.upsert videoId [] fun subscribers ↦
      if addr ∈ subscribers then subscribers else subscribers ++ [addr] }

/-- Drop a subscriber; `node/src/handle.rs:86`. -/
def unsubscribe (s : State) (videoId : VideoId) (addr : SocketAddr) : State :=
  { s with interested := s.interested.modify videoId fun subscribers ↦
      subscribers.filter (· ≠ addr) }

/-- Install the node a video is received from; `node/src/node.rs:324`. -/
def setRoute (s : State) (videoId : VideoId) (node : SocketAddr) : State :=
  { s with videoRoutes := s.videoRoutes.insert videoId node }

/-- Remove the node a video is received from; `node/src/handle.rs:97`. -/
def dropRoute (s : State) (videoId : VideoId) : State :=
  { s with videoRoutes := s.videoRoutes.erase videoId }

/-- Append to the queue; `node/src/handle.rs:75`, `node/src/node.rs:311`. -/
def enqueue (s : State) (videos : List VideoId) : State :=
  { s with pendingVideoRequests := s.pendingVideoRequests ++ videos }

/-- Remove videos from the queue; `node/src/node.rs:229`. -/
def dequeue (s : State) (videos : List VideoId) : State :=
  { s with pendingVideoRequests := s.pendingVideoRequests.filter fun videoId ↦ videoId ∉ videos }

/-- Enter the names a flood packet brings; `node/src/handle.rs:116`. -/
def updateVideoNames (s : State) (videos : List (VideoId × String)) : State :=
  { s with videoNames := videos.foldl (fun m video ↦ m.insert video.1 video.2) s.videoNames }

/-- Update the route over the sender of a flood packet; `node/src/handle.rs:120`. -/
def updateRoute (s : State) (fromAddr : SocketAddr) (p : FloodPacket) (now : SystemTime) :
    State :=
  { s with availableRoutes := s.availableRoutes.upsert fromAddr {} fun r ↦
      r.updateFromFloodPacket p now }

/-- `node/src/handle.rs:181`, `node/src/node.rs:385`. -/
def markUnresponsive (s : State) (addr : SocketAddr) : State :=
  { s with availableRoutes := s.availableRoutes.modify addr fun r ↦
      { r with status := .unresponsive } }

/-- `State::register_new_neighbour`; `node/src/node.rs:179`. -/
def registerNewNeighbour (s : State) (addr : IpAddr) : State :=
  { s with neighbours := s.neighbours ++ [addr] }

/-- Note a client's ping; `node/src/handle.rs:27`. -/
def recordPing (s : State) (addr : SocketAddr) (now : SystemTime) : State :=
  { s with lastPings := s.lastPings.insert addr now }

/-- Note number and time of a video packet; `node/src/handle.rs:199`. -/
def recordVideoPacket (s : State) (packet : VideoPacket) (now : SystemTime) : State :=
  { s with
    lastVideoSequenceNumber :=
      s.lastVideoSequenceNumber.insert packet.streamId packet.sequenceNumber
    lastVideoPacketTime := s.lastVideoPacketTime.insert packet.streamId now }

section Fields

variable (s : State) (u v : VideoId) (a n : SocketAddr) (vs : List VideoId)

/-- The video is routed over the node, the others as before. -/
@[simp] theorem setRoute_lookup : (s.setRoute v n).videoRoutes.lookup u =
    if u = v then some n else s.videoRoutes.lookup u :=
  Map.lookup_insert_ite s.videoRoutes v u n

/-- The video has no route, the others as before. -/
@[simp] theorem dropRoute_lookup : (s.dropRoute v).videoRoutes.lookup u =
    if u = v then none else s.videoRoutes.lookup u :=
  Map.lookup_erase_ite s.videoRoutes v u

/-- The address joins the subscribers of the video once. -/
@[simp] theorem subscribe_subscribers : (s.subscribe v a).subscribers u =
    if u = v then
      if a ∈ s.subscribers v then s.subscribers v else s.subscribers v ++ [a]
    else s.subscribers u := by
  simp only [subscribe, subscribers, Map.lookup_upsert]
  split
  · rfl
  · rfl

/-- The address leaves the subscribers of the video. -/
@[simp] theorem unsubscribe_subscribers : (s.unsubscribe v a).subscribers u =
    if u = v then (s.subscribers v).filter (· ≠ a) else s.subscribers u := by
  simp only [unsubscribe, subscribers, Map.lookup_modify]
  split
  · cases s.interested.lookup v with
    | none => rfl
    | some l => rfl
  · rfl

/-- The videos join the queue. -/
@[simp] theorem enqueue_pending : v ∈ (s.enqueue vs).pendingVideoRequests ↔
    v ∈ s.pendingVideoRequests ∨ v ∈ vs := List.mem_append

/-- The videos leave the queue. -/
@[simp] theorem dequeue_pending : v ∈ (s.dequeue vs).pendingVideoRequests ↔
    v ∈ s.pendingVideoRequests ∧ v ∉ vs := by
  simp [dequeue]

/-- A subscriber changes no route. -/
@[simp] theorem subscribe_videoRoutes : (s.subscribe v a).videoRoutes = s.videoRoutes := rfl

/-- A subscriber that leaves changes no route. -/
@[simp] theorem unsubscribe_videoRoutes : (s.unsubscribe v a).videoRoutes = s.videoRoutes := rfl

/-- The queue changes no route. -/
@[simp] theorem enqueue_videoRoutes : (s.enqueue vs).videoRoutes = s.videoRoutes := rfl

/-- The queue changes no route. -/
@[simp] theorem dequeue_videoRoutes : (s.dequeue vs).videoRoutes = s.videoRoutes := rfl

/-- A route changes no subscriber. -/
@[simp] theorem setRoute_subscribers : (s.setRoute v n).subscribers u = s.subscribers u := rfl

/-- A dropped route changes no subscriber. -/
@[simp] theorem dropRoute_subscribers : (s.dropRoute v).subscribers u = s.subscribers u := rfl

/-- The queue changes no subscriber. -/
@[simp] theorem enqueue_subscribers : (s.enqueue vs).subscribers u = s.subscribers u := rfl

/-- The queue changes no subscriber. -/
@[simp] theorem dequeue_subscribers : (s.dequeue vs).subscribers u = s.subscribers u := rfl

/-- A subscriber does not change the queue. -/
@[simp] theorem subscribe_pending :
    (s.subscribe v a).pendingVideoRequests = s.pendingVideoRequests := rfl

/-- A subscriber that leaves does not change the queue. -/
@[simp] theorem unsubscribe_pending :
    (s.unsubscribe v a).pendingVideoRequests = s.pendingVideoRequests := rfl

/-- A route does not change the queue. -/
@[simp] theorem setRoute_pending :
    (s.setRoute v n).pendingVideoRequests = s.pendingVideoRequests := rfl

/-- A dropped route does not change the queue. -/
@[simp] theorem dropRoute_pending :
    (s.dropRoute v).pendingVideoRequests = s.pendingVideoRequests := rfl

/-- A subscriber changes no route to a server. -/
@[simp] theorem subscribe_availableRoutes :
    (s.subscribe v a).availableRoutes = s.availableRoutes := rfl

/-- A subscriber that leaves changes no route to a server. -/
@[simp] theorem unsubscribe_availableRoutes :
    (s.unsubscribe v a).availableRoutes = s.availableRoutes := rfl

/-- The route of a video changes no route to a server. -/
@[simp] theorem setRoute_availableRoutes :
    (s.setRoute v n).availableRoutes = s.availableRoutes := rfl

/-- A dropped route changes no route to a server. -/
@[simp] theorem dropRoute_availableRoutes :
    (s.dropRoute v).availableRoutes = s.availableRoutes := rfl

/-- The queue changes no route to a server. -/
@[simp] theorem enqueue_availableRoutes :
    (s.enqueue vs).availableRoutes = s.availableRoutes := rfl

/-- The queue changes no route to a server. -/
@[simp] theorem dequeue_availableRoutes :
    (s.dequeue vs).availableRoutes = s.availableRoutes := rfl

end Fields

/-- A node marked unresponsive is not active, and no other node changes. -/
theorem isActive_markUnresponsive {s : State} {a n : SocketAddr} :
    (s.markUnresponsive a).IsActive n ↔ n ≠ a ∧ s.IsActive n := by
  simp only [IsActive, markUnresponsive, Map.lookup_modify]
  by_cases hn : n = a
  · simp [hn]
  · simp [hn]

/-- A node marked unresponsive offers nothing, and no other node changes. -/
theorem offers_markUnresponsive {s : State} {a n : SocketAddr} {v : VideoId} :
    (s.markUnresponsive a).Offers n v ↔ n ≠ a ∧ s.Offers n v := by
  simp only [Offers, markUnresponsive, Map.lookup_modify]
  by_cases hn : n = a
  · simp [hn]
  · simp [hn]

/-- After a flood packet its sender is active, and every other node as before. -/
theorem isActive_updateRoute {s : State} {a n : SocketAddr} {p : FloodPacket} {t : SystemTime} :
    (s.updateRoute a p t).IsActive n ↔ n = a ∨ s.IsActive n := by
  simp only [IsActive, updateRoute, Map.lookup_upsert]
  by_cases hn : n = a
  · simp [hn, RouteInfo.updateFromFloodPacket]
  · simp [hn]

/-- After a flood packet its sender offers what the packet lists, and every other node what
it offered before. -/
theorem offers_updateRoute {s : State} {a n : SocketAddr} {p : FloodPacket} {t : SystemTime}
    {v : VideoId} : (s.updateRoute a p t).Offers n v ↔
      if n = a then v ∈ p.videosAvailable.map Prod.fst else s.Offers n v := by
  simp only [Offers, updateRoute, Map.lookup_upsert]
  by_cases hn : n = a
  · simp [hn, RouteInfo.updateFromFloodPacket]
  · simp [hn]

end State
end PessiStreamer.Node
