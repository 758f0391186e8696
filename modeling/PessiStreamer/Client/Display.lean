import Mathlib.Data.List.Destutter
import PessiStreamer.Client.Averages

/-!
# The window of a client

`client/src/ui.rs` without its layout: what `MyApp::update` shows of the nodes and the videos. It
runs in a thread of its own while the tasks of the client go on, so each of its look-ups may find
another state than the one before. It averages the round-trip times of the connected nodes and
unwraps the name of each listed video; in no run does either panic.
-/

namespace PessiStreamer.Client
open Base Common

/-- `State::available_videos`; `client/src/client.rs:106`. -/
def State.availableVideos (s : State) : List VideoId :=
  ((s.nodes.entries.flatMap fun e ↦ e.2.availableVideos).mergeSort fun v w ↦ v ≤ w).destutter
    (· ≠ ·)

/-- What is shown of a node beside its address. -/
inductive NodeLabel where
  /-- "Connecting..." -/
  | connecting
  /-- "Average RTT: " -/
  | averageRtt (rtt : Duration)
  /-- "Unresponsive" -/
  | unresponsive
  deriving DecidableEq, Repr

/-- `client/src/ui.rs:39`. -/
def Node.label? (n : Node) : Option NodeLabel :=
  match n.status with
  | .connecting => some .connecting
  | .connected => n.averageRtt?.map .averageRtt
  | .unresponsive => some .unresponsive

/-- The labels under "Nodes:"; `client/src/ui.rs:31`. -/
def State.nodeLabels? (s : State) : Option (List (SocketAddr × NodeLabel)) :=
  s.nodes.entries.mapM fun e ↦ e.2.label?.map fun label ↦ (e.2.addr, label)

/-- What is shown of a video. -/
structure StreamRow where
  id : VideoId
  name : String
  playing : Bool
  /-- the bytes received and the node they come from, if the video is playing -/
  received : Option (UInt64 × Option SocketAddr)
  deriving DecidableEq, Repr

/-- The row of a video, with the `unwrap` of its name; `client/src/ui.rs:63`. -/
def State.streamRow? (s : State) (videoId : VideoId) : Option StreamRow := do
  let name ← s.videoNames.lookup videoId
  let playing := s.playingVideos.lookup videoId
  return ⟨videoId, name, playing.isSome, playing.map fun video ↦ (video.bytesWritten, video.source)⟩

/-- What one frame of the window shows. -/
structure Frame where
  nodes : List (SocketAddr × NodeLabel)
  streams : List StreamRow
  deriving DecidableEq, Repr

/-- `MyApp::update`, given the states in which it goes through the nodes, lists the videos, and
looks up each of them; `client/src/ui.rs:29`. A click starts or stops a video in a task of its
own. -/
def update? (nodes listed : State) (shown : VideoId → State) : Option Frame := do
  let nodes ← nodes.nodeLabels?
  let streams ← listed.availableVideos.mapM fun videoId ↦ (shown videoId).streamRow? videoId
  return ⟨nodes, streams⟩

/-- A listed video is one that some node lists. -/
theorem State.exists_of_mem_availableVideos {s : State} {v : VideoId}
    (h : v ∈ s.availableVideos) : ∃ n node, s.nodes.lookup n = some node ∧
      v ∈ node.availableVideos := by
  have hsorted := (List.destutter_sublist _ _).subset h
  obtain ⟨e, he, hv⟩ := List.mem_flatMap.mp (List.mem_mergeSort.mp hsorted)
  exact ⟨e.1, e.2, Map.mem_entries_iff.mp he, hv⟩

/-- The label of a node that has samples if it is connected. -/
theorem Node.label?_isSome {n : Node} (h : n.status = .connected → n.latestRtts.toList ≠ []) :
    n.label?.isSome := by
  unfold label?
  cases hs : n.status with
  | connecting => rfl
  | connected =>
    rw [averageRtt?, div?_eq (Nat.pos_iff_ne_zero.mp (List.length_pos_of_ne_nil (h hs)))]
    rfl
  | unresponsive => rfl

variable {servers : List IpAddr} {s t : State} {tr tr' : List (State × Event)}
  {shown : VideoId → State}

/-- In every run, whenever the window is drawn while the run goes on, nothing panics. -/
theorem update?_isSome (hrun : Run Step (.new servers) tr s) (hlist : Run Step s tr' t)
    (hshown : ∀ v, ∃ tr, Run Step t tr (shown v)) : (update? s t shown).isSome := by
  have hs : Ready (fun _ ↦ False) s := (ready_new servers).run hrun
  have ht : Ready (fun _ ↦ False) t := hs.run hlist
  have hknown : Ready (· ∈ t.availableVideos) t := by
    refine ⟨ht.sampled, ht.named, fun v hv ↦ ?_⟩
    obtain ⟨n, node, hn, hnode⟩ := State.exists_of_mem_availableVideos hv
    exact ht.named n node hn v hnode
  have hnodes : s.nodeLabels?.isSome := by
    apply mapM_isSome
    intro e he
    rw [Option.isSome_map]
    exact Node.label?_isSome (hs.sampled e.1 e.2 (Map.mem_entries_iff.mp he))
  have hstreams : (t.availableVideos.mapM fun v ↦ (shown v).streamRow? v).isSome := by
    apply mapM_isSome
    intro v hv
    obtain ⟨tr, hshown⟩ := hshown v
    obtain ⟨name, hname⟩ := Option.isSome_iff_exists.mp ((hknown.run hshown).known v hv)
    rw [State.streamRow?, hname]
    rfl
  obtain ⟨nodes, hnodes⟩ := Option.isSome_iff_exists.mp hnodes
  obtain ⟨streams, hstreams⟩ := Option.isSome_iff_exists.mp hstreams
  rw [update?, hnodes, hstreams]
  rfl

end PessiStreamer.Client
