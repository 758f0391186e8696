import PessiStreamer.Client.State
import PessiStreamer.Node.State

/-!
# The choice of a node

`State::get_best_node_to_redirect` of a node and `State::select_best_node` of a client are two
copies of one procedure with different candidates and ranks. The criteria are stated once, of any
choice among candidates, and both copies meet them in every iteration order of their maps.
-/

namespace PessiStreamer.System
open Base Common

/-- What the criteria see of a choice: the candidates with their addresses, the delays measured
for each, their average, the rank, and the address that is chosen. -/
structure Choice (α κ : Type) where
  candidate : α → Prop
  addr : α → SocketAddr
  samples : α → List Duration
  average : α → Duration
  rank : α → κ
  chosen : Option SocketAddr

namespace Choice

variable {α κ : Type} [LinearOrder κ]

/-- The average of a candidate is the truncated mean of its delays. -/
def TruncatedMean (c : Choice α κ) (a : α) : Prop :=
  (c.samples a).length * c.average a ≤ (c.samples a).sum ∧
    (c.samples a).sum < (c.samples a).length * (c.average a + 1)

/-- `m` is the smallest average of a candidate. -/
def LeastAverage (c : Choice α κ) (m : Duration) : Prop :=
  (∃ a, c.candidate a ∧ c.average a = m) ∧ ∀ a, c.candidate a → m ≤ c.average a

/-- A candidate within 30% of the smallest average `m`, before which no other of these ranks. -/
structure Best (c : Choice α κ) (a : α) (m : Duration) : Prop where
  candidate : c.candidate a
  near : c.average a ≤ m + 30 * (m / 100)
  margin : 10 * c.average a ≤ 13 * m
  first : ∀ b, c.candidate b → c.average b ≤ m + 30 * (m / 100) → ¬ c.rank b < c.rank a

/-- The criteria of a choice. -/
structure Meets (c : Choice α κ) : Prop where
  mean : ∀ a, c.candidate a → c.TruncatedMean a
  none_iff : c.chosen = none ↔ ∀ a, ¬ c.candidate a
  best : ∀ n, c.chosen = some n → ∃ a m, c.addr a = n ∧ c.LeastAverage m ∧ c.Best a m

/-- Two choices find no one, or candidates of equal ranks. -/
def Agrees (c d : Choice α κ) : Prop :=
  (c.chosen = none ∧ d.chosen = none) ∨
    ∃ a b, c.chosen = some (c.addr a) ∧ d.chosen = some (d.addr b) ∧
      c.candidate a ∧ d.candidate b ∧ c.rank a = d.rank b

/-- The choice is the selection near the smallest average from a list of the candidates. -/
structure FromList (c : Choice α κ) (l : List α) : Prop where
  mem_iff : ∀ a, a ∈ l ↔ c.candidate a
  average : ∀ a, c.average a = (c.samples a).sum / (c.samples a).length
  chosen : c.chosen = (selectNear c.average (fun d ↦ d + d / 100 * 30) c.rank l).map c.addr

/-- The truncated bound lies within 30% of the smallest average. -/
theorem le_margin {x m : Nat} (h : x ≤ m + 30 * (m / 100)) : 10 * x ≤ 13 * m := by
  omega

namespace FromList

variable {c d : Choice α κ} {l l' : List α}

private theorem chosen_eq_none_iff (h : c.FromList l) : c.chosen = none ↔ ∀ a, ¬ c.candidate a := by
  rw [h.chosen, Option.map_eq_none_iff, selectNear_eq_none_iff fun d ↦ Nat.le_add_right d _,
    List.eq_nil_iff_forall_not_mem]
  simp only [h.mem_iff]

/-- A selection near the smallest average meets the criteria. -/
theorem meets (h : c.FromList l) (hsampled : ∀ a, c.candidate a → c.samples a ≠ []) :
    c.Meets where
  mean := by
    intro a ha
    have hpos : 0 < (c.samples a).length := List.length_pos_iff.mpr (hsampled a ha)
    rw [TruncatedMean, h.average]
    constructor
    · exact Nat.mul_div_le _ _
    · exact Nat.lt_mul_div_succ _ hpos
  none_iff := h.chosen_eq_none_iff
  best := by
    intro n hn
    rw [h.chosen] at hn
    obtain ⟨a, ha, haddr⟩ := Option.map_eq_some_iff.mp hn
    obtain ⟨m, ⟨b, hb, hbm⟩, hleast, hnear, hfirst⟩ := selectNear_spec ha
    rw [Nat.mul_comm] at hnear
    refine ⟨a, m, haddr, ⟨⟨b, (h.mem_iff b).mp hb, hbm⟩, ?_⟩, ?_⟩
    · intro a ha
      exact hleast a ((h.mem_iff a).mpr ha)
    · constructor
      · exact (h.mem_iff a).mp (mem_of_selectNear ha)
      · exact hnear
      · exact le_margin hnear
      · intro b hb hbm
        apply not_lt_of_ge
        apply hfirst b ((h.mem_iff b).mpr hb)
        rw [Nat.mul_comm]
        exact hbm

/-- Selections from two orders of one list agree. -/
theorem agrees (h : c.FromList l) (h' : d.FromList l') (hl : l.Perm l')
    (haverage : d.average = c.average) (hrank : d.rank = c.rank) : c.Agrees d := by
  have hcandidate (a : α) : c.candidate a ↔ d.candidate a := by
    rw [← h.mem_iff, ← h'.mem_iff]
    exact hl.mem_iff
  cases hc : c.chosen with
  | none =>
    have hnone := h.chosen_eq_none_iff.mp hc
    simp only [hcandidate] at hnone
    exact .inl ⟨hc, h'.chosen_eq_none_iff.mpr hnone⟩
  | some n =>
    have hsome : d.chosen ≠ none := by
      rw [Ne, h'.chosen_eq_none_iff]
      simp only [← hcandidate]
      rw [← h.chosen_eq_none_iff, hc]
      exact Option.some_ne_none n
    obtain ⟨n', hd⟩ := Option.ne_none_iff_exists'.mp hsome
    have hcn := hc
    have hdn := hd
    rw [h.chosen] at hcn
    rw [h'.chosen, haverage, hrank] at hdn
    obtain ⟨a, ha, rfl⟩ := Option.map_eq_some_iff.mp hcn
    obtain ⟨b, hb, rfl⟩ := Option.map_eq_some_iff.mp hdn
    refine .inr ⟨a, b, hc, hd, ?_, ?_, ?_⟩
    · exact (h.mem_iff a).mp (mem_of_selectNear ha)
    · exact (h'.mem_iff b).mp (mem_of_selectNear hb)
    · rw [hrank]
      exact key_eq_of_perm hl ha hb

end FromList
end Choice

section Routes

open Node

variable {s t : Node.State} {v : VideoId}

/-- The videos that a node has routed over another one. -/
def requestedVia (s : Node.State) (n : SocketAddr) : Set VideoId :=
  {u | s.videoRoutes.lookup u = some n}

/-- The choice a node makes for a video: active routes that list it, ranked by hops, videos
requested via them and videos available. -/
noncomputable def nodeChoice (s : Node.State) (v : VideoId) :
    Choice (Sigma fun _ : SocketAddr ↦ RouteInfo) (ℕ ×ₗ ℕ ×ₗ ℕ) where
  candidate e := s.availableRoutes.lookup e.1 = some e.2 ∧ e.2.status = .active ∧
    v ∈ e.2.availableVideos
  addr e := e.1
  samples e := e.2.lastDelaysToServer.toList
  average e := e.2.averageDelayToServer
  rank e := toLex (e.2.hops, toLex ((requestedVia s e.1).ncard, e.2.availableVideos.length))
  chosen := s.getBestNodeToRedirect v

/-- The node counts the videos that it has routed over another one. -/
theorem ncard_requestedVia (s : Node.State) (n : SocketAddr) :
    (requestedVia s n).ncard = s.getNumberOfVideosRequestedViaNode n := by
  have hcount := Map.ncard_setOf_lookup s.videoRoutes fun m ↦ m = n
  simp only [exists_eq_right] at hcount
  exact hcount

private theorem nodeChoice_rank (s : Node.State) (v : VideoId) :
    (nodeChoice s v).rank = s.redirectKey := by
  funext e
  rw [Node.State.redirectKey, ← ncard_requestedVia]
  rfl

private theorem nodeChoice_fromList (s : Node.State) (v : VideoId) :
    (nodeChoice s v).FromList (s.routesListing v) where
  mem_iff _ := Node.State.mem_routesListing
  average _ := rfl
  chosen := by
    rw [nodeChoice_rank]
    exact s.getBestNodeToRedirect_eq v

/-- What is routed over a node does not depend on the iteration order. -/
theorem requestedVia_reorder (h : s.Reorder t) : requestedVia t = requestedVia s := by
  funext n
  simp only [requestedVia, h.route]

private theorem nodeChoice_agrees (h : s.Reorder t) (v : VideoId) :
    (nodeChoice s v).Agrees (nodeChoice t v) := by
  apply (nodeChoice_fromList s v).agrees (nodeChoice_fromList t v)
  · exact h.availableRoutes.symm.filter _
  · rfl
  · rw [nodeChoice, nodeChoice, requestedVia_reorder h]

end Routes

section Nodes

open Client

variable {s t : Client.State} {v : VideoId}

/-- The videos that a client plays from a node. -/
def playedFrom (s : Client.State) (n : SocketAddr) : Set VideoId :=
  {u | ∃ p, s.playingVideos.lookup u = some p ∧ p.source = some n}

/-- The choice a client makes for a video: connected nodes that list it, ranked by videos played
from them and videos available. -/
noncomputable def clientChoice (s : Client.State) (v : VideoId) :
    Choice (Sigma fun _ : SocketAddr ↦ Client.Node) (ℕ ×ₗ ℕ) where
  candidate e := s.nodes.lookup e.1 = some e.2 ∧ e.2.status = .connected ∧
    v ∈ e.2.availableVideos
  addr e := e.1
  samples e := e.2.latestRtts.toList
  average e := e.2.averageRtt
  rank e := toLex ((playedFrom s e.1).ncard, e.2.availableVideos.length)
  chosen := s.selectBestNode v

/-- The client counts the videos that it plays from a node. -/
theorem ncard_playedFrom (s : Client.State) (n : SocketAddr) :
    (playedFrom s n).ncard = (s.getVideosPlayingFromNode n).length := by
  rw [Client.State.getVideosPlayingFromNode, List.length_map, ← List.countP_eq_length_filter]
  exact Map.ncard_setOf_lookup s.playingVideos fun p ↦ p.source = some n

private theorem clientChoice_rank (s : Client.State) (v : VideoId) :
    (clientChoice s v).rank = s.selectKey := by
  funext e
  rw [Client.State.selectKey, ← ncard_playedFrom]
  rfl

private theorem clientChoice_fromList (s : Client.State) (v : VideoId) :
    (clientChoice s v).FromList (s.nodesListing v) where
  mem_iff _ := Client.State.mem_nodesListing
  average _ := rfl
  chosen := by
    rw [clientChoice_rank]
    rfl

/-- What is played from a node does not depend on the iteration order. -/
theorem playedFrom_reorder (h : s.Reorder t) : playedFrom t = playedFrom s := by
  funext n
  simp only [playedFrom, ← Map.mem_entries_iff, h.playingVideos.mem_iff]

private theorem clientChoice_agrees (h : s.Reorder t) (v : VideoId) :
    (clientChoice s v).Agrees (clientChoice t v) := by
  apply (clientChoice_fromList s v).agrees (clientChoice_fromList t v)
  · exact h.nodes.symm.filter _
  · rfl
  · rw [clientChoice, clientChoice, playedFrom_reorder h]

end Nodes

/-- Nodes and clients choose by the stated criteria, and alike in any two iteration orders. -/
theorem choices_meet_criteria {s t : Node.State} {c d : Client.State} {v : VideoId}
    (hst : s.Reorder t) (hroutes : ∀ e, (nodeChoice s v).candidate e →
      e.2.lastDelaysToServer.toList ≠ [])
    (hcd : c.Reorder d) (hnodes : ∀ e, (clientChoice c v).candidate e →
      e.2.latestRtts.toList ≠ []) :
    ((nodeChoice s v).Meets ∧ (nodeChoice s v).Agrees (nodeChoice t v)) ∧
    (clientChoice c v).Meets ∧ (clientChoice c v).Agrees (clientChoice d v) := by
  constructor
  · constructor
    · exact (nodeChoice_fromList s v).meets hroutes
    · exact nodeChoice_agrees hst v
  · constructor
    · exact (clientChoice_fromList c v).meets hnodes
    · exact clientChoice_agrees hcd v

/-- A node with two routes of as many hops to video 5. The faster one lists fewer videos, but video
7 is requested via it. -/
def twoRoutes : Node.State :=
  { Node.State.new 9 [] (IpAddr.v4 9).atPort with
    availableRoutes := (∅ : Map SocketAddr Node.RouteInfo)
      |>.insert (IpAddr.v4 1).atPort ⟨2, ⟨[100, 110], by decide⟩, [5], .active, .child⟩
      |>.insert (IpAddr.v4 2).atPort ⟨2, ⟨[130], by decide⟩, [5, 6], .active, .child⟩
    videoRoutes := (∅ : Map VideoId SocketAddr).insert 7 (IpAddr.v4 1).atPort }

/-- A client with two nodes that list video 5. The faster one lists fewer videos, but video 7 is
played from it. -/
def twoNodes : Client.State :=
  { Client.State.new [] with
    nodes := (∅ : Map SocketAddr Client.Node)
      |>.insert (IpAddr.v4 1).atPort
        ⟨(IpAddr.v4 1).atPort, ⟨[100], by decide⟩, some 0, .connected, [5]⟩
      |>.insert (IpAddr.v4 2).atPort
        ⟨(IpAddr.v4 2).atPort, ⟨[130], by decide⟩, some 0, .connected, [5, 6]⟩
    playingVideos := (∅ : Map VideoId Client.PlayingVideo).insert 7
      ⟨some (IpAddr.v4 1).atPort, 0, 0⟩ }

/-- Both choose the slower one, over which fewer videos come. -/
theorem choices_meet_criteria_two :
    ((nodeChoice twoRoutes 5).Meets ∧ (clientChoice twoNodes 5).Meets) ∧
    (nodeChoice twoRoutes 5).chosen = some (IpAddr.v4 2).atPort ∧
    (clientChoice twoNodes 5).chosen = some (IpAddr.v4 2).atPort := by
  have hroutes : twoRoutes.availableRoutes.entries.all fun e ↦
      e.2.lastDelaysToServer.toList ≠ [] := by decide
  have hnodes : twoNodes.nodes.entries.all fun e ↦ e.2.latestRtts.toList ≠ [] := by decide
  have hmeets := choices_meet_criteria (v := 5) (.refl twoRoutes)
    (fun e he ↦ of_decide_eq_true (List.all_eq_true.mp hroutes e (Map.mem_entries_iff.mpr he.1)))
    (.refl twoNodes)
    (fun e he ↦ of_decide_eq_true (List.all_eq_true.mp hnodes e (Map.mem_entries_iff.mpr he.1)))
  constructor
  · exact ⟨hmeets.1.1, hmeets.2.1⟩
  · decide +kernel

end PessiStreamer.System
