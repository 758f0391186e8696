import PessiStreamer.Client.Display
import PessiStreamer.Node.Averages
import PessiStreamer.Node.Names

/-!
# Averages and names are there when they are needed

Over all runs of a node and of a client no average is taken of no samples, and the window of the
client finds the name of every video it lists.
-/

namespace PessiStreamer.System
open Base Common

variable {id : NodeId} {neighbours : List IpAddr} {localAddr : SocketAddr} {s : Node.State}
  {tr : List (Node.State × Node.Event)} {servers : List IpAddr} {c : Client.State}

/-- After every run of a node each route has a sample, and neither the selection nor any handler
panics. After every run of a client each connected node has a sample and each listed video a name,
and neither the selection, any handler nor the window panics, which is drawn while the run goes
on. -/
theorem averages_defined (hnode : Run Node.Step (.new id neighbours localAddr) tr s)
    (hclient : Client.Reachable servers c) :
    (Node.Sampled s ∧ (∀ v, s.getBestNodeToRedirect? v = some (s.getBestNodeToRedirect v)) ∧
      ∀ e : Node.Event, s.Reorder e.view → Node.handleInput? e.input (.start e.env e.view) =
        some (Node.handleInput e.input (.start e.env e.view))) ∧
    ((∀ n node, c.nodes.lookup n = some node →
        (node.status = .connected → node.latestRtts.toList ≠ []) ∧
          ∀ v ∈ node.availableVideos, (c.videoNames.lookup v).isSome) ∧
      (∀ v, c.selectBestNode? v = some (c.selectBestNode v)) ∧
      (∀ e : Client.Event, c.Reorder e.view → Client.handleInput? e.input ⟨e.env, e.view, 0, []⟩ =
        some (Client.handleInput e.input ⟨e.env, e.view, 0, []⟩)) ∧
      ∀ t tr shown, Run Client.Step c tr t → (∀ v, ∃ tr, Run Client.Step t tr (shown v)) →
        (Client.update? c t shown).isSome) := by
  obtain ⟨trc, hclient⟩ := hclient
  have hs := Node.sampled_of_run hnode
  have hc := (Client.ready_new servers).run hclient
  constructor
  · refine ⟨hs, hs.getBestNodeToRedirect?, ?_⟩
    exact fun e hview ↦ Node.not_panics hnode hview
  · refine ⟨?_, hc.selectBestNode?, fun e hview ↦ Client.not_panics hclient hview, ?_⟩
    · exact fun n node hn ↦ ⟨hc.sampled n node hn, hc.named n node hn⟩
    · exact fun t tr shown ht hshown ↦ Client.update?_isSome hclient ht hshown

/-- A node that gave up one of two neighbours still selects the other one, and the window of a
client that plays a video is drawn. -/
theorem averages_defined_listedTwice :
    (Node.simulate (.new 9 [] (IpAddr.v4 9).atPort) Node.listedTwice).getBestNodeToRedirect? 6 =
        some (some (IpAddr.v4 2).atPort) ∧
      (Client.update? Client.silenced Client.silenced fun _ ↦ Client.silenced).isSome := by
  have h := averages_defined (Node.run_record (.new 9 [] (IpAddr.v4 9).atPort) Node.listedTwice)
    (Client.reachable_simulate [.v4 1, .v4 2] _ : Client.Reachable _ Client.silenced)
  constructor
  · rw [h.1.2.1]
    decide +kernel
  · exact h.2.2.2.2 _ _ _ (.refl _) fun _ ↦ ⟨_, .refl _⟩

end PessiStreamer.System
