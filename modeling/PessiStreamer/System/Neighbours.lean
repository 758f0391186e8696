import PessiStreamer.Node.Change
import PessiStreamer.Server.State

/-!
# The neighbour lists

Nodes and servers append every host that becomes a neighbour to their list, known or not. How
often a neighbour stands in the list is how many copies of each flood it gets.
-/

namespace PessiStreamer.Node
open Base Common

/-- The targets of the flood packets among what was sent. -/
def floodTargets (sent : List (SocketAddr × Packet)) : List SocketAddr :=
  sent.filterMap fun x ↦ match x.2 with
    | .nodePacket (.floodPacket _) => some x.1
    | _ => none

/-- One packet later. -/
@[simp]
theorem floodTargets_append (sent : List (SocketAddr × Packet)) (a : SocketAddr) (p : Packet) :
    floodTargets (sent ++ [(a, p)]) = floodTargets sent ++ match p with
      | .nodePacket (.floodPacket _) => [a]
      | _ => [] := by
  rw [floodTargets, List.filterMap_append]
  congr 1
  rcases p with _ | (_ | _ | _) | _ | _
  all_goals rfl

/-- Ports are the same everywhere, so different neighbours have different addresses. -/
theorem nodup_broadcastTo {s : State} (h : s.neighbours.Nodup) (fromAddr : SocketAddr) :
    (s.broadcastTo fromAddr).Nodup := by
  apply List.Nodup.filter
  apply h.map
  intro a b hab
  exact congrArg SocketAddr.ip hab

section Flood

variable {ns : List IpAddr} {fromAddr : SocketAddr} {E : HandlerError → Ctx → Prop}

/-- No flood packet has been sent yet, and the neighbours are these. -/
def Unflooded (ns : List IpAddr) (c : Ctx) : Prop :=
  floodTargets c.sent = [] ∧ c.state.neighbours = ns

/-- The copies sent and the targets still to come are all different. -/
def Spread (rest : List SocketAddr) (c : Ctx) : Prop := (floodTargets c.sent ++ rest).Nodup

private theorem checkPendingVideos_unflooded (videos : List (VideoId × String)) :
    Triple (Unflooded ns) (checkPendingVideos fromAddr videos) (fun _ ↦ Unflooded ns) E := by
  apply triple_bind_getState
  intro s
  apply Triple.bind (Q := fun _ ↦ Unflooded ns)
  · apply Triple.strengthen _ fun c hc ↦ hc.1
    apply Triple.forM
    intro v _
    apply Triple.attempt
    intro c hc
    rcases requestVideoToNode_cases v fromAddr c with h | ⟨e, -, h⟩
    · rw [h]
      exact ⟨by simpa using hc.1, hc.2⟩
    · rw [h]
      exact hc
  · exact fun _ c hc ↦ hc

/-- One flood packet makes a node send at most one copy to each entry of its list. -/
theorem handleFloodPacket_targets (h : ns.Nodup) (p : FloodPacket) :
    Triple (Unflooded ns) (handleFloodPacket fromAddr p) (fun _ c ↦ (floodTargets c.sent).Nodup)
      E := by
  apply triple_bind_getState
  intro s
  apply Triple.ite
  · intro _ c hc
    have hnil := hc.1.1
    show (floodTargets c.sent).Nodup
    rw [hnil]
    exact List.nodup_nil
  intro _
  apply Triple.bind (Q := fun _ ↦ Unflooded ns)
  · exact fun c hc ↦ hc.1
  intro t
  apply Triple.bind (Q := fun _ ↦ Unflooded ns)
  · exact fun c hc ↦ hc
  intro _
  apply Triple.bind (Q := fun _ ↦ Unflooded ns)
  · exact fun c hc ↦ hc
  intro _
  apply (checkPendingVideos_unflooded p.videosAvailable).bind
  intro _
  apply triple_bind_getState
  intro s
  have hloop : Triple (Spread (s.broadcastTo fromAddr))
      ((s.broadcastTo fromAddr).forM fun addr ↦ attempt do
        let t ← getState
        send (.nodePacket (.floodPacket { p with
          myParents := t.getParents
          visitedNodes := p.visitedNodes ++ [s.id]
          videosAvailable := t.getVideos addr })) addr)
      (fun _ ↦ Spread []) E := by
    apply Triple.forM_rest
    intro addr rest _
    apply Triple.attempt
    apply triple_bind_getState
    rintro t c ⟨hc, -⟩
    rcases send_cases (.nodePacket (.floodPacket { p with
        myParents := t.getParents
        visitedNodes := p.visitedNodes ++ [s.id]
        videosAvailable := t.getVideos addr })) addr c with hs | ⟨e, -, hs⟩
    · rw [hs]
      simpa [Spread] using hc
    · rw [hs]
      exact List.Nodup.sublist ((List.sublist_cons_self addr rest).append_left _) hc
  apply hloop.consequence
  · rintro c ⟨hc, rfl⟩
    rw [Spread, hc.1]
    exact nodup_broadcastTo (hc.2 ▸ h) fromAddr
  · intro _ c hc
    simpa [Spread] using hc
  · exact fun _ _ ↦ id

end Flood

/-- No host gets two copies of a flood packet that the node handles. -/
def State.FloodsOnce (s : State) : Prop :=
  ∀ (env : Env) (fromAddr : SocketAddr) (p : FloodPacket),
    (floodTargets (finalState (handleFloodPacket fromAddr p) (.start env s)).sent).Nodup

private theorem State.floodsOnce_of_nodup {s : State} (h : s.neighbours.Nodup) : s.FloodsOnce := by
  intro env fromAddr p
  apply (handleFloodPacket_targets h p).finalState
  exact ⟨rfl, rfl⟩

/-- A step appends the neighbour that it takes, if any. -/
theorem Step.neighbours {s t : State} {e : Event} (h : Step s e t) :
    (∃ ip, (∀ x, e.Registers x ↔ x = ip) ∧ t.neighbours = s.neighbours ++ [ip]) ∨
      ((∀ ip, ¬ e.Registers ip) ∧ t.neighbours = s.neighbours) := by
  obtain ⟨hview, rfl⟩ := h
  by_cases hreg : ∃ ip, e.Registers ip
  · obtain ⟨ip, hip⟩ := hreg
    obtain ⟨input, env, view⟩ := e
    rcases input with ⟨p, addr⟩ | addr | _ | _ | ⟨target, result⟩ | ⟨addr, result⟩
    · rcases p with _ | (_ | _ | _) | _ | _
      · cases hip
      · cases hip
      · exact .inl ⟨addr.ip, fun _ ↦ .rfl, congrArg (· ++ [addr.ip]) hview.neighbours⟩
      · cases hip
      · cases hip
      · cases hip
    · cases hip
    · cases hip
    · cases hip
    · cases hip
    · rcases result with _ | _ | _
      · cases hip
      · exact .inl ⟨addr.ip, fun _ ↦ .rfl, congrArg (· ++ [addr.ip]) hview.neighbours⟩
      · cases hip
  · apply Or.inr
    rw [not_exists] at hreg
    exact ⟨hreg, (Event.after_neighbours hreg).trans hview.neighbours⟩

end PessiStreamer.Node

namespace PessiStreamer.Server
open Base Common

/-- The handler of the input takes a neighbour. -/
def Input.Registers (i : Input) (addr : SocketAddr) : Prop :=
  match i with
  | .packet (.nodePacket .newNeighbour) source => addr = source
  | _ => False

/-- A step appends the neighbour that it takes, if any. -/
theorem Step.neighbours {s t : State} {i : Input} (h : Step s i t) :
    (∃ a, (∀ x, i.Registers x ↔ x = a) ∧ t.neighbours = s.neighbours ++ [a]) ∨
      ((∀ a, ¬ i.Registers a) ∧ t.neighbours = s.neighbours) := by
  subst h
  cases i with
  | event e sendResult => exact .inr ⟨fun _ ↦ id, (e.run_neighbours sendResult s).2⟩
  | packet p addr =>
    by_cases hp : p = .nodePacket .newNeighbour
    · subst hp
      exact .inl ⟨addr, fun _ ↦ .rfl, rfl⟩
    · apply Or.inr
      constructor
      · intro a ha
        unfold Input.Registers at ha
        split at ha
        · next heq =>
          cases heq
          exact hp rfl
        · exact ha
      · exact (s.handlePacket_neighbours addr hp).2

/-- No host gets two copies of a flood. -/
def State.FloodsOnce (s : State) : Prop :=
  ∀ now sendResult, ((s.flood now sendResult).1.map Prod.fst).Nodup

private theorem broadcast_targets (sendResult : Nat → Except ReliableUdpSocketError Unit)
    (packet : Packet) (i : Nat) (addrs : List SocketAddr) :
    (broadcast sendResult packet i addrs).1.map Prod.fst <+: addrs := by
  induction addrs generalizing i with
  | nil => exact List.prefix_rfl
  | cons addr addrs ih =>
    rw [broadcast]
    split
    · exact List.prefix_cons_inj addr |>.mpr (ih (i + 1))
    · exact List.nil_prefix

private theorem State.floodsOnce_of_nodup {s : State} (h : s.neighbours.Nodup) : s.FloodsOnce :=
  fun _ sendResult ↦ h.sublist (broadcast_targets sendResult _ 0 s.neighbours).sublist

end PessiStreamer.Server

namespace PessiStreamer.System
open Base Common

/-- Over a whole run of a node and of a server that start without duplicates, the lists stay so
and no flood is sent twice to one host, if and only if every neighbour taken is a new one. -/
theorem neighbours_nodup_iff {id serverId : NodeId} {ips : List IpAddr} {localAddr : SocketAddr}
    {ntr : List (Node.State × Node.Event)} {n : Node.State} {addrs : List SocketAddr}
    {str : List (Server.State × Server.Input)} {s : Server.State} (hips : ips.Nodup)
    (haddrs : addrs.Nodup) (hn : Run Node.Step (.new id ips localAddr) ntr n)
    (hs : Run Server.Step (.new serverId addrs) str s) :
    ((n.neighbours.Nodup ∧ n.FloodsOnce) ↔
      ∀ p ∈ ntr, ∀ ip, p.2.Registers ip → ip ∉ p.1.neighbours) ∧
    ((s.neighbours.Nodup ∧ s.FloodsOnce) ↔
      ∀ p ∈ str, ∀ a, p.2.Registers a → a ∉ p.1.neighbours) := by
  have hnode := hn.nodup_iff (l := Node.State.neighbours) fun _ _ _ h ↦ h.neighbours
  have hserver := hs.nodup_iff (l := Server.State.neighbours) fun _ _ _ h ↦ h.neighbours
  constructor
  · constructor
    · exact fun h ↦ (hnode.mp h.1).2
    · intro h
      have hnodup := hnode.mpr ⟨hips, h⟩
      exact ⟨hnodup, Node.State.floodsOnce_of_nodup hnodup⟩
  · constructor
    · exact fun h ↦ (hserver.mp h.1).2
    · intro h
      have hnodup := hserver.mpr ⟨haddrs, h⟩
      exact ⟨hnodup, Server.State.floodsOnce_of_nodup hnodup⟩

/-- A node without neighbours. -/
def lone : Node.State := .new 1 [] (IpAddr.v4 1).atPort

/-- Another node tells it that they are neighbours. -/
def hello (s : Node.State) (n : BitVec 32) : Node.Event :=
  ⟨.packet (.nodePacket .newNeighbour) (IpAddr.v4 n).atPort, .calm 0, s⟩

/-- The same for a server. -/
def helloServer (n : BitVec 32) : Server.Input :=
  .packet (.nodePacket .newNeighbour) (IpAddr.v4 n).atPort

/-- The node after it has two neighbours. -/
def twoGreeted : Node.State := (hello (hello lone 2).after.state 3).after.state

/-- A server after it has two neighbours. -/
def twoGreetedServer : Server.State := (helloServer 3).run ((helloServer 2).run (.new 9 []))

/-- Two neighbours that greeted once each are sent one flood packet each. -/
theorem neighbours_nodup_once :
    (twoGreeted.neighbours = [.v4 2, .v4 3] ∧ twoGreeted.neighbours.Nodup ∧
      twoGreeted.FloodsOnce) ∧
    twoGreetedServer.neighbours = [(IpAddr.v4 2).atPort, (IpAddr.v4 3).atPort] ∧
    twoGreetedServer.neighbours.Nodup ∧ twoGreetedServer.FloodsOnce := by
  have hfirst : Node.Step lone (hello lone 2) (hello lone 2).after.state := ⟨.refl lone, rfl⟩
  have hsecond : Node.Step (hello lone 2).after.state (hello (hello lone 2).after.state 3)
      twoGreeted := ⟨.refl _, rfl⟩
  have hserver : Server.Step (.new 9 []) (helloServer 2) ((helloServer 2).run (.new 9 [])) := rfl
  have hserver' : Server.Step ((helloServer 2).run (.new 9 [])) (helloServer 3)
      twoGreetedServer := rfl
  have h := neighbours_nodup_iff List.nodup_nil List.nodup_nil
    ((Run.single hfirst).tail hsecond) ((Run.single hserver).tail hserver')
  refine ⟨⟨by decide, h.1.mpr ?_⟩, by decide, h.2.mpr ?_⟩
  · intro p hp ip hip
    rcases List.mem_append.mp hp with hp | hp
    · cases List.mem_singleton.mp hp
      exact List.not_mem_nil
    · cases List.mem_singleton.mp hp
      obtain rfl : ip = .v4 3 := hip
      decide
  · intro p hp a ha
    rcases List.mem_append.mp hp with hp | hp
    · cases List.mem_singleton.mp hp
      exact List.not_mem_nil
    · cases List.mem_singleton.mp hp
      obtain rfl : a = (IpAddr.v4 3).atPort := ha
      decide

/-- The packet is delivered once more, which the reliable layer does when an acknowledgement is
lost. -/
theorem neighbours_duplicated :
    (∃ s, Node.Reachable 1 [] (IpAddr.v4 1).atPort s ∧ ¬ s.neighbours.Nodup ∧ ¬ s.FloodsOnce) ∧
    ∃ tr s, Run Server.Step (.new 9 []) tr s ∧ ¬ s.neighbours.Nodup ∧ ¬ s.FloodsOnce := by
  let input : Node.Input := (hello lone 2).input
  constructor
  · apply Exists.intro (Node.simulate lone [(input, .calm 0), (input, .calm 0)])
    constructor
    · exact Node.reachable_simulate 1 [] _ (by simp [Node.Env.calm_allOk])
    constructor
    · decide
    · intro h
      exact absurd (h (.calm 0) (IpAddr.v4 3).atPort ⟨0, [], [9], []⟩) (by decide)
  · apply Exists.intro _
    apply Exists.intro ((helloServer 2).run ((helloServer 2).run (.new 9 [])))
    constructor
    · exact (Run.single rfl).tail rfl
    constructor
    · decide
    · intro h
      exact absurd (h 0 fun _ ↦ .ok ()) (by decide)

end PessiStreamer.System
