import PessiStreamer.Base.Acyclic
import PessiStreamer.Node.Routing
import PessiStreamer.System.Overlay

/-!
# Routing loops

The routes of a video form no cycle as long as no node sets a route to a node whose own routes
already lead back to it. What nodes advertise does not ensure this: two nodes that receive a video
from the same server advertise it to each other, and turn to each other when the server fails.
-/

namespace PessiStreamer.System
open Base Common Node Relation

/-- A route that a node may set. -/
structure Turn where
  node : SocketAddr
  video : VideoId
  upstream : SocketAddr
  deriving DecidableEq

namespace Overlay

/-- The node at `a` receives the video over the node at `b`. -/
def RoutesOver (o : Overlay) (v : VideoId) (a b : SocketAddr) : Prop :=
  (∃ s, o.hosts.lookup a = some (.node s) ∧ s.videoRoutes.lookup v = some b) ∧ o.HasNode b

/-- The node over which the node at `a` receives the video. -/
def upstream (o : Overlay) (v : VideoId) (a : SocketAddr) : Option SocketAddr :=
  match o.hosts.lookup a with
  | some (.node s) => (s.videoRoutes.lookup v).filter fun b ↦ (o.hosts.lookup b).any Host.isNode
  | _ => none

/-- Routes between nodes, as they are computed. -/
theorem routesOver_iff {o : Overlay} {v : VideoId} {a b : SocketAddr} :
    o.RoutesOver v a b ↔ o.upstream v a = some b := by
  constructor
  · rintro ⟨⟨s, hs, hroute⟩, t, ht⟩
    simp [upstream, hs, hroute, ht, Option.filter, Host.isNode]
  · intro h
    unfold upstream at h
    split at h
    · next s hs =>
      obtain ⟨hroute, hb⟩ := Option.filter_eq_some_iff.mp h
      exact ⟨⟨s, hs, hroute⟩, _, nodeAt_eq hb s⟩
    · cases h

/-- The routes that nodes may set in a step. -/
def turns (o : Overlay) : OverlayEvent → List Turn
  | .deliver index env view =>
    match o.inFlight[index]? with
    | some m =>
      match o.hosts.lookup m.target with
      | some (.node _) => (Event.choices ⟨.packet m.packet m.source, env, view⟩).map fun choice ↦
          ⟨m.target, choice.1, choice.2⟩
      | _ => []
    | none => []
  | .node addr e => e.choices.map fun choice ↦ ⟨addr, choice.1, choice.2⟩
  | _ => []

/-- A step in which no node may set a route to a node whose own routes lead back to it. -/
def Forward (o : Overlay) (e : OverlayEvent) : Prop :=
  ∀ t ∈ o.turns e, ¬ ReflTransGen (o.RoutesOver t.video) t.upstream t.node

/-- No video is routed in a circle. -/
def LoopFree (o : Overlay) : Prop := ∀ v, Acyclic (o.RoutesOver v)

private theorem RoutesOver.mono {o o' : Overlay} {v : VideoId} {a b : SocketAddr}
    (hnode : ∀ a s, o'.hosts.lookup a = some (.node s) → o.hosts.lookup a = some (.node s))
    (h : o'.RoutesOver v a b) : o.RoutesOver v a b := by
  obtain ⟨⟨s, hs, hroute⟩, t, ht⟩ := h
  exact ⟨⟨s, hnode a s hs, hroute⟩, t, hnode b t ht⟩

/-- A node that handles an event only turns to its choices. -/
theorem RoutesOver.of_update {o : Overlay} {a x y : SocketAddr} {s : Node.State} {e : Event}
    {sent : List (SocketAddr × Packet)} {v : VideoId} (hs : o.hosts.lookup a = some (.node s))
    (hview : s.Reorder e.view)
    (h : (o.update a (.node e.after.state) sent).RoutesOver v x y) :
    o.RoutesOver v x y ∨ x = a ∧ (v, y) ∈ e.choices := by
  obtain ⟨⟨t, ht, hroute⟩, u, hu⟩ := h
  have hy : o.HasNode y := by
    rw [update_lookup] at hu
    split at hu
    · next hya => exact ⟨s, hya ▸ hs⟩
    · exact ⟨u, hu⟩
  rw [update_lookup] at ht
  split at ht
  · next hxa =>
    subst hxa
    rw [hs, Option.map_some] at ht
    obtain rfl : e.after.state = t := Host.node.inj (Option.some.inj ht)
    rcases Event.route_after hroute with hroute | hchoice
    · exact .inl ⟨⟨s, hs, hview.route v ▸ hroute⟩, hy⟩
    · exact .inr ⟨rfl, hchoice⟩
  · exact .inl ⟨⟨t, ht, hroute⟩, hy⟩

private theorem LoopFree.mono {o o' : Overlay} (h : o.LoopFree)
    (hnode : ∀ a s, o'.hosts.lookup a = some (.node s) → o.hosts.lookup a = some (.node s)) :
    o'.LoopFree :=
  fun v ↦ (h v).mono fun _ _ ↦ .mono hnode

private theorem LoopFree.update {o : Overlay} {a : SocketAddr} {s : Node.State} {e : Event}
    {sent : List (SocketAddr × Packet)} (h : o.LoopFree)
    (hs : o.hosts.lookup a = some (.node s)) (hview : s.Reorder e.view)
    (hturns : ∀ t ∈ e.choices.map fun choice ↦ (⟨a, choice.1, choice.2⟩ : Turn),
      ¬ ReflTransGen (o.RoutesOver t.video) t.upstream t.node) :
    (o.update a (.node e.after.state) sent).LoopFree :=
  fun v ↦ (h v).redirect (fun _ _ hxy ↦ hxy.of_update hs hview) fun n hn ↦
    hturns ⟨a, v, n⟩ (List.mem_map.mpr ⟨(v, n), hn, rfl⟩)

private theorem LoopFree.step {o o' : Overlay} {e : OverlayEvent} (h : o.LoopFree)
    (hf : o.Forward e)
    (hstep : o.Step e o') : o'.LoopFree := by
  cases hstep.transition with
  | @deliverNode l r m env s view hflight hhost hview =>
    refine LoopFree.update (o := { o with inFlight := l ++ r })
      (e := ⟨.packet m.packet m.source, env, view⟩) h hhost hview ?_
    have hm : o.inFlight[l.length]? = some m := by simp [hflight]
    simp only [Forward, turns, hm, hhost] at hf
    exact hf
  | @deliverServer l r m env s view hflight hhost =>
    exact LoopFree.mono (o := { o with inFlight := l ++ r }) h fun _ _ ↦ node_of_update_server
  | @node a e s hhost hview hpacket => exact h.update hhost hview hf
  | @server a e s sendResult hhost => exact h.mono fun _ _ ↦ node_of_update_server
  | @stop a => exact h.mono fun _ _ ↦ Map.lookup_of_erase
  | _ => exact h.mono fun _ _ ↦ id

private theorem Started.loopFree {o : Overlay} (h : o.Started) : o.LoopFree := by
  refine fun v ↦ acyclic_of_empty fun a b hab ↦ ?_
  obtain ⟨⟨s, hs, hroute⟩, -⟩ := hab
  obtain ⟨id, neighbours, localAddr, rfl⟩ := h.node hs
  cases hroute

/-- All hosts, all senders of flood packets in flight and all addresses that a node knows are
in `K`. -/
structure Sourced (K : SocketAddr → Prop) (o : Overlay) : Prop where
  hosts : ∀ a, (o.hosts.lookup a).isSome → K a
  floods : ∀ m ∈ o.inFlight, ∀ q, m.packet = .nodePacket (.floodPacket q) → K m.source
  nodes : ∀ a s, o.hosts.lookup a = some (.node s) → s.Knows K

namespace Sourced

variable {K : SocketAddr → Prop} {o o' : Overlay}

/-- Messages leave or are copied. -/
theorem messages (h : Sourced K o) {ms : List Message} (hms : ∀ m ∈ ms, m ∈ o.inFlight) :
    Sourced K { o with inFlight := ms } :=
  ⟨h.hosts, fun m hm ↦ h.floods m (hms m hm), h.nodes⟩

/-- A host acts. -/
theorem update (h : Sourced K o) {a : SocketAddr} {host : Host}
    {sent : List (SocketAddr × Packet)} (ha : (o.hosts.lookup a).isSome)
    (hknows : ∀ s, host = .node s → s.Knows K) : Sourced K (o.update a host sent) where
  hosts := by
    intro b hb
    rw [update_lookup] at hb
    split at hb
    · next hba => exact hba ▸ h.hosts a ha
    · exact h.hosts b hb
  floods := by
    intro m hm q hq
    rcases List.mem_append.mp hm with hm | hm
    · exact h.floods m hm q hq
    · obtain ⟨x, -, rfl⟩ := List.mem_map.mp hm
      exact h.hosts a ha
  nodes := by
    intro b s hs
    rw [update_lookup] at hs
    split at hs
    · obtain ⟨k, -, hk⟩ := Option.map_eq_some_iff.mp hs
      exact hknows s hk
    · exact h.nodes b s hs

private theorem step {e : OverlayEvent} (h : Sourced K o)
    (hclient : ∀ m q, e = .client m → m.packet = .nodePacket (.floodPacket q) → K m.source)
    (hstep : o.Step e o') : Sourced K o' := by
  have hleave {l r : List Message} {m : Message} (hflight : o.inFlight = l ++ m :: r) :
      Sourced K { o with inFlight := l ++ r } := h.messages fun _ ↦ mem_of_mem_rest hflight
  cases hstep.transition with
  | @deliverNode l r m env s view hflight hhost hview =>
    refine (hleave hflight).update (by simp [hhost]) fun t ht ↦ ?_
    rw [← Host.node.inj ht]
    refine Event.knows_after ((h.nodes _ s hhost).reorder hview) fun fromAddr p hf ↦ ?_
    obtain ⟨hpacket, hsource⟩ := Node.Input.packet.inj hf.1
    exact hsource ▸ h.floods m (by simp [hflight]) p hpacket
  | @deliverServer l r m env s view hflight hhost =>
    exact (hleave hflight).update (by simp [hhost]) fun t ht ↦ nomatch ht
  | @deliverNone l r m env view hflight hhost => exact hleave hflight
  | @lose l r m hflight => exact hleave hflight
  | @duplicate l r m hflight =>
    refine h.messages fun m' hm' ↦ ?_
    rcases List.mem_append.mp hm' with hm' | hm'
    · exact hm'
    · rw [List.mem_singleton.mp hm', hflight]
      simp
  | @node a e s hhost hview hpacket =>
    refine h.update (by simp [hhost]) fun t ht ↦ ?_
    rw [← Host.node.inj ht]
    apply Event.knows_after ((h.nodes a s hhost).reorder hview)
    exact fun fromAddr p hf ↦ (Event.not_floods_of_isPacket hpacket fromAddr p hf).elim
  | @server a e s sendResult hhost =>
    exact h.update (by simp [hhost]) fun t ht ↦ nomatch ht
  | @client m hsource =>
    refine ⟨h.hosts, fun m' hm' q hq ↦ ?_, h.nodes⟩
    rcases List.mem_append.mp hm' with hm' | hm'
    · exact h.floods m' hm' q hq
    · rw [List.mem_singleton.mp hm'] at hq ⊢
      exact hclient m q rfl hq
  | @stop a =>
    refine ⟨fun b hb ↦ ?_, h.floods, fun b s hs ↦ h.nodes b s (Map.lookup_of_erase hs)⟩
    obtain ⟨host, hhost⟩ := Option.isSome_iff_exists.mp hb
    exact h.hosts b (Option.isSome_iff_exists.mpr ⟨host, Map.lookup_of_erase hhost⟩)

end Sourced

private theorem Started.sourced {K : SocketAddr → Prop} {o : Overlay} (h : o.Started)
    (hK : ∀ a, (o.hosts.lookup a).isSome → K a) : Sourced K o := by
  refine ⟨hK, fun m hm ↦ ?_, fun a s hs ↦ ?_⟩
  · rw [h.1] at hm
    cases hm
  · obtain ⟨id, neighbours, localAddr, rfl⟩ := h.node hs
    exact ⟨fun n r hr ↦ (by cases hr), fun v n hn ↦ (by cases hn)⟩

/-- Only hosts have successors, so there are finitely many routes. -/
theorem finite_routesOver (o : Overlay) (v : VideoId) : {a | ∃ b, o.RoutesOver v a b}.Finite := by
  apply (List.finite_toSet o.hosts.keys).subset
  rintro a ⟨b, ⟨s, hs, -⟩, -⟩
  exact AList.mem_keys.mp (AList.lookup_isSome.mp (by simp [hs]))

end Overlay

/-- Someone who is no host sends a flood packet from the address. -/
def ClientFloods (tr : List (Overlay × OverlayEvent)) (a : SocketAddr) : Prop :=
  ∃ p ∈ tr, ∃ m q, p.2 = .client m ∧ m.packet = .nodePacket (.floodPacket q) ∧ m.source = a

/-- In every run in which no node may set a route to a node whose own routes lead back to it, the
routes of a video form no cycle. They end at a node without a route, or lead to an address where
no node runs: that of a server, of a host that has stopped, or of a client that floods. -/
theorem run_loopFree {o₀ o : Overlay} {tr : List (Overlay × OverlayEvent)} (h₀ : o₀.Started)
    (hrun : Run Overlay.Step o₀ tr o) (hf : ∀ p ∈ tr, p.1.Forward p.2) (v : VideoId) :
    (∀ a, ¬ TransGen (o.RoutesOver v) a a) ∧
    ∀ a, o.HasNode a → ∃ b s, ReflTransGen (o.RoutesOver v) a b ∧
      o.hosts.lookup b = some (.node s) ∧
      ∀ c, s.videoRoutes.lookup v = some c →
        ¬ o.HasNode c ∧ ((o₀.hosts.lookup c).isSome ∨ ClientFloods tr c) := by
  have hacyclic : o.LoopFree := hrun.invariant_of_forall (P := Overlay.Forward)
    (fun _ _ _ h hforward hstep ↦ h.step hforward hstep) hf h₀.loopFree
  have hsourced : Overlay.Sourced (fun c ↦ (o₀.hosts.lookup c).isSome ∨ ClientFloods tr c) o := by
    refine hrun.invariant_of_forall (P := fun _ e ↦ ∃ o, (o, e) ∈ tr)
      (fun _ e _ h ⟨o, he⟩ hstep ↦ h.step (fun m q hm hq ↦ ?_) hstep) (fun p hp ↦ ⟨p.1, hp⟩)
      (h₀.sourced fun c hc ↦ .inl hc)
    exact .inr ⟨(o, e), he, m, q, hm, hq, rfl⟩
  refine ⟨hacyclic v, fun a ha ↦ ?_⟩
  obtain ⟨b, hab, hb⟩ := (hacyclic v).exists_end (o.finite_routesOver v) a
  have hnode : o.HasNode b := by
    rcases hab.cases_tail with rfl | ⟨c, -, hcb⟩
    · exact ha
    · exact hcb.2
  obtain ⟨s, hs⟩ := hnode
  refine ⟨b, s, hab, hs, fun c hc ↦ ⟨fun hnode ↦ hb c ⟨⟨s, hs, hc⟩, hnode⟩, ?_⟩⟩
  exact (hsourced.nodes b s hs).routes v c hc

/-- The hosts of the triangle were just started. -/
theorem triangle_started : triangle.Started := by
  refine ⟨rfl, Overlay.forall_hosts ?_⟩
  have hentries : triangle.hosts.entries =
      [⟨hostAddr 9, .server (.new 9 [hostAddr 1, hostAddr 2])⟩,
        ⟨hostAddr 1, .node (.new 1 [.v4 2] (hostAddr 1))⟩,
        ⟨hostAddr 2, .node (.new 2 [.v4 1] (hostAddr 2))⟩] := rfl
  simp only [hentries, List.forall_mem_cons]
  exact ⟨.inl ⟨_, _, rfl⟩, .inr ⟨_, _, _, rfl⟩, .inr ⟨_, _, _, rfl⟩, List.forall_mem_nil _⟩

/-- A client asks a node for video 5. -/
def askFor5 (n : BitVec 32) : OverlayEvent :=
  .client ⟨⟨.v4 7, 4000⟩, hostAddr n, .nodePacket (.clientPing 0 [5])⟩

/-- A node finds a neighbour silent. -/
def giveUp (n neighbour : BitVec 32) : OverlayEvent :=
  .node (hostAddr n) ⟨.neighbourUnresponsive (hostAddr neighbour), .calm 0, noNode⟩

/-- The server offers video 5 and floods, both nodes receive the video from it, and it stops. Node 1
notices and turns to node 2. -/
def serverStops : List OverlayEvent :=
  [.server (hostAddr 9) (.addVideo 5 "five") fun _ ↦ .ok (),
    .server (hostAddr 9) (.flood 0) fun _ ↦ .ok ()] ++ List.replicate 4 deliverNext ++
    [askFor5 1, deliverNext, askFor5 2, deliverAt 2, .stop (hostAddr 9), giveUp 1 9]

/-- A node without an upstream leads to no other one. -/
private theorem not_reflTransGen {o : Overlay} {v : VideoId} {n a : SocketAddr} (hne : n ≠ a)
    (hend : o.upstream v n = none) : ¬ ReflTransGen (o.RoutesOver v) n a := by
  intro h
  rcases h.cases_head with heq | ⟨b, hb, -⟩
  · exact hne heq
  · simp [Overlay.routesOver_iff, hend] at hb

/-- One node turns to the other, and no circle comes of it. -/
theorem loopFree_serverStops :
    (triangle.play serverStops).2.RoutesOver 5 (hostAddr 1) (hostAddr 2) ∧
      ¬ TransGen ((triangle.play serverStops).2.RoutesOver 5) (hostAddr 1) (hostAddr 1) := by
  have hturns : ∀ p ∈ (triangle.play serverStops).1, ∀ t ∈ p.1.turns p.2,
      t.upstream ≠ t.node ∧ p.1.upstream t.video t.upstream = none := by
    decide +kernel
  refine ⟨Overlay.routesOver_iff.mpr (by decide +kernel), ?_⟩
  refine (run_loopFree triangle_started (Overlay.run_play _ _) (fun p hp t ht ↦ ?_) 5).1
    (hostAddr 1)
  exact not_reflTransGen (hturns p hp t ht).1 (hturns p hp t ht).2

/-- Node 2 notices as well and turns to node 1, which advertised the video to it while the server
was running: each of the two now receives the video over the other one. -/
theorem mutual_detour :
    triangle.Started ∧
    Run Overlay.Step triangle (triangle.play (serverStops ++ [giveUp 2 9])).1
      (triangle.play (serverStops ++ [giveUp 2 9])).2 ∧
    TransGen ((triangle.play (serverStops ++ [giveUp 2 9])).2.RoutesOver 5) (hostAddr 1)
      (hostAddr 1) := by
  refine ⟨triangle_started, Overlay.run_play _ _, ?_⟩
  have hout : (triangle.play (serverStops ++ [giveUp 2 9])).2.RoutesOver 5 (hostAddr 1)
      (hostAddr 2) := Overlay.routesOver_iff.mpr (by decide +kernel)
  have hback : (triangle.play (serverStops ++ [giveUp 2 9])).2.RoutesOver 5 (hostAddr 2)
      (hostAddr 1) := Overlay.routesOver_iff.mpr (by decide +kernel)
  exact .tail (.single hout) hback

end PessiStreamer.System
