import Mathlib.Order.Bounds.Defs
import PessiStreamer.System.Flood

/-!
# The hops that a flood leaves behind

Each copy of a flood that a node accepts replaces the hops recorded for the neighbour it came
from, so the recorded hops are those of the last copy. The copies are the simple paths from the
server over this neighbour, in the order in which they arrive.
-/

namespace PessiStreamer.Node
open Base Common

namespace State

/-- The hops recorded for the route over a neighbour. -/
def hopsVia (s : State) (n : SocketAddr) : Option Nat :=
  (s.availableRoutes.lookup n).map RouteInfo.hops

variable {s : State} {a n : SocketAddr}

/-- A flood packet brings the hops over its sender. -/
@[simp] theorem hopsVia_updateRoute {p : FloodPacket} {now : SystemTime} :
    (s.updateRoute a p now).hopsVia n = if n = a then some p.hops else s.hopsVia n := by
  simp only [hopsVia, updateRoute, Map.lookup_upsert]
  by_cases hn : n = a
  · simp [hn, RouteInfo.updateFromFloodPacket]
  · simp [hn]

/-- A node that is given up keeps its hops. -/
@[simp] theorem hopsVia_markUnresponsive :
    (s.markUnresponsive a).hopsVia n = s.hopsVia n := by
  simp only [hopsVia, markUnresponsive, Map.lookup_modify]
  by_cases hn : n = a
  · rw [if_pos hn, Option.map_map, hn]
    rfl
  · rw [if_neg hn]

private theorem Reorder.hopsVia {t : State} (h : s.Reorder t) (n : SocketAddr) :
    t.hopsVia n = s.hopsVia n := by
  rw [State.hopsVia, h.availableRoute, State.hopsVia]

end State

/-- Only a flood packet changes recorded hops. -/
theorem Event.after_hopsVia {e : Event} (h : ∀ fromAddr p, ¬ e.Floods fromAddr p)
    (n : SocketAddr) : e.after.state.hopsVia n = e.view.hopsVia n := by
  apply e.reaches_after.invariant (I := fun c ↦ c.state.hopsVia n = e.view.hopsVia n) _ rfl
  intro c d hc hd
  cases hd with
  | learn hf => exact (h _ _ hf).elim
  | mark => exact State.hopsVia_markUnresponsive.trans hc
  | _ => exact hc

/-- A flood packet that is no loop sets the hops for its sender. -/
theorem floodPacket_hopsVia {s : State} {env : Env} {p : FloodPacket} (fromAddr : SocketAddr)
    (hok : env.AllOk) (hid : s.id ∉ p.visitedNodes) (n : SocketAddr) :
    (finalState (handleFloodPacket fromAddr p) (.start env s)).state.hopsVia n =
      if n = fromAddr then some p.hops else s.hopsVia n := by
  rw [(floodPacket_after fromAddr hok hid).1, State.drain_eq]
  exact State.hopsVia_updateRoute

end PessiStreamer.Node

namespace PessiStreamer.System
open Base Common Node

/-- The hops that a host has recorded for the route over a neighbour. -/
def Host.hopsVia (h : Host) (n : SocketAddr) : Option Nat :=
  match h with
  | .node s => s.hopsVia n
  | .server _ => none

namespace Overlay

/-- The hops that the host at `m` has recorded for the route over `n`. -/
def hopsAt (o : Overlay) (m n : SocketAddr) : Option Nat :=
  (o.hosts.lookup m).bind fun h ↦ h.hopsVia n

/-- The copy of the flood in a message, where its target is a node that does not drop it as a
loop. -/
def copyIn (o : Overlay) (m : Message) : Option (Token SocketAddr NodeId) :=
  match m.token?, o.hosts.lookup m.target with
  | some t, some (.node s) => if s.id ∈ t.visited then none else some t
  | _, _ => none

/-- The copy of the flood that is accepted in a step. -/
def acceptedCopy (p : Overlay × OverlayEvent) : Option (Token SocketAddr NodeId) :=
  match p.2 with
  | .deliver index _ _ => p.1.inFlight[index]?.bind p.1.copyIn
  | _ => none

/-- The visited nodes of the copies that the node at `m` accepted from `n`, in the order of their
arrival. -/
def copies (tr : List (Overlay × OverlayEvent)) (n m : SocketAddr) : List (List NodeId) :=
  ((tr.filterMap acceptedCopy).filter fun t ↦ t.source = n ∧ t.target = m).map Token.visited

/-- What becomes of recorded hops when a copy is accepted. -/
def hopsAfter (t : Option (Token SocketAddr NodeId)) (m n : SocketAddr) (hops : Option Nat) :
    Option Nat :=
  match t with
  | some t => if t.source = n ∧ t.target = m then some t.visited.length else hops
  | none => hops

section Copies

variable {o : Overlay} {m : Message}

private theorem copyIn_flood {q : FloodPacket} {s : Node.State}
    (hq : m.packet = .nodePacket (.floodPacket q)) (hs : o.hosts.lookup m.target = some (.node s)) :
    o.copyIn m =
      if s.id ∈ q.visitedNodes then none else some ⟨q.visitedNodes, m.source, m.target⟩ := by
  simp only [copyIn, Message.token?, hq, hs]

private theorem copyIn_no_token (h : m.token? = none) : o.copyIn m = none := by
  simp only [copyIn, h]

private theorem copyIn_no_node (h : ∀ s, o.hosts.lookup m.target ≠ some (.node s)) :
    o.copyIn m = none := by
  unfold copyIn
  split
  · next s _ hs => exact (h s hs).elim
  · rfl

/-- The accepted copies are those recorded as accepted, with their senders. -/
theorem acceptedIn_eq (p : Overlay × OverlayEvent) :
    acceptedIn p = (acceptedCopy p).map fun t ↦ (t.target, t.visited) := by
  obtain ⟨o, e⟩ := p
  cases e with
  | deliver index env view =>
    simp only [acceptedIn, acceptedCopy]
    cases o.inFlight[index]? with
    | none => rfl
    | some m =>
      simp only [Option.bind_some]
      split
      · next q s hq hs =>
        rw [copyIn_flood hq hs]
        split
        · rfl
        · rfl
      · next hnot =>
        have hnone : o.copyIn m = none := by
          cases ht : m.token? with
          | none => exact copyIn_no_token ht
          | some t =>
            obtain ⟨q, hq, -⟩ := token_eq_some ht
            exact copyIn_no_node fun s hs ↦ hnot q s hq hs
        rw [hnone]
        rfl
  | _ => rfl

private theorem acceptedCopy_deliver {l r : List Message} {env : Env} {view : Node.State}
    (hflight : o.inFlight = l ++ m :: r) :
    acceptedCopy (o, .deliver l.length env view) = o.copyIn m := by
  simp [acceptedCopy, hflight]

end Copies

private theorem hopsAt_eq {o : Overlay} {a n : SocketAddr} {h : Host}
    (hh : o.hosts.lookup a = some h) : o.hopsAt a n = h.hopsVia n := by
  rw [hopsAt, hh, Option.bind_some]

private theorem update_hopsAt {o : Overlay} {a m n : SocketAddr} {h k : Host}
    {sent : List (SocketAddr × Packet)} (hh : o.hosts.lookup a = some h) :
    (o.update a k sent).hopsAt m n = if m = a then k.hopsVia n else o.hopsAt m n := by
  rw [hopsAt, update_lookup]
  by_cases hm : m = a
  · simp [hm, hh]
  · simp [hm, hopsAt]

/-- A host that keeps its hops changes none. -/
theorem update_hopsAt_same {o : Overlay} {a n : SocketAddr} {h k : Host}
    {sent : List (SocketAddr × Packet)} (hh : o.hosts.lookup a = some h)
    (hk : k.hopsVia n = h.hopsVia n) (m : SocketAddr) :
    (o.update a k sent).hopsAt m n = o.hopsAt m n := by
  rw [update_hopsAt hh]
  split
  · next hm => rw [hm, hopsAt_eq hh, hk]
  · rfl

/-- An undisturbed step changes recorded hops where it accepts a copy, and only there. -/
theorem Step.recorded {o o' : Overlay} {e : OverlayEvent} (h : o.Step e o')
    (hu : o.Undisturbed e) (m n : SocketAddr) :
    o'.hopsAt m n = hopsAfter (acceptedCopy (o, e)) m n (o.hopsAt m n) := by
  cases h.transition with
  | @deliverNode l r msg env s view hflight hhost hview =>
    have hmsg := hu msg (by simp [hflight])
    rw [acceptedCopy_deliver hflight]
    cases ht : msg.token? with
    | none =>
      rw [copyIn_no_token ht]
      apply update_hopsAt_same (o := { o with inFlight := l ++ r }) hhost
      exact (Event.after_hopsVia (not_floods_of_token ht) n).trans (hview.hopsVia n)
    | some t =>
      obtain ⟨q, hq, rfl⟩ := token_eq_some ht
      have hok := hmsg.2 (by simp [ht])
      rw [copyIn_flood hq hhost, hq]
      by_cases hid : s.id ∈ q.visitedNodes
      · rw [if_pos hid]
        apply update_hopsAt_same (o := { o with inFlight := l ++ r }) hhost
        have hafter : Event.after ⟨.packet (.nodePacket (.floodPacket q)) msg.source, env, view⟩ =
            .start env view := floodPacket_loop (hview.id ▸ hid)
        rw [hafter]
        exact hview.hopsVia n
      · rw [if_neg hid, update_hopsAt (o := { o with inFlight := l ++ r }) hhost]
        have hafter : (Event.after ⟨.packet (.nodePacket (.floodPacket q)) msg.source, env,
            view⟩).state.hopsVia n = if n = msg.source then some q.hops else view.hopsVia n :=
          floodPacket_hopsVia msg.source hok (hview.id ▸ hid) n
        simp only [Host.hopsVia, hafter, hopsAfter]
        by_cases hm : m = msg.target
        · by_cases hn : n = msg.source
          · simp [hm, hn, FloodPacket.hops]
          · rw [hm, if_pos rfl, if_neg hn, if_neg (fun h ↦ hn h.1.symm), hopsAt_eq hhost]
            exact hview.hopsVia n
        · rw [if_neg hm, if_neg fun h ↦ hm h.2.symm]
          rfl
  | @deliverServer l r msg env s view hflight hhost =>
    rw [acceptedCopy_deliver hflight, copyIn_no_node (by simp [hhost])]
    apply update_hopsAt_same (o := { o with inFlight := l ++ r }) hhost
    rfl
  | @deliverNone l r msg env view hflight hhost =>
    rw [acceptedCopy_deliver hflight, copyIn_no_node (by simp [hhost])]
    rfl
  | lose | duplicate | client => rfl
  | @node a e s hhost hview hpacket =>
    apply update_hopsAt_same hhost
    have hno := Event.not_floods_of_isPacket hpacket
    exact (Event.after_hopsVia hno n).trans (hview.hopsVia n)
  | @server a e s sendResult hhost =>
    apply update_hopsAt_same hhost
    rfl
  | stop => cases hu

private theorem copies_concat (tr : List (Overlay × OverlayEvent)) (p : Overlay × OverlayEvent)
    (n m : SocketAddr) : copies (tr ++ [p]) n m = copies tr n m ++ copies [p] n m := by
  simp only [copies, List.filterMap_append, List.filter_append, List.map_append]

/-- The recorded hops are those of the last copy accepted, or what they were before the run. -/
theorem run_hops {o₁ o : Overlay} {tr : List (Overlay × OverlayEvent)} (h : Run Step o₁ tr o)
    (hu : ∀ p ∈ tr, p.1.Undisturbed p.2) (m n : SocketAddr) :
    o.hopsAt m n = ((copies tr n m).getLast?.map List.length).or (o₁.hopsAt m n) := by
  induction h with
  | refl => rfl
  | @tail t u tr e h he ih =>
    have ih := ih fun p hp ↦ hu p (List.mem_append_left _ hp)
    rw [he.recorded (hu (t, e) (by simp)), copies_concat, ih]
    cases hcopy : acceptedCopy (t, e) with
    | none => simp [copies, hcopy, hopsAfter]
    | some c =>
      by_cases hc : c.source = n ∧ c.target = m
      · simp [copies, hcopy, hopsAfter, hc]
      · simp [copies, hcopy, hopsAfter, hc]

/-- An accepted copy was in flight. -/
theorem mem_floods_of_accepted {p : Overlay × OverlayEvent} {t : Token SocketAddr NodeId}
    (h : acceptedCopy p = some t) : t ∈ p.1.floods := by
  unfold acceptedCopy at h
  split at h
  · obtain ⟨m, hm, ht⟩ := Option.bind_eq_some_iff.mp h
    apply List.mem_filterMap.mpr
    apply Exists.intro m
    constructor
    · exact List.mem_of_getElem? hm
    · unfold copyIn at ht
      split at ht
      · next t' s htoken hs =>
        split at ht
        · cases ht
        · cases ht
          exact htoken
      · cases ht
  · cases h

/-- All copies that are accepted in a run visited their sender last. -/
theorem run_trailed {o₁ o : Overlay} {tr : List (Overlay × OverlayEvent)} {a : SocketAddr}
    (h : Run Step o₁ tr o) (hu : ∀ p ∈ tr, p.1.Undisturbed p.2)
    (hstart : (o₁.flooding [] 0).Trailed o₁.graph a) :
    o.graph = o₁.graph ∧ (o.flooding [] 0).Trailed o₁.graph a ∧
      ∀ t ∈ tr.filterMap acceptedCopy, (t.source = a ∨ t.source ∈ o₁.graph.relays) ∧
        t.visited.getLast? = some (o₁.graph.label t.source) := by
  induction h with
  | refl => exact ⟨rfl, hstart, by simp⟩
  | @tail o o' tr e h he ih =>
    obtain ⟨hgraph, htrailed, haccepted⟩ := ih fun p hp ↦ hu p (List.mem_append_left _ hp)
    obtain ⟨hgraph', hstep⟩ := he.flooding (hu (o, e) (by simp)) [] 0
    refine ⟨hgraph'.trans hgraph, ?_, fun t ht ↦ ?_⟩
    · rcases hstep with hsame | hstep
      · have hfly : o'.floods = o.floods := congrArg Flooding.flying hsame
        intro t ht
        exact htrailed t (by simpa [Overlay.flooding, hfly] using ht)
      · rw [hgraph] at hstep
        exact hstep.trailed htrailed
    · rw [List.filterMap_append, List.mem_append] at ht
      rcases ht with ht | ht
      · exact haccepted t ht
      · obtain ⟨p, hp, ht⟩ := List.mem_filterMap.mp ht
        cases List.mem_singleton.mp hp
        exact htrailed t (mem_floods_of_accepted ht)

/-- The lengths of the simple paths from `a` to `m` with last hop `n`, as counted by the nodes
visited on them. -/
def pathLengths (g : RelayGraph SocketAddr NodeId) (a n m : SocketAddr) : Set Nat :=
  {k | ∃ xs, g.SimplePath a xs m ∧ (a :: xs).getLast? = some n ∧ k = ((a :: xs).map g.label).length}

private theorem mem_copies {tr : List (Overlay × OverlayEvent)} {n m : SocketAddr}
    {visited : List NodeId} : visited ∈ copies tr n m ↔
      ∃ t ∈ tr.filterMap acceptedCopy, (t.source = n ∧ t.target = m) ∧ t.visited = visited := by
  simp only [copies, List.mem_map, List.mem_filter, decide_eq_true_eq, and_assoc]

/-- If the accepted packets are the simple paths, the copies from a neighbour are those with this
last hop. -/
theorem mem_copies_iff {g : RelayGraph SocketAddr NodeId} {a n m : SocketAddr}
    {tr : List (Overlay × OverlayEvent)} {visited : List NodeId}
    (hlabel : Set.InjOn g.label (insert a g.relays))
    (haccepted : ∀ m visited, (m, visited) ∈ tr.filterMap acceptedIn ↔
      ∃ xs, g.SimplePath a xs m ∧ visited = (a :: xs).map g.label)
    (htrailed : ∀ t ∈ tr.filterMap acceptedCopy, (t.source = a ∨ t.source ∈ g.relays) ∧
      t.visited.getLast? = some (g.label t.source)) :
    visited ∈ copies tr n m ↔ ∃ xs, g.SimplePath a xs m ∧ (a :: xs).getLast? = some n ∧
      visited = (a :: xs).map g.label := by
  have heq : tr.filterMap acceptedIn =
      (tr.filterMap acceptedCopy).map fun t ↦ (t.target, t.visited) := by
    rw [List.map_filterMap]
    exact List.filterMap_congr fun p _ ↦ acceptedIn_eq p
  -- the sender of a copy is the last vertex of its path
  have hsource {t : Token SocketAddr NodeId} {xs : List SocketAddr}
      (ht : t ∈ tr.filterMap acceptedCopy) (hpath : g.SimplePath a xs t.target)
      (hvisited : t.visited = (a :: xs).map g.label) :
      (a :: xs).getLast? = some t.source := by
    obtain ⟨hvertex, hlast⟩ := htrailed t ht
    rw [hvisited, List.getLast?_map] at hlast
    obtain ⟨x, hx, hxt⟩ := Option.map_eq_some_iff.mp hlast
    have hmem : x ∈ a :: xs := List.mem_of_getLast? hx
    have hxvertex : x ∈ (insert a g.relays : Set SocketAddr) := by
      rcases List.mem_cons.mp hmem with hxa | hxs
      · exact .inl hxa
      · exact .inr (RelayGraph.relay_of_chain hpath.chain x (List.mem_append_left _ hxs))
    rw [hx, hlabel hxvertex hvertex hxt]
  rw [mem_copies]
  constructor
  · intro ⟨t, ht, ⟨hn, hm⟩, hvisited⟩
    have hmem : (t.target, t.visited) ∈ tr.filterMap acceptedIn := by
      rw [heq]
      exact List.mem_map_of_mem ht
    obtain ⟨xs, hpath, hxs⟩ := (haccepted _ _).mp hmem
    apply Exists.intro xs
    rw [← hm, ← hn, ← hvisited]
    exact ⟨hpath, hsource ht hpath hxs, hxs⟩
  · intro ⟨xs, hpath, hlast, hvisited⟩
    have hmem := (haccepted m visited).mpr ⟨xs, hpath, hvisited⟩
    rw [heq] at hmem
    obtain ⟨t, ht, htv⟩ := List.mem_map.mp hmem
    obtain ⟨rfl, rfl⟩ := Prod.mk.inj htv
    apply Exists.intro t
    have hn : t.source = n := Option.some.inj ((hsource ht hpath hvisited).symm.trans hlast)
    exact ⟨ht, ⟨hn, rfl⟩, rfl⟩

/-- When a flood is over, the hops that a node recorded for a neighbour are those of the last copy
that it accepted from there. They are the length of a simple path with this last hop, and the
least one if and only if no copy from there was shorter. -/
theorem recorded_hops {o₀ o₁ o : Overlay} {a : SocketAddr} {s : Server.State}
    {now : SystemTime} {sendResult : Nat → Except ReliableUdpSocketError Unit}
    {tr : List (Overlay × OverlayEvent)} (hids : o₀.DistinctIds)
    (hnodup : ∀ b h, o₀.hosts.lookup b = some h → h.neighbours.Nodup) (hfree : o₀.FloodFree)
    (hs : o₀.hosts.lookup a = some (.server s)) (hok : ∀ i, sendResult i = .ok ())
    (hflood : o₀.Step (.server a (.flood now) sendResult) o₁) (hrun : Run Step o₁ tr o)
    (hu : ∀ p ∈ tr, p.1.Undisturbed p.2) (hend : o.FloodFree) (n m : SocketAddr) :
    (copies tr n m ≠ [] ↔ (pathLengths o₀.graph a n m).Nonempty) ∧
    ∀ visited, (copies tr n m).getLast? = some visited →
      o.hopsAt m n = some visited.length ∧ visited.length ∈ pathLengths o₀.graph a n m ∧
      (IsLeast (pathLengths o₀.graph a n m) visited.length ↔
        ∀ other ∈ copies tr n m, visited.length ≤ other.length) := by
  obtain ⟨hgraph, hfloods⟩ := flood_floods now hs hok hfree
  rw [← hflood.2] at hgraph hfloods
  have hlabel := injOn_label hids hs
  have hstart : (o₁.flooding [] 0).Trailed o₁.graph a := by
    intro t ht
    rw [flooding, hfloods] at ht
    obtain ⟨b, -, rfl⟩ := List.mem_map.mp ht
    exact ⟨.inl rfl, by rw [hgraph]; rfl⟩
  obtain ⟨-, -, htrailed⟩ := run_trailed hrun hu hstart
  rw [hgraph] at htrailed
  obtain ⟨bound, hbound⟩ := flood_simplePaths hids hnodup hfree hs hok hflood
  obtain ⟨-, -, hover⟩ := hbound tr o hrun hu
  have hmem (visited : List NodeId) : visited ∈ copies tr n m ↔ ∃ xs,
      o₀.graph.SimplePath a xs m ∧ (a :: xs).getLast? = some n ∧
        visited = (a :: xs).map o₀.graph.label :=
    mem_copies_iff hlabel (hover hend).2.1 htrailed
  have hlengths {k : Nat} : k ∈ pathLengths o₀.graph a n m ↔
      ∃ visited ∈ copies tr n m, k = visited.length := by
    constructor
    · rintro ⟨xs, hpath, hlast, hk⟩
      exact ⟨_, (hmem _).mpr ⟨xs, hpath, hlast, rfl⟩, hk⟩
    · rintro ⟨visited, hvisited, hk⟩
      obtain ⟨xs, hpath, hlast, heq⟩ := (hmem visited).mp hvisited
      exact ⟨xs, hpath, hlast, by rw [hk, heq]⟩
  constructor
  · constructor
    · intro hne
      obtain ⟨visited, hvisited⟩ := List.exists_mem_of_ne_nil _ hne
      exact ⟨visited.length, hlengths.mpr ⟨visited, hvisited, rfl⟩⟩
    · rintro ⟨k, hk⟩
      obtain ⟨visited, hvisited, -⟩ := hlengths.mp hk
      exact List.ne_nil_of_mem hvisited
  · intro visited hlast
    have hin : visited.length ∈ pathLengths o₀.graph a n m :=
      hlengths.mpr ⟨visited, List.mem_of_getLast? hlast, rfl⟩
    refine ⟨?_, hin, ?_⟩
    · rw [run_hops hrun hu, hlast]
      rfl
    · constructor
      · intro hleast other hother
        exact hleast.2 (hlengths.mpr ⟨other, hother, rfl⟩)
      · intro hleast
        constructor
        · exact hin
        · intro k hk
          obtain ⟨other, hother, rfl⟩ := hlengths.mp hk
          exact hleast other hother

end Overlay

/-- A node behind two others, of which the second reaches it over the first. -/
def kite : Overlay where
  hosts := AList.insert (hostAddr 9) (.server (.new 9 [hostAddr 1, hostAddr 2])) <|
    AList.insert (hostAddr 1) (.node (.new 1 [.v4 2, .v4 3] (hostAddr 1))) <|
    AList.insert (hostAddr 2) (.node (.new 2 [.v4 1] (hostAddr 2))) <|
    AList.insert (hostAddr 3) (.node (.new 3 [.v4 1] (hostAddr 3))) ∅
  inFlight := []

/-- Its server floods, and each packet is delivered in its turn. -/
def kiteRun : List (Overlay × OverlayEvent) × Overlay :=
  (kite.next triangleFlood).play (List.replicate 6 deliverNext)

/-- No neighbour turns up while the flood is delivered. -/
private theorem kite_undisturbed : ∀ p ∈ kiteRun.1, p.1.Undisturbed p.2 :=
  Overlay.undisturbed_play (by decide +kernel)

private theorem kite_distinctIds : kite.DistinctIds := Overlay.distinctIds_of_entries (by decide)

private theorem kite_nodup (b : SocketAddr) (h : Host) (hb : kite.hosts.lookup b = some h) :
    h.neighbours.Nodup :=
  Overlay.forall_hosts (o := kite) (P := fun _ h ↦ h.neighbours.Nodup) (by decide) b h hb

private theorem kite_step : kite.Step triangleFlood (kite.next triangleFlood) := ⟨⟨_, rfl⟩, rfl⟩

private theorem kite_floodFree : kiteRun.2.FloodFree := by decide +kernel

/-- The last copy tells three hops, although there is a path of two. -/
theorem recorded_hops_kite : kiteRun.2.hopsAt (hostAddr 3) (hostAddr 1) = some 3 := by
  have h := Overlay.recorded_hops kite_distinctIds kite_nodup (by decide)
    (s := .new 9 [hostAddr 1, hostAddr 2]) rfl (fun _ ↦ rfl) kite_step (Overlay.run_play _ _)
    kite_undisturbed kite_floodFree (hostAddr 1) (hostAddr 3)
  exact (h.2 [9, 2, 1] (by decide +kernel)).1

/-- The shorter of two copies comes first. -/
theorem hops_not_least : kite.DistinctIds ∧
    (∀ b h, kite.hosts.lookup b = some h → h.neighbours.Nodup) ∧
    kite.Step triangleFlood (kite.next triangleFlood) ∧
    Run Overlay.Step (kite.next triangleFlood) kiteRun.1 kiteRun.2 ∧
    (∀ p ∈ kiteRun.1, p.1.Undisturbed p.2) ∧ kiteRun.2.FloodFree ∧
    kiteRun.2.hopsAt (hostAddr 3) (hostAddr 1) = some 3 ∧
    ¬ IsLeast (Overlay.pathLengths kite.graph (hostAddr 9) (hostAddr 1) (hostAddr 3)) 3 := by
  have hpath : kite.graph.SimplePath (hostAddr 9) [hostAddr 1] (hostAddr 3) := by
    constructor
    · simp only [List.cons_append, List.nil_append, List.isChain_cons_cons, RelayGraph.Edge]
      exact ⟨⟨by decide, by decide⟩, ⟨by decide, by decide⟩, .singleton _⟩
    · decide
  refine ⟨kite_distinctIds, kite_nodup, kite_step, Overlay.run_play _ _, kite_undisturbed,
    kite_floodFree, by decide +kernel, fun hleast ↦ ?_⟩
  exact absurd (hleast.2 ⟨_, hpath, rfl, rfl⟩) (by decide)

end PessiStreamer.System
