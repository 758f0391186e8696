import Mathlib.Algebra.GroupWithZero.Nat
import Mathlib.Data.Finset.Card
import Mathlib.Data.List.Chain
import Mathlib.Data.List.Nodup
import Mathlib.Logic.Relation

/-!
# Flooding a directed graph

A packet carries the labels of the vertices it visited. A relay that it has not visited
accepts it and passes it on to all of its neighbours but the one it came from. Every order of
deliveries accepts the same packets: one for each simple path through relays.
-/

namespace PessiStreamer.Base

variable {A I : Type}

/-- A directed graph whose relays pass packets on. -/
structure RelayGraph (A I : Type) where
  out : A → List A
  label : A → I
  relays : Finset A

/-- A packet on its way along an edge. -/
structure Token (A I : Type) where
  visited : List I
  source : A
  target : A
  deriving DecidableEq

namespace RelayGraph

/-- An edge to a relay. -/
def Edge (g : RelayGraph A I) (a b : A) : Prop := b ∈ g.out a ∧ b ∈ g.relays

/-- A simple path from `a` over `xs` to `n` whose vertices after `a` are relays. -/
structure SimplePath (g : RelayGraph A I) (a : A) (xs : List A) (n : A) : Prop where
  chain : (a :: (xs ++ [n])).IsChain g.Edge
  nodup : (a :: (xs ++ [n])).Nodup

variable [DecidableEq A] [DecidableEq I]

/-- The target is a relay that the packet has not visited. -/
def Accepts (g : RelayGraph A I) (t : Token A I) : Prop :=
  t.target ∈ g.relays ∧ g.label t.target ∉ t.visited

instance (g : RelayGraph A I) (t : Token A I) : Decidable (g.Accepts t) :=
  inferInstanceAs (Decidable (_ ∧ _))

/-- What the target of a packet does with it. -/
def accept (g : RelayGraph A I) (t : Token A I) : List (A × List I) :=
  if g.Accepts t then [(t.target, t.visited)] else []

/-- The packets by which the target passes a packet on. -/
def forward (g : RelayGraph A I) (t : Token A I) : List (Token A I) :=
  if g.Accepts t then
    ((g.out t.target).filter (· ≠ t.source)).map fun b ↦
      ⟨t.visited ++ [g.label t.target], t.target, b⟩
  else []

omit [DecidableEq A] in
private theorem unvisited_lt (g : RelayGraph A I) {visited : List I} {b : A}
    (h : b ∈ g.relays ∧ g.label b ∉ visited) :
    (g.relays.filter fun c ↦ g.label c ∉ visited ++ [g.label b]).card <
      (g.relays.filter fun c ↦ g.label c ∉ visited).card := by
  apply Finset.card_lt_card
  rw [Finset.ssubset_iff_of_subset]
  · exact ⟨b, by simp [h.1, h.2], by simp⟩
  · intro c hc
    simp only [Finset.mem_filter, List.mem_append, not_or] at hc ⊢
    exact ⟨hc.1, hc.2.1⟩

/-- All that will be accepted once `a` sent a packet to all its neighbours. -/
def flood (g : RelayGraph A I) (visited : List I) (a : A) : List (A × List I) :=
  (g.out a).flatMap fun b ↦
    if b ∈ g.relays ∧ g.label b ∉ visited then
      (b, visited) :: g.flood (visited ++ [g.label b]) b
    else []
termination_by (g.relays.filter fun c ↦ g.label c ∉ visited).card
decreasing_by exact g.unvisited_lt ‹_›

/-- All that will be accepted because of one packet. -/
def spread (g : RelayGraph A I) (t : Token A I) : List (A × List I) :=
  if g.Accepts t then
    (t.target, t.visited) :: g.flood (t.visited ++ [g.label t.target]) t.target
  else []

variable {g : RelayGraph A I} {t : Token A I} {a b n : A} {visited vis : List I}

/-- What the neighbours of `a` accept is what the packets to them set off. -/
theorem flood_eq (g : RelayGraph A I) (visited : List I) (a : A) :
    g.flood visited a = (g.out a).flatMap fun b ↦ g.spread ⟨visited, a, b⟩ := by
  rw [flood]
  rfl

/-- A packet back to where it came from is not accepted, so not sending it loses nothing. -/
theorem spread_eq (h : g.label t.source ∈ t.visited) :
    g.spread t = g.accept t ++ (g.forward t).flatMap g.spread := by
  by_cases hacc : g.Accepts t
  · rw [spread, accept, forward, if_pos hacc, if_pos hacc, if_pos hacc, flood_eq,
      List.singleton_append, List.flatMap_map]
    congr 1
    induction g.out t.target with
    | nil => rfl
    | cons b bs ih =>
      by_cases hb : b = t.source
      · have hskip : g.spread ⟨t.visited ++ [g.label t.target], t.target, t.source⟩ = [] :=
          if_neg fun hb' ↦ hb'.2 (List.mem_append_left _ h)
        rw [List.flatMap_cons, hb, hskip, List.filter_cons_of_neg (by simp)]
        exact ih
      · simpa [hb] using ih
  · simp [spread, accept, forward, hacc]

/-- What a flood is accepted by: the simple paths through vertices it has not visited. -/
theorem mem_flood : (n, vis) ∈ g.flood visited a ↔
    ∃ xs, (a :: (xs ++ [n])).IsChain g.Edge ∧ ((xs ++ [n]).map g.label).Nodup ∧
      (∀ x ∈ xs ++ [n], g.label x ∉ visited) ∧ vis = visited ++ xs.map g.label := by
  induction visited, a using flood.induct g with
  | case1 visited a ih =>
    rw [flood]
    simp only [List.mem_flatMap]
    constructor
    · rintro ⟨b, hb, hmem⟩
      by_cases h : b ∈ g.relays ∧ g.label b ∉ visited
      · rw [if_pos h] at hmem
        rcases List.mem_cons.mp hmem with heq | hmem
        · cases heq
          exact ⟨[], by simpa [Edge] using ⟨hb, h.1⟩, by simp, by simpa using h.2, by simp⟩
        · obtain ⟨xs, hchain, hnodup, hfresh, rfl⟩ := (ih b h).mp hmem
          refine ⟨b :: xs, ?_, ?_, ?_, by simp⟩
          · exact List.isChain_cons_cons.mpr ⟨⟨hb, h.1⟩, hchain⟩
          · rw [List.cons_append, List.map_cons, List.nodup_cons]
            refine ⟨fun hmem ↦ ?_, hnodup⟩
            obtain ⟨x, hx, hxb⟩ := List.mem_map.mp hmem
            exact hfresh x hx (by simp [hxb])
          · intro x hx
            rcases List.mem_cons.mp hx with rfl | hx
            · exact h.2
            · exact fun hmem ↦ hfresh x hx (List.mem_append_left _ hmem)
      · simp [h] at hmem
    · rintro ⟨xs, hchain, hnodup, hfresh, rfl⟩
      cases xs with
      | nil =>
        obtain ⟨⟨hout, hrelay⟩, -⟩ := List.isChain_cons_cons.mp hchain
        refine ⟨n, hout, ?_⟩
        rw [if_pos ⟨hrelay, hfresh n (by simp)⟩]
        simp
      | cons b xs =>
        obtain ⟨⟨hout, hrelay⟩, hrest⟩ := List.isChain_cons_cons.mp hchain
        have hb : b ∈ g.relays ∧ g.label b ∉ visited := ⟨hrelay, hfresh b (by simp)⟩
        rw [List.cons_append, List.map_cons, List.nodup_cons] at hnodup
        refine ⟨b, hout, ?_⟩
        rw [if_pos hb]
        refine List.mem_cons_of_mem _ ((ih b hb).mpr ⟨xs, hrest, hnodup.2, fun x hx ↦ ?_, by simp⟩)
        have hne : g.label x ≠ g.label b := fun heq ↦ hnodup.1 (heq ▸ List.mem_map_of_mem hx)
        simpa [hne] using hfresh x (List.mem_cons_of_mem b hx)

/-- Each path is accepted once, if the neighbour lists and the labels are free of duplicates. -/
theorem nodup_flood (hout : ∀ b, (g.out b).Nodup) (hlabel : Set.InjOn g.label g.relays)
    (visited : List I) (a : A) : (g.flood visited a).Nodup := by
  induction visited, a using flood.induct g with
  | case1 visited a ih =>
    rw [flood, List.nodup_flatMap]
    refine ⟨fun b _ ↦ ?_, (hout a).imp fun {b c} hbc ↦ ?_⟩
    · by_cases h : b ∈ g.relays ∧ g.label b ∉ visited
      · rw [if_pos h, List.nodup_cons]
        refine ⟨fun hmem ↦ ?_, ih b h⟩
        obtain ⟨xs, -, -, -, hvis⟩ := mem_flood.mp hmem
        simpa using congrArg List.length hvis
      · simp [h]
    · -- two neighbours start different paths, whose labels differ at this place
      have hstart {d : A} {x : A × List I} (hx : x ∈ if d ∈ g.relays ∧ g.label d ∉ visited then
          (d, visited) :: g.flood (visited ++ [g.label d]) d else []) :
          d ∈ g.relays ∧ (x = (d, visited) ∨ ∃ l, x.2 = visited ++ g.label d :: l) := by
        split at hx
        · next hd =>
          refine ⟨hd.1, ?_⟩
          rcases List.mem_cons.mp hx with hx | hx
          · exact .inl hx
          · obtain ⟨xs, -, -, -, hvis⟩ := mem_flood.mp hx
            exact .inr ⟨xs.map g.label, by simp [hvis]⟩
        · cases hx
      intro x hxb hxc
      obtain ⟨hb, hxb⟩ := hstart hxb
      obtain ⟨hc, hxc⟩ := hstart hxc
      rcases hxb with rfl | ⟨l, hl⟩
      · rcases hxc with hxc | ⟨l, hl⟩
        · exact hbc (Prod.mk.inj hxc).1
        · simpa using congrArg List.length hl
      · rcases hxc with rfl | ⟨l', hl'⟩
        · simpa using congrArg List.length hl
        · rw [hl] at hl'
          exact hbc (hlabel hb hc (List.cons.inj (List.append_cancel_left hl')).1)

omit [DecidableEq A] [DecidableEq I] in

/-- All but the first place of a path of edges are relays. -/
theorem relay_of_chain {l : List A} (h : (a :: l).IsChain g.Edge) : ∀ x ∈ l, x ∈ g.relays := by
  induction l generalizing a with
  | nil => simp
  | cons b l ih =>
    obtain ⟨hab, hrest⟩ := List.isChain_cons_cons.mp h
    exact List.forall_mem_cons.mpr ⟨hab.2, ih hrest⟩

omit [DecidableEq A] [DecidableEq I] in
/-- A simple path has no label twice, if no two of its vertices share one. -/
theorem SimplePath.nodup_labels {xs : List A} (h : g.SimplePath a xs n)
    (hlabel : Set.InjOn g.label (insert a g.relays)) :
    ((a :: (xs ++ [n])).map g.label).Nodup := by
  have hmem (x : A) (hx : x ∈ a :: (xs ++ [n])) : x ∈ (insert a g.relays : Set A) := by
    rcases List.mem_cons.mp hx with rfl | hx
    · exact .inl rfl
    · exact .inr (relay_of_chain h.chain x hx)
  exact (List.nodup_map_iff_inj_on h.nodup).mpr
    fun x hx y hy hxy ↦ hlabel (hmem x hx) (hmem y hy) hxy

omit [DecidableEq I] in
/-- A simple path is no longer than there are relays. -/
theorem SimplePath.length_le {xs : List A} (h : g.SimplePath a xs n) :
    (a :: xs).length ≤ g.relays.card := by
  have hsub : (xs ++ [n]).toFinset ⊆ g.relays := fun x hx ↦
    relay_of_chain h.chain x (List.mem_toFinset.mp hx)
  have hcard := Finset.card_le_card hsub
  rw [List.toFinset_card_of_nodup (List.nodup_cons.mp h.nodup).2] at hcard
  simpa using hcard

/-- A flood that has visited its source only is accepted along the simple paths. -/
theorem mem_flood_start (hlabel : Set.InjOn g.label (insert a g.relays)) :
    (n, vis) ∈ g.flood [g.label a] a ↔
      ∃ xs, g.SimplePath a xs n ∧ vis = (a :: xs).map g.label := by
  rw [mem_flood]
  refine exists_congr fun xs ↦ ?_
  have hlabels : ((xs ++ [n]).map g.label).Nodup ∧ (∀ x ∈ xs ++ [n], g.label x ∉ [g.label a]) ↔
      ((a :: (xs ++ [n])).map g.label).Nodup := by
    rw [List.map_cons, List.nodup_cons]
    simp only [List.mem_map, List.mem_singleton, not_exists, not_and]
    tauto
  constructor
  · rintro ⟨hchain, hnodup, hfresh, hvis⟩
    exact ⟨⟨hchain, (hlabels.mp ⟨hnodup, hfresh⟩).of_map⟩, hvis⟩
  · rintro ⟨hpath, hvis⟩
    obtain ⟨hnodup, hfresh⟩ := hlabels.mpr (hpath.nodup_labels hlabel)
    exact ⟨hpath.chain, hnodup, hfresh, hvis⟩

omit [DecidableEq A] [DecidableEq I] in
/-- Where there is a way there is a simple path. -/
theorem exists_simplePath (h : Relation.TransGen g.Edge a n) (hn : n ≠ a) :
    ∃ xs, g.SimplePath a xs n := by
  induction h with
  | single hab => exact ⟨[], by simpa using hab, by simpa using hn.symm⟩
  | @tail m n _ hmn ih =>
    by_cases hm : m = a
    · subst hm
      exact ⟨[], by simpa using hmn, by simpa using hn.symm⟩
    · obtain ⟨xs, hchain, hnodup⟩ := ih hm
      by_cases hmem : n ∈ xs ++ [m]
      · -- the path to `m` passes through `n` already
        obtain ⟨l, r, hlr⟩ := List.append_of_mem hmem
        have hprefix : a :: (l ++ [n]) <+: a :: (xs ++ [m]) := ⟨r, by simp [hlr]⟩
        exact ⟨l, hchain.prefix hprefix, hnodup.sublist hprefix.sublist⟩
      · refine ⟨xs ++ [m], ?_, ?_⟩
        · rw [← List.cons_append] at hchain ⊢
          rw [← List.cons_append, List.append_assoc]
          exact List.isChain_append_cons_cons.mpr ⟨hchain, hmn, by simp⟩
        · rw [← List.cons_append]
          refine List.nodup_append_comm.mp (List.nodup_cons.mpr ⟨fun h ↦ ?_, hnodup⟩)
          exact (List.mem_cons.mp h).elim hn hmem

end RelayGraph

/-- A flood under way: what was accepted so far, the packets on their way, and how many were
sent. -/
structure Flooding (A I : Type) where
  accepted : List (A × List I)
  flying : List (Token A I)
  sent : Nat

namespace Flooding

variable [DecidableEq A] [DecidableEq I] {g : RelayGraph A I} {f f' : Flooding A I}

/-- Some packet on its way arrives, and what its target passes on sets out. -/
inductive Step (g : RelayGraph A I) : Flooding A I → Flooding A I → Prop
  | deliver {acc : List (A × List I)} {l r : List (Token A I)} {t : Token A I} {k : Nat} :
      Step g ⟨acc, l ++ t :: r, k⟩
        ⟨acc ++ g.accept t, l ++ r ++ g.forward t, k + (g.forward t).length⟩

/-- All that will be accepted. -/
def future (g : RelayGraph A I) (f : Flooding A I) : List (A × List I) := f.flying.flatMap g.spread

/-- Each packet has visited its source. -/
def Sound (g : RelayGraph A I) (f : Flooding A I) : Prop :=
  ∀ t ∈ f.flying, g.label t.source ∈ t.visited

/-- The packets sent so far and those that the acceptances to come may still cause. -/
def budget (g : RelayGraph A I) (f : Flooding A I) : Nat :=
  f.sent + ((f.future g).map fun x ↦ (g.out x.1).length).sum

/-- A delivery keeps that each packet has visited its source. -/
theorem Step.sound (h : Step g f f') (hf : f.Sound g) : f'.Sound g := by
  obtain @⟨acc, l, r, t, k⟩ := h
  intro u hu
  rcases List.mem_append.mp hu with hu | hu
  · apply hf u
    simp only [List.mem_append, List.mem_cons] at hu ⊢
    tauto
  · rw [RelayGraph.forward] at hu
    split at hu
    · obtain ⟨b, -, rfl⟩ := List.mem_map.mp hu
      simp
    · cases hu

/-- Each packet comes from a relay, or from where the flood began, and visited it last. -/
def Trailed (g : RelayGraph A I) (a : A) (f : Flooding A I) : Prop :=
  ∀ t ∈ f.flying, (t.source = a ∨ t.source ∈ g.relays) ∧
    t.visited.getLast? = some (g.label t.source)

/-- A delivery keeps that the last place a packet visited is its source. -/
theorem Step.trailed {a : A} (h : Step g f f') (hf : f.Trailed g a) : f'.Trailed g a := by
  obtain @⟨acc, l, r, t, k⟩ := h
  intro u hu
  rcases List.mem_append.mp hu with hu | hu
  · apply hf u
    simp only [List.mem_append, List.mem_cons] at hu ⊢
    tauto
  · rw [RelayGraph.forward] at hu
    split at hu
    · next hacc =>
      obtain ⟨b, -, rfl⟩ := List.mem_map.mp hu
      exact ⟨.inr hacc.1, List.getLast?_concat⟩
    · cases hu

/-- A delivery takes what is accepted from the future to the past. -/
theorem Step.future (h : Step g f f') (hf : f.Sound g) :
    ∃ new, f'.accepted = f.accepted ++ new ∧ (f.future g).Perm (new ++ f'.future g) ∧
      f'.sent ≤ f.sent + (new.map fun x ↦ (g.out x.1).length).sum := by
  obtain @⟨acc, l, r, t, k⟩ := h
  refine ⟨g.accept t, rfl, ?_, ?_⟩
  · have ht : g.spread t = g.accept t ++ (g.forward t).flatMap g.spread :=
      RelayGraph.spread_eq (hf t (by simp))
    simp only [Flooding.future, List.flatMap_append, List.flatMap_cons, ht, List.append_assoc]
    exact (List.perm_append_comm_assoc _ _ _).trans
      ((List.perm_append_comm.append_left _).append_left _)
  · rw [RelayGraph.forward, RelayGraph.accept]
    split
    · simpa using List.length_filter_le _ _
    · simp

/-- A delivery keeps the outcome of the flood. -/
theorem Step.outcome (h : Step g f f') (hf : f.Sound g) :
    (f'.accepted ++ f'.future g).Perm (f.accepted ++ f.future g) := by
  obtain ⟨new, hnew, hperm, -⟩ := h.future hf
  rw [hnew, List.append_assoc]
  exact (hperm.append_left _).symm

/-- A delivery stays within the budget. -/
theorem Step.budget_le (h : Step g f f') (hf : f.Sound g) : f'.budget g ≤ f.budget g := by
  obtain ⟨new, -, hperm, hsent⟩ := h.future hf
  have hsum := (hperm.map fun x ↦ (g.out x.1).length).sum_nat
  rw [List.map_append, List.sum_append] at hsum
  rw [budget, budget, hsum]
  omega

end Flooding
end PessiStreamer.Base
