import Mathlib.Data.Set.Finite.Basic
import Mathlib.Logic.Relation
import Mathlib.Order.WellFoundedSet

/-!
# Acyclic relations

What keeps a relation free of cycles when the successors of one element change, and where the
paths of an acyclic relation end.
-/

namespace PessiStreamer.Base
open Relation

variable {α : Type} {r r' : α → α → Prop}

/-- No path of the relation leads back to where it starts. -/
def Acyclic (r : α → α → Prop) : Prop := ∀ a, ¬ TransGen r a a

/-- Nothing that has no successor lies on a cycle. -/
theorem acyclic_of_empty (h : ∀ a b, ¬ r a b) : Acyclic r := by
  intro a hcycle
  obtain ⟨b, hb, -⟩ := TransGen.head'_iff.mp hcycle
  exact h a b hb

/-- Fewer edges have no more cycles. -/
theorem Acyclic.mono (h : Acyclic r) (hsub : ∀ a b, r' a b → r a b) : Acyclic r' :=
  fun a hcycle ↦ h a (TransGen.mono hsub a a hcycle)

section Redirect

variable {a : α} {new : α → Prop}

/-- A path to `a` needs none of the edges that `a` gained. -/
private theorem reflTransGen_of_redirect (hsub : ∀ x y, r' x y → r x y ∨ x = a ∧ new y) {x : α}
    (h : ReflTransGen r' x a) : ReflTransGen r x a := by
  induction h using ReflTransGen.head_induction_on with
  | refl => exact .refl
  | head hxy _ ih =>
    rcases hsub _ _ hxy with hold | ⟨rfl, -⟩
    · exact ih.head hold
    · exact .refl

/-- A path is an old one, or passes through `a` and one of its new successors. -/
private theorem transGen_of_redirect (hsub : ∀ x y, r' x y → r x y ∨ x = a ∧ new y) {x y : α}
    (h : TransGen r' x y) :
    TransGen r x y ∨ ∃ n, new n ∧ ReflTransGen r' x a ∧ ReflTransGen r' n y := by
  induction h with
  | single hxy =>
    rcases hsub _ _ hxy with hold | ⟨rfl, hnew⟩
    · exact .inl (.single hold)
    · exact .inr ⟨_, hnew, .refl, .refl⟩
  | tail hxy hyz ih =>
    rcases ih with hold | ⟨n, hnew, hxa, hny⟩
    · rcases hsub _ _ hyz with hold' | ⟨rfl, hnew⟩
      · exact .inl (hold.tail hold')
      · exact .inr ⟨_, hnew, hxy.to_reflTransGen, .refl⟩
    · exact .inr ⟨n, hnew, hxa, hny.tail hyz⟩

/-- Giving `a` successors from which no path leads to `a` closes no cycle. -/
theorem Acyclic.redirect (h : Acyclic r) (hsub : ∀ x y, r' x y → r x y ∨ x = a ∧ new y)
    (hnew : ∀ n, new n → ¬ ReflTransGen r n a) : Acyclic r' := by
  intro x hcycle
  rcases transGen_of_redirect hsub hcycle with hold | ⟨n, hn, hxa, hnx⟩
  · exact h x hold
  · exact hnew n hn (reflTransGen_of_redirect hsub (hnx.trans hxa))

end Redirect

/-- On finitely many elements every path of an acyclic relation can be followed to its end. -/
theorem Acyclic.exists_end (h : Acyclic r) (hfin : {a | ∃ b, r a b}.Finite) (a : α) :
    ∃ b, ReflTransGen r a b ∧ ∀ c, ¬ r b c := by
  have horder : IsStrictOrder α (fun c b ↦ TransGen r b c) :=
    { irrefl := h
      trans := fun _ _ _ hba hcb ↦ hcb.trans hba }
  have hwf : {a | ∃ b, r a b}.WellFoundedOn fun c b ↦ TransGen r b c := hfin.wellFoundedOn
  have hfollow (a : α) (ha : ∃ b, r a b) : ∃ b, ReflTransGen r a b ∧ ∀ c, ¬ r b c := by
    refine hwf.induction (P := fun a ↦ ∃ b, ReflTransGen r a b ∧ ∀ c, ¬ r b c) ha ?_
    rintro a ⟨b, hab⟩ ih
    by_cases hb : ∃ c, r b c
    · obtain ⟨c, hbc, hc⟩ := ih b hb (.single hab)
      exact ⟨c, hbc.head hab, hc⟩
    · exact ⟨b, .single hab, not_exists.mp hb⟩
  by_cases ha : ∃ b, r a b
  · exact hfollow a ha
  · exact ⟨a, .refl, not_exists.mp ha⟩

end PessiStreamer.Base
