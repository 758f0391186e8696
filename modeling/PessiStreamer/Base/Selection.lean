import Mathlib.Data.List.MinMax

/-!
# Selecting a best element near the cheapest

Two passes over a list: the first finds the smallest cost, the second ranks the elements
whose cost stays within a bound of it and keeps the first of the best ranked.
-/

namespace PessiStreamer.Base

universe u

variable {α : Type} {κ : Type u} [LinearOrder κ]

/-- The first element of least `key` among those whose cost is within `bound` of the
cheapest. -/
def selectNear (cost : α → Nat) (bound : Nat → Nat) (key : α → κ) (l : List α) : Option α := do
  let m ← (l.map cost).min?
  (l.filter fun a ↦ cost a ≤ bound m).argmin key

variable {cost : α → Nat} {bound : Nat → Nat} {key : α → κ} {l : List α} {a : α}

/-- What is selected is an element of the list. -/
theorem mem_of_selectNear (h : selectNear cost bound key l = some a) : a ∈ l := by
  simp only [selectNear, Option.bind_eq_bind, Option.bind_eq_some_iff] at h
  obtain ⟨m, -, ha⟩ := h
  exact (List.mem_filter.mp (List.argmin_mem ha)).1

/-- A bound that keeps the cheapest element selects from every list but the empty one. -/
theorem selectNear_eq_none_iff (hbound : ∀ m, m ≤ bound m) :
    selectNear cost bound key l = none ↔ l = [] := by
  constructor
  · intro h
    cases hm : (l.map cost).min? with
    | none => exact List.map_eq_nil_iff.mp (List.min?_eq_none_iff.mp hm)
    | some m =>
      obtain ⟨b, hb, hbm⟩ := List.mem_map.mp (List.min?_mem hm)
      simp only [selectNear, hm, Option.bind_eq_bind, Option.bind_some] at h
      have hmem : b ∈ l.filter fun a ↦ cost a ≤ bound m := by
        apply List.mem_filter.mpr
        constructor
        · exact hb
        · rw [hbm]
          exact decide_eq_true (hbound m)
      rw [List.argmin_eq_none.mp h] at hmem
      cases hmem
  · rintro rfl
    rfl

/-- What is selected costs no more than the bound of the least cost allows, and no element within
that bound ranks before it. -/
theorem selectNear_spec (h : selectNear cost bound key l = some a) :
    ∃ m, (∃ b ∈ l, cost b = m) ∧ (∀ b ∈ l, m ≤ cost b) ∧ cost a ≤ bound m ∧
      ∀ b ∈ l, cost b ≤ bound m → key a ≤ key b := by
  simp only [selectNear, Option.bind_eq_bind, Option.bind_eq_some_iff] at h
  obtain ⟨m, hm, ha⟩ := h
  obtain ⟨hmem, hleast⟩ := List.min?_eq_some_iff.mp hm
  have hnear := (List.mem_filter.mp (List.argmin_mem ha)).2
  refine ⟨m, List.mem_map.mp hmem, ?_, of_decide_eq_true hnear, ?_⟩
  · intro b hb
    exact hleast (cost b) (List.mem_map_of_mem hb)
  · intro b hb hbm
    apply List.le_of_mem_argmin _ ha
    exact List.mem_filter.mpr ⟨hb, decide_eq_true hbm⟩

/-- The rank of what is selected does not depend on the order of the list. -/
theorem key_eq_of_perm {l' : List α} {a' : α} (hl : l.Perm l')
    (h : selectNear cost bound key l = some a) (h' : selectNear cost bound key l' = some a') :
    key a = key a' := by
  obtain ⟨m, ⟨b, hb, rfl⟩, hleast, hnear, hfirst⟩ := selectNear_spec h
  obtain ⟨m', ⟨b', hb', rfl⟩, hleast', hnear', hfirst'⟩ := selectNear_spec h'
  have hm : cost b = cost b' := by
    apply Nat.le_antisymm
    · exact hleast b' (hl.mem_iff.mpr hb')
    · exact hleast' b (hl.mem_iff.mp hb)
  apply le_antisymm
  · apply hfirst a' (hl.mem_iff.mpr (mem_of_selectNear h'))
    rw [hm]
    exact hnear'
  · apply hfirst' a (hl.mem_iff.mp (mem_of_selectNear h))
    rw [← hm]
    exact hnear

/-- As `selectNear`, where the cost of an element may be undefined and either pass looks at the
costs of all elements. -/
def selectNear? (cost : α → Option Nat) (bound : Nat → Nat) (key : α → κ) (l : List α) :
    Option (Option α) := do
  let costs ← l.mapM cost
  match costs.min? with
  | none => return none
  | some m =>
    let measured ← l.mapM fun a ↦ (cost a).map fun c ↦ (a, c)
    return ((measured.filter fun p ↦ p.2 ≤ bound m).map Prod.fst).argmin key

/-- What is defined on all elements is defined on the list. -/
theorem mapM_eq_some {β : Type} {f : α → Option β} {g : α → β} (h : ∀ a ∈ l, f a = some (g a)) :
    l.mapM f = some (l.map g) := by
  induction l with
  | nil => rfl
  | cons a l ih =>
    have hl := ih fun b hb ↦ h b (List.mem_cons_of_mem a hb)
    rw [List.mapM_cons, h a List.mem_cons_self, hl]
    rfl

/-- A selection among elements with a cost is defined. -/
theorem selectNear?_eq {cost? : α → Option Nat} (h : ∀ a ∈ l, cost? a = some (cost a)) :
    selectNear? cost? bound key l = some (selectNear cost bound key l) := by
  have hmeasured : (l.mapM fun a ↦ (cost? a).map fun c ↦ (a, c)) =
      some (l.map fun a ↦ (a, cost a)) := by
    apply mapM_eq_some
    intro a ha
    rw [h a ha]
    rfl
  have hnear (m : Nat) : ((l.map fun a ↦ (a, cost a)).filter fun p ↦ p.2 ≤ bound m).map Prod.fst =
      l.filter fun a ↦ cost a ≤ bound m := by
    rw [List.filter_map, List.map_map]
    exact List.map_id _
  rw [selectNear?, mapM_eq_some h, selectNear]
  cases hm : (l.map cost).min? with
  | none => simp [hm]
  | some m => simp [hm, hmeasured, hnear]

/-- One turn of a ranking that looks at the elements one after the other: the best one so far,
with the rank it had when it was looked at. -/
def prefer (best : Option (α × κ)) (a : α) (k : κ) : Option (α × κ) :=
  match best with
  | none => some (a, k)
  | some b => if k < b.2 then some (a, k) else some b

/-- While the ranks stay as they are, the turns find the first of the best ranked. -/
theorem prefer_argmin (key : α → κ) (l : List α) (a : α) :
    prefer ((l.argmin key).map fun b ↦ (b, key b)) a (key a) =
      ((l ++ [a]).argmin key).map fun b ↦ (b, key b) := by
  rw [List.argmin_concat]
  cases l.argmin key with
  | none => rfl
  | some b =>
    show (if key a < key b then some (a, key a) else some (b, key b)) = _
    by_cases hk : key a < key b
    · simp [hk]
    · simp [hk]

end PessiStreamer.Base
