import Mathlib.Data.List.Enum
import Mathlib.Data.List.Nodup

/-!
# Tries one after the other

A list is tried from its start, its elements numbered from `k` on; `ok i` says whether the try
number `i` goes through. A sender either tries each element on its own, or stops at the first try
that fails.
-/

namespace PessiStreamer.Base

universe u

variable {α : Type u} {β : Type*}

/-- The elements whose own tries go through. -/
def taken (ok : Nat → Bool) (k : Nat) (l : List α) : List α :=
  ((l.zipIdx k).filter fun x ↦ ok x.2).map Prod.fst

/-- The elements a sender gets through that stops at the first failure. -/
def takenUntilFailure (ok : Nat → Bool) (k : Nat) (l : List α) : List α :=
  ((l.zipIdx k).takeWhile fun x ↦ ok x.2).map Prod.fst

/-- Of `n` tries numbered from `k` on, none goes through after one that fails. -/
def FailuresLast (ok : Nat → Bool) (k n : Nat) : Prop :=
  ∀ i j, i < j → j < n → ok (k + j) → ok (k + i)

/-- The tries that return, by their numbers. -/
def accepts {ε : Type*} (result : Nat → Except ε Unit) (i : Nat) : Bool := (result i).isOk

/-- A send is accepted where its result is no failure. -/
theorem accepts_iff {ε : Type*} {result : Nat → Except ε Unit} {i : Nat} :
    accepts result i ↔ result i = .ok () := by
  unfold accepts
  cases result i with
  | ok u => exact iff_of_true rfl rfl
  | error e => exact iff_of_false Bool.false_ne_true nofun

variable {ok : Nat → Bool} {k n : Nat} {l : List α} {a : α}

section Equations

/-- Of nothing nothing is taken. -/
@[simp] theorem taken_nil : taken ok k ([] : List α) = [] := rfl

/-- The first element is taken where its send succeeds. -/
@[simp] theorem taken_cons : taken ok k (a :: l) =
    if ok k then a :: taken ok (k + 1) l else taken ok (k + 1) l := by
  by_cases h : ok k
  · simp [taken, List.zipIdx_cons, h]
  · simp [taken, List.zipIdx_cons, h]

/-- Of nothing nothing is taken until the first failure. -/
@[simp] theorem takenUntilFailure_nil : takenUntilFailure ok k ([] : List α) = [] := rfl

/-- The first failure ends what is taken. -/
@[simp] theorem takenUntilFailure_cons : takenUntilFailure ok k (a :: l) =
    if ok k then a :: takenUntilFailure ok (k + 1) l else [] := by
  by_cases h : ok k
  · simp [takenUntilFailure, List.zipIdx_cons, h]
  · simp [takenUntilFailure, List.zipIdx_cons, h]

/-- Sends are counted on over two lists. -/
theorem taken_append (l₁ l₂ : List α) :
    taken ok k (l₁ ++ l₂) = taken ok k l₁ ++ taken ok (k + l₁.length) l₂ := by
  simp [taken, List.zipIdx_append]

/-- The last element is taken where its send succeeds. -/
theorem taken_concat (l : List α) (a : α) :
    taken ok k (l ++ [a]) =
      if ok (k + l.length) then taken ok k l ++ [a] else taken ok k l := by
  rw [taken_append, taken_cons, taken_nil]
  split
  · rfl
  · exact List.append_nil _

/-- Which elements are taken does not depend on what they are. -/
theorem taken_map (f : α → β) : taken ok k (l.map f) = (taken ok k l).map f := by
  induction l generalizing k with
  | nil => rfl
  | cons a l ih =>
    rw [List.map_cons, taken_cons, taken_cons, ih]
    split
    · rfl
    · rfl

/-- The element at some place is taken just if its own try goes through. -/
theorem mem_taken_iff : a ∈ taken ok k l ↔ ∃ i, l[i]? = some a ∧ ok (k + i) := by
  induction l generalizing k with
  | nil => simp
  | cons b l ih =>
    have hshift : (∃ i, (b :: l)[i]? = some a ∧ ok (k + i)) ↔
        (b = a ∧ ok k) ∨ ∃ i, l[i]? = some a ∧ ok (k + 1 + i) := by
      constructor
      · rintro ⟨i, hi, hok⟩
        cases i with
        | zero => exact .inl ⟨by simpa using hi, hok⟩
        | succ i => exact .inr ⟨i, by simpa using hi, by rwa [Nat.add_assoc, Nat.add_comm 1]⟩
      · rintro (⟨rfl, hok⟩ | ⟨i, hi, hok⟩)
        · exact ⟨0, rfl, hok⟩
        · exact ⟨i + 1, by simpa using hi, by rwa [Nat.add_comm i, ← Nat.add_assoc]⟩
    rw [hshift, ← ih, taken_cons]
    by_cases h : ok k
    · simp [h, eq_comm]
    · simp [h]

/-- Where every try goes through, everything is taken. -/
theorem taken_of_all (h : ∀ i < l.length, ok (k + i)) : taken ok k l = l := by
  induction l generalizing k with
  | nil => rfl
  | cons a l ih =>
    have hl : taken ok (k + 1) l = l := by
      apply ih
      intro i hi
      rw [Nat.add_assoc, Nat.add_comm 1]
      exact h (i + 1) (Nat.succ_lt_succ hi)
    have ha : ok k := h 0 (Nat.succ_pos _)
    rw [taken_cons, hl, if_pos ha]

/-- Every element of a list without duplicates is taken just if every try goes through. -/
theorem forall_mem_taken_iff (hl : l.Nodup) :
    (∀ a ∈ l, a ∈ taken ok k l) ↔ ∀ i < l.length, ok (k + i) := by
  constructor
  · intro h i hi
    obtain ⟨j, hj, hok⟩ := mem_taken_iff.mp (h l[i] (List.getElem_mem hi))
    obtain ⟨hjl, hji⟩ := List.getElem?_eq_some_iff.mp hj
    rw [← hl.getElem_inj_iff.mp hji]
    exact hok
  · intro h a ha
    rw [taken_of_all h]
    exact ha

/-- What is taken keeps its order. -/
theorem taken_sublist : (taken ok k l).Sublist l := by
  have h := (List.filter_sublist (p := fun x : α × Nat ↦ ok x.2) (l := l.zipIdx k)).map Prod.fst
  rwa [List.zipIdx_map_fst] at h

/-- Before its first failure a sender gets nothing through but what is taken anyway. -/
theorem takenUntilFailure_sublist : (takenUntilFailure ok k l).Sublist (taken ok k l) := by
  induction l generalizing k with
  | nil => exact List.Sublist.refl []
  | cons a l ih =>
    rw [takenUntilFailure_cons, taken_cons]
    split
    · exact ih.cons_cons a
    · exact List.nil_sublist _

end Equations

/-- The first try fails only if no later one goes through, and so on. -/
theorem failuresLast_succ : FailuresLast ok k (n + 1) ↔
    (∀ j < n, ok (k + 1 + j) → ok k) ∧ FailuresLast ok (k + 1) n := by
  have hshift (i : Nat) : k + 1 + i = k + (i + 1) := by omega
  constructor
  · intro h
    constructor
    · intro j hj hok
      rw [hshift] at hok
      exact h 0 (j + 1) (Nat.succ_pos j) (Nat.succ_lt_succ hj) hok
    · intro i j hij hj hok
      rw [hshift] at hok ⊢
      exact h (i + 1) (j + 1) (Nat.succ_lt_succ hij) (Nat.succ_lt_succ hj) hok
  · rintro ⟨hfirst, hrest⟩ i j hij hj hok
    obtain ⟨j, rfl⟩ : ∃ m, j = m + 1 := ⟨j - 1, by omega⟩
    rw [← hshift] at hok
    cases i with
    | zero => exact hfirst j (Nat.lt_of_succ_lt_succ hj) hok
    | succ i =>
      rw [← hshift]
      exact hrest i j (Nat.lt_of_succ_lt_succ hij) (Nat.lt_of_succ_lt_succ hj) hok

/-- Nothing is taken just if every try fails. -/
theorem taken_eq_nil_iff : taken ok k l = [] ↔ ∀ i < l.length, ¬ ok (k + i) := by
  rw [List.eq_nil_iff_forall_not_mem]
  constructor
  · intro h i hi hok
    exact h l[i] (mem_taken_iff.mpr ⟨i, List.getElem?_eq_getElem hi, hok⟩)
  · intro h a ha
    obtain ⟨i, hi, hok⟩ := mem_taken_iff.mp ha
    exact h i (List.getElem?_eq_some_iff.mp hi).1 hok

/-- A sender that stops at the first failure loses nothing just if no try that would go through
comes after one that fails. -/
theorem takenUntilFailure_eq_taken_iff :
    takenUntilFailure ok k l = taken ok k l ↔ FailuresLast ok k l.length := by
  induction l generalizing k with
  | nil => simp [FailuresLast]
  | cons a l ih =>
    rw [takenUntilFailure_cons, taken_cons, List.length_cons, failuresLast_succ, ← ih]
    by_cases h : ok k
    · simp [h]
    · rw [if_neg h, if_neg h, eq_comm, taken_eq_nil_iff]
      constructor
      · intro hnone
        constructor
        · exact fun j hj hok ↦ absurd hok (hnone j hj)
        · rw [taken_eq_nil_iff.mpr hnone]
          exact List.sublist_nil.mp (taken_eq_nil_iff.mpr hnone ▸ takenUntilFailure_sublist)
      · exact fun hboth j hj hok ↦ h (hboth.1 j hj hok)

end PessiStreamer.Base
