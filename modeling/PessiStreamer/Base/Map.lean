import Mathlib.Data.List.AList
import Mathlib.Data.Set.Card

/-!
# Finite maps with an iteration order

A finite map is an association list without duplicate keys; the order of its
entries is the order in which the map is iterated. Two maps with the same entries
in different orders answer every look-up alike (`AList.perm_lookup`).
-/

namespace PessiStreamer.Base

universe u v

/-- A finite map whose list of entries is its iteration order. -/
abbrev Map (κ : Type u) (α : Type v) := AList fun _ : κ ↦ α

namespace Map

variable {κ : Type u} {α : Type v} [DecidableEq κ]

/-- Change the value under a key in place, if there is one. -/
def modify (m : Map κ α) (k : κ) (f : α → α) : Map κ α :=
  match m.lookup k with
  | some a => m.replace k (f a)
  | none => m

/-- Change the value under a key, starting from `d` when the key is new. -/
def upsert (m : Map κ α) (k : κ) (d : α) (f : α → α) : Map κ α :=
  m.insert k (f ((m.lookup k).getD d))

private theorem dlookup_cons_ne {k i : κ} {b : α} (l : List (Sigma fun _ : κ ↦ α)) (h : k ≠ i) :
    List.dlookup k (⟨i, b⟩ :: l) = l.dlookup k :=
  List.dlookup_cons_ne l ⟨i, b⟩ h

private theorem dlookup_kreplace {k j : κ} {a : α} (l : List (Sigma fun _ : κ ↦ α)) :
    (l.kreplace k a).dlookup j =
      if j = k then (l.dlookup k).map fun _ ↦ a else l.dlookup j := by
  induction l with
  | nil => simp [List.kreplace]
  | cons e l ih =>
    obtain ⟨i, b⟩ := e
    by_cases hk : k = i
    · subst hk
      by_cases hj : j = k
      · subst hj
        simp [List.kreplace]
      · simp [List.kreplace, hj]
    · have hcons : List.kreplace k a (⟨i, b⟩ :: l) = ⟨i, b⟩ :: List.kreplace k a l := by
        simp [List.kreplace, hk]
      rw [hcons]
      by_cases hj : j = i
      · subst hj
        simp [Ne.symm hk]
      · rw [dlookup_cons_ne _ hj, ih, dlookup_cons_ne _ hj, dlookup_cons_ne _ hk]

/-- A change in place answers the changed key with the changed value. -/
@[simp]
theorem lookup_modify (m : Map κ α) (k : κ) (f : α → α) (j : κ) :
    (m.modify k f).lookup j = if j = k then (m.lookup k).map f else m.lookup j := by
  cases hk : m.lookup k with
  | none =>
    rw [modify, hk]
    by_cases hj : j = k
    · rw [hj, hk]
      simp
    · simp [hj]
  | some a =>
    rw [modify, hk]
    have hk' : m.entries.dlookup k = some a := hk
    exact (dlookup_kreplace m.entries).trans (by rw [hk']; rfl)

/-- A change in place keeps the keys. -/
@[simp]
theorem mem_modify {m : Map κ α} {k : κ} {f : α → α} {j : κ} : j ∈ m.modify k f ↔ j ∈ m := by
  rw [← AList.lookup_isSome, ← AList.lookup_isSome, lookup_modify]
  split
  · next h => rw [h, Option.isSome_map]
  · exact Iff.rfl

/-- Look-ups after an insertion. -/
theorem lookup_insert_ite (m : Map κ α) (k j : κ) (a : α) :
    (m.insert k a).lookup j = if j = k then some a else m.lookup j := by
  split
  · next h => rw [h, AList.lookup_insert]
  · next h => rw [AList.lookup_insert_ne h]

/-- Look-ups after a removal. -/
theorem lookup_erase_ite (m : Map κ α) (k j : κ) :
    (m.erase k).lookup j = if j = k then none else m.lookup j := by
  split
  · next h => rw [h, AList.lookup_erase]
  · next h => rw [AList.lookup_erase_ne h]

/-- A removal adds no entries. -/
theorem lookup_of_erase {m : Map κ α} {k j : κ} {a : α} (h : (m.erase k).lookup j = some a) :
    m.lookup j = some a := by
  rw [lookup_erase_ite] at h
  split at h
  · cases h
  · exact h

/-- Look-ups after an insert-or-change. -/
@[simp]
theorem lookup_upsert (m : Map κ α) (k : κ) (d : α) (f : α → α) (j : κ) :
    (m.upsert k d f).lookup j =
      if j = k then some (f ((m.lookup k).getD d)) else m.lookup j :=
  lookup_insert_ite m k j _

/-- Of several insertions the keys have a value afterwards, and no key is lost. -/
theorem lookup_foldl_insert_isSome {l : List (κ × α)} {m : Map κ α} {k : κ} :
    ((l.foldl (fun m e ↦ m.insert e.1 e.2) m).lookup k).isSome ↔
      k ∈ l.map Prod.fst ∨ (m.lookup k).isSome := by
  induction l generalizing m with
  | nil => simp
  | cons e l ih =>
    rw [List.foldl_cons, ih, lookup_insert_ite]
    by_cases hk : k = e.1
    · simp [hk]
    · simp [hk]

/-- After several insertions a value is one of those inserted or was there before. -/
theorem lookup_foldl_insert {β : Type*} {key : β → κ} {val : β → α} {l : List β} {m : Map κ α}
    {k : κ} {a : α} (h : (l.foldl (fun m b ↦ m.insert (key b) (val b)) m).lookup k = some a) :
    (∃ b ∈ l, val b = a) ∨ m.lookup k = some a := by
  induction l generalizing m with
  | nil => exact .inr h
  | cons b l ih =>
    rcases ih h with ⟨b', hb', ha⟩ | hm
    · exact .inl ⟨b', List.mem_cons_of_mem b hb', ha⟩
    · rw [lookup_insert_ite] at hm
      split at hm
      · exact .inl ⟨b, List.mem_cons_self, Option.some.inj hm⟩
      · exact .inr hm

/-- After several insertions a key has the last value that was inserted under it. -/
theorem lookup_foldl_insert_last (l : List (κ × α)) (m : Map κ α) (k : κ) :
    (l.foldl (fun m e ↦ m.insert e.1 e.2) m).lookup k =
      (l.filterMap fun e ↦ if e.1 = k then some e.2 else none).getLast?.or (m.lookup k) := by
  induction l generalizing m with
  | nil => rfl
  | cons e l ih =>
    rw [List.foldl_cons, ih, lookup_insert_ite, List.filterMap_cons]
    by_cases hk : e.1 = k
    · rw [if_pos hk.symm, if_pos hk]
      cases (l.filterMap fun e ↦ if e.1 = k then some e.2 else none) with
      | nil => rfl
      | cons a as => simp [List.getLast?_cons]
    · rw [if_neg (Ne.symm hk), if_neg hk]

/-- The iterated entries are exactly the pairs the look-ups answer. -/
theorem mem_entries_iff {m : Map κ α} {k : κ} {a : α} :
    (⟨k, a⟩ : Sigma fun _ : κ ↦ α) ∈ m.entries ↔ m.lookup k = some a :=
  AList.mem_lookup_iff.symm

/-- As many keys have a value with a property as there are entries with it. -/
theorem ncard_setOf_lookup (m : Map κ α) (p : α → Prop) [DecidablePred p] :
    {k | ∃ a, m.lookup k = some a ∧ p a}.ncard = m.entries.countP fun e ↦ p e.2 := by
  have hset : {k | ∃ a, m.lookup k = some a ∧ p a} =
      ((m.entries.filter fun e ↦ p e.2).map Sigma.fst).toFinset := by
    ext k
    simp [← mem_entries_iff]
  have hnodup : ((m.entries.filter fun e ↦ p e.2).map Sigma.fst).Nodup :=
    List.Nodup.sublist (List.filter_sublist.map Sigma.fst) m.nodupKeys
  rw [hset, Set.ncard_coe_finset, List.toFinset_card_of_nodup hnodup, List.length_map,
    List.countP_eq_length_filter]

end Map
end PessiStreamer.Base
