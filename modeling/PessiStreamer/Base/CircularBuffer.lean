import Mathlib.Data.List.Basic

/-!
# Bounded buffers that forget their oldest element

`push_back` on a full buffer replaces the oldest element.
-/

namespace PessiStreamer.Base

universe u

/-- At most `n` elements, oldest first. -/
structure CircularBuffer (n : Nat) (α : Type u) where
  toList : List α
  length_le : toList.length ≤ n
  deriving DecidableEq, Repr

namespace CircularBuffer

variable {n : Nat} {α : Type u}

/-- The empty buffer. -/
def empty : CircularBuffer n α := ⟨[], Nat.zero_le n⟩

/-- Append a newest element, dropping the oldest one if the buffer is full. -/
def pushBack (b : CircularBuffer n α) (a : α) : CircularBuffer n α :=
  ⟨(b.toList ++ [a]).drop (b.toList.length + 1 - n), by
    have := b.length_le
    rw [List.length_drop, List.length_append, List.length_singleton]
    omega⟩

/-- A buffer that has room for an element holds the newest one. -/
theorem pushBack_ne_nil (hn : 0 < n) (b : CircularBuffer n α) (a : α) :
    (b.pushBack a).toList ≠ [] := by
  intro h
  have hlength := List.length_eq_zero_iff.mpr h
  rw [pushBack, List.length_drop, List.length_append, List.length_singleton] at hlength
  omega

/-- The newest elements of a list. -/
def newest (n : Nat) (l : List α) : CircularBuffer n α :=
  ⟨l.drop (l.length - n), by
    rw [List.length_drop]
    omega⟩

/-- Of nothing the newest values are none. -/
@[simp] theorem newest_nil : newest n ([] : List α) = empty := by
  simp only [newest, List.drop_nil, empty]

/-- A buffer with the newest elements of a list has those of the longer list after an append. -/
theorem newest_pushBack (l : List α) (a : α) :
    (newest n l).pushBack a = newest n (l ++ [a]) := by
  have happend : l.drop (l.length - n) ++ [a] = (l ++ [a]).drop (l.length - n) :=
    (List.drop_append_of_le_length (Nat.sub_le _ _)).symm
  simp only [pushBack, newest, mk.injEq]
  rw [happend, List.drop_drop, List.length_drop, List.length_append, List.length_singleton]
  congr 1
  omega

end CircularBuffer
end PessiStreamer.Base
