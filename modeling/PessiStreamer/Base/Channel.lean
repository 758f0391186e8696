import Mathlib.Data.List.Basic

/-!
# Bounded channels

A queue between those who send and one who receives. Who sends waits while `n` elements are in the
queue, and learns that the receiver has left, which takes the queue with it.
-/

namespace PessiStreamer.Base

universe u

/-- A channel with room for `n` elements, oldest first. -/
structure Channel (n : Nat) (α : Type u) where
  queue : List α
  /-- the receiver has not left -/
  listening : Bool
  room : queue.length ≤ n
  left : listening = false → queue = []
  deriving Repr

namespace Channel

variable {n : Nat} {α : Type u}

/-- A channel that nothing was sent into. -/
def empty : Channel n α := ⟨[], true, Nat.zero_le n, fun _ ↦ rfl⟩

/-- A send need not wait: there is room, or the receiver has left. -/
def Ready (c : Channel n α) : Prop := c.listening → c.queue.length < n

instance (c : Channel n α) : Decidable c.Ready := inferInstanceAs (Decidable (_ → _))

/-- Send an element; where there is no room nothing happens. -/
def send (c : Channel n α) (a : α) : Channel n α :=
  if h : c.listening ∧ c.queue.length < n then
    ⟨c.queue ++ [a], true, by
      rw [List.length_append]
      exact h.2, by simp⟩
  else c

/-- Receive the oldest element. -/
def receive? (c : Channel n α) : Option (α × Channel n α) :=
  match h : c.queue with
  | [] => none
  | a :: as => some (a, ⟨as, c.listening, by
      have hroom := c.room
      rw [h, List.length_cons] at hroom
      exact Nat.le_of_succ_le hroom, fun hleft ↦ by
      rw [c.left hleft] at h
      cases h⟩)

/-- The receiver leaves. -/
def leave (_ : Channel n α) : Channel n α := ⟨[], false, Nat.zero_le n, fun _ ↦ rfl⟩

/-- Nothing waits in an empty channel. -/
@[simp] theorem queue_empty : (empty : Channel n α).queue = [] := rfl

/-- The receiver of a new channel listens. -/
@[simp] theorem listening_empty : (empty : Channel n α).listening = true := rfl

/-- Who has left does not listen. -/
@[simp] theorem listening_leave (c : Channel n α) : c.leave.listening = false := rfl

/-- What is sent while the receiver listens is in the queue. -/
theorem queue_send {c : Channel n α} (hready : c.Ready) (hl : c.listening = true) (a : α) :
    (c.send a).queue = c.queue ++ [a] := by
  rw [send, dif_pos ⟨hl, hready hl⟩]

/-- A send does not make the receiver leave. -/
@[simp] theorem listening_send (c : Channel n α) (a : α) :
    (c.send a).listening = c.listening := by
  unfold send
  split
  · next h => exact h.1.symm
  · rfl

/-- What is received was the oldest in the queue, and the receiver listens. -/
theorem receive?_eq_some {c d : Channel n α} {a : α} (h : c.receive? = some (a, d)) :
    c.queue = a :: d.queue ∧ c.listening = true ∧ d.listening = true := by
  unfold receive? at h
  split at h
  · cases h
  · next as heq =>
    have hlistens : c.listening = true := by
      by_contra hleft
      rw [c.left (by simpa using hleft)] at heq
      cases heq
    cases h
    exact ⟨heq, hlistens, hlistens⟩

end Channel
end PessiStreamer.Base
