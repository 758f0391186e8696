import PessiStreamer.Base.Effect

/-!
# Computations that hold guards

A guard protects a resource for reading or for writing until its scope ends. A task that asks
for a guard in conflict with one it holds waits for itself forever: there a guarded computation
has no result.
-/

namespace PessiStreamer.Base

variable {ρ ε σ α β : Type}

/-- How a resource is guarded. -/
inductive Mode where
  | read
  | write
  deriving DecidableEq

/-- A guard over a resource. -/
structure Guard (ρ : Type) where
  resource : ρ
  mode : Mode
  deriving DecidableEq

namespace Guard

/-- A guard for reading. -/
def read (r : ρ) : Guard ρ := ⟨r, .read⟩

/-- A guard for writing. -/
def write (r : ρ) : Guard ρ := ⟨r, .write⟩

/-- A guard for reading is over its resource. -/
@[simp] theorem read_resource (r : ρ) : (read r).resource = r := rfl

/-- A guard for writing is over its resource. -/
@[simp] theorem write_resource (r : ρ) : (write r).resource = r := rfl

/-- Guards on one resource exclude each other unless both are for reading. -/
def Conflicts (g h : Guard ρ) : Prop :=
  g.resource = h.resource ∧ (g.mode = .write ∨ h.mode = .write)

instance [DecidableEq ρ] (g h : Guard ρ) : Decidable (g.Conflicts h) :=
  inferInstanceAs (Decidable (_ ∧ _))

end Guard

/-- A computation of a task that holds the given guards; it has no result where it blocks. -/
def Guarded (ρ ε σ α : Type) := List (Guard ρ) → σ → Option (EStateM.Result ε σ α)

namespace Guarded

instance : Monad (Guarded ρ ε σ) where
  pure a := fun _ s ↦ some (.ok a s)
  bind m f := fun held s ↦ (m held s).bind fun r ↦ match r with
    | .ok a t => f a held t
    | .error e t => some (.error e t)

/-- A computation that asks for no guard. -/
instance : MonadLift (EStateM ε σ) (Guarded ρ ε σ) where
  monadLift m := fun _ s ↦ some (m s)

/-- Hold one more guard while `m` runs, and release it however `m` ends. -/
def holding [DecidableEq ρ] (g : Guard ρ) (m : Guarded ρ ε σ α) : Guarded ρ ε σ α :=
  fun held s ↦ if ∃ h ∈ held, g.Conflicts h then none else m (g :: held) s

/-- Run `m` and carry on whether it returned or failed. -/
def attempt (m : Guarded ρ ε σ α) : Guarded ρ ε σ Unit := fun held s ↦
  (m held s).map fun r ↦ match r with
    | .ok _ t => .ok () t
    | .error _ t => .ok () t

/-- Visit the elements one by one, each under its own guard. -/
def iterate [DecidableEq ρ] (guard : β → Guard ρ) (xs : List β) (body : β → Guarded ρ ε σ PUnit) :
    Guarded ρ ε σ PUnit :=
  xs.forM fun x ↦ holding (guard x) (body x)

/-- A sequence runs the second computation where the first one returns, under the same guards. -/
theorem bind_apply (m : Guarded ρ ε σ α) (f : α → Guarded ρ ε σ β) (held : List (Guard ρ))
    (s : σ) : (m >>= f) held s = (m held s).bind fun r ↦ match r with
      | .ok a t => f a held t
      | .error e t => some (.error e t) := rfl

/-- A computation never goes on that waits for a guard in conflict with one held. -/
theorem holding_of_conflict [DecidableEq ρ] {g h : Guard ρ} {m : Guarded ρ ε σ α}
    {held : List (Guard ρ)} (hmem : h ∈ held) (hc : g.Conflicts h) (s : σ) :
    holding g m held s = none :=
  if_pos ⟨h, hmem, hc⟩

/-- A loop whose turns either block or do nothing. -/
theorem forM_eq_ite {p : β → Prop} [DecidablePred p] {xs : List β}
    {f : β → Guarded ρ ε σ PUnit} {held : List (Guard ρ)} {s : σ}
    (h : ∀ x, f x held s = if p x then none else some (.ok () s)) :
    xs.forM f held s = if ∃ x ∈ xs, p x then none else some (.ok () s) := by
  induction xs with
  | nil => rfl
  | cons x xs ih =>
    have hcons : (x :: xs).forM f held s = (f x >>= fun _ ↦ xs.forM f) held s := rfl
    rw [hcons, bind_apply, h x]
    by_cases hx : p x
    · rw [if_pos hx, if_pos ⟨x, List.mem_cons_self, hx⟩]
      rfl
    · rw [if_neg hx]
      apply ih.trans
      simp [hx]

/-- Holding the guards, `g` never blocks and does what `m` does. -/
def Implements (held : List (Guard ρ)) (g : Guarded ρ ε σ α) (m : EStateM ε σ α) : Prop :=
  ∀ s, g held s = some (m s)

namespace Implements

variable {held : List (Guard ρ)} {g : Guarded ρ ε σ α} {m : EStateM ε σ α}

/-- A value is returned under any guards. -/
theorem pure (a : α) : Implements (ε := ε) (σ := σ) held (Pure.pure a) (Pure.pure a) :=
  fun _ ↦ rfl

/-- A computation without guards implements itself. -/
theorem lift (m : EStateM ε σ α) : Implements held (liftM m) m := fun _ ↦ rfl

/-- Sequences of implementations implement the sequence. -/
theorem bind {f : α → Guarded ρ ε σ β} {f' : α → EStateM ε σ β} (h : Implements held g m)
    (h' : ∀ a, Implements held (f a) (f' a)) : Implements held (g >>= f) (m >>= f') := by
  intro s
  rw [Guarded.bind_apply, h s, Base.bind_apply]
  cases m s with
  | ok a t => exact h' a t
  | error e t => rfl

/-- What follows a computation starts where the plain one ends. -/
theorem bind_apply (h : Implements held g m) (f : α → Guarded ρ ε σ β) (s : σ) :
    (g >>= f) held s = match m s with
      | .ok a t => f a held t
      | .error e t => some (.error e t) := by
  rw [Guarded.bind_apply, h s]
  cases m s with
  | ok a t => rfl
  | error e t => rfl

/-- What only asks for guards leaves no trace. -/
theorem andThen {p : Guarded ρ ε σ PUnit} (h : Implements held p (Pure.pure ()))
    (h' : Implements held g m) : Implements held (p >>= fun _ ↦ g) m := by
  intro s
  rw [Guarded.bind_apply, h s]
  exact h' s

/-- A choice of implementations implements the choice. -/
theorem ite {p : Prop} [Decidable p] {g' : Guarded ρ ε σ α} {m' : EStateM ε σ α}
    (h : p → Implements held g m) (h' : ¬ p → Implements held g' m') :
    Implements held (if p then g else g') (if p then m else m') := by
  split
  · next hp => exact h hp
  · next hp => exact h' hp

/-- A guard that is in conflict with none of those held changes nothing. -/
theorem holding [DecidableEq ρ] {k : Guard ρ} (hk : ∀ h ∈ held, ¬ k.Conflicts h)
    (h : Implements (k :: held) g m) : Implements held (Guarded.holding k g) m := by
  intro s
  have hfree : ¬ ∃ h ∈ held, k.Conflicts h := by
    rintro ⟨h, hmem, hc⟩
    exact hk h hmem hc
  rw [Guarded.holding, if_neg hfree]
  exact h s

/-- An attempt at an implementation implements the attempt. -/
theorem attempt (h : Implements held g m) :
    Implements held (Guarded.attempt g) (Base.attempt m) := by
  intro s
  rw [Guarded.attempt, h s, Base.attempt]
  cases m s with
  | ok a t => rfl
  | error e t => rfl

/-- A loop over an implementation implements the loop. -/
theorem forM {xs : List β} {f : β → Guarded ρ ε σ PUnit} {f' : β → EStateM ε σ PUnit}
    (h : ∀ x, Implements held (f x) (f' x)) : Implements held (xs.forM f) (xs.forM f') := by
  induction xs with
  | nil => exact pure ()
  | cons x xs ih => exact (h x).bind fun _ ↦ ih

/-- A loop that does nothing but visit. -/
theorem forM_pure {xs : List β} {f : β → Guarded ρ ε σ PUnit}
    (h : ∀ x, Implements held (f x) (Pure.pure ())) :
    Implements held (xs.forM f) (Pure.pure ()) := by
  induction xs with
  | nil => exact pure ()
  | cons x xs ih => exact (h x).andThen ih

end Implements
end Guarded
end PessiStreamer.Base
