import PessiStreamer.Base.Effect

/-!
# Computations that may panic

A panic is no error that a caller could handle: it ends the task. `Panicking` adds it to the
computations with state and exceptions as a third outcome, and `NoPanic P g m Q E` says that
from a state with `P` the computation `g` does not panic and does what `m` does, which ends in `Q`
or `E`.
-/

namespace PessiStreamer.Base

variable {ε σ α β : Type}

/-- A quotient of numbers; a division by zero panics. -/
def div? (a b : Nat) : Option Nat := if b = 0 then none else some (a / b)

/-- Division panics by zero only. -/
theorem div?_eq {a b : Nat} (h : b ≠ 0) : div? a b = some (a / b) := if_neg h

/-- What is defined on all elements is defined on the list. -/
theorem mapM_isSome {f : α → Option β} {l : List α} (h : ∀ a ∈ l, (f a).isSome) :
    (l.mapM f).isSome := by
  induction l with
  | nil => rfl
  | cons a l ih =>
    obtain ⟨b, hb⟩ := Option.isSome_iff_exists.mp (h a List.mem_cons_self)
    obtain ⟨bs, hbs⟩ := Option.isSome_iff_exists.mp (ih fun x hx ↦ h x (List.mem_cons_of_mem a hx))
    rw [List.mapM_cons, hb, hbs]
    rfl

/-- A computation that breaks off with `none` where it panics. -/
def Panicking (ε σ α : Type) : Type := σ → Option (EStateM.Result ε σ α)

instance : Monad (Panicking ε σ) where
  pure a := fun s ↦ some (.ok a s)
  bind g f := fun s ↦ (g s).bind fun r ↦
    match r with
    | .ok a t => f a t
    | .error e t => some (.error e t)

/-- What cannot panic. -/
instance : MonadLift (EStateM ε σ) (Panicking ε σ) where
  monadLift m := fun s ↦ some (m s)

/-- A value that it may panic to compute. -/
instance : MonadLift Option (Panicking ε σ) where
  monadLift v := fun s ↦ v.map fun a ↦ .ok a s

/-- From a state with `P`, `g` does what `m` does and does not panic. -/
structure NoPanic (P : σ → Prop) (g : Panicking ε σ α) (m : EStateM ε σ α)
    (Q : α → σ → Prop) (E : ε → σ → Prop) : Prop where
  eq_some : ∀ s, P s → g s = some (m s)
  triple : Triple P m Q E

namespace NoPanic

variable {P P' : σ → Prop} {Q Q' : α → σ → Prop} {S : β → σ → Prop} {E E' : ε → σ → Prop}
  {g : Panicking ε σ α} {m : EStateM ε σ α}

/-- A stronger precondition and weaker postconditions. -/
theorem consequence (h : NoPanic P g m Q E) (hP : ∀ s, P' s → P s) (hQ : ∀ a s, Q a s → Q' a s)
    (hE : ∀ e s, E e s → E' e s) : NoPanic P' g m Q' E' where
  eq_some := fun s hs ↦ h.eq_some s (hP s hs)
  triple := h.triple.consequence hP hQ hE

/-- What cannot panic implements itself. -/
theorem lift (h : Triple P m Q E) : NoPanic P (liftM m) m Q E where
  eq_some := fun _ _ ↦ rfl
  triple := h

/-- A value is returned without a panic. -/
theorem pure {a : α} (h : ∀ s, P s → Q a s) :
    NoPanic (ε := ε) P (Pure.pure a) (Pure.pure a) Q E where
  eq_some := fun _ _ ↦ rfl
  triple := Triple.pure h

/-- Sequencing. -/
theorem bind {g' : α → Panicking ε σ β} {f : α → EStateM ε σ β} (h : NoPanic P g m Q E)
    (h' : ∀ a, NoPanic (Q a) (g' a) (f a) S E) :
    NoPanic P (g >>= g') (m >>= f) S E where
  eq_some := by
    intro s hs
    have hbind : (g >>= g') s = (g s).bind fun r ↦
        match r with
        | .ok a t => g' a t
        | .error e t => some (.error e t) := rfl
    have htriple := h.triple s hs
    rw [hbind, h.eq_some s hs, Option.bind_some, bind_apply]
    cases hm : m s with
    | ok a t =>
      rw [hm] at htriple
      exact (h' a).eq_some t htriple
    | error e t => rfl
  triple := h.triple.bind fun a ↦ (h' a).triple

/-- A value that there is. -/
theorem bind_value {v : Option α} {a : α} {g' : α → Panicking ε σ β} {f : EStateM ε σ β}
    (hv : v = some a) (h : NoPanic P (g' a) f S E) : NoPanic P (liftM v >>= g') f S E where
  eq_some := by
    intro s hs
    subst hv
    exact h.eq_some s hs
  triple := h.triple

/-- A branch. -/
theorem ite {p : Prop} [Decidable p] {g' : Panicking ε σ α} {m' : EStateM ε σ α}
    (h : p → NoPanic P g m Q E) (h' : ¬ p → NoPanic P g' m' Q E) :
    NoPanic P (if p then g else g') (if p then m else m') Q E := by
  split
  · next hp => exact h hp
  · next hp => exact h' hp

/-- A loop with an invariant that each of its turns keeps. -/
theorem forM {I : σ → Prop} {g' : β → Panicking ε σ PUnit} {f : β → EStateM ε σ PUnit}
    {xs : List β} (h : ∀ x ∈ xs, NoPanic I (g' x) (f x) (fun _ ↦ I) E) :
    NoPanic I (xs.forM g') (xs.forM f) (fun _ ↦ I) E := by
  induction xs with
  | nil => exact pure fun _ ↦ id
  | cons x xs ih =>
    exact bind (h x List.mem_cons_self) fun _ ↦ ih fun y hy ↦ h y (List.mem_cons_of_mem x hy)

end NoPanic
end PessiStreamer.Base
