import Mathlib.Data.List.Basic

/-!
# Rules of pre- and postconditions for state and exceptions

A computation of `EStateM ε σ α` reads and changes a state and either returns or
fails, keeping the changes it made before it failed. `Triple P m Q E` speaks about
both ends at once: `Q` where `m` returns, `E` where it fails.
-/

namespace PessiStreamer.Base

variable {ε σ α β : Type}

/-- From a state with `P`, `m` ends with `Q` if it returns and with `E` if it fails. -/
def Triple (P : σ → Prop) (m : EStateM ε σ α) (Q : α → σ → Prop) (E : ε → σ → Prop) : Prop :=
  ∀ s, P s → match m s with
    | .ok a t => Q a t
    | .error e t => E e t

/-- Run `m` and carry on whether it returned or failed. -/
def attempt (m : EStateM ε σ α) : EStateM ε σ Unit := fun s ↦
  match m s with
  | .ok _ t => .ok () t
  | .error _ t => .ok () t

/-- The state a computation ends in, whether it returned or failed. -/
def finalState (m : EStateM ε σ α) (s : σ) : σ :=
  match m s with
  | .ok _ t => t
  | .error _ t => t

/-- The state in which a computation returns is its last one. -/
theorem finalState_of_ok {m : EStateM ε σ α} {s t : σ} {a : α} (h : m s = .ok a t) :
    finalState m s = t := by
  rw [finalState, h]

/-- So is the state in which it fails. -/
theorem finalState_of_error {m : EStateM ε σ α} {s t : σ} {e : ε} (h : m s = .error e t) :
    finalState m s = t := by
  rw [finalState, h]

/-- What is tried returns, in the state in which it ends. -/
theorem attempt_apply (m : EStateM ε σ α) (s : σ) : attempt m s = .ok () (finalState m s) := by
  unfold attempt finalState
  cases m s with
  | ok a t => rfl
  | error e t => rfl

/-- Computations that end alike end in the same state. -/
theorem finalState_congr {m m' : EStateM ε σ α} {s s' : σ} (h : m s = m' s') :
    finalState m s = finalState m' s' := by
  rw [finalState, h, finalState]

/-- Sequencing runs the second computation where the first returned. -/
@[simp]
theorem bind_apply (m : EStateM ε σ α) (f : α → EStateM ε σ β) (s : σ) :
    (m >>= f) s = match m s with
      | .ok a t => f a t
      | .error e t => .error e t := rfl

/-- A value is returned in the state as it is. -/
@[simp]
theorem pure_apply (a : α) (s : σ) : (pure a : EStateM ε σ α) s = .ok a s := rfl

/-- What the second computation leaves alone is as the first one left it. -/
theorem finalState_bind {γ : Type*} {g : σ → γ} {m : EStateM ε σ α} {f : α → EStateM ε σ β}
    (h : ∀ a t, g (finalState (f a) t) = g t) (s : σ) :
    g (finalState (m >>= f) s) = g (finalState m s) := by
  cases hm : m s with
  | ok a t =>
    have hbind : (m >>= f) s = f a t := by
      rw [bind_apply, hm]
    rw [finalState_congr hbind, h a t, finalState_of_ok hm]
  | error e t =>
    have hbind : (m >>= f) s = .error e t := by
      rw [bind_apply, hm]
    rw [finalState_of_error hbind, finalState_of_error hm]

/-- The elements whose turns a loop begins; it breaks off at the first turn that fails. -/
def visited (g : β → EStateM ε σ PUnit) : List β → σ → List β
  | [], _ => []
  | x :: xs, s => x :: match g x s with
    | .ok _ t => visited g xs t
    | .error _ _ => []

/-- A loop that returns has gone through its list. -/
theorem visited_of_ok {g : β → EStateM ε σ PUnit} {xs : List β} {s t : σ}
    (h : xs.forM g s = .ok () t) : visited g xs s = xs := by
  induction xs generalizing s with
  | nil => rfl
  | cons x xs ih =>
    have hcons : (x :: xs).forM g s = (g x >>= fun _ ↦ xs.forM g) s := rfl
    rw [hcons, bind_apply] at h
    rw [visited]
    cases hx : g x s with
    | ok u t' =>
      rw [hx] at h
      exact congrArg (x :: ·) (ih h)
    | error e t' =>
      rw [hx] at h
      cases h

/-- A loop whose turns do nothing. -/
theorem forM_eq_ok {xs : List β} {f : β → EStateM ε σ PUnit} {s : σ}
    (h : ∀ x ∈ xs, f x s = .ok () s) : xs.forM f s = .ok () s := by
  induction xs with
  | nil => rfl
  | cons x xs ih =>
    have hcons : (x :: xs).forM f s = (f x >>= fun _ ↦ xs.forM f) s := rfl
    rw [hcons, bind_apply, h x List.mem_cons_self]
    exact ih fun y hy ↦ h y (List.mem_cons_of_mem x hy)

namespace Triple

variable {P P' R : σ → Prop} {Q Q' : α → σ → Prop} {S : β → σ → Prop} {E E' : ε → σ → Prop}
  {m : EStateM ε σ α} {f : α → EStateM ε σ β}

/-- A stronger precondition and weaker postconditions. -/
theorem consequence (h : Triple P m Q E) (hP : ∀ s, P' s → P s) (hQ : ∀ a s, Q a s → Q' a s)
    (hE : ∀ e s, E e s → E' e s) : Triple P' m Q' E' := by
  intro s hs
  have hm := h s (hP s hs)
  split at hm
  · exact hQ _ _ hm
  · exact hE _ _ hm

/-- A stronger precondition. -/
theorem strengthen (h : Triple P m Q E) (hP : ∀ s, P' s → P s) : Triple P' m Q E :=
  h.consequence hP (fun _ _ ↦ id) (fun _ _ ↦ id)

/-- A weaker postcondition. -/
theorem weaken (h : Triple P m Q E) (hQ : ∀ a s, Q a s → Q' a s) : Triple P m Q' E :=
  h.consequence (fun _ ↦ id) hQ (fun _ _ ↦ id)

/-- A part of the precondition that does not depend on the state. -/
theorem of_forall {p : Prop} (h : p → Triple P m Q E) : Triple (fun s ↦ p ∧ P s) m Q E :=
  fun s hs ↦ h hs.1 s hs.2

/-- Returning a value. -/
theorem pure {a : α} (h : ∀ s, P s → Q a s) : Triple (ε := ε) P (Pure.pure a) Q E :=
  fun s hs ↦ h s hs

/-- Sequencing. -/
theorem bind (h : Triple P m Q E) (h' : ∀ a, Triple (Q a) (f a) S E) :
    Triple P (m >>= f) S E := by
  intro s hs
  have hm := h s hs
  rw [bind_apply]
  cases hr : m s with
  | ok a t =>
    rw [hr] at hm
    exact h' a t hm
  | error e t =>
    rw [hr] at hm
    exact hm

/-- A branch. -/
theorem ite {p : Prop} [Decidable p] {m' : EStateM ε σ α} (h : p → Triple P m Q E)
    (h' : ¬ p → Triple P m' Q E) : Triple P (if p then m else m') Q E := by
  split
  · next hp => exact h hp
  · next hp => exact h' hp

/-- Carrying on after a computation that may fail. -/
theorem attempt {S : Unit → σ → Prop} (h : Triple P m (fun _ ↦ S ()) (fun _ ↦ S ())) :
    Triple P (Base.attempt m) S E := by
  intro s hs
  have hm := h s hs
  unfold Base.attempt
  cases hr : m s with
  | ok a t =>
    rw [hr] at hm
    exact hm
  | error e t =>
    rw [hr] at hm
    exact hm

/-- A loop whose invariant names the elements still to come. -/
theorem forM_rest {I : List β → σ → Prop} {g : β → EStateM ε σ PUnit} (xs : List β)
    (h : ∀ x rest, x :: rest <:+ xs → Triple (I (x :: rest)) (g x) (fun _ ↦ I rest) E) :
    Triple (I xs) (xs.forM g) (fun _ ↦ I []) E := by
  induction xs with
  | nil => exact pure fun _ ↦ id
  | cons x xs ih =>
    exact bind (h x xs List.suffix_rfl) fun _ ↦
      ih fun y rest hy ↦ h y rest (hy.trans (List.suffix_cons x xs))

/-- A loop with an invariant that each of its turns keeps. -/
theorem forM {I : σ → Prop} {g : β → EStateM ε σ PUnit} {xs : List β}
    (h : ∀ x ∈ xs, Triple I (g x) (fun _ ↦ I) E) :
    Triple I (xs.forM g) (fun _ ↦ I) E :=
  forM_rest (I := fun _ ↦ I) xs fun x _ hx ↦ h x (hx.subset List.mem_cons_self)

/-- What never fails returns. -/
theorem returns (h : Triple P m Q fun _ _ ↦ False) {s : σ} (hs : P s) :
    ∃ a t, m s = .ok a t ∧ Q a t := by
  have hm := h s hs
  cases hr : m s with
  | ok a t =>
    rw [hr] at hm
    exact ⟨a, t, rfl, hm⟩
  | error e t =>
    rw [hr] at hm
    exact hm.elim

/-- What a triple says about the state reached, when both ends agree. -/
theorem finalState {I : σ → Prop} (h : Triple P m (fun _ ↦ I) (fun _ ↦ I)) {s : σ} (hs : P s) :
    I (Base.finalState m s) := by
  have hm := h s hs
  unfold Base.finalState
  cases hr : m s with
  | ok a t =>
    rw [hr] at hm
    exact hm
  | error e t =>
    rw [hr] at hm
    exact hm

/-- A triple whose two ends agree, from the state reached. -/
theorem of_finalState {I : σ → Prop} (h : ∀ s, P s → I (Base.finalState m s)) :
    Triple P m (fun _ ↦ I) (fun _ ↦ I) := by
  intro s hs
  have hI := h s hs
  unfold Base.finalState at hI
  cases hr : m s with
  | ok a t =>
    rw [hr] at hI
    exact hI
  | error e t =>
    rw [hr] at hI
    exact hI

end Triple

/-- `m` keeps `P`, whether it returns or fails. -/
def Maintains (P : σ → Prop) (m : EStateM ε σ α) : Prop := Triple P m (fun _ ↦ P) fun _ ↦ P

namespace Maintains

variable {P : σ → Prop} {E : ε → σ → Prop} {m : EStateM ε σ α} {f : α → EStateM ε σ β}

/-- A value that is returned changes nothing. -/
theorem pure (a : α) : Maintains (ε := ε) P (Pure.pure a) := fun _ hs ↦ hs

/-- What both computations maintain their sequence maintains. -/
theorem bind (h : Maintains P m) (h' : ∀ a, Maintains P (f a)) : Maintains P (m >>= f) :=
  Triple.bind h h'

/-- A choice maintains what both branches maintain, each where it is taken. -/
theorem ite {p : Prop} [Decidable p] {m' : EStateM ε σ α} (h : p → Maintains P m)
    (h' : ¬ p → Maintains P m') : Maintains P (if p then m else m') :=
  Triple.ite h h'

/-- A loop maintains what its body maintains. -/
theorem forM {xs : List β} {g : β → EStateM ε σ PUnit} (h : ∀ x ∈ xs, Maintains P (g x)) :
    Maintains P (xs.forM g) :=
  Triple.forM h

/-- Carrying on after a computation hides its failure. -/
theorem attempt (h : Maintains P m) : Triple P (Base.attempt m) (fun _ ↦ P) E :=
  Triple.attempt h

/-- What is kept holds in the state reached. -/
theorem finalState (h : Maintains P m) {s : σ} (hs : P s) : P (Base.finalState m s) :=
  Triple.finalState h hs

end Maintains
end PessiStreamer.Base
