import Mathlib.Data.List.Nodup

/-!
# Runs of labelled transition systems

A system is given by its step relation `step : σ → ε → σ → Prop`. A run records,
for each of its steps, the state the step was taken in and its label, so that a
condition on the steps of a run is a condition on the members of its record.
-/

namespace PessiStreamer.Base

universe u v

variable {σ : Type u} {ε : Type v}

/-- A finite run from one state to another, with the states and labels of its steps. -/
inductive Run (step : σ → ε → σ → Prop) : σ → List (σ × ε) → σ → Prop
  | refl (s : σ) : Run step s [] s
  | tail {s t u : σ} {tr : List (σ × ε)} {e : ε} :
      Run step s tr t → step t e u → Run step s (tr ++ [(t, e)]) u

namespace Run

variable {step : σ → ε → σ → Prop} {s t u : σ} {tr tr' : List (σ × ε)}

/-- One step is a run. -/
theorem single {e : ε} (h : step s e t) : Run step s [(s, e)] t := by
  simpa using (refl s).tail h

/-- Runs compose, and so do their records. -/
theorem trans (h : Run step s tr t) (h' : Run step t tr' u) : Run step s (tr ++ tr') u := by
  induction h' with
  | refl => simpa using h
  | tail _ he ih => simpa [List.append_assoc] using ih.tail he

/-- A first step followed by a run is a run. -/
theorem head {e : ε} (he : step s e t) (h : Run step t tr u) : Run step s ((s, e) :: tr) u := by
  simpa using (single he).trans h

/-- A property that each step meeting `P` preserves holds at the end of every run
whose steps all meet `P`. -/
theorem invariant_of_forall {I : σ → Prop} {P : σ → ε → Prop}
    (hstep : ∀ s e t, I s → P s e → step s e t → I t)
    (h : Run step s tr t) (hP : ∀ p ∈ tr, P p.1 p.2) (hs : I s) : I t := by
  induction h with
  | refl => exact hs
  | tail _ he ih =>
    have hpre := ih fun p hp ↦ hP p (List.mem_append_left _ hp)
    exact hstep _ _ _ hpre (hP (_, _) (by simp)) he

/-- A property that every step preserves holds at the end of every run. -/
theorem invariant {I : σ → Prop} (hstep : ∀ s e t, I s → step s e t → I t)
    (h : Run step s tr t) (hs : I s) : I t :=
  invariant_of_forall (P := fun _ _ ↦ True) (fun s e t hI _ he ↦ hstep s e t hI he) h
    (fun _ _ ↦ trivial) hs

/-- Where a step keeps a property, and does what is due, just if it meets `P`, a run keeps it
throughout just if all of its steps meet `P`. What every step preserves may be used. -/
theorem invariant_iff {I J : σ → Prop} {D P : σ → ε → Prop}
    (hJ : ∀ s e t, J s → step s e t → J t)
    (hstep : ∀ s e t, J s → I s → step s e t → (D s e ∧ I t ↔ P s e))
    (h : Run step s tr t) (hJs : J s) (hs : I s) :
    (∀ p ∈ tr, I p.1 ∧ D p.1 p.2) ∧ I t ↔ ∀ p ∈ tr, P p.1 p.2 := by
  induction h with
  | refl => simp [hs]
  | @tail t u tr e h he ih =>
    have hJt : J t := invariant hJ h hJs
    simp only [List.forall_mem_append, List.forall_mem_singleton, ← ih]
    constructor
    · intro ⟨⟨htr, ht, hd⟩, hu⟩
      exact ⟨⟨htr, ht⟩, (hstep t e u hJt ht he).mp ⟨hd, hu⟩⟩
    · intro ⟨⟨htr, ht⟩, hp⟩
      have hu := (hstep t e u hJt ht he).mpr hp
      exact ⟨⟨htr, ht, hu.1⟩, hu.2⟩

/-- Each recorded state splits the run in two. -/
theorem exists_split {p : σ × ε} (h : Run step s tr t) (hp : p ∈ tr) :
    ∃ l r, tr = l ++ p :: r ∧ Run step s l p.1 ∧ Run step p.1 (p :: r) t := by
  induction h with
  | refl => cases hp
  | @tail t u tr e h he ih =>
    rcases List.mem_append.mp hp with hp | hp
    · obtain ⟨l, r, rfl, hl, hr⟩ := ih hp
      exact ⟨l, r ++ [(t, e)], by simp, hl, by simpa using hr.tail he⟩
    · obtain rfl := List.mem_singleton.mp hp
      exact ⟨_, [], rfl, h, single he⟩

/-- A record that is split splits the run. -/
theorem split {l r : List (σ × ε)} {p : σ × ε} (h : Run step s (l ++ p :: r) t) :
    Run step s l p.1 ∧ ∃ u, step p.1 p.2 u ∧ Run step u r t := by
  generalize htr : l ++ p :: r = tr at h
  induction h generalizing r with
  | refl => simp at htr
  | @tail t u tr e h he ih =>
    rcases List.eq_nil_or_concat r with rfl | ⟨r, q, rfl⟩
    · obtain ⟨rfl, hp⟩ := List.append_inj' htr rfl
      obtain rfl := List.singleton_inj.mp hp
      exact ⟨h, _, he, refl _⟩
    · have htr' : (l ++ p :: r) ++ [q] = tr ++ [(t, e)] := by
        rw [← htr, List.concat_eq_append]
        simp
      obtain ⟨hl, hq⟩ := List.append_inj' htr' rfl
      obtain rfl := List.singleton_inj.mp hq
      obtain ⟨hbefore, w, hstep, hrest⟩ := ih hl
      rw [List.concat_eq_append]
      exact ⟨hbefore, w, hstep, hrest.tail he⟩

/-- What some steps overwrite and the others leave alone is at the end of a run as the last of these
steps wrote it. -/
theorem last_write {α : Type*} {g : σ → α} {write : σ × ε → Option α}
    (hstep : ∀ s e t, step s e t → g t = (write (s, e)).getD (g s)) (h : Run step s tr t) :
    g t = ((tr.filterMap write).getLast?).getD (g s) := by
  induction h with
  | refl => rfl
  | @tail t u tr e _ he ih =>
    rw [hstep t e u he, ih, List.filterMap_append]
    cases hw : write (t, e) with
    | none => simp [hw]
    | some a => simp [hw]

/-- The same of what is not there before it is written. -/
theorem last_write_of_none {α : Type*} {g : σ → Option α} {write : σ × ε → Option α}
    (hstep : ∀ s e t, step s e t → g t = (write (s, e)).or (g s)) (h : Run step s tr t)
    (hs : g s = none) : g t = (tr.filterMap write).getLast? := by
  have hlast : g t = ((tr.filterMap fun p ↦ (write p).map some).getLast?).getD (g s) := by
    apply last_write _ h
    intro s e t he
    rw [hstep s e t he]
    cases write (s, e) with
    | none => rfl
    | some a => rfl
  rw [hlast, ← List.map_filterMap, List.getLast?_map, hs]
  cases (tr.filterMap write).getLast? with
  | none => rfl
  | some a => rfl

/-- A list that the steps only append to is free of duplicates at the end of a run just if it was
at the start and every step of the run appended something new. -/
theorem nodup_iff {α : Type*} {l : σ → List α} {adds : ε → α → Prop}
    (hstep : ∀ s e t, step s e t → (∃ x, (∀ y, adds e y ↔ y = x) ∧ l t = l s ++ [x]) ∨
      ((∀ y, ¬ adds e y) ∧ l t = l s))
    (h : Run step s tr t) :
    (l t).Nodup ↔ (l s).Nodup ∧ ∀ p ∈ tr, ∀ x, adds p.2 x → x ∉ l p.1 := by
  induction h with
  | refl => simp
  | @tail t u tr e h he ih =>
    have hsplit : (∀ p ∈ tr ++ [(t, e)], ∀ x, adds p.2 x → x ∉ l p.1) ↔
        (∀ p ∈ tr, ∀ x, adds p.2 x → x ∉ l p.1) ∧ ∀ x, adds e x → x ∉ l t := by
      simp only [List.forall_mem_append, List.forall_mem_singleton]
    rw [hsplit, ← and_assoc, ← ih]
    rcases hstep t e u he with ⟨x, hadds, happend⟩ | ⟨hadds, happend⟩
    · rw [happend, ← List.concat_eq_append, List.nodup_concat, and_comm]
      simp only [hadds, forall_eq]
    · rw [happend]
      simp only [hadds, false_implies, implies_true, and_true]

variable {ι : Type*} {next? : σ → ι → Option (ε × σ)}

/-- Take the steps that follow from these inputs, and leave out the inputs that no step follows
from. -/
def play (next? : σ → ι → Option (ε × σ)) (s : σ) : List ι → List (σ × ε) × σ
  | [] => ([], s)
  | i :: is =>
    match next? s i with
    | some (e, t) => ((s, e) :: (play next? t is).1, (play next? t is).2)
    | none => play next? s is

/-- What is played is a run. -/
theorem run_play (h : ∀ s i e t, next? s i = some (e, t) → step s e t) (s : σ) (is : List ι) :
    Run step s (play next? s is).1 (play next? s is).2 := by
  induction is generalizing s with
  | nil => exact .refl s
  | cons i is ih =>
    rw [play]
    split
    · next e t hnext => exact head (h s i e t hnext) (ih t)
    · exact ih s

/-- What is played follows from the given inputs. -/
theorem mem_play {p : σ × ε} {is : List ι} (h : p ∈ (play next? s is).1) :
    ∃ i ∈ is, ∃ t, next? p.1 i = some (p.2, t) := by
  induction is generalizing s with
  | nil => cases h
  | cons i is ih =>
    rw [play] at h
    split at h
    · next e t hnext =>
      rcases List.mem_cons.mp h with rfl | h
      · exact ⟨i, List.mem_cons_self, t, hnext⟩
      · obtain ⟨j, hj, hp⟩ := ih h
        exact ⟨j, List.mem_cons_of_mem i hj, hp⟩
    · obtain ⟨j, hj, hp⟩ := ih h
      exact ⟨j, List.mem_cons_of_mem i hj, hp⟩

end Run

/-- Execute a list of labels with a partial step function, left to right, and record the
steps. -/
def trace? (f : σ → ε → Option σ) (s : σ) : List ε → Option (List (σ × ε) × σ)
  | [] => some ([], s)
  | e :: es => (f s e).bind fun t ↦ (trace? f t es).map fun r ↦ ((s, e) :: r.1, r.2)

/-- As `trace?`, staying at the start when a label is not enabled. -/
def trace (f : σ → ε → Option σ) (s : σ) (es : List ε) : List (σ × ε) × σ :=
  (trace? f s es).getD ([], s)

private theorem run_of_trace? {f : σ → ε → Option σ} {s : σ} {es : List ε} {r : List (σ × ε) × σ}
    (h : trace? f s es = some r) : Run (fun s e t ↦ f s e = some t) s r.1 r.2 := by
  induction es generalizing s r with
  | nil =>
    cases h
    exact .refl s
  | cons e es ih =>
    obtain ⟨t, ht, h⟩ := Option.bind_eq_some_iff.mp h
    obtain ⟨r', hr', rfl⟩ := Option.map_eq_some_iff.mp h
    exact Run.head ht (ih hr')

/-- An execution of a partial step function is a run of its graph. -/
theorem run_trace (f : σ → ε → Option σ) (s : σ) (es : List ε) :
    Run (fun s e t ↦ f s e = some t) s (trace f s es).1 (trace f s es).2 := by
  unfold trace
  cases h : trace? f s es with
  | none => exact .refl s
  | some r => exact run_of_trace? h

end PessiStreamer.Base
