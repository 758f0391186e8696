import Mathlib.Data.List.Basic

/-!
# The last word

Among the messages on their way to a place some speak for a thing and some against it, and the place
heeds each as it arrives. The last of them decides whether it holds there once all have arrived.
-/

namespace PessiStreamer.Base

universe u

variable {α : Type u} (word : α → Option Bool)

/-- The last of the messages that speak for or against it speaks for it, or none does either and it
holds already. -/
def Settles (ms : List α) (now : Prop) : Prop :=
  match (ms.filterMap word).getLast? with
  | some answer => answer = true
  | none => now

namespace Settles

variable {word} {l r ms ms' : List α} {m : α} {now now' : Prop}

/-- What comes later settles on top of what came before. -/
theorem append : Settles word (ms ++ ms') now ↔ Settles word ms' (Settles word ms now) := by
  unfold Settles
  rw [List.filterMap_append, List.getLast?_append]
  cases (ms'.filterMap word).getLast? with
  | none => rfl
  | some answer => rfl

private theorem singleton_of_none (h : word m = none) : Settles word [m] now ↔ now := by
  simp [Settles, h]

/-- A message that tells something settles it. -/
theorem singleton_of_some {answer : Bool} (h : word m = some answer) :
    Settles word [m] now ↔ answer = true := by
  simp [Settles, h]

/-- What holds now may be weakened. -/
theorem mono (h : Settles word ms now) (hnow : now → now') : Settles word ms now' := by
  unfold Settles at h ⊢
  split
  · next answer hlast =>
    rw [hlast] at h
    exact h
  · next hlast =>
    rw [hlast] at h
    exact hnow h

/-- Nothing speaks against it. -/
theorem of_no_objection (h : ∀ m ∈ ms, word m ≠ some false) (hnow : now) :
    Settles word ms now := by
  unfold Settles
  split
  · next answer hlast =>
    obtain ⟨m, hm, hanswer⟩ := List.mem_filterMap.mp (List.mem_of_getLast? hlast)
    cases answer with
    | true => rfl
    | false => exact (h m hm hanswer).elim
  · exact hnow

/-- Messages without a word in it. -/
theorem iff_of_none (h : ∀ m ∈ ms, word m = none) : Settles word ms now ↔ now := by
  have hnothing : ms.filterMap word = [] := List.filterMap_eq_nil_iff.mpr h
  simp [Settles, hnothing]

/-- One message more that does not speak against it. -/
theorem concat (h : Settles word ms now) (hm : word m ≠ some false) :
    Settles word (ms ++ [m]) now := by
  rw [append]
  apply of_no_objection _ h
  intro m' hm'
  rwa [List.mem_singleton.mp hm']

/-- A message arrives, or is lost. If it speaks for it, it holds from then on, and no objection is
still under way that was sent before. -/
theorem leave (h : Settles word (l ++ m :: r) now) (hkeep : word m = none → now → now')
    (hheld : word m = some true → now') (horder : word m = some true → ∀ m' ∈ l,
      word m' ≠ some false) : Settles word (l ++ r) now' := by
  rw [← List.singleton_append, append, append] at h
  rw [append]
  cases hm : word m with
  | none =>
    rw [singleton_of_none hm] at h
    exact h.mono fun hl ↦ hl.mono (hkeep hm)
  | some answer =>
    rw [singleton_of_some hm] at h
    cases answer with
    | true => exact h.mono fun _ ↦ of_no_objection (horder hm) (hheld hm)
    | false => exact h.mono fun hfalse ↦ by cases hfalse

/-- A message that does not speak for it leaves. -/
theorem lose (h : Settles word (l ++ m :: r) now) (hm : word m ≠ some true) :
    Settles word (l ++ r) now :=
  h.leave (fun _ ↦ id) (fun hfor ↦ (hm hfor).elim) fun hfor ↦ (hm hfor).elim

end Settles
end PessiStreamer.Base
