import Mathlib.Data.List.Basic
import Mathlib.Logic.Relation

/-!
# Items passed on with losses

Places pass on the items that come to them to the places they feed, over channels that may lose
items but repeat and reorder none. What came to a place is then a part, in order, of what was passed
on at the start of each path to it.
-/

namespace PessiStreamer.Base

universe u v

variable {ν : Type u} {α : Type v}

/-- What came to a place, and then what is in the channel to it, was passed on to it in this
order. -/
def InPart (feeds : ν → ν → Prop) (passed : ν → List α) (channel : ν → ν → List α) : Prop :=
  ∀ x y, feeds x y → (passed y ++ channel x y).Sublist (passed x)

namespace InPart

variable {feeds : ν → ν → Prop} {passed passed' new : ν → List α}
  {channel channel' : ν → ν → List α} {x y : ν}

/-- Along a path comes a part of the items that were passed on at its start. -/
theorem sublist (h : InPart feeds passed channel) (hpath : Relation.ReflTransGen feeds x y) :
    (passed y).Sublist (passed x) := by
  induction hpath with
  | refl => exact List.Sublist.refl _
  | tail _ hyz ih => exact ((List.sublist_append_left _ _).trans (h _ _ hyz)).trans ih

/-- Each place passes on its `new` items. What comes out of a channel are its first items, and what
enters it are new items of its start; some of both are lost. -/
theorem step (h : InPart feeds passed channel) (hpassed : ∀ x, passed' x = passed x ++ new x)
    (hchannel : ∀ x y, feeds x y → ∃ kept entered, channel' x y = kept ++ entered ∧
      (new y ++ kept).Sublist (channel x y) ∧ entered.Sublist (new x)) :
    InPart feeds passed' channel' := by
  intro x y hxy
  obtain ⟨kept, entered, hsplit, hkept, hentered⟩ := hchannel x y hxy
  have hregroup : passed' y ++ channel' x y = passed y ++ (new y ++ kept) ++ entered := by
    rw [hpassed, hsplit]
    simp
  rw [hregroup, hpassed]
  exact ((hkept.append_left (passed y)).trans (h x y hxy)).append hentered

end InPart
end PessiStreamer.Base
