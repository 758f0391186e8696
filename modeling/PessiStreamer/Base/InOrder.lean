import Mathlib.Data.List.Infix
import Mathlib.Logic.Relation

/-!
# Items passed on in order

Places pass on the items that come to them to the places they feed, over channels that lose,
repeat and reorder nothing. What a place feeds has then come to it in full, apart from what is still
in the channel; along a path the items that came are the first of those that were passed on.
-/

namespace PessiStreamer.Base

universe u v

variable {ν : Type u} {α : Type v}

/-- What a place passed on has come to each place that it feeds, or is in the channel between
them. -/
def InOrder (feeds : ν → ν → Prop) (passed : ν → List α) (channel : ν → ν → List α) : Prop :=
  ∀ x y, feeds x y → passed x = passed y ++ channel x y

namespace InOrder

variable {feeds : ν → ν → Prop} {passed passed' : ν → List α} {channel channel' : ν → ν → List α}
  {x y z : ν} {item : α} {rest : List α}

/-- Along a path come the first of the items that were passed on at its start. -/
theorem isPrefix (h : InOrder feeds passed channel) (hpath : Relation.ReflTransGen feeds x y) :
    passed y <+: passed x := by
  induction hpath with
  | refl => exact List.prefix_refl _
  | tail _ hyz ih =>
    rw [h _ _ hyz] at ih
    exact (List.prefix_append _ _).trans ih

/-- When the channels are empty, all items have come. -/
theorem eq_of_drained (h : InOrder feeds passed channel)
    (hempty : ∀ x y, feeds x y → channel x y = []) (hpath : Relation.ReflTransGen feeds x y) :
    passed y = passed x := by
  induction hpath with
  | refl => rfl
  | tail _ hyz ih => rw [← ih, h _ _ hyz, hempty _ _ hyz, List.append_nil]

/-- A place with something in its channel to another one is not that place. -/
theorem ne_of_channel (h : InOrder feeds passed channel) (hxy : feeds x y)
    (hfirst : channel x y = item :: rest) : x ≠ y := by
  rintro rfl
  have hself := h x x hxy
  rw [hfirst] at hself
  simp at hself

/-- Nothing is passed on anywhere. -/
theorem congr (h : InOrder feeds passed channel) (hpassed : ∀ x y, feeds x y →
      passed' x = passed x ∧ passed' y = passed y)
    (hchannel : ∀ x y, feeds x y → channel' x y = channel x y) :
    InOrder feeds passed' channel' := by
  intro x y hxy
  rw [(hpassed x y hxy).1, (hpassed x y hxy).2, hchannel x y hxy]
  exact h x y hxy

variable [DecidableEq ν]

/-- A place that nothing feeds passes on a new item. -/
theorem emit (h : InOrder feeds passed channel) (hsource : ∀ y, ¬ feeds y x)
    (hpassed : ∀ y, passed' y = if y = x then passed y ++ [item] else passed y)
    (hchannel : ∀ y z, feeds y z →
      channel' y z = if y = x then channel y z ++ [item] else channel y z) :
    InOrder feeds passed' channel' := by
  intro y z hyz
  have hz : z ≠ x := by
    rintro rfl
    exact hsource y hyz
  rw [hpassed y, hpassed z, hchannel y z hyz, if_neg hz, h y z hyz]
  split
  · exact List.append_assoc _ _ _
  · rfl

/-- The first item of a channel comes to its end, which nothing else feeds, and is passed on. -/
theorem deliver (h : InOrder feeds passed channel) (hxy : feeds x y)
    (honly : ∀ z, feeds z y → z = x) (hfirst : channel x y = item :: rest)
    (hpassed : ∀ z, passed' z = if z = y then passed z ++ [item] else passed z)
    (hrest : channel' x y = rest) (hsame : ∀ z, feeds x z → z ≠ y → channel' x z = channel x z)
    (hchannel : ∀ z w, feeds z w → z ≠ x →
      channel' z w = if z = y then channel z w ++ [item] else channel z w) :
    InOrder feeds passed' channel' := by
  have hne : x ≠ y := h.ne_of_channel hxy hfirst
  intro z w hzw
  by_cases hw : w = y
  · subst hw
    obtain rfl := honly z hzw
    rw [hpassed z, hpassed w, if_neg hne, if_pos rfl, hrest, h z w hzw, hfirst]
    simp
  · rw [hpassed z, hpassed w, if_neg hw]
    by_cases hz : z = x
    · subst hz
      rw [if_neg hne, hsame w hzw hw]
      exact h z w hzw
    · rw [hchannel z w hzw hz, h z w hzw]
      split
      · exact List.append_assoc _ _ _
      · rfl

end InOrder
end PessiStreamer.Base
