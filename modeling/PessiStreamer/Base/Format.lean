import PessiStreamer.Base.Codec

/-!
# Binary formats that are read more liberally than they are written

A reader may accept other bytes for a value than those its writer chooses. What remains of the law
of a codec: what was written is read back, and what is read depends on the bytes that are read
alone. So a beginning of the bytes of a value is read as no value at all.
-/

namespace PessiStreamer.Base

/-- A format: how values are written and read, and which of them can be written. -/
structure Format (α : Type) where
  encode : α → List UInt8
  decode : List UInt8 → Option (α × List UInt8)
  Valid : α → Prop
  decode_encode : ∀ a rest, Valid a → decode (encode a ++ rest) = some (a, rest)
  valid_of_decode : ∀ l a rest, decode l = some (a, rest) → Valid a
  exists_read : ∀ l a rest, decode l = some (a, rest) →
    ∃ read, l = read ++ rest ∧ ∀ rest', decode (read ++ rest') = some (a, rest')

namespace Format

variable {α β κ : Type} {F : Format α} {a b : α} {l rest : List UInt8}

/-- The first bytes of a value are read as this value, or if some are missing not at all. -/
theorem decode_take (h : F.Valid a) (n : Nat) :
    (F.decode ((F.encode a).take n)).map Prod.fst =
      if (F.encode a).length ≤ n then some a else none := by
  have hall := F.decode_encode a [] h
  rw [List.append_nil] at hall
  split
  · next hn =>
    rw [List.take_of_length_le hn, hall]
    rfl
  · next hn =>
    cases hr : F.decode ((F.encode a).take n) with
    | none => rfl
    | some r =>
      -- the same bytes are read where the missing ones follow
      obtain ⟨read, hread, hsame⟩ := F.exists_read _ r.1 r.2 hr
      have hmore := hsame (r.2 ++ (F.encode a).drop n)
      rw [← List.append_assoc, ← hread, List.take_append_drop, hall] at hmore
      have hnil := (Prod.mk.inj (Option.some.inj hmore)).2
      have hdrop : (F.encode a).drop n = [] := (List.append_eq_nil_iff.mp hnil.symm).2
      exact absurd (List.drop_eq_nil_iff.mp hdrop) hn

/-- Written values differ, and none is the beginning of another one. -/
theorem eq_of_prefix (ha : F.Valid a) (hb : F.Valid b) (h : F.encode a <+: F.encode b) :
    a = b := by
  obtain ⟨rest, hrest⟩ := h
  have hread := F.decode_encode a rest ha
  have hall := F.decode_encode b [] hb
  rw [hrest] at hread
  rw [List.append_nil, hread] at hall
  exact (Prod.mk.inj (Option.some.inj hall)).1

section Building

/-- A codec is a format. -/
def ofCodec (c : Codec α) : Format α where
  encode := c.encode
  decode := c.decode
  Valid := c.Valid
  decode_encode a rest h := (c.decode_iff _ a rest).mpr ⟨h, rfl⟩
  valid_of_decode l a rest h := ((c.decode_iff l a rest).mp h).1
  exists_read l a rest h :=
    ⟨c.encode a, ((c.decode_iff l a rest).mp h).2, fun rest' ↦
      (c.decode_iff _ a rest').mpr ⟨((c.decode_iff l a rest).mp h).1, rfl⟩⟩

/-- A format for values that are made from values of `F`, or cannot be made. -/
def refine (F : Format α) (f : α → Option β) (g : β → Option α)
    (hf : ∀ a b, F.Valid a → f a = some b → ∃ a', g b = some a' ∧ F.Valid a')
    (hg : ∀ a b, F.Valid a → g b = some a → f a = some b) : Format β where
  encode b := (g b).elim [] F.encode
  decode l := (F.decode l).bind fun r ↦ (f r.1).map (·, r.2)
  Valid b := ∃ a, g b = some a ∧ F.Valid a
  decode_encode := by
    rintro b rest ⟨a, hga, ha⟩
    rw [hga, Option.elim_some, F.decode_encode a rest ha, Option.bind_some, hg a b ha hga]
    rfl
  valid_of_decode := by
    intro l b rest h
    obtain ⟨⟨a, rest'⟩, hr, hb⟩ := Option.bind_eq_some_iff.mp h
    obtain ⟨b', hfa, hb'⟩ := Option.map_eq_some_iff.mp hb
    obtain rfl := (Prod.mk.inj hb').1
    exact hf a b' (F.valid_of_decode l a rest' hr) hfa
  exists_read := by
    intro l b rest h
    obtain ⟨⟨a, rest'⟩, hr, hb⟩ := Option.bind_eq_some_iff.mp h
    obtain ⟨b', hfa, hb'⟩ := Option.map_eq_some_iff.mp hb
    cases hb'
    obtain ⟨read, hread, hsame⟩ := F.exists_read l a rest' hr
    refine ⟨read, hread, fun rest'' ↦ ?_⟩
    rw [hsame, Option.bind_some, hfa]
    rfl

/-- A format for values that stand for values of `F`. -/
def embed (F : Format α) (f : α → β) (g : β → Option α)
    (h : ∀ a b, g b = some a ↔ f a = b) : Format β :=
  F.refine (fun a ↦ some (f a)) g
    (by
      intro a b ha hb
      exact ⟨a, (h a b).mpr (Option.some.inj hb), ha⟩)
    (by
      intro a b _ hb
      exact congrArg some ((h a b).mp hb))

/-- One value after the other. -/
def prod (F : Format α) (G : Format β) : Format (α × β) where
  encode p := F.encode p.1 ++ G.encode p.2
  decode l := (F.decode l).bind fun r ↦ (G.decode r.2).map fun r' ↦ ((r.1, r'.1), r'.2)
  Valid p := F.Valid p.1 ∧ G.Valid p.2
  decode_encode := by
    rintro ⟨a, b⟩ rest ⟨ha, hb⟩
    rw [List.append_assoc, F.decode_encode a _ ha, Option.bind_some, G.decode_encode b rest hb]
    rfl
  valid_of_decode := by
    rintro l ⟨a, b⟩ rest h
    obtain ⟨⟨a, rest₁⟩, ha, hsecond⟩ := Option.bind_eq_some_iff.mp h
    obtain ⟨⟨b, rest₂⟩, hb, heq⟩ := Option.map_eq_some_iff.mp hsecond
    cases heq
    exact ⟨F.valid_of_decode l a rest₁ ha, G.valid_of_decode rest₁ b rest₂ hb⟩
  exists_read := by
    rintro l ⟨a, b⟩ rest h
    obtain ⟨⟨a, rest₁⟩, ha, hsecond⟩ := Option.bind_eq_some_iff.mp h
    obtain ⟨⟨b, rest₂⟩, hb, heq⟩ := Option.map_eq_some_iff.mp hsecond
    cases heq
    obtain ⟨read₁, rfl, h₁⟩ := F.exists_read l a rest₁ ha
    obtain ⟨read₂, rfl, h₂⟩ := G.exists_read rest₁ b rest₂ hb
    refine ⟨read₁ ++ read₂, (List.append_assoc _ _ _).symm, fun rest' ↦ ?_⟩
    rw [List.append_assoc, h₁, Option.bind_some, h₂]
    rfl

/-- A key, and after it the format that the key selects. -/
def keyed (key : Codec κ) (keyOf : α → κ) (body : κ → Format α)
    (h : ∀ k a, (body k).Valid a → keyOf a = k) : Format α where
  encode a := key.encode (keyOf a) ++ (body (keyOf a)).encode a
  decode l := (key.decode l).bind fun r ↦ (body r.1).decode r.2
  Valid a := key.Valid (keyOf a) ∧ (body (keyOf a)).Valid a
  decode_encode := by
    rintro a rest ⟨hk, ha⟩
    have hkey := (key.decode_iff (key.encode (keyOf a) ++ ((body (keyOf a)).encode a ++ rest))
      (keyOf a) _).mpr ⟨hk, rfl⟩
    rw [List.append_assoc, hkey, Option.bind_some]
    exact (body (keyOf a)).decode_encode a rest ha
  valid_of_decode := by
    intro l a rest hl
    obtain ⟨⟨k, rest₁⟩, hk, ha⟩ := Option.bind_eq_some_iff.mp hl
    have hbody := (body k).valid_of_decode rest₁ a rest ha
    obtain rfl := h k a hbody
    exact ⟨((key.decode_iff l _ rest₁).mp hk).1, hbody⟩
  exists_read := by
    intro l a rest hl
    obtain ⟨⟨k, rest₁⟩, hk, ha⟩ := Option.bind_eq_some_iff.mp hl
    obtain ⟨hvalid, rfl⟩ := (key.decode_iff l k rest₁).mp hk
    obtain ⟨read, rfl, hread⟩ := (body k).exists_read rest₁ a rest ha
    refine ⟨key.encode k ++ read, (List.append_assoc _ _ _).symm, fun rest' ↦ ?_⟩
    have hkey := (key.decode_iff (key.encode k ++ (read ++ rest')) k _).mpr ⟨hvalid, rfl⟩
    rw [List.append_assoc, hkey, Option.bind_some]
    exact hread rest'

/-- `n` values one after the other. -/
def times (F : Format α) : Nat → Format (List α)
  | 0 => ofCodec (.unit [])
  | n + 1 => (F.prod (times F n)).embed (fun p ↦ p.1 :: p.2)
      (fun l ↦ l.head?.map fun a ↦ (a, l.tail)) (by
        rintro ⟨a, as⟩ l
        cases l with
        | nil => simp
        | cons b l => simp [eq_comm])

end Building

section Lists

variable {as : List α} {n : Nat}

private theorem times_valid : (F.times n).Valid as ↔ as.length = n ∧ ∀ a ∈ as, F.Valid a := by
  induction n generalizing as with
  | zero =>
    show as = [] ↔ _
    constructor
    · rintro rfl
      simp
    · exact fun h ↦ List.length_eq_zero_iff.mp h.1
  | succ n ih =>
    cases as with
    | nil => simp [times, embed, refine]
    | cons a as =>
      have hcons : (F.times (n + 1)).Valid (a :: as) ↔ F.Valid a ∧ (F.times n).Valid as := by
        simp [times, embed, refine, prod]
      rw [hcons, ih, List.length_cons, List.forall_mem_cons, Nat.succ_inj]
      exact and_left_comm

private theorem times_encode (h : as.length = n) : (F.times n).encode as = as.flatMap F.encode := by
  induction n generalizing as with
  | zero =>
    rw [List.length_eq_zero_iff.mp h]
    rfl
  | succ n ih =>
    cases as with
    | nil => cases h
    | cons a as =>
      show F.encode a ++ (F.times n).encode as = _
      rw [ih (Nat.succ.inj h), List.flatMap_cons]

/-- A number of values, and after it the values. -/
def list (number : Codec UInt64) (F : Format α) : Format (List α) :=
  keyed number (fun as ↦ .ofNat as.length) (fun k ↦ F.times k.toNat) (by
    intro k as h
    rw [(times_valid.mp h).1, UInt64.ofNat_toNat])

variable {number : Codec UInt64}

/-- A list can be written if its length fits into the number. -/
theorem list_valid (hnumber : ∀ k, number.Valid k) :
    (list number F).Valid as ↔ as.length < 2 ^ 64 ∧ ∀ a ∈ as, F.Valid a := by
  show number.Valid _ ∧ (F.times _).Valid as ↔ _
  rw [times_valid, UInt64.toNat_ofNat', eq_comm, Nat.mod_eq_iff_lt (by decide)]
  exact and_iff_right (hnumber _)

end Lists

/-- The values that can be written take a number of bytes that `size` tells. -/
def Sized (F : Format α) (size : α → Nat) : Prop := ∀ a, F.Valid a → (F.encode a).length = size a

namespace Sized

variable {G : Format β} {size : α → Nat} {size' : β → Nat} {k : Nat}

/-- The length of what a refined format writes. -/
theorem refine (h : F.Sized size) {f : α → Option β} {g : β → Option α}
    {hf : ∀ a b, F.Valid a → f a = some b → ∃ a', g b = some a' ∧ F.Valid a'}
    {hg : ∀ a b, F.Valid a → g b = some a → f a = some b}
    (hsize : ∀ a b, g b = some a → size a = size' b) : (F.refine f g hf hg).Sized size' := by
  rintro b ⟨a, hga, ha⟩
  show ((g b).elim [] F.encode).length = _
  rw [hga, Option.elim_some, h a ha, hsize a b hga]

/-- The length of what an embedded format writes. -/
theorem embed (h : F.Sized size) {f : α → β} {g : β → Option α}
    {hfg : ∀ a b, g b = some a ↔ f a = b} (hsize : ∀ a, size a = size' (f a)) :
    (F.embed f g hfg).Sized size' := by
  apply h.refine
  intro a b hga
  rw [← (hfg a b).mp hga, hsize]

/-- A pair takes as many bytes as its parts. -/
theorem prod (h : F.Sized size) (h' : G.Sized size') :
    (F.prod G).Sized fun p ↦ size p.1 + size' p.2 := by
  rintro ⟨a, b⟩ ⟨ha, hb⟩
  show (F.encode a ++ G.encode b).length = _
  rw [List.length_append, h a ha, h' b hb]

/-- A value with a key takes the bytes of the key and those of its body. -/
theorem keyed {key : Codec κ} {keyOf : α → κ} {body : κ → Format α}
    {hbody : ∀ k a, (body k).Valid a → keyOf a = k} (hkey : ∀ k', (key.encode k').length = k)
    (h : ∀ k', (body k').Sized size) :
    (Format.keyed key keyOf body hbody).Sized fun a ↦ k + size a := by
  rintro a ⟨-, ha⟩
  show (key.encode (keyOf a) ++ (body (keyOf a)).encode a).length = _
  rw [List.length_append, hkey, h _ a ha]

/-- A list takes the bytes of its number and those of its elements. -/
theorem list {number : Codec UInt64} (hnumber : ∀ k', (number.encode k').length = k)
    (h : F.Sized size) : (Format.list number F).Sized fun as ↦ k + (as.map size).sum := by
  apply keyed hnumber
  intro n as has
  obtain ⟨hlength, hvalid⟩ := times_valid.mp has
  rw [times_encode hlength, List.length_flatMap,
    List.map_congr_left fun a ha ↦ h a (hvalid a ha)]

end Sized

/-- A value can be written if the one that it stands for can. -/
theorem embed_valid_iff {f : α → β} {g : β → Option α} {h : ∀ a b, g b = some a ↔ f a = b}
    {a : α} : (F.embed f g h).Valid (f a) ↔ F.Valid a := by
  show (∃ a', g (f a) = some a' ∧ F.Valid a') ↔ _
  simp only [(h a (f a)).mpr rfl, Option.some.injEq, exists_eq_left']

/-- An embedded value is valid where it comes from a valid one. -/
theorem embed_valid {f : α → β} {g : β → Option α} {h : ∀ a b, g b = some a ↔ f a = b} {b : β} :
    (F.embed f g h).Valid b ↔ ∃ a, f a = b ∧ F.Valid a := by
  show (∃ a, g b = some a ∧ F.Valid a) ↔ _
  simp only [h]

end Format
end PessiStreamer.Base
