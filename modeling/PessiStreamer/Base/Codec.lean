import Mathlib.Data.BitVec
import Mathlib.Data.List.Infix

/-!
# Binary formats that say where a value ends

A codec writes values as bytes and reads one value from the front of a list of bytes, handing
back the rest. Its one law fixes what is read in both directions, so that no encoding is the
beginning of another one, and a format put together from others inherits this.
-/

namespace PessiStreamer.Base

/-- A format: how values are written and read, and which of them it can represent. -/
structure Codec (α : Type) where
  encode : α → List UInt8
  decode : List UInt8 → Option (α × List UInt8)
  Valid : α → Prop
  decode_iff : ∀ l a rest, decode l = some (a, rest) ↔ Valid a ∧ l = encode a ++ rest

namespace Codec

variable {α β κ : Type} {c : Codec α} {a b : α} {l rest : List UInt8}

/-- A value is read just where its encoding comes first. -/
theorem exists_decode_iff :
    (∃ rest, c.decode l = some (a, rest)) ↔ c.Valid a ∧ c.encode a <+: l := by
  simp only [decode_iff, exists_and_left]
  constructor
  · rintro ⟨hv, rest, rfl⟩
    exact ⟨hv, List.prefix_append _ _⟩
  · rintro ⟨hv, rest, rfl⟩
    exact ⟨hv, rest, rfl⟩

/-- Two encodings at the front of one list are those of one value. -/
theorem eq_of_prefix (ha : c.Valid a) (hb : c.Valid b) (hal : c.encode a <+: l)
    (hbl : c.encode b <+: l) : a = b := by
  obtain ⟨rest, hrest⟩ := exists_decode_iff.mpr ⟨ha, hal⟩
  obtain ⟨rest', hrest'⟩ := exists_decode_iff.mpr ⟨hb, hbl⟩
  exact (Prod.mk.inj (Option.some.inj (hrest.symm.trans hrest'))).1

section Building

/-- The format without values. -/
def fail : Codec α where
  encode _ := []
  decode _ := none
  Valid _ := False
  decode_iff := by simp

/-- The format without bytes of a single value. -/
def unit (a : α) : Codec α where
  encode _ := []
  decode l := some (a, l)
  Valid b := b = a
  decode_iff := by
    intro l b rest
    rw [Option.some.injEq, Prod.mk.injEq, List.nil_append, eq_comm]

/-- Blocks of `n` bytes. -/
def bytes (n : Nat) : Codec (List UInt8) where
  encode l := l
  decode l := if n ≤ l.length then some (l.take n, l.drop n) else none
  Valid l := l.length = n
  decode_iff := by
    intro l a rest
    constructor
    · intro h
      split at h
      · next hn =>
        cases h
        exact ⟨List.length_take_of_le hn, (List.take_append_drop n l).symm⟩
      · cases h
    · rintro ⟨rfl, rfl⟩
      simp

/-- A format for values that stand for values of `c`. -/
def embed (c : Codec α) (f : α → β) (g : β → Option α)
    (h : ∀ a b, c.Valid a → (g b = some a ↔ f a = b)) : Codec β where
  encode b := (g b).elim [] c.encode
  decode l := (c.decode l).map fun r ↦ (f r.1, r.2)
  Valid b := ∃ a, g b = some a ∧ c.Valid a
  decode_iff := by
    intro l b rest
    simp only [Option.map_eq_some_iff, Prod.exists, Prod.mk.injEq, c.decode_iff]
    constructor
    · rintro ⟨a, _, ⟨hv, hl⟩, hb, rfl⟩
      have hg : g b = some a := (h a b hv).mpr hb
      rw [hg]
      exact ⟨⟨a, rfl, hv⟩, hl⟩
    · rintro ⟨⟨a, ha, hv⟩, hl⟩
      rw [ha] at hl
      exact ⟨a, rest, ⟨hv, hl⟩, (h a b hv).mp ha, rfl⟩

/-- A key, and after it the format that the key selects. -/
def keyed (key : Codec κ) (keyOf : α → κ) (body : κ → Codec α)
    (h : ∀ k a, (body k).Valid a → keyOf a = k) : Codec α where
  encode a := key.encode (keyOf a) ++ (body (keyOf a)).encode a
  decode l := (key.decode l).bind fun r ↦ (body r.1).decode r.2
  Valid a := key.Valid (keyOf a) ∧ (body (keyOf a)).Valid a
  decode_iff := by
    intro l a rest
    simp only [Option.bind_eq_some_iff, Prod.exists, decode_iff]
    constructor
    · rintro ⟨k, _, ⟨hk, rfl⟩, ha, rfl⟩
      obtain rfl := h k a ha
      exact ⟨⟨hk, ha⟩, (List.append_assoc _ _ _).symm⟩
    · rintro ⟨⟨hk, ha⟩, rfl⟩
      exact ⟨keyOf a, _, ⟨hk, List.append_assoc _ _ _⟩, ha, rfl⟩

/-- One value after the other. -/
def prod (c : Codec α) (d : Codec β) : Codec (α × β) where
  encode p := c.encode p.1 ++ d.encode p.2
  decode l := (c.decode l).bind fun r ↦ (d.decode r.2).map fun r' ↦ ((r.1, r'.1), r'.2)
  Valid p := c.Valid p.1 ∧ d.Valid p.2
  decode_iff := by
    rintro l ⟨a, b⟩ rest
    simp only [Option.bind_eq_some_iff, Option.map_eq_some_iff, Prod.exists, Prod.mk.injEq,
      decode_iff]
    constructor
    · rintro ⟨_, _, ⟨ha, rfl⟩, _, _, ⟨hb, rfl⟩, ⟨rfl, rfl⟩, rfl⟩
      exact ⟨⟨ha, hb⟩, (List.append_assoc _ _ _).symm⟩
    · rintro ⟨⟨ha, hb⟩, rfl⟩
      exact ⟨a, _, ⟨ha, List.append_assoc _ _ _⟩, b, rest, ⟨hb, rfl⟩, ⟨rfl, rfl⟩, rfl⟩

/-- `n` values one after the other. -/
def times (c : Codec α) : Nat → Codec (List α)
  | 0 => unit []
  | n + 1 => (c.prod (times c n)).embed (fun p ↦ p.1 :: p.2)
      (fun l ↦ l.head?.map fun a ↦ (a, l.tail)) (by
        rintro ⟨a, as⟩ l -
        cases l with
        | nil => simp
        | cons b l => simp [eq_comm])

end Building

section Lists

/-- A block of values has the fixed length. -/
theorem times_valid {n : Nat} {as : List α} :
    (c.times n).Valid as ↔ as.length = n ∧ ∀ a ∈ as, c.Valid a := by
  induction n generalizing as with
  | zero =>
    show as = [] ↔ _
    constructor
    · rintro rfl
      simp
    · exact fun h ↦ List.length_eq_zero_iff.mp h.1
  | succ n ih =>
    cases as with
    | nil => simp [times, embed]
    | cons a as =>
      have hcons : (c.times (n + 1)).Valid (a :: as) ↔ c.Valid a ∧ (c.times n).Valid as := by
        simp [times, embed, prod]
      rw [hcons, ih, List.length_cons, List.forall_mem_cons, Nat.succ_inj]
      exact and_left_comm

/-- The values of a block are written one after the other. -/
theorem times_encode {n : Nat} {as : List α} (h : as.length = n) :
    (c.times n).encode as = as.flatMap c.encode := by
  induction n generalizing as with
  | zero => rw [List.length_eq_zero_iff.mp h]; rfl
  | succ n ih =>
    cases as with
    | nil => cases h
    | cons a as =>
      show c.encode a ++ (c.times n).encode as = _
      rw [ih (Nat.succ.inj h), List.flatMap_cons]

/-- A number of values, and after it the values. -/
def list (number : Codec UInt64) (c : Codec α) : Codec (List α) :=
  number.keyed (fun as ↦ .ofNat as.length) (fun k ↦ c.times k.toNat) (by
    intro k as h
    rw [(times_valid.mp h).1, UInt64.ofNat_toNat])

variable {number : Codec UInt64} {as : List α}

/-- A list can be written if its length fits into the number. -/
theorem list_valid (hnumber : ∀ k, number.Valid k) :
    (list number c).Valid as ↔ as.length < 2 ^ 64 ∧ ∀ a ∈ as, c.Valid a := by
  show number.Valid _ ∧ (c.times _).Valid as ↔ _
  rw [times_valid, UInt64.toNat_ofNat', eq_comm, Nat.mod_eq_iff_lt (by decide)]
  exact and_iff_right (hnumber _)

/-- A list is written as its length and then its elements. -/
theorem list_encode (h : as.length < 2 ^ 64) :
    (list number c).encode as = number.encode (.ofNat as.length) ++ as.flatMap c.encode := by
  show _ ++ (c.times _).encode as = _
  rw [times_encode]
  rw [UInt64.toNat_ofNat', Nat.mod_eq_of_lt h]

end Lists

section Words

/-- The `n` lowest digits of a number in base 256, lowest first. -/
def digits : Nat → Nat → List UInt8
  | 0, _ => []
  | n + 1, k => .ofNat k :: digits n (k / 256)

/-- The number with the given digits in base 256, lowest first. -/
def ofDigits : List UInt8 → Nat
  | [] => 0
  | d :: ds => d.toNat + 256 * ofDigits ds

/-- There are as many digits as were asked for. -/
@[simp]
theorem length_digits (n k : Nat) : (digits n k).length = n := by
  induction n generalizing k with
  | zero => rfl
  | succ n ih => rw [digits, List.length_cons, ih]

private theorem ofDigits_digits (n k : Nat) : ofDigits (digits n k) = k % 256 ^ n := by
  induction n generalizing k with
  | zero => rw [pow_zero, Nat.mod_one]; rfl
  | succ n ih =>
    have hpow : 256 ^ (n + 1) = 256 * 256 ^ n := pow_succ' 256 n
    rw [digits, ofDigits, ih, UInt8.toNat_ofNat', hpow, Nat.mod_mul]

private theorem digits_ofDigits (ds : List UInt8) : digits ds.length (ofDigits ds) = ds := by
  induction ds with
  | nil => rfl
  | cons d ds ih =>
    have hd := d.toNat_lt
    have hhigh : ofDigits (d :: ds) / 256 = ofDigits ds := by
      rw [ofDigits]
      omega
    have hlow : UInt8.ofNat (ofDigits (d :: ds)) = d := by
      apply UInt8.toNat_inj.mp
      rw [UInt8.toNat_ofNat', ofDigits]
      omega
    rw [List.length_cons, digits, hhigh, hlow, ih]

private theorem ofDigits_lt (ds : List UInt8) : ofDigits ds < 256 ^ ds.length := by
  rw [← digits_ofDigits ds, ofDigits_digits, length_digits]
  exact Nat.mod_lt _ (Nat.pow_pos (by decide))

/-- Words of `n` bytes, which are the digits of the number in some order. -/
def word (n : Nat) (order : List UInt8 → List UInt8) (horder : order.Involutive)
    (hlength : ∀ ds, (order ds).length = ds.length) : Codec (BitVec (8 * n)) :=
  (bytes n).embed (fun ds ↦ .ofNat _ (ofDigits (order ds)))
    (fun w ↦ some (order (digits n w.toNat))) (by
      intro ds w hds
      obtain rfl : ds.length = n := hds
      have hpow : 2 ^ (8 * ds.length) = 256 ^ ds.length := pow_mul 2 8 _
      have hlt : ofDigits (order ds) < 256 ^ ds.length := hlength ds ▸ ofDigits_lt (order ds)
      rw [Option.some.injEq, ← BitVec.toNat_inj, BitVec.toNat_ofNat, hpow, Nat.mod_eq_of_lt hlt]
      constructor
      · intro h
        have hw : digits ds.length w.toNat = order ds := by
          rw [← congrArg order h, horder]
        rw [← hw, ofDigits_digits]
        exact Nat.mod_eq_of_lt (hpow ▸ w.isLt)
      · intro h
        rw [← h, ← hlength, digits_ofDigits, horder])

/-- Words of `n` bytes, the lowest byte first. -/
def littleEndian (n : Nat) : Codec (BitVec (8 * n)) :=
  word n id (fun _ ↦ rfl) fun _ ↦ rfl

/-- Words of `n` bytes, the highest byte first. -/
def bigEndian (n : Nat) : Codec (BitVec (8 * n)) :=
  word n List.reverse List.reverse_involutive fun _ ↦ List.length_reverse

section

variable {n : Nat} {order : List UInt8 → List UInt8} {horder : order.Involutive}
  {hlength : ∀ ds, (order ds).length = ds.length}

/-- Every word can be written. -/
theorem word_valid (w : BitVec (8 * n)) : (word n order horder hlength).Valid w :=
  ⟨_, rfl, (hlength _).trans (length_digits n _)⟩

private theorem length_word (w : BitVec (8 * n)) :
    ((word n order horder hlength).encode w).length = n :=
  (hlength _).trans (length_digits n _)

end

/-- Every word has a little-endian encoding. -/
theorem littleEndian_valid (n : Nat) (w : BitVec (8 * n)) : (littleEndian n).Valid w :=
  word_valid w

/-- A word of `n` bytes is written as `n` bytes, the last digit first. -/
theorem length_littleEndian (n : Nat) (w : BitVec (8 * n)) :
    ((littleEndian n).encode w).length = n :=
  length_word w

/-- Every word has a big-endian encoding. -/
theorem bigEndian_valid (n : Nat) (w : BitVec (8 * n)) : (bigEndian n).Valid w :=
  word_valid w

/-- A word of `n` bytes is written as `n` bytes, the first digit first. -/
theorem length_bigEndian (n : Nat) (w : BitVec (8 * n)) : ((bigEndian n).encode w).length = n :=
  length_word w

end Words
end Codec
end PessiStreamer.Base
