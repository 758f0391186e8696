import PessiStreamer.Base.Format
import PessiStreamer.Common.Neighbours

/-!
# Packets as bytes

The packets of `common/src/packet.rs` in the format in which `bincode` writes them: numbers of
fixed width, the lowest byte first, the fields of a structure one after the other, and before each
variant its number and before each list its length. A time is read from any number of nanoseconds,
also where a writer would have carried some of them over to the seconds.
-/

namespace PessiStreamer.Common.Wire
open Base

section Fields

/-- A `u16`: two bytes, the lowest first. -/
def u16 : Codec UInt16 :=
  (Codec.littleEndian 2).embed UInt16.ofBitVec (fun k ↦ some k.toBitVec) (by
    intro w k _
    rw [Option.some.injEq]
    constructor
    · rintro rfl
      rfl
    · rintro rfl
      rfl)

/-- A `Vec<u8>`: its length and its bytes. -/
def vecU8 : Codec (List UInt8) :=
  u64.keyed (fun l ↦ .ofNat l.length) (fun k ↦ .bytes k.toNat) (by
    intro k l h
    have hlength : l.length = k.toNat := h
    rw [hlength, UInt64.ofNat_toNat])

/-- A `String`: the number of its bytes and its bytes, which are read if they are UTF-8. -/
def string : Format String :=
  (Format.ofCodec vecU8).refine (fun l ↦ String.fromUTF8? ⟨l.toArray⟩)
    (fun s ↦ some s.toUTF8.data.toList)
    (by
      intro l s hl hs
      unfold String.fromUTF8? at hs
      split at hs
      · cases hs
        exact ⟨l, rfl, hl⟩
      · cases hs)
    (by
      intro l s _ hs
      cases hs
      exact dif_pos s.isValidUTF8)

/-- The seconds and nanoseconds of a time. -/
def secondsOf (t : SystemTime) : UInt64 × BitVec (8 * 4) :=
  (.ofNat (t / 1000000000), .ofNat _ (t % 1000000000))

/-- The time with these seconds and nanoseconds, where the seconds do not overflow. -/
def timeOf (p : UInt64 × BitVec (8 * 4)) : Option SystemTime :=
  if p.1.toNat + p.2.toNat / 1000000000 < 2 ^ 63 then
    some (p.1.toNat * 1000000000 + p.2.toNat)
  else none

private theorem timeOf_secondsOf {t : Nat} (h : t / 1000000000 < 2 ^ 63) :
    timeOf (secondsOf t) = some t := by
  have hseconds : (secondsOf t).1.toNat = t / 1000000000 := by
    show (UInt64.ofNat (t / 1000000000)).toNat = _
    rw [UInt64.toNat_ofNat', Nat.mod_eq_of_lt (by omega)]
  have hnanos : (secondsOf t).2.toNat = t % 1000000000 := by
    show (BitVec.ofNat (8 * 4) (t % 1000000000)).toNat = _
    rw [BitVec.toNat_ofNat, Nat.mod_eq_of_lt (by omega)]
  rw [timeOf, hseconds, hnanos, if_pos (by omega), Option.some.injEq]
  exact Nat.div_add_mod' t 1000000000

/-- A `SystemTime` from the epoch on: its seconds and its nanoseconds. -/
def systemTime : Format SystemTime :=
  (Format.ofCodec (u64.prod (Codec.littleEndian 4))).refine timeOf
    (fun t ↦ if t / 1000000000 < 2 ^ 63 then some (secondsOf t) else none)
    (by
      rintro ⟨seconds, nanos⟩ t - ht
      unfold timeOf at ht
      split at ht
      · next hlt =>
        obtain rfl := Option.some.inj ht
        have hseconds : (seconds.toNat * 1000000000 + nanos.toNat) / 1000000000 < 2 ^ 63 := by
          have hlt : seconds.toNat + nanos.toNat / 1000000000 < 2 ^ 63 := hlt
          omega
        exact ⟨_, if_pos hseconds, u64_valid _, Codec.littleEndian_valid 4 _⟩
      · cases ht)
    (by
      intro p t _ hp
      split at hp
      · next hlt =>
        obtain rfl := Option.some.inj hp
        exact timeOf_secondsOf hlt
      · cases hp)

/-- A `SocketAddr`: its variant, its octets and its port. -/
def socketAddr : Format SocketAddr :=
  Format.embed (.ofCodec (ipAddr.prod u16)) (fun p ↦ ⟨p.1, p.2⟩) (fun a ↦ some (a.ip, a.port)) (by
    rintro ⟨ip, port⟩ a
    cases a
    simp [eq_comm])

/-- A video with its name. -/
def videoName : Format (VideoId × String) := (Format.ofCodec u64).prod string

end Fields

section Packets

/-- The fields of a `VideoPacket`, in their order. -/
def videoPacket : Format VideoPacket :=
  ((Format.ofCodec u64).prod ((Format.ofCodec u64).prod (.ofCodec vecU8))).embed
    (fun p ↦ ⟨p.1, p.2.1, p.2.2⟩) (fun q ↦ some (q.streamId, q.sequenceNumber, q.streamData)) (by
      rintro ⟨streamId, sequenceNumber, streamData⟩ q
      cases q
      simp [eq_comm])

/-- The fields of a `FloodPacket`, in their order. -/
def floodPacket : Format FloodPacket :=
  (systemTime.prod ((Format.list u64 videoName).prod
    ((Format.list u64 (.ofCodec u64)).prod (Format.list u64 socketAddr)))).embed
    (fun p ↦ ⟨p.1, p.2.1, p.2.2.1, p.2.2.2⟩)
    (fun q ↦ some (q.createdAtServerTime, q.videosAvailable, q.visitedNodes, q.myParents)) (by
      rintro ⟨createdAtServerTime, videosAvailable, visitedNodes, myParents⟩ q
      cases q
      simp [eq_comm])

/-- The fields of a `VideoListPacket`, in their order. -/
def videoListPacket : Format VideoListPacket :=
  ((Format.ofCodec u64).prod ((Format.list u64 videoName).prod systemTime)).embed
    (fun p ↦ ⟨p.1, p.2.1, p.2.2⟩)
    (fun q ↦ some (q.sequenceNumber, q.videos, q.answerCreationDate)) (by
      rintro ⟨sequenceNumber, videos, answerCreationDate⟩ q
      cases q
      simp [eq_comm])

/-- The number of a variant. -/
abbrev Variant := BitVec (8 * 4)

/-- The number of the variant of a `NodePacket`. -/
def nodeVariant : NodePacket → Variant
  | .clientPing _ _ => 0
  | .newNeighbour => 1
  | .floodPacket _ => 2

/-- The fields of a variant. -/
def nodeFields (k : Variant) : Format NodePacket :=
  if k = 0 then
    ((Format.ofCodec u64).prod (Format.list u64 (.ofCodec u64))).embed
      (fun p ↦ .clientPing p.1 p.2)
      (fun | .clientPing n requested => some (n, requested) | _ => none) (by
        rintro ⟨n, requested⟩ (_ | _ | _)
        · simp [eq_comm]
        · simp
        · simp)
  else if k = 1 then .ofCodec (.unit .newNeighbour)
  else if k = 2 then
    floodPacket.embed .floodPacket (fun | .floodPacket q => some q | _ => none) (by
      rintro q (_ | _ | _)
      · simp
      · simp
      · simp [eq_comm])
  else .ofCodec .fail

private theorem nodeFields_valid {k : Variant} {p : NodePacket} (h : (nodeFields k).Valid p) :
    nodeVariant p = k := by
  unfold nodeFields at h
  split at h
  · next hk =>
    obtain ⟨q, rfl, -⟩ := Format.embed_valid.mp h
    exact hk.symm
  · split at h
    · next hk =>
      obtain rfl : p = .newNeighbour := h
      exact hk.symm
    · split at h
      · next hk =>
        obtain ⟨q, rfl, -⟩ := Format.embed_valid.mp h
        exact hk.symm
      · exact h.elim

/-- The variant of a `NodePacket` and its fields. -/
def nodePacket : Format NodePacket :=
  Format.keyed (.littleEndian 4) nodeVariant nodeFields fun _ _ ↦ nodeFields_valid

/-- The number of the variant of a `ServerPacket`. -/
def serverVariant : ServerPacket → Variant
  | .requestVideo _ => 0
  | .stopVideo _ => 1

/-- The fields of a variant of `ServerPacket`. -/
def serverFields (k : Variant) : Format ServerPacket :=
  if k = 0 then
    (Format.ofCodec u64).embed .requestVideo (fun | .requestVideo v => some v | _ => none) (by
      rintro v (_ | _)
      · simp [eq_comm]
      · simp)
  else if k = 1 then
    (Format.ofCodec u64).embed .stopVideo (fun | .stopVideo v => some v | _ => none) (by
      rintro v (_ | _)
      · simp
      · simp [eq_comm])
  else .ofCodec .fail

private theorem serverFields_valid {k : Variant} {p : ServerPacket} (h : (serverFields k).Valid p) :
    serverVariant p = k := by
  unfold serverFields at h
  split at h
  · next hk =>
    obtain ⟨v, rfl, -⟩ := Format.embed_valid.mp h
    exact hk.symm
  · split at h
    · next hk =>
      obtain ⟨v, rfl, -⟩ := Format.embed_valid.mp h
      exact hk.symm
    · exact h.elim

/-- The variant of a `ServerPacket` and its fields. -/
def serverPacket : Format ServerPacket :=
  Format.keyed (.littleEndian 4) serverVariant serverFields fun _ _ ↦ serverFields_valid

/-- The number of the variant of a `ClientPacket`. -/
def clientVariant : ClientPacket → Variant
  | .videoList _ => 0

/-- The fields of a variant of `ClientPacket`. -/
def clientFields (k : Variant) : Format ClientPacket :=
  if k = 0 then
    videoListPacket.embed .videoList (fun | .videoList q => some q) (by
      rintro q ⟨q'⟩
      simp [eq_comm])
  else .ofCodec .fail

private theorem clientFields_valid {k : Variant} {p : ClientPacket} (h : (clientFields k).Valid p) :
    clientVariant p = k := by
  unfold clientFields at h
  split at h
  · next hk =>
    obtain ⟨q, rfl, -⟩ := Format.embed_valid.mp h
    exact hk.symm
  · exact h.elim

/-- The variant of a `ClientPacket` and its fields. -/
def clientPacket : Format ClientPacket :=
  Format.keyed (.littleEndian 4) clientVariant clientFields fun _ _ ↦ clientFields_valid

/-- The number of the variant of a `Packet`. -/
def packetVariant : Packet → Variant
  | .videoPacket _ => 0
  | .nodePacket _ => 1
  | .serverPacket _ => 2
  | .clientPacket _ => 3

/-- The fields of a variant of `Packet`. -/
def packetFields (k : Variant) : Format Packet :=
  if k = 0 then
    videoPacket.embed .videoPacket (fun | .videoPacket q => some q | _ => none) (by
      rintro q (_ | _ | _ | _)
      · simp [eq_comm]
      · simp
      · simp
      · simp)
  else if k = 1 then
    nodePacket.embed .nodePacket (fun | .nodePacket q => some q | _ => none) (by
      rintro q (_ | _ | _ | _)
      · simp
      · simp [eq_comm]
      · simp
      · simp)
  else if k = 2 then
    serverPacket.embed .serverPacket (fun | .serverPacket q => some q | _ => none) (by
      rintro q (_ | _ | _ | _)
      · simp
      · simp
      · simp [eq_comm]
      · simp)
  else if k = 3 then
    clientPacket.embed .clientPacket (fun | .clientPacket q => some q | _ => none) (by
      rintro q (_ | _ | _ | _)
      · simp
      · simp
      · simp
      · simp [eq_comm])
  else .ofCodec .fail

private theorem packetFields_valid {k : Variant} {p : Packet} (h : (packetFields k).Valid p) :
    packetVariant p = k := by
  unfold packetFields at h
  split at h
  · next hk =>
    obtain ⟨q, rfl, -⟩ := Format.embed_valid.mp h
    exact hk.symm
  · split at h
    · next hk =>
      obtain ⟨q, rfl, -⟩ := Format.embed_valid.mp h
      exact hk.symm
    · split at h
      · next hk =>
        obtain ⟨q, rfl, -⟩ := Format.embed_valid.mp h
        exact hk.symm
      · split at h
        · next hk =>
          obtain ⟨q, rfl, -⟩ := Format.embed_valid.mp h
          exact hk.symm
        · exact h.elim

/-- The variant of a `Packet` and its fields. -/
def packet : Format Packet :=
  Format.keyed (.littleEndian 4) packetVariant packetFields fun _ _ ↦ packetFields_valid

example : packet.encode (.serverPacket (.stopVideo 258)) =
    [2, 0, 0, 0] ++ [1, 0, 0, 0] ++ [2, 1, 0, 0, 0, 0, 0, 0] := by decide

end Packets

section Sizes

/-- The bytes that videos take with their names. -/
def namesSize (videos : List (VideoId × String)) : Nat :=
  8 + (videos.map fun x ↦ 8 + (8 + x.2.utf8ByteSize)).sum

/-- The number of bytes of the fields of a `NodePacket`. -/
def nodeSize : NodePacket → Nat
  | .clientPing _ requested => 16 + 8 * requested.length
  | .newNeighbour => 0
  | .floodPacket q => 28 + namesSize q.videosAvailable + 8 * q.visitedNodes.length +
      (q.myParents.map fun a ↦ a.ip.size + 2).sum

/-- The number of bytes of the fields of a `ClientPacket`. -/
def clientSize : ClientPacket → Nat
  | .videoList q => 20 + namesSize q.videos

/-- The bytes that a packet takes after its variant. -/
def fieldsSize : Packet → Nat
  | .videoPacket q => 24 + q.streamData.length
  | .nodePacket p => 4 + nodeSize p
  | .serverPacket _ => 12
  | .clientPacket p => 4 + clientSize p

/-- The bytes that a packet takes. -/
def size (p : Packet) : Nat := 4 + fieldsSize p

/-- A number takes eight bytes. -/
theorem u64_sized : (Format.ofCodec u64).Sized fun _ ↦ 8 := fun k _ ↦ length_u64 k

private theorem vecU8_sized : (Format.ofCodec vecU8).Sized fun l ↦ 8 + l.length := by
  intro l _
  show (u64.encode _ ++ l).length = _
  rw [List.length_append, length_u64]

private theorem string_sized : string.Sized fun s ↦ 8 + s.utf8ByteSize := by
  apply vecU8_sized.refine
  intro l s hs
  cases hs
  rfl

private theorem videoName_sized : videoName.Sized fun x ↦ 8 + (8 + x.2.utf8ByteSize) :=
  u64_sized.prod string_sized

private theorem names_sized : (Format.list u64 videoName).Sized namesSize :=
  videoName_sized.list length_u64

private theorem systemTime_sized : systemTime.Sized fun _ ↦ 12 := by
  have hfields : (Format.ofCodec (u64.prod (Codec.littleEndian 4))).Sized fun _ ↦ 12 := by
    intro p _
    show (u64.encode p.1 ++ (Codec.littleEndian 4).encode p.2).length = 12
    rw [List.length_append, length_u64, Codec.length_littleEndian]
  exact hfields.refine fun _ _ _ ↦ rfl

private theorem socketAddr_sized : socketAddr.Sized fun a ↦ a.ip.size + 2 := by
  have hfields : (Format.ofCodec (ipAddr.prod u16)).Sized fun p ↦ p.1.size + 2 := by
    intro p _
    show (ipAddr.encode p.1 ++ u16.encode p.2).length = _
    rw [List.length_append, length_ipAddr]
    exact congrArg (p.1.size + ·) (Codec.length_littleEndian 2 p.2.toBitVec)
  exact hfields.embed fun _ ↦ rfl

private theorem sum_const {α : Type} (as : List α) (n : Nat) :
    (as.map fun _ ↦ n).sum = n * as.length := by
  rw [List.map_const', List.sum_replicate_nat, Nat.mul_comm]

private theorem videoPacket_sized : videoPacket.Sized fun q ↦ 24 + q.streamData.length := by
  apply (u64_sized.prod (u64_sized.prod vecU8_sized)).embed
  intro p
  simp only
  omega

private theorem floodPacket_sized : floodPacket.Sized fun q ↦ nodeSize (.floodPacket q) := by
  apply (systemTime_sized.prod (names_sized.prod ((u64_sized.list length_u64).prod
    (socketAddr_sized.list length_u64)))).embed
  intro p
  simp only [sum_const, nodeSize]
  omega

private theorem videoListPacket_sized : videoListPacket.Sized fun q ↦ 20 + namesSize q.videos := by
  apply (u64_sized.prod (names_sized.prod systemTime_sized)).embed
  intro p
  simp only
  omega

private theorem nodeFields_sized (k : Variant) : (nodeFields k).Sized nodeSize := by
  unfold nodeFields
  split
  · apply (u64_sized.prod (u64_sized.list length_u64)).embed
    intro p
    simp only [sum_const, nodeSize]
    omega
  · split
    · intro p hp
      obtain rfl : p = .newNeighbour := hp
      rfl
    · split
      · exact floodPacket_sized.embed fun _ ↦ rfl
      · exact fun p hp ↦ hp.elim

private theorem serverFields_sized (k : Variant) : (serverFields k).Sized fun _ ↦ 8 := by
  unfold serverFields
  split
  · exact u64_sized.embed fun _ ↦ rfl
  · split
    · exact u64_sized.embed fun _ ↦ rfl
    · exact fun p hp ↦ hp.elim

private theorem clientFields_sized (k : Variant) : (clientFields k).Sized clientSize := by
  unfold clientFields
  split
  · exact videoListPacket_sized.embed fun _ ↦ rfl
  · exact fun p hp ↦ hp.elim

/-- The number of a variant takes four bytes. -/
theorem length_variant (k : Variant) : ((Codec.littleEndian 4).encode k).length = 4 :=
  Codec.length_littleEndian 4 k

private theorem packetFields_sized (k : Variant) : (packetFields k).Sized fieldsSize := by
  unfold packetFields
  split
  · exact videoPacket_sized.embed fun _ ↦ rfl
  · split
    · exact (Format.Sized.keyed length_variant nodeFields_sized).embed fun _ ↦ rfl
    · split
      · exact (Format.Sized.keyed length_variant serverFields_sized).embed fun _ ↦ rfl
      · split
        · exact (Format.Sized.keyed length_variant clientFields_sized).embed fun _ ↦ rfl
        · exact fun p hp ↦ hp.elim

/-- How many bytes a packet takes. -/
theorem packet_sized : packet.Sized size := Format.Sized.keyed length_variant packetFields_sized

end Sizes

section Validity

/-- A time that a reader does not take for an overflow. -/
def TimeFits (t : SystemTime) : Prop := t / 1000000000 < 2 ^ 63

/-- The lengths of the list and of its names fit into their numbers. -/
def NamesFit (videos : List (VideoId × String)) : Prop :=
  videos.length < 2 ^ 64 ∧ ∀ x ∈ videos, x.2.utf8ByteSize < 2 ^ 64

/-- The packets whose lengths fit into a `u64` and whose times are far from overflowing. -/
def Fits : Packet → Prop
  | .videoPacket q => q.streamData.length < 2 ^ 64
  | .nodePacket (.clientPing _ requested) => requested.length < 2 ^ 64
  | .nodePacket .newNeighbour | .serverPacket _ => True
  | .nodePacket (.floodPacket q) => TimeFits q.createdAtServerTime ∧
      NamesFit q.videosAvailable ∧ q.visitedNodes.length < 2 ^ 64 ∧ q.myParents.length < 2 ^ 64
  | .clientPacket (.videoList q) => NamesFit q.videos ∧ TimeFits q.answerCreationDate

instance (p : Packet) : Decidable (Fits p) :=
  match p with
  | .videoPacket q => inferInstanceAs (Decidable (q.streamData.length < 2 ^ 64))
  | .nodePacket (.clientPing _ requested) => inferInstanceAs (Decidable (requested.length < 2 ^ 64))
  | .nodePacket .newNeighbour | .serverPacket _ => .isTrue trivial
  | .nodePacket (.floodPacket q) => inferInstanceAs (Decidable (
      q.createdAtServerTime / 1000000000 < 2 ^ 63 ∧
      (q.videosAvailable.length < 2 ^ 64 ∧ ∀ x ∈ q.videosAvailable, x.2.utf8ByteSize < 2 ^ 64) ∧
      q.visitedNodes.length < 2 ^ 64 ∧ q.myParents.length < 2 ^ 64))
  | .clientPacket (.videoList q) => inferInstanceAs (Decidable (
      (q.videos.length < 2 ^ 64 ∧ ∀ x ∈ q.videos, x.2.utf8ByteSize < 2 ^ 64) ∧
      q.answerCreationDate / 1000000000 < 2 ^ 63))

private theorem vecU8_valid {l : List UInt8} :
    (Format.ofCodec vecU8).Valid l ↔ l.length < 2 ^ 64 := by
  show u64.Valid _ ∧ l.length = _ ↔ _
  rw [UInt64.toNat_ofNat', eq_comm, Nat.mod_eq_iff_lt (by decide)]
  exact and_iff_right (u64_valid _)

private theorem string_valid {s : String} : string.Valid s ↔ s.utf8ByteSize < 2 ^ 64 := by
  constructor
  · rintro ⟨l, hl, hvalid⟩
    cases hl
    exact vecU8_valid.mp hvalid
  · exact fun h ↦ ⟨_, rfl, vecU8_valid.mpr h⟩

private theorem names_valid {videos : List (VideoId × String)} :
    (Format.list u64 videoName).Valid videos ↔ NamesFit videos := by
  rw [Format.list_valid u64_valid]
  apply and_congr_right
  intro _
  apply forall₂_congr
  intro x _
  show u64.Valid x.1 ∧ string.Valid x.2 ↔ _
  rw [string_valid]
  exact and_iff_right (u64_valid x.1)

private theorem systemTime_valid {t : SystemTime} : systemTime.Valid t ↔ TimeFits t := by
  constructor
  · rintro ⟨p, hp, -⟩
    by_contra hnot
    cases (if_neg hnot).symm.trans hp
  · exact fun h ↦ ⟨_, if_pos h, u64_valid _, Codec.littleEndian_valid 4 _⟩

private theorem list_u64_valid {l : List UInt64} :
    (Format.list u64 (.ofCodec u64)).Valid l ↔ l.length < 2 ^ 64 := by
  rw [Format.list_valid u64_valid]
  exact and_iff_left fun k _ ↦ u64_valid k

private theorem socketAddr_valid (a : SocketAddr) : socketAddr.Valid a :=
  ⟨(a.ip, a.port), rfl, ipAddr_valid a.ip, a.port.toBitVec, rfl, Codec.littleEndian_valid 2 _⟩

private theorem list_socketAddr_valid {l : List SocketAddr} :
    (Format.list u64 socketAddr).Valid l ↔ l.length < 2 ^ 64 := by
  rw [Format.list_valid u64_valid]
  exact and_iff_left fun a _ ↦ socketAddr_valid a

private theorem floodPacket_valid {q : FloodPacket} :
    floodPacket.Valid q ↔ Fits (.nodePacket (.floodPacket q)) := by
  obtain ⟨created, videos, visited, parents⟩ := q
  unfold floodPacket
  rw [Format.embed_valid_iff (a := (created, videos, visited, parents))]
  show systemTime.Valid _ ∧ (Format.list u64 videoName).Valid _ ∧
    (Format.list u64 (.ofCodec u64)).Valid _ ∧ (Format.list u64 socketAddr).Valid _ ↔ _
  rw [systemTime_valid, names_valid, list_u64_valid, list_socketAddr_valid]
  rfl

private theorem nodePacket_valid {p : NodePacket} : nodePacket.Valid p ↔ Fits (.nodePacket p) := by
  show (Codec.littleEndian 4).Valid _ ∧ (nodeFields (nodeVariant p)).Valid p ↔ _
  rw [and_iff_right (Codec.littleEndian_valid 4 _)]
  cases p with
  | clientPing n requested =>
    show (nodeFields 0).Valid _ ↔ _
    unfold nodeFields
    rw [if_pos rfl, Format.embed_valid_iff (a := (n, requested))]
    exact (and_iff_right (u64_valid n)).trans list_u64_valid
  | newNeighbour => exact iff_of_true rfl trivial
  | floodPacket q =>
    show (nodeFields 2).Valid _ ↔ _
    unfold nodeFields
    rw [if_neg (by decide), if_neg (by decide), if_pos rfl, Format.embed_valid_iff]
    exact floodPacket_valid

private theorem serverPacket_valid (p : ServerPacket) : serverPacket.Valid p := by
  refine ⟨Codec.littleEndian_valid 4 _, ?_⟩
  cases p with
  | requestVideo v =>
    show (serverFields 0).Valid _
    unfold serverFields
    rw [if_pos rfl, Format.embed_valid_iff]
    exact u64_valid v
  | stopVideo v =>
    show (serverFields 1).Valid _
    unfold serverFields
    rw [if_neg (by decide), if_pos rfl, Format.embed_valid_iff]
    exact u64_valid v

private theorem clientPacket_valid {p : ClientPacket} :
    clientPacket.Valid p ↔ Fits (.clientPacket p) := by
  obtain ⟨n, videos, created⟩ := p
  show (Codec.littleEndian 4).Valid _ ∧ (clientFields 0).Valid _ ↔ _
  rw [and_iff_right (Codec.littleEndian_valid 4 _)]
  unfold clientFields videoListPacket
  rw [if_pos rfl, Format.embed_valid_iff, Format.embed_valid_iff (a := (n, videos, created))]
  show u64.Valid _ ∧ (Format.list u64 videoName).Valid _ ∧ systemTime.Valid _ ↔ _
  rw [names_valid, systemTime_valid]
  exact and_iff_right (u64_valid _)

private theorem videoPacket_valid {q : VideoPacket} :
    videoPacket.Valid q ↔ q.streamData.length < 2 ^ 64 := by
  obtain ⟨streamId, sequenceNumber, streamData⟩ := q
  unfold videoPacket
  rw [Format.embed_valid_iff (a := (streamId, sequenceNumber, streamData))]
  exact (and_iff_right (u64_valid _)).trans ((and_iff_right (u64_valid _)).trans vecU8_valid)

/-- The packets that have an encoding are those whose lengths and times fit. -/
theorem packet_valid {p : Packet} : packet.Valid p ↔ Fits p := by
  show (Codec.littleEndian 4).Valid _ ∧ (packetFields (packetVariant p)).Valid p ↔ _
  rw [and_iff_right (Codec.littleEndian_valid 4 _)]
  cases p with
  | videoPacket q =>
    show (packetFields 0).Valid _ ↔ _
    unfold packetFields
    rw [if_pos rfl, Format.embed_valid_iff]
    exact videoPacket_valid
  | nodePacket p =>
    show (packetFields 1).Valid _ ↔ _
    unfold packetFields
    rw [if_neg (by decide), if_pos rfl, Format.embed_valid_iff]
    exact nodePacket_valid
  | serverPacket p =>
    show (packetFields 2).Valid _ ↔ _
    unfold packetFields
    rw [if_neg (by decide), if_neg (by decide), if_pos rfl, Format.embed_valid_iff]
    exact iff_of_true (serverPacket_valid p) trivial
  | clientPacket p =>
    show (packetFields 3).Valid _ ↔ _
    unfold packetFields
    rw [if_neg (by decide), if_neg (by decide), if_neg (by decide), if_pos rfl,
      Format.embed_valid_iff]
    exact clientPacket_valid

end Validity
end PessiStreamer.Common.Wire
