import PessiStreamer.Base.Codec
import PessiStreamer.Common.Packet

/-!
# Fetching the neighbours from the bootstrapper

`common/src/neighbours.rs` and the answer of `common/src/packet.rs:90`, in the fixed-width
format in which `bincode` writes it. Each of the calls to the socket may fail, and the bytes
the bootstrapper wrote arrive in segments.
-/

namespace PessiStreamer.Common
open Base

/-- `BootstrapperNeighboursResponse`; `common/src/packet.rs:90`. -/
structure BootstrapperNeighboursResponse where
  neighbours : List IpAddr
  id : UInt64
  deriving DecidableEq, Repr

section Format

/-- A `u64`: eight bytes, the lowest first. -/
def u64 : Codec UInt64 :=
  (Codec.littleEndian 8).embed UInt64.ofBitVec (fun k ↦ some k.toBitVec) (by
    intro w k _
    rw [Option.some.injEq]
    constructor
    · rintro rfl
      rfl
    · rintro rfl
      rfl)

/-- The number of the variant of an address. -/
def IpAddr.variant : IpAddr → BitVec 32
  | .v4 _ => 0
  | .v6 _ => 1

/-- The octets of an address, as its variant has them. -/
def octets (variant : BitVec 32) : Codec IpAddr :=
  if variant = 0 then
    (Codec.bigEndian 4).embed .v4 (fun | .v4 bits => some bits | .v6 _ => none) (by
      rintro bits (bits' | bits') -
      · simp [eq_comm]
      · simp)
  else if variant = 1 then
    (Codec.bigEndian 16).embed .v6 (fun | .v4 _ => none | .v6 bits => some bits) (by
      rintro bits (bits' | bits') -
      · simp
      · simp [eq_comm])
  else .fail

/-- Octets of a variant are those of an address of that variant. -/
theorem octets_valid {k : BitVec 32} {ip : IpAddr} : (octets k).Valid ip ↔ ip.variant = k := by
  unfold octets
  split
  · next hk =>
    subst hk
    cases ip with
    | v4 bits => exact iff_of_true ⟨bits, rfl, Codec.bigEndian_valid 4 bits⟩ rfl
    | v6 bits => simp [Codec.embed, IpAddr.variant]
  · split
    · next hk =>
      subst hk
      cases ip with
      | v4 bits => simp [Codec.embed, IpAddr.variant]
      | v6 bits => exact iff_of_true ⟨bits, rfl, Codec.bigEndian_valid 16 bits⟩ rfl
    · next h0 h1 =>
      cases ip with
      | v4 bits => exact iff_of_false id (Ne.symm h0)
      | v6 bits => exact iff_of_false id (Ne.symm h1)

/-- An address: the number of its variant in four bytes, and its octets. -/
def ipAddr : Codec IpAddr :=
  (Codec.littleEndian 4).keyed IpAddr.variant octets fun _ _ ↦ octets_valid.mp

/-- The answer of the bootstrapper: the number of neighbours, the neighbours and the id. -/
def response : Codec BootstrapperNeighboursResponse :=
  ((Codec.list u64 ipAddr).prod u64).embed (fun p ↦ ⟨p.1, p.2⟩)
    (fun r ↦ some (r.neighbours, r.id)) (by
      rintro ⟨neighbours, id⟩ r -
      cases r
      simp [eq_comm])

/-- The bytes that an address takes. -/
def IpAddr.size : IpAddr → Nat
  | .v4 _ => 8
  | .v6 _ => 20

/-- The bytes that an answer takes. -/
def BootstrapperNeighboursResponse.size (r : BootstrapperNeighboursResponse) : Nat :=
  16 + (r.neighbours.map IpAddr.size).sum

/-- Every number has an encoding. -/
theorem u64_valid (k : UInt64) : u64.Valid k :=
  ⟨k.toBitVec, rfl, Codec.littleEndian_valid 8 k.toBitVec⟩

/-- A number is written as eight bytes. -/
theorem length_u64 (k : UInt64) : (u64.encode k).length = 8 :=
  Codec.length_littleEndian 8 k.toBitVec

/-- Every address has an encoding. -/
theorem ipAddr_valid (ip : IpAddr) : ipAddr.Valid ip :=
  ⟨Codec.littleEndian_valid 4 ip.variant, octets_valid.mpr rfl⟩

/-- The number of bytes of an address. -/
theorem length_ipAddr (ip : IpAddr) : (ipAddr.encode ip).length = ip.size := by
  have hvariant := Codec.length_littleEndian 4 ip.variant
  have hsplit : ipAddr.encode ip =
      (Codec.littleEndian 4).encode ip.variant ++ (octets ip.variant).encode ip := rfl
  rw [hsplit, List.length_append, hvariant]
  cases ip with
  | v4 bits => exact congrArg (4 + ·) (Codec.length_bigEndian 4 bits)
  | v6 bits => exact congrArg (4 + ·) (Codec.length_bigEndian 16 bits)

variable {r : BootstrapperNeighboursResponse}

/-- An answer can be written if the number of neighbours fits into a `u64`. -/
theorem response_valid : response.Valid r ↔ r.neighbours.length < 2 ^ 64 := by
  have hlist : (Codec.list u64 ipAddr).Valid r.neighbours ↔ r.neighbours.length < 2 ^ 64 := by
    rw [Codec.list_valid u64_valid]
    exact and_iff_left fun ip _ ↦ ipAddr_valid ip
  rw [← hlist]
  constructor
  · rintro ⟨_, ⟨rfl⟩, hr⟩
    exact hr.1
  · exact fun hr ↦ ⟨_, rfl, hr, u64_valid r.id⟩

/-- The number of bytes of a response. -/
theorem length_response (h : r.neighbours.length < 2 ^ 64) :
    (response.encode r).length = r.size := by
  have hsplit : response.encode r =
      (Codec.list u64 ipAddr).encode r.neighbours ++ u64.encode r.id := rfl
  have hneighbours : (r.neighbours.flatMap ipAddr.encode).length =
      (r.neighbours.map IpAddr.size).sum := by
    rw [List.length_flatMap, funext length_ipAddr]
  rw [hsplit, List.length_append, Codec.list_encode h, List.length_append, length_u64, length_u64,
    hneighbours, BootstrapperNeighboursResponse.size]
  omega

example : response.encode ⟨[.v4 0x0a000001], 258⟩ =
    [1, 0, 0, 0, 0, 0, 0, 0] ++ [0, 0, 0, 0, 10, 0, 0, 1] ++ [2, 1, 0, 0, 0, 0, 0, 0] := by decide

end Format

section Fetching

/-- The functions of `bincode` that the exchange uses. -/
structure Bincode where
  serialize : BootstrapperNeighboursResponse → Option (List UInt8)
  deserialize : List UInt8 → Option BootstrapperNeighboursResponse

/-- `bincode` writes answers in its format and reads one from the front of the bytes; what comes
after it is ignored. -/
structure Bincode.FixedWidth (bincode : Bincode) : Prop where
  serialize : ∀ r, response.Valid r → bincode.serialize r = some (response.encode r)
  deserialize : ∀ l r, bincode.deserialize l = some r ↔ ∃ rest, response.decode l = some (r, rest)

/-- The format, run by its own definitions. -/
def fixedWidth : Bincode where
  serialize r := some (response.encode r)
  deserialize l := (response.decode l).map Prod.fst

/-- The format has the widths that the exchange relies on. -/
theorem fixedWidth_fixedWidth : fixedWidth.FixedWidth where
  serialize := fun _ _ ↦ rfl
  deserialize := by
    intro l r
    simp [fixedWidth]

/-- The contexts in which fetching the neighbours can fail. -/
inductive FetchError where
  /-- "Failed to create a new IPv4 socket" -/
  | newSocket
  | setReuseaddr
  /-- "Failed to bind the socket to the provided node IP address" -/
  | bind
  /-- "Connection attempt timed out" -/
  | connectTimeout
  /-- "Failed to connect to the bootstrapper address" -/
  | connect
  /-- "Reading response timed out" -/
  | readTimeout
  /-- "Failed to read from the stream" -/
  | read
  /-- "No data received from bootstrapper" -/
  | noData
  /-- "Failed to deserialize response packet" -/
  | deserialize
  /-- "Failed to shutdown the stream" -/
  | shutdown
  deriving DecidableEq, Repr

/-- How a call with a time limit ended. -/
inductive Timed where
  | elapsed
  | failed
  | done
  deriving DecidableEq, Repr

/-- How the calls to the socket end. -/
structure Connection where
  created : Bool
  reuseaddrSet : Bool
  bound : Bool
  connected : Timed
  readable : Timed
  shutdown : Bool
  deriving DecidableEq, Repr

/-- A connection on which every call succeeds. -/
def Connection.calm : Connection := ⟨true, true, true, .done, .done, true⟩

/-- `.context(..)?` on the result of a call. -/
def context (ok : Bool) (error : FetchError) : Except FetchError Unit :=
  if ok then .ok () else .error error

/-- The same on the result of a call with a time limit. -/
def Timed.context (call : Timed) (elapsed failed : FetchError) : Except FetchError Unit :=
  match call with
  | .elapsed => .error elapsed
  | .failed => .error failed
  | .done => .ok ()

/-- What the first read into a buffer of 1024 bytes gives: the beginning of what has arrived,
or nothing at the end of the stream. -/
def firstRead (segments : List (List UInt8)) : List UInt8 := (segments.head?.getD []).take 1024

/-- `fetch_neighbours`; `common/src/neighbours.rs:12`. -/
def fetchNeighbours (bincode : Bincode) (connection : Connection)
    (segments : List (List UInt8)) : Except FetchError BootstrapperNeighboursResponse := do
  context connection.created .newSocket
  context connection.reuseaddrSet .setReuseaddr
  context connection.bound .bind
  connection.connected.context .connectTimeout .connect
  connection.readable.context .readTimeout .read
  let buf := firstRead segments
  if buf.length = 0 then throw .noData
  else
    match bincode.deserialize buf with
    | none => throw .deserialize
    | some response => do
      context connection.shutdown .shutdown
      return response

/-- `fetch_bootstrapper_with_retries` as far as the given attempts go: the first answer there is;
`common/src/neighbours.rs:51`. -/
def fetchBootstrapperWithRetries (bincode : Bincode) :
    List (Connection × List (List UInt8)) → Option BootstrapperNeighboursResponse
  | [] => none
  | (connection, segments) :: attempts =>
    match fetchNeighbours bincode connection segments with
    | .ok response => some response
    | .error _ => fetchBootstrapperWithRetries bincode attempts

section

variable {α : Type} {f : Unit → Except FetchError α} {a : α}

/-- What follows a call is reached if the call succeeds. -/
theorem bind_context_eq_ok_iff {ok : Bool} {error : FetchError} :
    (context ok error >>= f) = .ok a ↔ ok = true ∧ f () = .ok a := by
  cases ok with
  | false => simp [context, bind, Except.bind]
  | true => exact (and_iff_right rfl).symm

private theorem bind_timed_eq_ok_iff {call : Timed} {elapsed failed : FetchError} :
    (call.context elapsed failed >>= f) = .ok a ↔ call = .done ∧ f () = .ok a := by
  cases call with
  | elapsed => simp [Timed.context, bind, Except.bind]
  | failed => simp [Timed.context, bind, Except.bind]
  | done => exact (and_iff_right rfl).symm

end

/-- An answer is returned just where all calls succeed and it comes first in the bytes read. -/
theorem fetchNeighbours_eq_ok_iff {bincode : Bincode} {connection : Connection}
    {segments : List (List UInt8)} {r : BootstrapperNeighboursResponse} :
    fetchNeighbours bincode connection segments = .ok r ↔
      connection = .calm ∧ firstRead segments ≠ [] ∧
        bincode.deserialize (firstRead segments) = some r := by
  obtain ⟨created, reuseaddrSet, bound, connected, readable, shutdown⟩ := connection
  simp only [fetchNeighbours, bind_context_eq_ok_iff, bind_timed_eq_ok_iff, Connection.calm,
    Connection.mk.injEq, List.length_eq_zero_iff]
  by_cases hread : firstRead segments = []
  · simp [hread, throw, throwThe, MonadExceptOf.throw]
  · cases hr : bincode.deserialize (firstRead segments) with
    | none => simp [hread, throw, throwThe, MonadExceptOf.throw]
    | some r' =>
      have hlast : ((do context shutdown FetchError.shutdown; return r') :
          Except FetchError BootstrapperNeighboursResponse) = .ok r ↔ shutdown = true ∧ r' = r :=
        bind_context_eq_ok_iff.trans (and_congr_right fun _ ↦ Iff.of_eq (Except.ok.injEq r' r))
      simp only [hread, if_false, hlast, Option.some.injEq, not_false_iff, true_and, ne_eq,
        and_assoc]

end Fetching

section Segments

/-- A way in which written bytes arrive: in segments, none of which is empty. -/
structure Segments (written : List UInt8) where
  toList : List (List UInt8)
  nonempty : [] ∉ toList
  flatten_eq : toList.flatten = written

variable {written : List UInt8}

/-- All bytes arrive at once. -/
def Segments.whole (h : 0 < written.length) : Segments written where
  toList := [written]
  nonempty := fun hmem ↦ List.ne_nil_of_length_pos h (List.mem_singleton.mp hmem).symm
  flatten_eq := List.append_nil written

/-- The first `n` bytes arrive before the others. -/
def Segments.cut {n : Nat} (hn : 0 < n) (h : n < written.length) : Segments written where
  toList := [written.take n, written.drop n]
  nonempty := by
    simp only [List.mem_cons, List.not_mem_nil, or_false, not_or, ← List.length_eq_zero_iff,
      eq_comm (a := []), List.length_take, List.length_drop]
    omega
  flatten_eq := by simp

variable (s : Segments written)

/-- What is read first is the beginning of what was written. -/
theorem firstRead_prefix : firstRead s.toList <+: written := by
  obtain ⟨segments, -, rfl⟩ := s
  cases segments with
  | nil => exact List.prefix_rfl
  | cons segment rest => exact (List.take_prefix 1024 segment).trans (List.prefix_append _ _)

/-- What is read first is all that was written just where it arrived in one segment and fits into
the buffer. -/
theorem firstRead_eq_iff (hwritten : written ≠ []) :
    firstRead s.toList = written ↔ s.toList.length = 1 ∧ written.length ≤ 1024 := by
  obtain ⟨segments, hnonempty, rfl⟩ := s
  cases segments with
  | nil => exact absurd rfl hwritten
  | cons segment rest =>
    simp only [firstRead, List.head?_cons, Option.getD_some, List.flatten_cons]
    constructor
    · intro h
      have hlength := congrArg List.length h
      rw [List.length_take, List.length_append] at hlength
      have hflatten : rest.flatten = [] := List.length_eq_zero_iff.mp (by omega)
      have hrest : rest = [] := by
        apply List.eq_nil_iff_forall_not_mem.mpr
        intro l hl
        rw [List.flatten_eq_nil_iff.mp hflatten l hl] at hl
        exact hnonempty (List.mem_cons_of_mem segment hl)
      rw [hrest, List.length_append]
      exact ⟨rfl, by rw [List.flatten_nil, List.length_nil]; omega⟩
    · rintro ⟨hone, hfit⟩
      obtain rfl : rest = [] := List.length_eq_zero_iff.mp (Nat.succ.inj hone)
      rw [List.flatten_nil, List.append_nil] at hfit ⊢
      exact List.take_of_length_le hfit

end Segments
end PessiStreamer.Common
