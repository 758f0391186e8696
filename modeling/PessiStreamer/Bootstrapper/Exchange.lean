import Mathlib.Algebra.Order.BigOperators.Group.List
import PessiStreamer.Base.Map
import PessiStreamer.Common.Neighbours

/-!
# The exchange with the bootstrapper

`bootstrapper/src/bootstrapper.rs`: the bootstrapper writes its whole answer at once, and the
node that connected reads once into a buffer of 1024 bytes. An answer is taken over if it arrives
in one segment and fits into the buffer; a longer one is never taken over, however often the node
tries.
-/

namespace PessiStreamer.Bootstrapper
open Base Common

/-- The configured neighbours of each node; `bootstrapper/src/bootstrapper.rs:13`. -/
structure Neighbours where
  neighbours : Map IpAddr (List IpAddr)

/-- `Neighbours::get`; `bootstrapper/src/bootstrapper.rs:19`. -/
def Neighbours.get (n : Neighbours) (node : IpAddr) : Option (List IpAddr) :=
  n.neighbours.lookup node

/-- `State`; `bootstrapper/src/bootstrapper.rs:29`. -/
structure State where
  neighbours : Neighbours

/-- The answer to a node; one that is not configured has no neighbours.
`bootstrapper/src/bootstrapper.rs:69`. -/
def State.answer (s : State) (calculateId : SocketAddr → UInt64) (addr : SocketAddr) :
    BootstrapperNeighboursResponse where
  neighbours := (s.neighbours.get addr.ip).getD []
  id := calculateId addr

/-- `handle_client`: the bytes it writes. An answer that cannot be encoded is logged.
`bootstrapper/src/bootstrapper.rs:64`; `calculateId` is the standard library's hash. -/
def handleClient (bincode : Bincode) (calculateId : SocketAddr → UInt64) (addr : SocketAddr)
    (s : State) : List UInt8 :=
  match bincode.serialize (s.answer calculateId addr) with
  | some bytes => bytes
  | none => []

section

variable {bincode : Bincode} {calculateId : SocketAddr → UInt64} {addr : SocketAddr} {s : State}
  {connection : Connection} {r : BootstrapperNeighboursResponse}

/-- An answer that fits into the buffer has less than `2 ^ 64` neighbours. -/
theorem length_lt_of_size_le (h : r.size ≤ 1024) : r.neighbours.length < 2 ^ 64 := by
  have hsum : (r.neighbours.map IpAddr.size).length ≤ (r.neighbours.map IpAddr.size).sum := by
    apply List.length_le_sum_of_one_le
    intro n hn
    obtain ⟨ip, -, rfl⟩ := List.mem_map.mp hn
    cases ip with
    | v4 bits => exact Nat.le_add_left 1 7
    | v6 bits => exact Nat.le_add_left 1 19
  rw [List.length_map] at hsum
  unfold BootstrapperNeighboursResponse.size at h
  omega

private theorem handleClient_eq (hbincode : bincode.FixedWidth)
    (hlength : (s.answer calculateId addr).neighbours.length < 2 ^ 64) :
    handleClient bincode calculateId addr s = response.encode (s.answer calculateId addr) := by
  rw [handleClient, hbincode.serialize _ (response_valid.mpr hlength)]

private theorem length_handleClient (hbincode : bincode.FixedWidth)
    (hlength : (s.answer calculateId addr).neighbours.length < 2 ^ 64) :
    (handleClient bincode calculateId addr s).length = (s.answer calculateId addr).size := by
  rw [handleClient_eq hbincode hlength, length_response hlength]

/-- Whatever becomes of the connection and however the bytes arrive, a node takes over the answer
it was sent or none; it takes it over just where it arrives in one segment and fits. -/
theorem fetched_iff (hbincode : bincode.FixedWidth)
    (hlength : (s.answer calculateId addr).neighbours.length < 2 ^ 64)
    (segments : Segments (handleClient bincode calculateId addr s)) :
    fetchNeighbours bincode connection segments.toList = .ok r ↔
      r = s.answer calculateId addr ∧ connection = .calm ∧ segments.toList.length = 1 ∧
        (s.answer calculateId addr).size ≤ 1024 := by
  have hvalid := response_valid.mpr hlength
  have hne : handleClient bincode calculateId addr s ≠ [] := by
    apply List.ne_nil_of_length_pos
    rw [length_handleClient hbincode hlength, BootstrapperNeighboursResponse.size]
    omega
  have hfirst := firstRead_prefix segments
  have hread := firstRead_eq_iff segments hne
  generalize segments.toList = received at hfirst hread ⊢
  rw [length_handleClient hbincode hlength] at hread
  rw [handleClient_eq hbincode hlength] at hfirst hread hne
  rw [fetchNeighbours_eq_ok_iff, ← hread, hbincode.deserialize, Codec.exists_decode_iff]
  constructor
  · rintro ⟨hcalm, -, hr, hbegin⟩
    obtain rfl : r = s.answer calculateId addr :=
      Codec.eq_of_prefix hr hvalid (hbegin.trans hfirst) List.prefix_rfl
    exact ⟨rfl, hcalm, hfirst.eq_of_length_le hbegin.length_le⟩
  · rintro ⟨rfl, hcalm, hall⟩
    rw [hall]
    exact ⟨hcalm, hne, hvalid, List.prefix_rfl⟩

/-- A node takes over exactly the neighbours and the id that it was sent, just where they arrive
in one segment and fit into the buffer. -/
theorem exchange_iff (hbincode : bincode.FixedWidth)
    (segments : Segments (handleClient bincode calculateId addr s)) :
    fetchNeighbours bincode .calm segments.toList = .ok (s.answer calculateId addr) ↔
      segments.toList.length = 1 ∧ (s.answer calculateId addr).size ≤ 1024 := by
  constructor
  · intro h
    obtain ⟨-, -, hr⟩ := fetchNeighbours_eq_ok_iff.mp h
    have hvalid := (Codec.exists_decode_iff.mp ((hbincode.deserialize _ _).mp hr)).1
    exact ((fetched_iff hbincode (response_valid.mp hvalid) segments).mp h).2.2
  · intro h
    exact (fetched_iff hbincode (length_lt_of_size_le h.2) segments).mpr ⟨rfl, rfl, h⟩

/-- The retries end with the answer that was sent, once one attempt on which all calls succeed
reads it in one segment, and never if it does not fit. -/
theorem fetchBootstrapperWithRetries_eq_some_iff (hbincode : bincode.FixedWidth)
    (hlength : (s.answer calculateId addr).neighbours.length < 2 ^ 64)
    (attempts : List (Connection × Segments (handleClient bincode calculateId addr s))) :
    fetchBootstrapperWithRetries bincode (attempts.map fun a ↦ (a.1, a.2.toList)) = some r ↔
      r = s.answer calculateId addr ∧ (s.answer calculateId addr).size ≤ 1024 ∧
        ∃ a ∈ attempts, a.1 = .calm ∧ a.2.toList.length = 1 := by
  induction attempts with
  | nil => simp [fetchBootstrapperWithRetries]
  | cons a attempts ih =>
    have ha (r' : BootstrapperNeighboursResponse) :
        fetchNeighbours bincode a.1 a.2.toList = .ok r' ↔ _ :=
      fetched_iff hbincode hlength a.2
    rw [List.map_cons, fetchBootstrapperWithRetries]
    cases hfetch : fetchNeighbours bincode a.1 a.2.toList with
    | ok r' =>
      obtain ⟨rfl, hcalm, hone, hfit⟩ := (ha r').mp hfetch
      constructor
      · intro h
        exact ⟨(Option.some.inj h).symm, hfit, a, List.mem_cons_self, hcalm, hone⟩
      · rintro ⟨rfl, -⟩
        rfl
    | error e =>
      refine ih.trans (and_congr_right fun _ ↦ and_congr_right fun hfit ↦ ?_)
      have hno : ¬ (a.1 = .calm ∧ a.2.toList.length = 1) := by
        rintro ⟨hcalm, hone⟩
        rw [(ha _).mpr ⟨rfl, hcalm, hone, hfit⟩] at hfetch
        cases hfetch
      rw [List.exists_mem_cons_iff]
      exact (or_iff_right hno).symm

end

section Exchanges

/-- One node is configured, with the given neighbours. -/
def neighboursOf (l : List IpAddr) : State := ⟨⟨(∅ : Map IpAddr _).insert (.v4 1) l⟩⟩

/-- What is written to this node, which gets the id 7. -/
def writtenTo (l : List IpAddr) : List UInt8 :=
  handleClient fixedWidth (fun _ ↦ 7) (IpAddr.v4 1).atPort (neighboursOf l)

private theorem answer_neighboursOf (l : List IpAddr) :
    (neighboursOf l).answer (fun _ ↦ 7) (IpAddr.v4 1).atPort = ⟨l, 7⟩ := by
  simp only [State.answer, Neighbours.get, neighboursOf, IpAddr.atPort, AList.lookup_insert,
    Option.getD_some]

private theorem length_writtenTo {l : List IpAddr} (h : l.length < 2 ^ 64) :
    (writtenTo l).length = 16 + (l.map IpAddr.size).sum := by
  have hanswer := answer_neighboursOf l
  rw [writtenTo, length_handleClient fixedWidth_fixedWidth (by rwa [hanswer]), hanswer]
  rfl

/-- A short answer that arrives in one segment is taken over. -/
theorem exchange_two :
    fetchNeighbours fixedWidth .calm [writtenTo [.v4 2, .v6 3]] = .ok ⟨[.v4 2, .v6 3], 7⟩ := by
  have hpos : 0 < (writtenTo [.v4 2, .v6 3]).length := by
    rw [length_writtenTo (by decide)]
    decide
  have h := (exchange_iff fixedWidth_fixedWidth (.whole hpos)).mpr
  rw [answer_neighboursOf] at h
  exact h ⟨rfl, by decide⟩

/-- Neither 127 neighbours in one segment nor an empty list in two are taken over. -/
theorem exchange_lost :
    fetchNeighbours fixedWidth .calm [writtenTo (List.replicate 127 (.v4 2))] ≠
        .ok ⟨List.replicate 127 (.v4 2), 7⟩ ∧
      fetchNeighbours fixedWidth .calm [(writtenTo []).take 8, (writtenTo []).drop 8] ≠
        .ok ⟨[], 7⟩ := by
  have hlost {l : List IpAddr} (hl : l.length < 2 ^ 64) (segments : Segments (writtenTo l))
      (h : fetchNeighbours fixedWidth .calm segments.toList = .ok ⟨l, 7⟩) :
      segments.toList.length = 1 ∧ 16 + (l.map IpAddr.size).sum ≤ 1024 := by
    have hfetched := (fetched_iff fixedWidth_fixedWidth (by rwa [answer_neighboursOf])
      segments).mp h
    rw [answer_neighboursOf] at hfetched
    exact hfetched.2.2
  constructor
  · have hlength : (List.replicate 127 (IpAddr.v4 2)).length < 2 ^ 64 := by
      rw [List.length_replicate]
      decide
    have hpos : 0 < (writtenTo (List.replicate 127 (.v4 2))).length := by
      rw [length_writtenTo hlength]
      omega
    intro h
    have hfit := (hlost hlength (.whole hpos) h).2
    have hsum (n : Nat) : ((List.replicate n (IpAddr.v4 2)).map IpAddr.size).sum = n * 8 := by
      rw [List.map_replicate, List.sum_replicate_nat, IpAddr.size]
    rw [hsum] at hfit
    omega
  · have hcut : 8 < (writtenTo []).length := by
      rw [length_writtenTo (by decide)]
      decide
    intro h
    have hone := (hlost (by decide) (.cut (by decide) hcut) h).1
    cases hone

end Exchanges
end PessiStreamer.Bootstrapper
