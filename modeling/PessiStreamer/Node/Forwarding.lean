import Mathlib.Data.List.Chain
import PessiStreamer.Node.Reception

/-!
# Which video packets a node forwards

`State::handle_video_packet` compares the number of a packet with the number it expects, one more
than that of the packet before, and drops the packet if the expected number is the smaller one.
-/

namespace PessiStreamer.Node
open Base Common

namespace Event

/-- The packet is forwarded: some send is tried, and each subscriber is sent it if all succeed. -/
def Forwards (e : Event) (packet : VideoPacket) : Prop :=
  0 < e.after.attempts ∧ (e.env.AllOk →
    e.after.sent = (e.view.subscribers packet.streamId).map (·, .videoPacket packet))

/-- The packet is dropped: nothing is sent. -/
def Drops (e : Event) : Prop := e.after.attempts = 0 ∧ e.after.sent = []

variable {e : Event} {packet : VideoPacket}

private theorem attempts_eq_zero_iff (h : e.input.videoPacket? = some packet) :
    e.after.attempts = 0 ↔ e.view.recipients packet = [] :=
  (after_of_videoPacket h).tries

/-- A packet is dropped just if its number is above the expected one. -/
theorem drops_iff (h : e.input.videoPacket? = some packet)
    (hsub : e.view.subscribers packet.streamId ≠ []) :
    e.Drops ↔ e.view.expected packet < packet.sequenceNumber := by
  have hempty : e.view.recipients packet = [] ↔
      e.view.expected packet < packet.sequenceNumber := by
    unfold State.recipients
    by_cases hlt : e.view.expected packet < packet.sequenceNumber
    · simp [hlt]
    · simp [hlt, hsub]
  rw [Drops, attempts_eq_zero_iff h, hempty, and_iff_left_iff_imp]
  intro hlt
  have hsent := (after_of_videoPacket h).sent
  rw [hempty.mpr hlt] at hsent
  exact hsent

/-- A packet is forwarded just if its number is not above the expected one. -/
theorem forwards_iff (h : e.input.videoPacket? = some packet)
    (hsub : e.view.subscribers packet.streamId ≠ []) :
    e.Forwards packet ↔ ¬ e.view.expected packet < packet.sequenceNumber := by
  constructor
  · intro hf hlt
    exact Nat.ne_of_gt hf.1 ((drops_iff h hsub).mpr hlt).1
  · intro hlt
    have hall : e.view.recipients packet = e.view.subscribers packet.streamId := if_neg hlt
    constructor
    · apply Nat.pos_of_ne_zero
      rw [Ne, attempts_eq_zero_iff h, hall]
      exact hsub
    · intro hok
      have hsent := (after_of_videoPacket h).sent
      have htaken : takenUntilFailure e.env.accepts 0 (e.view.subscribers packet.streamId) =
          e.view.subscribers packet.streamId := by
        rw [takenUntilFailure_eq_taken_iff.mpr fun i _ _ _ _ ↦ hok.accepts (0 + i)]
        exact taken_of_all fun i _ ↦ hok.accepts (0 + i)
      rw [hall] at hsent
      exact hsent.trans (congrArg (List.map _) htaken)

end Event

/-- The numbers of the packets of the stream that a run forwards, oldest first. -/
def forwarded (v : VideoId) (tr : List (State × Event)) : List UInt64 :=
  tr.filterMap fun p ↦ if 0 < p.2.after.attempts then p.2.received v else none

/-- A run forwards the packets of the stream that are newer than all before, and drops the
others. -/
structure ForwardsNewer (v : VideoId) (tr : List (State × Event)) : Prop where
  newer : ∀ l p r packet, tr = l ++ p :: r → p.2.input.videoPacket? = some packet →
    packet.streamId = v → (∀ m ∈ numbers v l, m < packet.sequenceNumber) → p.2.Forwards packet
  older : ∀ l p r packet, tr = l ++ p :: r → p.2.input.videoPacket? = some packet →
    packet.streamId = v → (∃ m ∈ numbers v l, packet.sequenceNumber ≤ m) → p.2.Drops
  increasing : (forwarded v tr).Pairwise (· < ·)

section Numbers

variable {ns l r : List UInt64} {m n : UInt64}

private theorem toNat_succ (h : n < n + 1) : (n + 1).toNat = n.toNat + 1 := by
  rw [UInt64.lt_iff_toNat_lt, UInt64.toNat_add] at h
  have hlt := n.toNat_lt
  rw [UInt64.toNat_add]
  simp only [UInt64.toNat_ofNat] at *
  omega

/-- Consecutive numbers increase. -/
theorem pairwise_lt_of_consecutive (h : ns.IsChain fun m n ↦ n = m + 1)
    (hns : ∀ n ∈ ns, n < n + 1) : ns.Pairwise (· < ·) := by
  have hlt : ns.IsChain (· < ·) := h.imp_of_mem_imp fun m n hm _ hmn ↦ by
    rw [hmn]
    exact hns m hm
  exact hlt.pairwise

/-- The next number, by the order. -/
theorem eq_succ_iff (h : m < m + 1) : n = m + 1 ↔ m < n ∧ ¬ m + 1 < n := by
  have hsucc := toNat_succ h
  rw [← UInt64.toNat_inj, UInt64.lt_iff_toNat_lt, UInt64.lt_iff_toNat_lt]
  omega

/-- The last of increasing numbers is the largest. -/
theorem le_last (h : ns.Pairwise (· < ·)) (hlast : ns.getLast? = some m) (hn : n ∈ ns) :
    n ≤ m := by
  obtain ⟨l, rfl⟩ := List.getLast?_eq_some_iff.mp hlast
  rcases List.mem_append.mp hn with hn | hn
  · exact UInt64.le_of_lt ((List.pairwise_append.mp h).2.2 n hn m (List.mem_singleton_self m))
  · rw [List.mem_singleton.mp hn]
    exact UInt64.le_refl m

end Numbers

section Runs

variable {s t : State} {tr l r : List (State × Event)} {v : VideoId} {p : State × Event}
  {packet : VideoPacket}

/-- The numbers a run brings, around one of its packets. -/
theorem numbers_split (h : p.2.input.videoPacket? = some packet) (hv : packet.streamId = v) :
    numbers v (l ++ p :: r) = numbers v l ++ packet.sequenceNumber :: numbers v r := by
  have hreceived : p.2.received v = some packet.sequenceNumber := by
    rw [Event.received_of_videoPacket h, if_pos hv]
  unfold numbers
  rw [List.filterMap_append]
  simp [hreceived]

/-- What is forwarded was received, in the same order. -/
theorem forwarded_sublist (v : VideoId) (tr : List (State × Event)) :
    (forwarded v tr).Sublist (numbers v tr) := by
  unfold forwarded numbers
  induction tr with
  | nil => exact List.Sublist.refl []
  | cons p tr ih =>
    rw [List.filterMap_cons, List.filterMap_cons]
    cases hp : p.2.received v with
    | none => simpa using ih
    | some n =>
      split
      · next hnone => exact ih.cons n
      · next m hm =>
        split at hm
        · obtain rfl := Option.some.inj hm
          exact ih.cons_cons n
        · cases hm

/-- The number a node expects is one more than the last one of the run. -/
theorem expected_run (hrun : Run Step s (l ++ p :: r) t)
    (hs : s.lastVideoSequenceNumber.lookup v = none) (hv : packet.streamId = v) :
    p.2.view.expected packet = (numbers v l).getLast?.getD packet.sequenceNumber + 1 := by
  obtain ⟨hbefore, u, hstep, -⟩ := hrun.split
  have hview := hstep.1
  rw [State.expected, hv, AList.perm_lookup hview.lastVideoSequenceNumber,
    lastSequenceNumber_run hbefore hs]

/-- The hypotheses on a run: nothing of the stream came before it, each of its packets finds
subscribers, and its numbers do not overflow. -/
structure Streams (v : VideoId) (s : State) (tr : List (State × Event)) : Prop where
  fresh : s.lastVideoSequenceNumber.lookup v = none
  subscribed : ∀ p ∈ tr, p.2.received v ≠ none → p.1.subscribers v ≠ []
  bounded : ∀ n ∈ numbers v tr, n < n + 1

/-- What a run does with one of its packets. -/
theorem Streams.decides (h : Streams v s (l ++ p :: r)) (hrun : Run Step s (l ++ p :: r) t)
    (hp : p.2.input.videoPacket? = some packet) (hv : packet.streamId = v) :
    (p.2.Drops ↔ (numbers v l).getLast?.getD packet.sequenceNumber + 1 < packet.sequenceNumber) ∧
    (p.2.Forwards packet ↔
      ¬ (numbers v l).getLast?.getD packet.sequenceNumber + 1 < packet.sequenceNumber) := by
  obtain ⟨-, u, hstep, -⟩ := hrun.split
  have hreceived : p.2.received v ≠ none := by
    rw [Event.received_of_videoPacket hp, if_pos hv]
    exact Option.some_ne_none _
  have hsub : p.2.view.subscribers packet.streamId ≠ [] := by
    rw [hstep.1.subscribers, hv]
    exact h.subscribed p (List.mem_append_right l List.mem_cons_self) hreceived
  rw [Event.drops_iff hp hsub, Event.forwards_iff hp hsub, expected_run hrun h.fresh hv]
  exact ⟨Iff.rfl, Iff.rfl⟩

/-- A run that treats its packets by age brings them in consecutive order. -/
theorem ForwardsNewer.consecutive (h : ForwardsNewer v tr) (hs : Streams v s tr)
    (hrun : Run Step s tr t) (hsplit : tr = l ++ r) :
    (numbers v l).IsChain fun m n ↦ n = m + 1 := by
  induction l using List.reverseRecOn generalizing r with
  | nil => exact .nil
  | append_singleton l p ih =>
    have htr : tr = l ++ p :: r := by
      rw [hsplit, List.append_assoc]
      rfl
    have hchain := ih htr
    cases hp : p.2.received v with
    | none =>
      have hsame : numbers v (l ++ [p]) = numbers v l := by
        simp [numbers, hp]
      rw [hsame]
      exact hchain
    | some n =>
      obtain ⟨packet, hpacket, hv, rfl⟩ := Event.received_eq_some.mp hp
      have hnumbers := numbers_split (l := l) (r := r) hpacket hv
      have hbounded (m : UInt64) (hm : m ∈ numbers v l) : m < m + 1 := by
        apply hs.bounded
        rw [htr, hnumbers]
        exact List.mem_append_left _ hm
      rw [numbers_split (r := []) hpacket hv]
      apply hchain.append (.singleton _)
      intro m hm n hn
      obtain rfl : packet.sequenceNumber = n := Option.some.inj hn
      have hm : (numbers v l).getLast? = some m := hm
      have hmem : m ∈ numbers v l := List.mem_of_getLast? hm
      obtain ⟨hdrops, hforwards⟩ := Streams.decides (htr ▸ hs) (htr ▸ hrun) hpacket hv
      rw [hm, Option.getD_some] at hdrops hforwards
      rw [eq_succ_iff (hbounded m hmem)]
      by_cases hlt : m < packet.sequenceNumber
      · constructor
        · exact hlt
        · apply hforwards.mp
          apply h.newer l p r packet htr hpacket hv
          intro k hk
          have hle := le_last (pairwise_lt_of_consecutive hchain hbounded) hm hk
          exact UInt64.lt_of_le_of_lt hle hlt
      · have hold := hdrops.mp (h.older l p r packet htr hpacket hv
          ⟨m, hmem, UInt64.not_lt.mp hlt⟩)
        exact absurd (UInt64.lt_trans (hbounded m hmem) hold) hlt

/-- A run whose packets come in consecutive order forwards each of them. -/
theorem forwardsNewer_of_consecutive (hs : Streams v s tr) (hrun : Run Step s tr t)
    (hchain : (numbers v tr).IsChain fun m n ↦ n = m + 1) : ForwardsNewer v tr := by
  have hpairwise := pairwise_lt_of_consecutive hchain hs.bounded
  constructor
  · intro l p r packet htr hpacket hv hnew
    apply (Streams.decides (htr ▸ hs) (htr ▸ hrun) hpacket hv).2.mpr
    rw [htr, numbers_split hpacket hv] at hchain
    cases hm : (numbers v l).getLast? with
    | none =>
      have hbound : packet.sequenceNumber < packet.sequenceNumber + 1 := by
        apply hs.bounded
        rw [htr, numbers_split hpacket hv]
        exact List.mem_append_right _ List.mem_cons_self
      exact UInt64.not_lt.mpr (UInt64.le_of_lt hbound)
    | some m =>
      have hnext := (List.isChain_append.mp hchain).2.2 m hm packet.sequenceNumber rfl
      rw [Option.getD_some, ← hnext]
      exact UInt64.lt_irrefl _
  · intro l p r packet htr hpacket hv hold
    rw [htr, numbers_split hpacket hv] at hpairwise
    obtain ⟨m, hm, hle⟩ := hold
    have hlt := (List.pairwise_append.mp hpairwise).2.2 m hm _ List.mem_cons_self
    exact absurd hlt (UInt64.not_lt.mpr hle)
  · exact List.Pairwise.sublist (forwarded_sublist v tr) hpairwise

/-- A run forwards the newer packets of a stream and drops the others just if they come with
consecutive numbers, none lost, none twice and none out of order. -/
theorem forwardsNewer_iff (hrun : Run Step s tr t) (hs : Streams v s tr) :
    ForwardsNewer v tr ↔ (numbers v tr).IsChain fun m n ↦ n = m + 1 := by
  constructor
  · exact fun h ↦ h.consecutive hs hrun (List.append_nil tr).symm
  · exact forwardsNewer_of_consecutive hs hrun

/-- A node of which a client has requested video 5. -/
def requested : State :=
  simulate (.new 9 [] (IpAddr.v4 9).atPort)
    [(.packet (.serverPacket (.requestVideo 5)) ⟨.v4 3, 4000⟩, .calm 0)]

/-- Packets of video 5 with these numbers, one after the other. -/
def packets (ns : List UInt64) : List (Input × Env) :=
  ns.map fun n ↦ (.packet (.videoPacket ⟨5, n, []⟩) (IpAddr.v4 1).atPort, .calm 0)

/-- Packets in order are forwarded. -/
theorem forwardsNewer_inOrder : ForwardsNewer 5 (record requested (packets [1, 2, 3])) := by
  have hsub : (record requested (packets [1, 2, 3])).all fun p ↦ p.1.subscribers 5 ≠ [] := by
    decide +kernel
  have hnumbers : numbers 5 (record requested (packets [1, 2, 3])) = [1, 2, 3] := rfl
  have hbounded : ([1, 2, 3] : List UInt64).all fun n ↦ n < n + 1 := by decide
  apply (forwardsNewer_iff (run_record requested (packets [1, 2, 3])) _).mpr
  · rw [hnumbers]
    simp
  · constructor
    · decide +kernel
    · exact fun p hp _ ↦ of_decide_eq_true (List.all_eq_true.mp hsub p hp)
    · rw [hnumbers]
      exact fun n hn ↦ of_decide_eq_true (List.all_eq_true.mp hbounded n hn)

/-- A packet after a lost one is dropped, and a packet that comes twice is forwarded twice. -/
theorem newer_dropped :
    Run Step requested (record requested (packets [1, 3]))
      (simulate requested (packets [1, 3])) ∧
    ¬ ForwardsNewer 5 (record requested (packets [1, 3])) ∧
    ¬ ForwardsNewer 5 (record requested (packets [1, 1])) := by
  constructor
  · exact run_record requested (packets [1, 3])
  constructor
  · intro h
    have hnew : ∀ m ∈ numbers 5 (record requested (packets [1])), m < 3 :=
      List.forall_mem_singleton.mpr (by decide)
    have hforwards := h.newer (record requested (packets [1]))
      (simulate requested (packets [1]), ⟨.packet (.videoPacket ⟨5, 3, []⟩) (IpAddr.v4 1).atPort,
        .calm 0, simulate requested (packets [1])⟩) [] ⟨5, 3, []⟩ rfl rfl rfl hnew
    exact absurd hforwards.1 (by decide +kernel)
  · intro h
    have htwice : forwarded 5 (record requested (packets [1, 1])) = [1, 1] := by decide +kernel
    have hincreasing := h.increasing
    rw [htwice] at hincreasing
    simp at hincreasing

end Runs
end PessiStreamer.Node
