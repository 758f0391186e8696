import PessiStreamer.Node.Forwarding

/-!
# What a lost packet costs behind several nodes

A node drops the packet after a gap, so the next node meets a larger gap. Behind a line of nodes
a packet arrives just if as many packets before it as there are nodes were received by the first of
them, too.
-/

namespace PessiStreamer.Node
open Base Common

/-- The `d` numbers before `n` are among the numbers, as far as they are not before the first. -/
def Backed (d : Nat) (ns : List UInt64) (n : UInt64) : Prop :=
  ∀ f ∈ ns.head?, ∀ m, f ≤ m → m ≤ n → n.toNat ≤ m.toNat + d → m ∈ ns

section Numbers

variable {ns : List UInt64} {d e : Nat} {f m n : UInt64}

private theorem Backed.mono (h : Backed d ns n) (he : e ≤ d) : Backed e ns n := by
  intro f hf m hfm hmn hnm
  exact h f hf m hfm hmn (by omega)

/-- The first of increasing numbers is the least. -/
theorem head_le (h : ns.Pairwise (· < ·)) (hf : f ∈ ns.head?) (hn : n ∈ ns) : f ≤ n := by
  cases ns with
  | nil => cases hf
  | cons k ns =>
    obtain rfl : k = f := Option.some.inj hf
    rcases List.mem_cons.mp hn with rfl | hn
    · exact UInt64.le_refl n
    · exact UInt64.le_of_lt (List.rel_of_pairwise_cons h hn)

/-- A number that is not at the top has a next one. -/
theorem toNat_succ_of_lt (h : m < n) : (m + 1).toNat = m.toNat + 1 := by
  have hn := n.toNat_lt
  rw [UInt64.lt_iff_toNat_lt] at h
  rw [UInt64.toNat_add, UInt64.toNat_one]
  omega

end Numbers

section OneNode

variable {s t : State} {tr : List (State × Event)} {v : VideoId} {n : UInt64}

/-- Every number of a run is that of one of its packets. -/
theorem exists_packet_of_mem_numbers (h : n ∈ numbers v tr) :
    ∃ l p r packet, tr = l ++ p :: r ∧ p.2.input.videoPacket? = some packet ∧
      packet.streamId = v ∧ packet.sequenceNumber = n := by
  obtain ⟨p, hp, hn⟩ := List.mem_filterMap.mp h
  obtain ⟨l, r, htr⟩ := List.append_of_mem hp
  obtain ⟨packet, hpacket, hv, hnumber⟩ := Event.received_eq_some.mp hn
  exact ⟨l, p, r, packet, htr, hpacket, hv, hnumber⟩

/-- A packet that is let through comes first or directly after its predecessor. -/
theorem not_gap_iff_backed {ls rs : List UInt64} (h : (ls ++ n :: rs).Pairwise (· < ·))
    (hn : n < n + 1) :
    ¬ ls.getLast?.getD n + 1 < n ↔ Backed 1 (ls ++ n :: rs) n := by
  obtain ⟨hls, hrs, hbefore⟩ := List.pairwise_append.mp h
  cases hlast : ls.getLast? with
  | none =>
    rw [List.getLast?_eq_none_iff.mp hlast, Option.getD_none]
    apply iff_of_true (UInt64.not_lt.mpr (UInt64.le_of_lt hn))
    intro f hf m hfm hmn _
    obtain rfl : n = f := Option.some.inj hf
    rw [UInt64.le_antisymm hmn hfm]
    exact List.mem_cons_self
  | some x =>
    have hx : x ∈ ls := List.mem_of_getLast? hlast
    have hxn : x < n := hbefore x hx n List.mem_cons_self
    have hsucc := toNat_succ_of_lt hxn
    rw [Option.getD_some]
    rw [UInt64.lt_iff_toNat_lt] at hxn ⊢
    constructor
    · intro hgap f _ m _ hmn hnm
      rw [UInt64.le_iff_toNat_le] at hmn
      by_cases hm : m = n
      · simp [hm]
      · have hne : m.toNat ≠ n.toNat := fun heq ↦ hm (UInt64.toNat_inj.mp heq)
        obtain rfl : m = x := UInt64.toNat_inj.mp (by omega)
        exact List.mem_append_left _ hx
    · intro hbacked hgap
      -- the number before `n` would have come, and not after `x`
      have hpred : (n - 1).toNat = n.toNat - 1 :=
        UInt64.toNat_sub_of_le n 1 (UInt64.le_iff_toNat_le.mpr (by rw [UInt64.toNat_one]; omega))
      obtain ⟨f, hf⟩ : ∃ f, f ∈ ls.head? := by
        cases ls with
        | nil => cases hx
        | cons k ls => exact ⟨k, rfl⟩
      have hfirst : f ∈ (ls ++ n :: rs).head? := by
        rw [List.head?_append, Option.mem_def.mp hf]
        rfl
      have hfx := UInt64.le_iff_toNat_le.mp (head_le hls hf hx)
      have hmem : n - 1 ∈ ls ++ n :: rs := by
        apply hbacked f hfirst
        · rw [UInt64.le_iff_toNat_le]
          omega
        · rw [UInt64.le_iff_toNat_le]
          omega
        · omega
      rcases List.mem_append.mp hmem with hmem | hmem
      · have hle := UInt64.le_iff_toNat_le.mp (le_last hls hlast hmem)
        omega
      · rcases List.mem_cons.mp hmem with heq | hmem
        · have heq := congrArg UInt64.toNat heq
          omega
        · have hlt := UInt64.lt_iff_toNat_lt.mp (List.rel_of_pairwise_cons hrs hmem)
          omega

/-- Of packets that come in increasing order a node lets those through that come first or
directly after their predecessors. -/
theorem mem_forwarded_iff (hrun : Run Step s tr t) (hs : Streams v s tr)
    (hlt : (numbers v tr).Pairwise (· < ·)) :
    n ∈ forwarded v tr ↔ n ∈ numbers v tr ∧ Backed 1 (numbers v tr) n := by
  constructor
  · intro hn
    obtain ⟨p, hp, hp'⟩ := List.mem_filterMap.mp hn
    split at hp'
    · next hattempts =>
      obtain ⟨packet, hpacket, hv, rfl⟩ := Event.received_eq_some.mp hp'
      obtain ⟨l, r, rfl⟩ := List.append_of_mem hp
      have hmem : packet.sequenceNumber ∈ numbers v (l ++ p :: r) := by
        rw [numbers_split hpacket hv]
        simp
      refine ⟨hmem, ?_⟩
      have hbound := hs.bounded _ hmem
      rw [numbers_split hpacket hv] at hlt ⊢
      apply (not_gap_iff_backed hlt hbound).mp
      intro hgap
      exact Nat.ne_of_gt hattempts ((hs.decides hrun hpacket hv).1.mpr hgap).1
    · cases hp'
  · rintro ⟨hn, hbacked⟩
    have hbound := hs.bounded n hn
    obtain ⟨l, p, r, packet, rfl, hpacket, hv, rfl⟩ := exists_packet_of_mem_numbers hn
    rw [numbers_split hpacket hv] at hlt hbacked
    have hforwards :=
      (hs.decides hrun hpacket hv).2.mpr ((not_gap_iff_backed hlt hbound).mpr hbacked)
    apply List.mem_filterMap.mpr
    refine ⟨p, by simp, ?_⟩
    rw [if_pos hforwards.1]
    exact Event.received_eq_some.mpr ⟨packet, hpacket, hv, rfl⟩

/-- The first packet is always let through. -/
theorem head?_forwarded (hrun : Run Step s tr t) (hs : Streams v s tr)
    (hlt : (numbers v tr).Pairwise (· < ·)) :
    (forwarded v tr).head? = (numbers v tr).head? := by
  cases hns : numbers v tr with
  | nil =>
    have hsub := forwarded_sublist v tr
    rw [hns] at hsub
    rw [List.sublist_nil.mp hsub]
  | cons f ns =>
    have hmem : f ∈ forwarded v tr := by
      rw [mem_forwarded_iff hrun hs hlt, hns]
      refine ⟨List.mem_cons_self, fun g hg m hgm hmf _ ↦ ?_⟩
      obtain rfl : f = g := Option.some.inj hg
      rw [UInt64.le_antisymm hmf hgm]
      exact List.mem_cons_self
    rw [hns] at hlt
    have hsub := forwarded_sublist v tr
    rw [hns] at hsub
    generalize forwarded v tr = fs at hmem hsub
    -- a later number is larger than the first
    cases hsub with
    | cons _ hsub =>
      exact absurd (List.rel_of_pairwise_cons hlt (hsub.subset hmem)) (UInt64.lt_irrefl f)
    | cons_cons _ hsub => rfl

end OneNode

/-- The runs of nodes in a line, of which the first receives the numbers `ns` and each other one
what the node before it forwards. What the last one forwards is `out`. -/
def Line (v : VideoId) : List UInt64 → List (List (State × Event)) → List UInt64 → Prop
  | ns, [], out => out = ns
  | ns, tr :: trs, out =>
    (∃ s t, Run Step s tr t ∧ Streams v s tr) ∧ numbers v tr = ns ∧ Line v (forwarded v tr) trs out

section Lines

variable {v : VideoId} {ns out fs : List UInt64} {trs : List (List (State × Event))} {n : UInt64}
  {d : Nat}

/-- What one node needs of what another one lets through, in terms of what that one received. -/
theorem backed_succ_iff (hhead : fs.head? = ns.head?)
    (hfs : ∀ n, n ∈ fs ↔ n ∈ ns ∧ Backed 1 ns n) :
    n ∈ fs ∧ Backed d fs n ↔ n ∈ ns ∧ Backed (d + 1) ns n := by
  constructor
  · rintro ⟨hn, hbacked⟩
    refine ⟨((hfs n).mp hn).1, fun f hf m hfm hmn hnm ↦ ?_⟩
    by_cases hd : n.toNat ≤ m.toNat + d
    · exact ((hfs m).mp (hbacked f (hhead ▸ hf) m hfm hmn hd)).1
    · -- the number after `m` was let through, so `m` came before it
      have hlt : m < n := UInt64.lt_iff_toNat_lt.mpr (by omega)
      have hsucc := toNat_succ_of_lt hlt
      rw [UInt64.le_iff_toNat_le] at hfm hmn
      rw [UInt64.lt_iff_toNat_lt] at hlt
      have hnext : m + 1 ∈ fs := by
        apply hbacked f (hhead ▸ hf)
        · rw [UInt64.le_iff_toNat_le]
          omega
        · rw [UInt64.le_iff_toNat_le]
          omega
        · omega
      apply ((hfs (m + 1)).mp hnext).2 f hf m
      · exact UInt64.le_iff_toNat_le.mpr hfm
      · rw [UInt64.le_iff_toNat_le]
        omega
      · omega
  · rintro ⟨hn, hbacked⟩
    refine ⟨(hfs n).mpr ⟨hn, hbacked.mono (by omega)⟩, fun f hf m hfm hmn hnm ↦ ?_⟩
    refine (hfs m).mpr ⟨hbacked f (hhead ▸ hf) m hfm hmn (by omega), fun g hg k hgk hkm hmk ↦ ?_⟩
    exact hbacked g hg k hgk (UInt64.le_trans hkm hmn) (by omega)

/-- Of packets that reach a line of nodes in increasing order, in order those get through before
which as many packets came without a gap as there are nodes, or all packets from the first on. -/
theorem line_iff (h : Line v ns trs out) (hlt : ns.Pairwise (· < ·)) :
    out.Sublist ns ∧ ∀ n, n ∈ out ↔ n ∈ ns ∧ Backed trs.length ns n := by
  induction trs generalizing ns with
  | nil =>
    obtain rfl : out = ns := h
    refine ⟨List.Sublist.refl out, fun n ↦ ⟨fun hn ↦ ⟨hn, fun f _ m _ hmn hnm ↦ ?_⟩, And.left⟩⟩
    rw [UInt64.le_iff_toNat_le] at hmn
    rw [List.length_nil] at hnm
    obtain rfl : m = n := UInt64.toNat_inj.mp (by omega)
    exact hn
  | cons tr trs ih =>
    obtain ⟨⟨s, t, hrun, hs⟩, rfl, hline⟩ := h
    have hsub := forwarded_sublist v tr
    obtain ⟨hout, hmem⟩ := ih hline (List.Pairwise.sublist hsub hlt)
    refine ⟨hout.trans hsub, fun n ↦ ?_⟩
    rw [hmem, List.length_cons]
    exact backed_succ_iff (head?_forwarded hrun hs hlt) fun n ↦ mem_forwarded_iff hrun hs hlt

/-- The node of which a client has requested video 5 streams packets with these numbers. -/
theorem streams_requested {ns : List UInt64}
    (hsub : (record requested (packets ns)).all fun p ↦ p.1.subscribers 5 ≠ [])
    (hnumbers : (numbers 5 (record requested (packets ns))).all fun n ↦ n < n + 1) :
    (∃ s t, Run Step s (record requested (packets ns)) t ∧
      Streams 5 s (record requested (packets ns))) := by
  refine ⟨requested, _, run_record requested (packets ns), by decide +kernel, fun p hp _ ↦ ?_,
    fun n hn ↦ ?_⟩
  · exact of_decide_eq_true (List.all_eq_true.mp hsub p hp)
  · exact of_decide_eq_true (List.all_eq_true.mp hnumbers n hn)

/-- Two nodes, the first of which misses the second of five packets. -/
theorem line_two : ([1, 5] : List UInt64).Sublist [1, 3, 4, 5] ∧
    ∀ n, n ∈ ([1, 5] : List UInt64) ↔
      n ∈ ([1, 3, 4, 5] : List UInt64) ∧ Backed 2 [1, 3, 4, 5] n := by
  have hfirst : forwarded 5 (record requested (packets [1, 3, 4, 5])) = [1, 4, 5] := by
    decide +kernel
  have hsecond : forwarded 5 (record requested (packets [1, 4, 5])) = [1, 5] := by
    decide +kernel
  have hline : Line 5 [1, 3, 4, 5]
      [record requested (packets [1, 3, 4, 5]), record requested (packets [1, 4, 5])] [1, 5] := by
    refine ⟨streams_requested (by decide +kernel) (by decide +kernel), rfl, ?_⟩
    rw [hfirst]
    refine ⟨streams_requested (by decide +kernel) (by decide +kernel), rfl, ?_⟩
    rw [hsecond]
    rfl
  exact line_iff hline (by simp)

end Lines
end PessiStreamer.Node
