import PessiStreamer.Reliable.Life
import PessiStreamer.Reliable.Transition

/-!
# How reliable sends are resolved

Each step of a socket is, for every one of its packets, a step in the life of that packet or
no step at all. What is known of one life therefore holds of all packets of a socket,
whatever the interleaving.
-/

namespace PessiStreamer.Reliable
open Base Common

variable {π α : Type} {shard : UInt64 → Nat}

namespace Occurrence

/-- A copy of the packet was transmitted. -/
def IsCopyOf (packetId : UInt64) : Occurrence π α → Bool
  | .sent (.reliable k _) _ => k = packetId
  | _ => false

/-- The channel of the call was used. -/
def IsResultOf (call : Nat) : Occurrence π α → Bool
  | .completed j _ => j = call
  | _ => false

/-- What an occurrence says about the packet of call `i`. -/
def mark (i : Nat) : Occurrence π α → Option Mark
  | .sent (.reliable k _) _ => if k = .ofNat i then some .transmitted else none
  | .retransmitFailed k => if k = .ofNat i then some .retransmitFailed else none
  | .ackProcessed k _ => if k = .ofNat i then some .ackProcessed else none
  | .completed j r => if j = i then some (.completed r) else none
  | _ => none

end Occurrence

/-- The receiving loop holds the channel of call `i`. -/
def ReceiveStage.holds (i : Nat) : ReceiveStage π α → Bool
  | .reporting j _ => j = i
  | _ => false

/-- The reception holds a oneshot while it is about to answer it. -/
theorem ReceiveStage.holds_iff {r : ReceiveStage π α} {i : Nat} :
    r.holds i = true ↔ ∃ after, r = .reporting i after := by
  cases r with
  | idle => simp [holds]
  | received packet source => simp [holds]
  | reporting sender after => simp [holds]

/-- The life of the packet of call `i`; before the call begins it is at its start. -/
def Monitor.life (m : Monitor π α) (i : Nat) : Life where
  stage := (m.socket.calls[i]?.map Call.stage).getD .numbered
  task := m.socket.calls[i]?.bind Call.task
  retries := (m.socket.pendingPackets.lookup (.ofNat i)).map PendingPacket.retries
  held := m.socket.receiving.holds i
  marks := m.history.filterMap (Occurrence.mark i)

private theorem ofNat_inj {i j : Nat} (hi : i < 2 ^ 64) (hj : j < 2 ^ 64) :
    UInt64.ofNat i = .ofNat j ↔ i = j := by
  constructor
  · intro h
    have hnat := congrArg UInt64.toNat h
    simp only [UInt64.toNat_ofNat'] at hnat
    omega
  · exact congrArg _

section Projection

variable {s t : Socket π α} {c c' : Call π α} {i j : Nat} {o history : List (Occurrence π α)}

/-- The life of a call that has begun. -/
theorem life_of_call (hc : s.calls[i]? = some c) :
    Monitor.life ⟨s, history⟩ i = ⟨c.stage, c.task,
      (s.pendingPackets.lookup (.ofNat i)).map PendingPacket.retries, s.receiving.holds i,
      history.filterMap (Occurrence.mark i)⟩ := by
  simp [Monitor.life, hc]

/-- A step of call `i` that touches no entry but its own and is observed of its packet alone
is a step of one life. -/
theorem life_acting (hw : WellFormed s) (hc : s.calls[i]? = some c) (hi : i < 2 ^ 64)
    (hj : j < 2 ^ 64) {m : Map UInt64 (PendingPacket π α)}
    (hm : ∀ k ≠ c.packetId, m.lookup k = s.pendingPackets.lookup k)
    (ho : ∀ x ∈ o, ∀ k < 2 ^ 64, k ≠ i → x.mark k = none)
    (hstep : Life.Step i (Monitor.life ⟨s, history⟩ i)
      (Monitor.life ⟨(s.setCall i c').setPending m, o ++ history⟩ i)) :
    Monitor.life ⟨(s.setCall i c').setPending m, o ++ history⟩ j = Monitor.life ⟨s, history⟩ j ∨
      Life.Step j (Monitor.life ⟨s, history⟩ j)
        (Monitor.life ⟨(s.setCall i c').setPending m, o ++ history⟩ j) := by
  by_cases hne : j = i
  · subst hne
    exact .inr hstep
  · have hnil : o.filterMap (Occurrence.mark j) = [] := by
      simpa [List.filterMap_eq_nil_iff] using fun x hx ↦ ho x hx j hj hne
    have hk : UInt64.ofNat j ≠ c.packetId := by
      rw [hw.numbered i c hc, Ne, ofNat_inj hj hi]
      exact hne
    left
    simp [Monitor.life, Socket.setCall_calls hc, hne, hm _ hk, List.filterMap_append, hnil]

/-- A step of call `i` that touches no entry and is not observed is a step of one life. -/
theorem life_unobserved (hw : WellFormed s) (hc : s.calls[i]? = some c) (hi : i < 2 ^ 64)
    (hj : j < 2 ^ 64) (hstep : Life.Step i (Monitor.life ⟨s, history⟩ i)
      (Monitor.life ⟨s.setCall i c', history⟩ i)) :
    Monitor.life ⟨s.setCall i c', history⟩ j = Monitor.life ⟨s, history⟩ j ∨
      Life.Step j (Monitor.life ⟨s, history⟩ j) (Monitor.life ⟨s.setCall i c', history⟩ j) :=
  life_acting hw hc hi hj (o := []) (m := s.pendingPackets) (fun _ _ ↦ rfl) (by simp) hstep

end Projection

/-- Each step of a socket is, for every packet, a step of its life or none. -/
theorem life_step {s t : Socket π α} {o history : List (Occurrence π α)} (hw : WellFormed s)
    (hlen : s.calls.length ≤ 2 ^ 64)
    (hsound : ∀ j < 2 ^ 64, Life.Sound j (Monitor.life ⟨s, history⟩ j))
    (ht : Transition shard s t o) {j : Nat} (hj : j < 2 ^ 64) :
    Monitor.life ⟨t, o ++ history⟩ j = Monitor.life ⟨s, history⟩ j ∨
      Life.Step j (Monitor.life ⟨s, history⟩ j) (Monitor.life ⟨t, o ++ history⟩ j) := by
  have hlt {i : Nat} {c : Call π α} (hc : s.calls[i]? = some c) : i < 2 ^ 64 :=
    Nat.lt_of_lt_of_le (List.getElem?_eq_some_iff.mp hc).1 hlen
  have hnum {i : Nat} {c : Call π α} (hc : s.calls[i]? = some c) : c.packetId = .ofNat i :=
    hw.numbered i c hc
  have hretries {i : Nat} {c : Call π α} (hc : s.calls[i]? = some c) :
      (Monitor.life ⟨s, history⟩ i).retries =
        (s.pendingPackets.lookup c.packetId).map PendingPacket.retries := by
    rw [hnum hc]
    rfl
  cases ht with
  | call payload destination =>
    left
    by_cases hjn : j = s.calls.length
    · simp [Monitor.life, Socket.beginCall_calls, hjn]
    · simp [Monitor.life, Socket.beginCall_calls, hjn]
  | @transmit i c hc hs =>
    refine life_acting hw hc (hlt hc) hj (m := s.pendingPackets) (fun _ _ ↦ rfl) ?_ ?_
    · intro x hx k hk hne
      cases List.mem_singleton.mp hx
      simp [Occurrence.mark, hnum hc, ofNat_inj (hlt hc) hk, Ne.symm hne]
    · have hstep := Life.Step.transmit (i := i) (l := Monitor.life ⟨s, history⟩ i)
        (by simp [life_of_call hc, hs])
      simpa [Monitor.life, Socket.setCall_calls hc, hc, Occurrence.mark, hnum hc] using hstep
  | @fail i c e hc hs =>
    apply life_unobserved hw hc (hlt hc) hj
    have hstep := Life.Step.fail (i := i) (l := Monitor.life ⟨s, history⟩ i) e
      (by simp [life_of_call hc, hs])
    simpa [Monitor.life, Socket.setCall_calls hc, hc] using hstep
  | @register i c now hc hs hl =>
    refine life_acting hw hc (hlt hc) hj ?_ (by simp) ?_
    · intro k hk
      rw [Map.lookup_insert_ite, if_neg hk]
    · have hstep := Life.Step.register (i := i) (l := Monitor.life ⟨s, history⟩ i)
        (by simp [life_of_call hc, hs])
      simpa [Monitor.life, Socket.setCall_calls hc, hc, Map.lookup_insert_ite, hnum hc] using hstep
  | @spawn i c hc hs =>
    apply life_unobserved hw hc (hlt hc) hj
    have hstep := Life.Step.spawn (i := i) (l := Monitor.life ⟨s, history⟩ i)
      (by simp [life_of_call hc, hs])
    simpa [Monitor.life, Socket.setCall_calls hc, hc] using hstep
  | @vanish i c hc ht hp =>
    apply life_unobserved hw hc (hlt hc) hj
    have hstep := Life.Step.vanish (i := i) (l := Monitor.life ⟨s, history⟩ i)
      (by simpa [life_of_call hc] using ht) (by simp [hretries hc, hp])
    simpa [Monitor.life, Socket.setCall_calls hc, hc] using hstep
  | @exhaust i c p hc ht hp hr =>
    apply life_unobserved hw hc (hlt hc) hj
    have hstep := Life.Step.exhaust (i := i) (l := Monitor.life ⟨s, history⟩ i) p.retries
      (by simpa [life_of_call hc] using ht) (by simp [hretries hc, hp]) hr
    simpa [Monitor.life, Socket.setCall_calls hc, hc] using hstep
  | @fallDue i c p hc ht hp hr =>
    apply life_unobserved hw hc (hlt hc) hj
    have hstep := Life.Step.fallDue (i := i) (l := Monitor.life ⟨s, history⟩ i) p.retries
      (by simpa [life_of_call hc] using ht) (by simp [hretries hc, hp]) hr
    simpa [Monitor.life, Socket.setCall_calls hc, hc] using hstep
  | early => exact .inl rfl
  | @retransmit i c p now hc ht hp =>
    obtain ⟨c', hc', hk, hdata, -⟩ := hw.entry _ p hp
    refine life_acting hw hc (hlt hc) hj ?_ ?_ ?_
    · intro k hk
      rw [Map.lookup_modify, if_neg hk]
    · intro x hx k hk hne
      cases List.mem_singleton.mp hx
      simp [Occurrence.mark, hdata, hnum hc, ofNat_inj (hlt hc) hk, Ne.symm hne]
    · have hstep := Life.Step.retransmit (i := i) (l := Monitor.life ⟨s, history⟩ i) p.retries
        (by simpa [life_of_call hc] using ht) (by simp [hretries hc, hp])
      rw [hnum hc] at hp hdata
      simpa [Monitor.life, Socket.setCall_calls hc, hc, Occurrence.mark, hnum hc, hp, hdata]
        using hstep
  | @abandon i c p hc ht hp =>
    refine life_acting hw hc (hlt hc) hj (m := s.pendingPackets) (fun _ _ ↦ rfl) ?_ ?_
    · intro x hx k hk hne
      cases List.mem_singleton.mp hx
      simp [Occurrence.mark, hnum hc, ofNat_inj (hlt hc) hk, Ne.symm hne]
    · have hstep := Life.Step.abandon (i := i) (l := Monitor.life ⟨s, history⟩ i) p.retries
        (by simpa [life_of_call hc] using ht) (by simp [hretries hc, hp])
      simpa [Monitor.life, Socket.setCall_calls hc, hc, Occurrence.mark, hnum hc] using hstep
  | @expire i c p hc ht hp =>
    obtain ⟨c', hc', hk, -⟩ := hw.entry _ p hp
    have hsender : p.sender = i := hw.call_eq hlen hc' hc hk
    refine life_acting hw hc (hlt hc) hj ?_ (by simp) ?_
    · intro k hk
      rw [Map.lookup_erase_ite, if_neg hk]
    · have hstep := Life.Step.expire (i := i) (l := Monitor.life ⟨s, history⟩ i) p.retries
        (by simpa [life_of_call hc] using ht) (by simp [hretries hc, hp])
      simpa [Monitor.life, Socket.setCall_calls hc, hc, hsender, Map.lookup_erase_ite, hnum hc]
        using hstep
  | @timeOut i sender c hc ht =>
    have hsender : sender = i :=
      (hsound i (hlt hc)).reporting_eq (by simpa [life_of_call hc] using ht)
    subst hsender
    refine life_acting hw hc (hlt hc) hj (m := s.pendingPackets) (fun _ _ ↦ rfl) ?_ ?_
    · intro x hx k hk hne
      cases List.mem_singleton.mp hx
      simp [Occurrence.mark, Ne.symm hne]
    · have hstep := Life.Step.timeOut (i := sender) (l := Monitor.life ⟨s, history⟩ sender)
        (by simpa [life_of_call hc] using ht)
      simpa [Monitor.life, Socket.setCall_calls hc, hc, Occurrence.mark] using hstep
  | receive packet source hr =>
    left
    simp [Monitor.life, Occurrence.mark, hr, ReceiveStage.holds, List.filterMap_cons]
  | @ack packetId source p after hr hl hp =>
    obtain ⟨c, hc, hk, -⟩ := hw.entry _ p hp
    by_cases hji : j = p.sender
    · subst hji
      right
      have htask : (Monitor.life ⟨s, history⟩ p.sender).task ≠ some .sending := by
        intro htask
        refine hl ⟨c, List.mem_of_getElem? hc, ?_, by rw [hk]⟩
        simpa [life_of_call hc] using htask
      have hstep := Life.Step.ack (i := p.sender) (l := Monitor.life ⟨s, history⟩ p.sender)
        p.retries (by rw [hretries hc, hk, hp]; rfl) htask
      simpa [Monitor.life, hc, Occurrence.mark, ← hnum hc, hk, ReceiveStage.holds,
        Map.lookup_erase_ite] using hstep
    · left
      have hne : packetId ≠ .ofNat j := by
        rw [← hk, hnum hc, Ne, ofNat_inj (hlt hc) hj]
        exact Ne.symm hji
      simp [Monitor.life, Occurrence.mark, hr, ReceiveStage.holds, hne, Ne.symm hji, Ne.symm hne]
  | @ackMiss packetId source hr hp =>
    by_cases hk : packetId = .ofNat j
    · right
      have hstep := Life.Step.ackMiss (i := j) (l := Monitor.life ⟨s, history⟩ j)
        (by rw [Monitor.life, ← hk, hp]; rfl)
      simpa [Monitor.life, Occurrence.mark, hr, ReceiveStage.holds, hk] using hstep
    · left
      simp [Monitor.life, Occurrence.mark, hr, ReceiveStage.holds, hk]
  | accept hr =>
    left
    simp [Monitor.life, Occurrence.mark, hr, ReceiveStage.holds, List.filterMap_cons]
  | ackFailed hr =>
    left
    simp [Monitor.life, hr, ReceiveStage.holds]
  | unreliable hr =>
    left
    simp [Monitor.life, Occurrence.mark, hr, ReceiveStage.holds, List.filterMap_cons]
  | @acknowledge sender after hr =>
    by_cases hji : j = sender
    · subst hji
      right
      have hstep := Life.Step.acknowledge (i := j) (l := Monitor.life ⟨s, history⟩ j) after
        (by simp [Monitor.life, hr, ReceiveStage.holds])
      simpa [Monitor.life, Occurrence.mark, ReceiveStage.holds] using hstep
    · left
      simp [Monitor.life, Occurrence.mark, hr, ReceiveStage.holds, Ne.symm hji]

/-- Every packet of a socket lives a sound life. -/
theorem Reachable.sound {m : Monitor π α} (h : Reachable shard m) :
    WellFormed m.socket ∧ (m.socket.calls.length ≤ 2 ^ 64 →
      ∀ i < 2 ^ 64, Life.Sound i (m.life i)) := by
  obtain ⟨tr, hrun⟩ := h
  refine hrun.invariant (I := fun m ↦ WellFormed m.socket ∧ (m.socket.calls.length ≤ 2 ^ 64 →
    ∀ i < 2 ^ 64, Life.Sound i (m.life i))) ?_ ⟨.new, fun _ i _ ↦ Life.sound_start i⟩
  rintro m a ⟨t, history⟩ ⟨hw, hsound⟩ hstep
  obtain ⟨o, -, rfl, ht⟩ := Monitor.transition hstep
  refine ⟨hw.step ht, fun hlen i hi ↦ ?_⟩
  have hlen' := Nat.le_trans (calls_length_le ht) hlen
  rcases life_step hw hlen' (hsound hlen') ht hi with heq | hlife
  · rw [heq]
    exact hsound hlen' i hi
  · exact Life.sound_step (hsound hlen' i hi) hlife

section Marks

variable {i : Nat} {history : List (Occurrence π α)}

/-- The copies of a packet are its marks of transmission. -/
theorem countP_isCopyOf : history.countP (Occurrence.IsCopyOf (.ofNat i)) =
    (history.filterMap (Occurrence.mark i)).count .transmitted := by
  rw [List.count_filterMap]
  refine List.countP_congr fun x _ ↦ ?_
  unfold Occurrence.mark
  split
  all_goals simp_all [Occurrence.IsCopyOf]

/-- A packet is completed where its history says so. -/
theorem mem_marks_completed {r : ReliablePacketResult} :
    .completed r ∈ history.filterMap (Occurrence.mark i) ↔ .completed i r ∈ history := by
  rw [List.mem_filterMap]
  constructor
  · rintro ⟨x, hx, hmark⟩
    unfold Occurrence.mark at hmark
    split at hmark
    all_goals simp_all
  · intro h
    exact ⟨_, h, by simp [Occurrence.mark]⟩

private theorem mem_marks_ackProcessed :
    .ackProcessed ∈ history.filterMap (Occurrence.mark i) ↔
      ∃ source, .ackProcessed (.ofNat i) source ∈ history := by
  rw [List.mem_filterMap]
  constructor
  · rintro ⟨x, hx, hmark⟩
    unfold Occurrence.mark at hmark
    split at hmark
    all_goals simp_all
    exact ⟨_, hx⟩
  · rintro ⟨source, h⟩
    exact ⟨_, h, by simp [Occurrence.mark]⟩

/-- A history is split by its marks where it is split by a result. -/
theorem marks_split {newer older : List (Occurrence π α)} {r : ReliablePacketResult} :
    (newer ++ .completed i r :: older).filterMap (Occurrence.mark i) =
      newer.filterMap (Occurrence.mark i) ++
        .completed r :: older.filterMap (Occurrence.mark i) := by
  simp [List.filterMap_append, Occurrence.mark]

/-- The last failed retransmission of the packet has no acknowledgement after it. -/
theorem abandoned_marks_iff : Life.Abandoned (history.filterMap (Occurrence.mark i)) ↔
    ∃ newer older, history = newer ++ .retransmitFailed (.ofNat i) :: older ∧
      ∀ source, .ackProcessed (.ofNat i) source ∉ newer := by
  rw [Life.abandoned_iff]
  constructor
  · rintro ⟨newer, older, heq, hnot⟩
    obtain ⟨first, rest, rfl, rfl, hrest⟩ := List.filterMap_eq_append_iff.mp heq
    obtain ⟨skipped, x, older, rfl, hskipped, hx, -⟩ := List.filterMap_eq_cons_iff.mp hrest
    obtain rfl : x = .retransmitFailed (.ofNat i) := by
      unfold Occurrence.mark at hx
      split at hx
      all_goals simp_all
    refine ⟨first ++ skipped, older, by simp, fun source hsource ↦ ?_⟩
    rcases List.mem_append.mp hsource with hsource | hsource
    · exact hnot (mem_marks_ackProcessed.mpr ⟨source, hsource⟩)
    · simpa [Occurrence.mark] using hskipped _ hsource
  · rintro ⟨newer, older, rfl, hnot⟩
    refine ⟨newer.filterMap (Occurrence.mark i), older.filterMap (Occurrence.mark i), ?_, ?_⟩
    · simp [List.filterMap_append, Occurrence.mark]
    · rw [mem_marks_ackProcessed]
      rintro ⟨source, hsource⟩
      exact hnot source hsource

end Marks

section Results

variable {m : Monitor π α} {i : Nat} {c : Call π α}

/-- The packet of a call lives a sound life under the number of the call. -/
theorem Reachable.sound_call (h : Reachable shard m) (hlen : m.socket.calls.length < 2 ^ 64)
    (hc : m.socket.calls[i]? = some c) :
    Life.Sound i (m.life i) ∧ c.packetId = .ofNat i ∧ i < 2 ^ 64 := by
  obtain ⟨hw, hsound⟩ := h.sound
  have hi : i < 2 ^ 64 := Nat.lt_trans (List.getElem?_eq_some_iff.mp hc).1 hlen
  exact ⟨hsound (Nat.le_of_lt hlen) i hi, hw.numbered i c hc, hi⟩

/-- What the life of a packet says around a result. -/
theorem Life.Sound.around {newer older : List (Occurrence π α)} {r : ReliablePacketResult}
    (hs : Life.Sound i (m.life i)) (heq : m.history = newer ++ .completed i r :: older) :
    newer.countP (Occurrence.IsCopyOf (.ofNat i)) = 0 ∧
    (∀ r', .completed i r' ∉ newer) ∧ (∀ r', .completed i r' ∉ older) ∧
    Life.Orderly (.completed r :: older.filterMap (Occurrence.mark i)) := by
  have ho : Life.Orderly (m.history.filterMap (Occurrence.mark i)) := hs.orderly
  rw [heq, marks_split] at ho
  obtain ⟨hcount, hnew, hrest⟩ := Life.orderly_split ho
  have hold : ¬ Life.Completed (older.filterMap (Occurrence.mark i)) := by
    cases r with
    | acknowledged after => exact hrest.1
    | timeout => exact hrest.1
  refine ⟨countP_isCopyOf.trans hcount, fun r' hr' ↦ ?_, fun r' hr' ↦ ?_, hrest⟩
  · exact hnew ⟨r', mem_marks_completed.mpr hr'⟩
  · exact hold ⟨r', mem_marks_completed.mpr hr'⟩

private theorem countP_isResultOf_eq_zero {history : List (Occurrence π α)}
    (h : ∀ r, .completed i r ∉ history) : history.countP (Occurrence.IsResultOf i) = 0 := by
  rw [List.countP_eq_zero]
  intro x hx hr
  unfold Occurrence.IsResultOf at hr
  split at hr
  · next j r =>
    obtain rfl : j = i := by simpa using hr
    exact h r hx
  · simp at hr

/-- A channel is used at most once. -/
theorem Life.Sound.results_le_one (hs : Life.Sound i (m.life i)) :
    m.history.countP (Occurrence.IsResultOf i) ≤ 1 := by
  by_cases h : ∃ r, .completed i r ∈ m.history
  · obtain ⟨r, hr⟩ := h
    obtain ⟨newer, older, heq⟩ := List.append_of_mem hr
    obtain ⟨-, hnew, hold, -⟩ := hs.around heq
    rw [heq, List.countP_append, List.countP_cons, countP_isResultOf_eq_zero hnew,
      countP_isResultOf_eq_zero hold]
    simp [Occurrence.IsResultOf]
  · rw [countP_isResultOf_eq_zero fun r hr ↦ h ⟨r, hr⟩]
    exact Nat.zero_le 1

/-- For every packet of a socket: its channel is used at most once; it is told of an
acknowledgement only after one was processed; at most `1 + MAX_RETRIES` copies are transmitted,
and exactly that many before a timeout is reported; and none after a result. -/
theorem reachable_result_discipline (h : Reachable shard m)
    (hlen : m.socket.calls.length < 2 ^ 64) (hc : m.socket.calls[i]? = some c) :
    m.history.countP (Occurrence.IsResultOf i) ≤ 1 ∧
    (∀ newer older after, m.history = newer ++ .completed i (.acknowledged after) :: older →
      ∃ source, .ackProcessed c.packetId source ∈ older) ∧
    m.history.countP (Occurrence.IsCopyOf c.packetId) ≤ 1 + MAX_RETRIES ∧
    (∀ newer older, m.history = newer ++ .completed i .timeout :: older →
      older.countP (Occurrence.IsCopyOf c.packetId) = 1 + MAX_RETRIES) ∧
    ∀ newer older r, m.history = newer ++ .completed i r :: older →
      newer.countP (Occurrence.IsCopyOf c.packetId) = 0 := by
  obtain ⟨hs, hid, -⟩ := h.sound_call hlen hc
  rw [hid]
  refine ⟨hs.results_le_one, fun newer older after heq ↦ ?_, ?_, fun newer older heq ↦ ?_,
    fun newer older r heq ↦ (hs.around heq).1⟩
  · obtain ⟨-, -, -, -, hack, -⟩ := hs.around heq
    exact mem_marks_ackProcessed.mp hack
  · rw [countP_isCopyOf]
    exact hs.copies_le
  · obtain ⟨-, -, -, -, hcount, -⟩ := hs.around heq
    exact countP_isCopyOf.trans hcount

/-- Once its task has ended, a packet is settled (its entry gone and its result reported) if
and only if each failed retransmission of it was followed by an acknowledgement, and the
receiving loop is not just about to report one. -/
theorem reachable_settled_iff (h : Reachable shard m) (hlen : m.socket.calls.length < 2 ^ 64)
    (hc : m.socket.calls[i]? = some c) (ht : c.task = some .ended) :
    (m.socket.pendingPackets.lookup c.packetId = none ∧ ∃ r, .completed i r ∈ m.history) ↔
    (∀ newer older, m.history = newer ++ .retransmitFailed c.packetId :: older →
      ∃ source, .ackProcessed c.packetId source ∈ newer) ∧
    ∀ after, m.socket.receiving ≠ .reporting i after := by
  obtain ⟨hs, hid, -⟩ := h.sound_call hlen hc
  have hsettled := hs.settled_iff (by simpa [Monitor.life, hc] using ht)
  have hcompleted : Life.Completed (m.life i).marks ↔ ∃ r, .completed i r ∈ m.history :=
    exists_congr fun r ↦ mem_marks_completed
  have habandoned : ¬ Life.Abandoned (m.life i).marks ↔
      ∀ newer older, m.history = newer ++ .retransmitFailed (.ofNat i) :: older →
        ∃ source, .ackProcessed (.ofNat i) source ∈ newer := by
    rw [show (m.life i).marks = m.history.filterMap (Occurrence.mark i) from rfl,
      abandoned_marks_iff]
    push Not
    rfl
  have hheld : (m.life i).held = false ↔ ∀ after, m.socket.receiving ≠ .reporting i after := by
    rw [← not_exists, ← ReceiveStage.holds_iff, Bool.not_eq_true]
    rfl
  rw [hid, ← hcompleted, ← habandoned, ← hheld, ← hsettled]
  simp [Monitor.life]

end Results

section Runs

/-- The socket after a list of actions, each of which must be enabled. -/
def Monitor.after (shard : UInt64 → Nat) (actions : List (Action π α)) : Monitor π α :=
  (trace (Monitor.step? shard) .new actions).2

/-- What actions lead to is reachable. -/
theorem reachable_after (actions : List (Action π α)) :
    Reachable shard (Monitor.after shard actions) :=
  ⟨_, run_trace _ _ actions⟩

/-- A send, up to the start of its task. -/
def sendActions : List (Action Unit Unit) :=
  [.call () (), .transmit 0 (.ok ()), .register 0 0, .spawn 0]

/-- The send is acknowledged before its task wakes up for the first time. -/
def acknowledged : Monitor Unit Unit := Monitor.after (fun _ ↦ 0) <|
  sendActions ++ [.receive (.ack 0) (), .process true 1, .process true 1, .wake 0 TIMEOUT]

/-- The first retransmission fails. -/
def abandoned : Monitor Unit Unit := Monitor.after (fun _ ↦ 0) <|
  sendActions ++ [.wake 0 TIMEOUT, .retransmit 0 false TIMEOUT]

/-- An acknowledged packet has one result. -/
theorem result_discipline_acknowledged :
    acknowledged.history.countP (Occurrence.IsResultOf 0) ≤ 1 :=
  (reachable_result_discipline (m := acknowledged) (i := 0)
    (c := ⟨0, (), (), .returned, some .ended⟩) (reachable_after _) (by decide) (by decide)).1

/-- An acknowledged packet has left the table, with a result. -/
theorem settled_acknowledged :
    acknowledged.socket.pendingPackets.lookup 0 = none ∧
      ∃ r, .completed 0 r ∈ acknowledged.history := by
  refine (reachable_settled_iff (m := acknowledged) (i := 0)
    (c := ⟨0, (), (), .returned, some .ended⟩) (reachable_after _) (by decide) (by decide)
    rfl).mpr ⟨fun newer older heq ↦ ?_, fun after ↦ ?_⟩
  · have hnot : .retransmitFailed 0 ∉ acknowledged.history := by decide
    exact (hnot (by simp [heq])).elim
  · rw [show acknowledged.socket.receiving = .idle by decide]
    simp

/-- After a failed retransmission the task is over, with the entry still there and nothing
reported. -/
theorem unsettled_abandoned :
    Reachable (fun _ ↦ 0) abandoned ∧
    abandoned.socket.calls[0]? = some ⟨0, (), (), .returned, some .ended⟩ ∧
    (abandoned.socket.pendingPackets.lookup 0).isSome ∧
    ∀ r, .completed 0 r ∉ abandoned.history := by
  refine ⟨reachable_after _, by decide, by decide, fun r hr ↦ ?_⟩
  have hcount : abandoned.history.countP (Occurrence.IsResultOf 0) = 0 := by decide
  have hnot := List.countP_eq_zero.mp hcount _ hr
  simp [Occurrence.IsResultOf] at hnot

end Runs
end PessiStreamer.Reliable
