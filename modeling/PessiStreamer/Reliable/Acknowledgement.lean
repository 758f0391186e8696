import PessiStreamer.Reliable.Resolution

/-!
# What an acknowledgement is good for

An acknowledgement that is processed after the entry of its packet was inserted leaves no entry
behind. From there on the packet is silent, and unless its task took the entry before, its
result is the acknowledgement.
-/

namespace PessiStreamer.Reliable
open Base Common

variable {π α : Type} {shard : UInt64 → Nat}

namespace Life

/-- The entry was inserted, and it is gone. -/
structure Silent (l : Life) : Prop where
  stage : l.stage = .registered ∨ l.stage = .returned
  retries : l.retries = none

/-- The task took the entry of the packet. -/
def GivenUp (l : Life) : Prop :=
  (∃ j, l.task = some (.reporting j)) ∨ .completed .timeout ∈ l.marks

variable {i : Nat} {l l' : Life}

/-- A silent packet stays silent: no copy of it is transmitted, and it is not given up. -/
theorem Silent.step (h : Silent l) (hstep : Step i l l') :
    Silent l' ∧ l'.copies = l.copies ∧ (l'.GivenUp → l.GivenUp) := by
  cases hstep with
  | transmit hs | fail e hs | register hs =>
    have hstage := h.stage
    rw [hs] at hstage
    simp at hstage
  | exhaust r ht hr | fallDue r ht hr | retransmit r ht hr | abandon r ht hr | expire r ht hr
  | ack r hr => cases h.retries.symm.trans hr
  | spawn hs =>
    refine ⟨⟨.inr rfl, h.retries⟩, rfl, fun hgiven ↦ ?_⟩
    exact .inr (hgiven.resolve_left (by simp))
  | vanish ht hr =>
    refine ⟨⟨h.stage, hr⟩, rfl, fun hgiven ↦ ?_⟩
    exact .inr (hgiven.resolve_left (by simp))
  | timeOut ht =>
    -- the task took the entry before it reported
    exact ⟨⟨h.stage, h.retries⟩, by simp [copies], fun _ ↦ .inl ⟨i, ht⟩⟩
  | ackMiss hr => exact ⟨⟨h.stage, hr⟩, by simp [copies], by simp [GivenUp]⟩
  | acknowledge after hh => exact ⟨⟨h.stage, h.retries⟩, by simp [copies], by simp [GivenUp]⟩

/-- A silent packet that was not given up has the acknowledgement for its result, if it is not
just about to. -/
theorem Sound.acknowledged (hs : Sound i l) (h : Silent l) (hgiven : ¬ l.GivenUp) :
    l.held = true ∨ ∃ after, .completed (.acknowledged after) ∈ l.marks := by
  cases hs.phase with
  | unsent hstage =>
    have := h.stage
    rcases hstage with hstage | ⟨e, hstage⟩ <;> simp [hstage] at this
  | unregistered hstage =>
    have := h.stage
    simp [hstage] at this
  | waiting r _ _ _ _ hr => cases h.retries.symm.trans hr
  | acked _ _ _ _ hh => exact .inl hh
  | expired _ ht => exact (hgiven (.inl ⟨i, ht⟩)).elim
  | done _ _ _ _ _ _ hc =>
    obtain ⟨r, hr⟩ := hc
    cases r with
    | acknowledged after => exact .inr ⟨after, hr⟩
    | timeout => exact (hgiven (.inr hr)).elim

/-- A packet is given up after all of its copies were transmitted. -/
theorem Sound.copies_of_givenUp (hs : Sound i l) (hgiven : l.GivenUp) :
    l.copies = 1 + MAX_RETRIES := by
  rcases hgiven with ⟨j, ht⟩ | hmem
  · cases hs.phase with
    | expired _ _ _ _ hn => exact hn
    | _ => simp_all
  · obtain ⟨newer, older, heq⟩ := List.append_of_mem hmem
    have hord := hs.orderly
    rw [heq] at hord
    obtain ⟨hnewer, -, -, holder, -⟩ := orderly_split hord
    rw [copies, heq, List.count_append, hnewer, List.count_cons_of_ne (by simp), holder, zero_add]

end Life

section Runs

variable {m m' : Monitor π α} {tr : List (Monitor π α × Action π α)} {i : Nat}

/-- The history of a socket only grows. -/
theorem history_suffix (h : Run (fun s a t ↦ Monitor.step? shard s a = some t) m tr m') :
    m.history <:+ m'.history := by
  induction h with
  | refl => exact List.suffix_rfl
  | tail _ hstep ih =>
    obtain ⟨o, -, heq, -⟩ := Monitor.transition hstep
    rw [heq]
    exact ih.trans (List.suffix_append o _)

private theorem run_calls_length_le
    (h : Run (fun s a t ↦ Monitor.step? shard s a = some t) m tr m') :
    m.socket.calls.length ≤ m'.socket.calls.length := by
  induction h with
  | refl => exact Nat.le_refl _
  | tail _ hstep ih =>
    obtain ⟨o, -, -, ht⟩ := Monitor.transition hstep
    exact Nat.le_trans ih (calls_length_le ht)

/-- What each step of a life preserves, a run of the socket preserves. -/
theorem Reachable.life_invariant (hm : Reachable shard m) {P : Life → Prop}
    (hP : ∀ l l', P l → Life.Step i l l' → P l')
    (h : Run (fun s a t ↦ Monitor.step? shard s a = some t) m tr m')
    (hlen : m'.socket.calls.length ≤ 2 ^ 64) (hi : i < 2 ^ 64) (hs : P (m.life i)) :
    P (m'.life i) := by
  obtain ⟨tr₀, h₀⟩ := hm
  induction h with
  | refl => exact hs
  | @tail t u tr a h hstep ih =>
    obtain ⟨hw, hsound⟩ := Reachable.sound ⟨_, h₀.trans h⟩
    obtain ⟨o, -, heq, ht⟩ := Monitor.transition hstep
    have hlen' := Nat.le_trans (calls_length_le ht) hlen
    have hu : u = ⟨u.socket, o ++ t.history⟩ := by rw [← heq]
    rw [hu]
    rcases life_step hw hlen' (hsound hlen') ht hi with hstutter | hlife
    · rw [hstutter]
      exact ih hlen'
    · exact hP _ _ (ih hlen') hlife

end Runs

/-- The task of the call took the entry, to report the timeout. -/
def Monitor.GivenUp (m : Monitor π α) (i : Nat) : Prop :=
  (∃ c j, m.socket.calls[i]? = some c ∧ c.task = some (.reporting j)) ∨
    .completed i .timeout ∈ m.history

section Results

variable {m₁ m₂ m : Monitor π α} {a : Action π α} {tr : List (Monitor π α × Action π α)}
  {i : Nat} {c : Call π α} {source : α}

private theorem life_givenUp_iff : (m.life i).GivenUp ↔ m.GivenUp i := by
  have htask (j : Nat) : (m.life i).task = some (.reporting j) ↔
      ∃ c, m.socket.calls[i]? = some c ∧ c.task = some (.reporting j) := Option.bind_eq_some_iff
  simp only [Life.GivenUp, Monitor.GivenUp, htask]
  rw [exists_comm]
  exact or_congr Iff.rfl mem_marks_completed

/-- The step that processes an acknowledgement leaves no entry of that number, and all calls as
they were. -/
theorem ackProcessed_step {k : UInt64} (hstep : m₁.step? shard a = some m₂)
    (hack : m₂.history = .ackProcessed k source :: m₁.history) :
    m₂.socket.calls = m₁.socket.calls ∧ m₂.socket.pendingPackets.lookup k = none := by
  obtain ⟨o, -, heq, ht⟩ := Monitor.transition hstep
  have ho : o = [.ackProcessed k source] := by
    have happend : o ++ m₁.history = [.ackProcessed k source] ++ m₁.history := by
      rw [← heq, hack, List.singleton_append]
    exact List.append_cancel_right happend
  rw [ho] at ht
  generalize m₂.socket = t at ht
  cases ht with
  | ack after hr hl hp =>
    constructor
    · rfl
    · exact (Map.lookup_erase_ite m₁.socket.pendingPackets k k).trans (if_pos rfl)
  | ackMiss hr hp => exact ⟨rfl, hp⟩

/-- From the moment an acknowledgement of an entered packet is processed no copy of the packet is
transmitted; and its result is the acknowledgement and nothing else, unless its task had given it
up, which takes all of its copies. -/
theorem acknowledged_stays (h₁ : Reachable shard m₁) (hc : m₁.socket.calls[i]? = some c)
    (hentered : c.stage = .registered ∨ c.stage = .returned)
    (hstep : m₁.step? shard a = some m₂)
    (hack : m₂.history = .ackProcessed c.packetId source :: m₁.history)
    (hrun : Run (fun s a t ↦ Monitor.step? shard s a = some t) m₂ tr m)
    (hlen : m.socket.calls.length < 2 ^ 64) :
    (∃ newer, m.history = newer ++ m₂.history ∧
      newer.countP (Occurrence.IsCopyOf c.packetId) = 0) ∧
    (m₁.GivenUp i ∧ m₁.history.countP (Occurrence.IsCopyOf c.packetId) = 1 + MAX_RETRIES ∨
      (∀ r, .completed i r ∈ m.history → ∃ after, r = .acknowledged after) ∧
      ((∃ after, m.socket.receiving = .reporting i after) ∨
        ∃ after, .completed i (.acknowledged after) ∈ m.history)) := by
  obtain ⟨hcalls, hgone⟩ := ackProcessed_step hstep hack
  have h₂ : Reachable shard m₂ := by
    obtain ⟨tr₁, hrun₁⟩ := h₁
    exact ⟨_, hrun₁.tail hstep⟩
  have hlen₁ : m₁.socket.calls.length < 2 ^ 64 := by
    rw [← hcalls]
    exact Nat.lt_of_le_of_lt (run_calls_length_le hrun) hlen
  obtain ⟨hsound₁, hid, hi⟩ := h₁.sound_call hlen₁ hc
  have hsilent : (m₂.life i).Silent := by
    constructor
    · simpa [Monitor.life, hcalls, hc] using hentered
    · rw [hid] at hgone
      simp [Monitor.life, hgone]
  have hend := h₂.life_invariant (i := i)
    (P := fun l ↦ l.Silent ∧ l.copies = (m₂.life i).copies ∧ (l.GivenUp → (m₂.life i).GivenUp))
    (fun l l' h hlife ↦
      have hnext := h.1.step hlife
      ⟨hnext.1, hnext.2.1.trans h.2.1, h.2.2 ∘ hnext.2.2⟩)
    hrun (Nat.le_of_lt hlen) hi ⟨hsilent, rfl, id⟩
  obtain ⟨hs, hcopies, hgiven⟩ := hend
  have hgiven₁ : m.GivenUp i → m₁.GivenUp i := by
    intro h
    have h' := life_givenUp_iff.mp (hgiven (life_givenUp_iff.mpr h))
    simpa [Monitor.GivenUp, hcalls, hack] using h'
  constructor
  · obtain ⟨newer, heq⟩ := history_suffix hrun
    apply Exists.intro newer
    constructor
    · exact heq.symm
    · have hcount : m.history.countP (Occurrence.IsCopyOf c.packetId) =
          m₂.history.countP (Occurrence.IsCopyOf c.packetId) := by
        rw [hid, countP_isCopyOf, countP_isCopyOf]
        exact hcopies
      rw [← heq, List.countP_append] at hcount
      omega
  · by_cases hup : m₁.GivenUp i
    · apply Or.inl
      constructor
      · exact hup
      · rw [hid, countP_isCopyOf]
        exact hsound₁.copies_of_givenUp (life_givenUp_iff.mpr hup)
    · apply Or.inr
      constructor
      · intro r hr
        cases r with
        | acknowledged after => exact ⟨after, rfl⟩
        | timeout => exact (hup (hgiven₁ (.inr hr))).elim
      · obtain ⟨tr₂, hrun₂⟩ := h₂
        have hsound := (Reachable.sound ⟨_, hrun₂.trans hrun⟩).2 (Nat.le_of_lt hlen) i hi
        have hkept : ¬ (m.life i).GivenUp := fun h ↦ hup (hgiven₁ (life_givenUp_iff.mp h))
        apply (hsound.acknowledged hs hkept).imp
        · exact ReceiveStage.holds_iff.mp
        · exact Exists.imp fun after hmem ↦ mem_marks_completed.mp hmem

/-- The acknowledgement of a send is there before its task wakes up for the first time. -/
def acked : Monitor Unit Unit := Monitor.after (fun _ ↦ 0) <| sendActions ++ [.receive (.ack 0) ()]

/-- The receiving loop then takes the entry of the packet. -/
def ackedNext : Monitor Unit Unit :=
  Monitor.after (fun _ ↦ 0) <| sendActions ++ [.receive (.ack 0) (), .process true 1]

/-- When its timeout comes, the acknowledged packet is not sent again. -/
theorem acknowledged_stays_acked : ∃ newer,
    (trace (Monitor.step? fun _ ↦ 0) ackedNext [.process true 1, .wake 0 TIMEOUT]).2.history =
        newer ++ ackedNext.history ∧
      newer.countP (Occurrence.IsCopyOf 0) = 0 := by
  have hreach : Reachable (fun _ ↦ 0) acked := reachable_after _
  exact (acknowledged_stays (i := 0) (c := ⟨0, (), (), .returned, some .sleeping⟩)
    (a := .process true 1) hreach rfl (.inr rfl) rfl rfl
    (run_trace (Monitor.step? fun _ ↦ 0) ackedNext [.process true 1, .wake 0 TIMEOUT])
    (by decide)).1

/-- The task retransmits as often as it can, and takes the entry. -/
def giveUpActions : List (Action Unit Unit) :=
  (List.range MAX_RETRIES).flatMap (fun n ↦
    [.wake 0 ((n + 1) * TIMEOUT), .retransmit 0 true ((n + 1) * TIMEOUT)]) ++
  [.wake 0 (6 * TIMEOUT), .expire 0]

/-- The acknowledgement is processed between the first transmission and the insertion of the
entry. -/
def ackedEarly : Monitor Unit Unit := Monitor.after (fun _ ↦ 0) <|
  [.call () (), .transmit 0 (.ok ()), .receive (.ack 0) (), .process true 0, .register 0 0,
    .spawn 0] ++ giveUpActions ++ [.reportTimeout 0]

/-- It is processed after the task took the entry. -/
def ackedLate : Monitor Unit Unit := Monitor.after (fun _ ↦ 0) <|
  sendActions ++ giveUpActions ++ [.receive (.ack 0) (), .process true 0, .reportTimeout 0]

/-- In both cases the acknowledged packet was transmitted before, and is reported as a timeout;
the first is transmitted again, too. -/
theorem acknowledgement_ineffective :
    (∃ newer older, Reachable (fun _ ↦ 0) ackedEarly ∧
      ackedEarly.history = newer ++ .ackProcessed 0 () :: older ∧
      .sent (.reliable 0 ()) () ∈ older ∧ .sent (.reliable 0 ()) () ∈ newer ∧
      .completed 0 .timeout ∈ newer) ∧
    ∃ newer older, Reachable (fun _ ↦ 0) ackedLate ∧
      ackedLate.history = newer ++ .ackProcessed 0 () :: older ∧
      .sent (.reliable 0 ()) () ∈ older ∧ .completed 0 .timeout ∈ newer := by
  constructor
  · apply Exists.intro (ackedEarly.history.take 6)
    apply Exists.intro (ackedEarly.history.drop 7)
    exact ⟨reachable_after _, by decide, by decide, by decide, by decide⟩
  · apply Exists.intro (ackedLate.history.take 1)
    apply Exists.intro (ackedLate.history.drop 2)
    exact ⟨reachable_after _, by decide, by decide, by decide⟩

end Results
end PessiStreamer.Reliable
