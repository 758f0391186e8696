import PessiStreamer.Reliable.Socket

/-!
# The life of one packet

What a socket does to a single reliable packet, apart from all others: the abstract machine
that every packet of a socket follows. Its marks are what is observed of the packet, newest
first.
-/

namespace PessiStreamer.Reliable
open Common

/-- What can be observed of one packet. -/
inductive Mark where
  | transmitted
  | retransmitFailed
  | ackProcessed
  | completed (result : ReliablePacketResult)
  deriving DecidableEq, Repr

/-- What an observer keeps of one packet. -/
@[ext]
structure Life where
  stage : SendStage
  task : Option TaskStage
  /-- the retransmissions counted in the entry of the packet, if there is one -/
  retries : Option Nat
  /-- the receiving loop holds the channel of the packet -/
  held : Bool
  marks : List Mark

namespace Life

/-- The packet of a call that was just numbered. -/
def start : Life := ⟨.numbered, none, none, false, []⟩

/-- A step in the life of the packet of call `i`. -/
inductive Step (i : Nat) (l : Life) : Life → Prop
  | transmit (hs : l.stage = .numbered) :
    Step i l { l with stage := .transmitted, marks := .transmitted :: l.marks }
  | fail (e : ReliableUdpSocketError) (hs : l.stage = .numbered) :
    Step i l { l with stage := .failed e }
  | register (hs : l.stage = .transmitted) :
    Step i l { l with stage := .registered, retries := some 0 }
  | spawn (hs : l.stage = .registered) :
    Step i l { l with stage := .returned, task := some .sleeping }
  | vanish (ht : l.task = some .sleeping ∨ l.task = some .expired) (hr : l.retries = none) :
    Step i l { l with task := some .ended }
  | exhaust (r : Nat) (ht : l.task = some .sleeping) (hr : l.retries = some r)
      (hle : MAX_RETRIES ≤ r) : Step i l { l with task := some .expired }
  | fallDue (r : Nat) (ht : l.task = some .sleeping) (hr : l.retries = some r)
      (hlt : r < MAX_RETRIES) : Step i l { l with task := some .sending }
  | retransmit (r : Nat) (ht : l.task = some .sending) (hr : l.retries = some r) :
    Step i l { l with
      task := some .sleeping, retries := some (r + 1), marks := .transmitted :: l.marks }
  | abandon (r : Nat) (ht : l.task = some .sending) (hr : l.retries = some r) :
    Step i l { l with task := some .ended, marks := .retransmitFailed :: l.marks }
  | expire (r : Nat) (ht : l.task = some .expired) (hr : l.retries = some r) :
    Step i l { l with task := some (.reporting i), retries := none }
  | timeOut (ht : l.task = some (.reporting i)) :
    Step i l { l with task := some .ended, marks := .completed .timeout :: l.marks }
  | ack (r : Nat) (hr : l.retries = some r) (ht : l.task ≠ some .sending) :
    Step i l { l with retries := none, held := true, marks := .ackProcessed :: l.marks }
  | ackMiss (hr : l.retries = none) :
    Step i l { l with marks := .ackProcessed :: l.marks }
  | acknowledge (after : Duration) (hh : l.held = true) :
    Step i l { l with held := false, marks := .completed (.acknowledged after) :: l.marks }

/-- How many copies of the packet were transmitted. -/
def copies (l : Life) : Nat := l.marks.count .transmitted

/-- The channel of the packet was used. -/
def Completed (marks : List Mark) : Prop := ∃ r, .completed r ∈ marks

/-- A retransmission failed, and no acknowledgement was processed since. -/
def Abandoned : List Mark → Prop
  | [] => False
  | .retransmitFailed :: _ => True
  | .ackProcessed :: _ => False
  | _ :: marks => Abandoned marks

/-- Nothing is transmitted or reported after the result, and the result is the right one. -/
def Orderly : List Mark → Prop
  | [] => True
  | .transmitted :: marks => ¬ Completed marks ∧ Orderly marks
  | .completed (.acknowledged _) :: marks =>
    ¬ Completed marks ∧ .ackProcessed ∈ marks ∧ Orderly marks
  | .completed .timeout :: marks =>
    ¬ Completed marks ∧ marks.count .transmitted = 1 + MAX_RETRIES ∧ Orderly marks
  | _ :: marks => Orderly marks

/-- The entry was inserted, and the task is there once the call has returned. -/
def Entered (l : Life) : Prop :=
  l.stage = .registered ∧ l.task = none ∨ l.stage = .returned ∧ l.task ≠ none

/-- Who owns the sending half of the channel, and what that says about the packet. -/
inductive Phase (i : Nat) (l : Life) : Prop
  /-- there is no channel -/
  | unsent (hs : l.stage = .numbered ∨ ∃ e, l.stage = .failed e) (ht : l.task = none)
      (hr : l.retries = none) (hh : l.held = false) (hn : l.copies = 0)
      (hc : ¬ Completed l.marks) (ha : ¬ Abandoned l.marks)
  /-- the call -/
  | unregistered (hs : l.stage = .transmitted) (ht : l.task = none) (hr : l.retries = none)
      (hh : l.held = false) (hn : l.copies = 1) (hc : ¬ Completed l.marks)
      (ha : ¬ Abandoned l.marks)
  /-- the entry -/
  | waiting (r : Nat) (hs : l.Entered) (ht : ∀ j, l.task ≠ some (.reporting j))
      (hsend : l.task = some .sending → r < MAX_RETRIES)
      (hexp : l.task = some .expired → r = MAX_RETRIES) (hr : l.retries = some r)
      (hle : r ≤ MAX_RETRIES) (hh : l.held = false) (hn : l.copies = 1 + r)
      (hc : ¬ Completed l.marks) (ha : Abandoned l.marks ↔ l.task = some .ended)
  /-- the receiving loop -/
  | acked (hs : l.Entered) (ht : ∀ j, l.task ≠ some (.reporting j))
      (hsend : l.task ≠ some .sending) (hr : l.retries = none) (hh : l.held = true)
      (hn : l.copies ≤ 1 + MAX_RETRIES) (hc : ¬ Completed l.marks)
      (hack : .ackProcessed ∈ l.marks) (ha : ¬ Abandoned l.marks)
  /-- the task -/
  | expired (hs : l.Entered) (ht : l.task = some (.reporting i)) (hr : l.retries = none)
      (hh : l.held = false) (hn : l.copies = 1 + MAX_RETRIES) (hc : ¬ Completed l.marks)
      (ha : ¬ Abandoned l.marks)
  /-- nobody any more -/
  | done (hs : l.Entered) (ht : ∀ j, l.task ≠ some (.reporting j))
      (hsend : l.task ≠ some .sending) (hr : l.retries = none) (hh : l.held = false)
      (hn : l.copies ≤ 1 + MAX_RETRIES) (hc : Completed l.marks) (ha : ¬ Abandoned l.marks)

/-- What holds of every packet at any time. -/
structure Sound (i : Nat) (l : Life) : Prop where
  orderly : Orderly l.marks
  phase : Phase i l

/-- The last mark completes the packet, or an older one does. -/
@[simp] theorem completed_cons {m : Mark} {marks : List Mark} :
    Completed (m :: marks) ↔ (∃ r, m = .completed r) ∨ Completed marks := by
  simp only [Completed, List.mem_cons]
  constructor
  · rintro ⟨r, hr | hr⟩
    · exact .inl ⟨r, hr.symm⟩
    · exact .inr ⟨r, hr⟩
  · rintro (⟨r, rfl⟩ | ⟨r, hr⟩)
    · exact ⟨r, .inl rfl⟩
    · exact ⟨r, .inr hr⟩

/-- It holds at the start. -/
theorem sound_start (i : Nat) : Sound i start where
  orderly := trivial
  phase := .unsent (.inl rfl) rfl rfl rfl rfl (by simp [start, Completed]) id

/-- Every step of a life keeps the owner of the channel unique and the marks in order. -/
theorem sound_step {i : Nat} {l l' : Life} (h : Sound i l) (hstep : Step i l l') :
    Sound i l' := by
  obtain ⟨ho, hp⟩ := h
  cases hstep with
  | transmit hs =>
    cases hp with
    | unsent _ ht hr hh hn hc ha =>
      exact ⟨⟨hc, ho⟩, .unregistered rfl ht hr hh (by simpa [copies] using hn) (by simp [hc]) ha⟩
    | _ => simp_all [Entered]
  | fail e hs =>
    cases hp with
    | unsent _ ht hr hh hn hc ha => exact ⟨ho, .unsent (.inr ⟨e, rfl⟩) ht hr hh hn hc ha⟩
    | _ => simp_all [Entered]
  | register hs =>
    cases hp with
    | unregistered _ ht _ hh hn hc ha =>
      refine ⟨ho, .waiting 0 (.inl ⟨rfl, ht⟩) ?_ ?_ ?_ rfl (Nat.zero_le _) hh hn hc ?_⟩
      · simp [ht]
      · simp [ht]
      · simp [ht]
      · simp [ht, ha]
    | _ => simp_all [Entered]
  | spawn hs =>
    have hentered : Entered { l with stage := .returned, task := some .sleeping } := by
      simp [Entered]
    cases hp with
    | waiting r he ht _ _ hr hle hh hn hc ha =>
      have hnone : l.task = none := by simpa [Entered, hs] using he
      refine ⟨ho, .waiting r hentered ?_ ?_ ?_ hr hle hh hn hc ?_⟩
      · simp
      · simp
      · simp
      · simpa [hnone] using ha
    | acked _ _ _ hr hh hn hc hack ha =>
      exact ⟨ho, .acked hentered (by simp) (by simp) hr hh hn hc hack ha⟩
    | done _ _ _ hr hh hn hc ha =>
      exact ⟨ho, .done hentered (by simp) (by simp) hr hh hn hc ha⟩
    | _ => simp_all [Entered]
  | vanish ht hr =>
    have hentered (he : l.Entered) : Entered { l with task := some .ended } := by
      simp only [Entered] at he ⊢
      rcases ht with ht | ht <;> simpa [ht] using he
    cases hp with
    | acked he _ _ _ hh hn hc hack ha =>
      exact ⟨ho, .acked (hentered he) (by simp) (by simp) hr hh hn hc hack ha⟩
    | done he _ _ _ hh hn hc ha =>
      exact ⟨ho, .done (hentered he) (by simp) (by simp) hr hh hn hc ha⟩
    | _ => simp_all
  | exhaust r ht hr hle =>
    cases hp with
    | waiting r' he _ _ _ hr' hle' hh hn hc ha =>
      obtain rfl : r = r' := by simpa [hr] using hr'
      refine ⟨ho, .waiting r ?_ ?_ ?_ ?_ hr hle' hh hn hc ?_⟩
      · simpa [Entered, ht] using he
      · simp
      · simp
      · exact fun _ ↦ Nat.le_antisymm hle' hle
      · simpa [ht] using ha
    | _ => simp_all
  | fallDue r ht hr hlt =>
    cases hp with
    | waiting r' he _ _ _ hr' hle' hh hn hc ha =>
      obtain rfl : r = r' := by simpa [hr] using hr'
      refine ⟨ho, .waiting r ?_ ?_ ?_ ?_ hr hle' hh hn hc ?_⟩
      · simpa [Entered, ht] using he
      · simp
      · exact fun _ ↦ hlt
      · simp
      · simpa [ht] using ha
    | _ => simp_all
  | retransmit r ht hr =>
    cases hp with
    | waiting r' he _ hsend _ hr' hle' hh hn hc ha =>
      obtain rfl : r = r' := by simpa [hr] using hr'
      have hlt := hsend ht
      refine ⟨⟨hc, ho⟩, .waiting (r + 1) ?_ ?_ ?_ ?_ rfl hlt hh ?_ ?_ ?_⟩
      · simpa [Entered, ht] using he
      · simp
      · simp
      · simp
      · simp only [copies, List.count_cons_self] at hn ⊢
        omega
      · simp [hc]
      · simpa [ht, Abandoned] using ha
    | _ => simp_all
  | abandon r ht hr =>
    cases hp with
    | waiting r' he _ _ _ hr' hle' hh hn hc ha =>
      refine ⟨ho, .waiting r' ?_ ?_ ?_ ?_ hr' hle' hh ?_ ?_ ?_⟩
      · simpa [Entered, ht] using he
      · simp
      · simp
      · simp
      · simpa [copies] using hn
      · simp [hc]
      · simp [Abandoned]
    | _ => simp_all
  | expire r ht hr =>
    cases hp with
    | waiting r' he _ _ hexp hr' hle' hh hn hc ha =>
      refine ⟨ho, .expired ?_ rfl rfl hh ?_ hc ?_⟩
      · simpa [Entered, ht] using he
      · rw [← hexp ht]
        exact hn
      · simpa [ht] using ha
    | _ => simp_all
  | timeOut ht =>
    cases hp with
    | expired he _ hr hh hn hc ha =>
      refine ⟨⟨hc, hn, ho⟩, .done ?_ ?_ ?_ hr hh ?_ ?_ ha⟩
      · simpa [Entered, ht] using he
      · simp
      · simp
      · simpa [copies] using Nat.le_of_eq hn
      · simp
    | _ => simp_all
  | ack r hr ht =>
    cases hp with
    | waiting r' he hrep _ _ hr' hle' hh hn hc ha =>
      refine ⟨ho, .acked he hrep ht rfl rfl ?_ ?_ ?_ ?_⟩
      · simp only [copies, List.count_cons_of_ne (by decide : Mark.ackProcessed ≠ .transmitted)]
          at hn ⊢
        omega
      · simp [hc]
      · simp
      · simp [Abandoned]
    | _ => simp_all
  | ackMiss hr =>
    have hcopies : copies { l with marks := .ackProcessed :: l.marks } = l.copies := by
      simp [copies]
    have hnot (hc : ¬ Completed l.marks) : ¬ Completed (.ackProcessed :: l.marks) := by
      simp [hc]
    refine ⟨ho, ?_⟩
    cases hp with
    | unsent hs ht _ hh hn hc ha => exact .unsent hs ht hr hh (hcopies ▸ hn) (hnot hc) id
    | unregistered hs ht _ hh hn hc ha =>
      exact .unregistered hs ht hr hh (hcopies ▸ hn) (hnot hc) id
    | acked he hrep hsend _ hh hn hc hack ha =>
      exact .acked he hrep hsend hr hh (hcopies ▸ hn) (hnot hc) (by simp) id
    | expired he ht _ hh hn hc ha => exact .expired he ht hr hh (hcopies ▸ hn) (hnot hc) id
    | done he hrep hsend _ hh hn hc ha =>
      exact .done he hrep hsend hr hh (hcopies ▸ hn) (by simp [hc]) id
    | waiting r' _ _ _ _ hr' => simp [hr] at hr'
  | acknowledge after hh =>
    cases hp with
    | acked he hrep hsend hr _ hn hc hack ha =>
      refine ⟨⟨hc, hack, ho⟩, .done he hrep hsend hr rfl ?_ ?_ ha⟩
      · simpa [copies] using hn
      · simp
    | _ => simp_all

/-- Around a result nothing else is reported, and after it nothing is transmitted. -/
theorem orderly_split {newer older : List Mark} {x : ReliablePacketResult}
    (h : Orderly (newer ++ .completed x :: older)) :
    newer.count .transmitted = 0 ∧ ¬ Completed newer ∧ Orderly (.completed x :: older) := by
  induction newer with
  | nil => exact ⟨rfl, by simp [Completed], h⟩
  | cons m newer ih =>
    have hcompleted : Completed (newer ++ .completed x :: older) := ⟨x, by simp⟩
    match m, h with
    | .transmitted, h => exact (h.1 hcompleted).elim
    | .completed (.acknowledged _), h => exact (h.1 hcompleted).elim
    | .completed .timeout, h => exact (h.1 hcompleted).elim
    | .retransmitFailed, h => simpa using ih h
    | .ackProcessed, h => simpa using ih h

/-- The last failed retransmission has no acknowledgement after it. -/
theorem abandoned_iff {marks : List Mark} : Abandoned marks ↔
    ∃ newer older, marks = newer ++ .retransmitFailed :: older ∧ .ackProcessed ∉ newer := by
  induction marks with
  | nil => simp [Abandoned]
  | cons m marks ih =>
    have hskip (hm : m ≠ .retransmitFailed) (hm' : m ≠ .ackProcessed) :
        (∃ newer older, m :: marks = newer ++ .retransmitFailed :: older ∧
          .ackProcessed ∉ newer) ↔ Abandoned marks := by
      rw [ih]
      constructor
      · rintro ⟨newer, older, heq, hnot⟩
        cases newer with
        | nil => exact (hm (List.cons.inj heq).1).elim
        | cons x newer =>
          obtain ⟨-, rfl⟩ := List.cons.inj heq
          exact ⟨newer, older, rfl, fun h ↦ hnot (List.mem_cons_of_mem _ h)⟩
      · rintro ⟨newer, older, rfl, hnot⟩
        exact ⟨m :: newer, older, rfl, by simp [hm'.symm, hnot]⟩
    cases m with
    | transmitted => exact (hskip (by simp) (by simp)).symm
    | completed r => exact (hskip (by simp) (by simp)).symm
    | retransmitFailed => exact ⟨fun _ ↦ ⟨[], marks, rfl, by simp⟩, fun _ ↦ trivial⟩
    | ackProcessed =>
      refine ⟨False.elim, ?_⟩
      rintro ⟨newer, older, heq, hnot⟩
      cases newer with
      | nil => cases heq
      | cons x newer =>
        obtain ⟨rfl, -⟩ := List.cons.inj heq
        simp at hnot

namespace Sound

variable {i : Nat} {l : Life}

/-- A packet is transmitted once and retried `MAX_RETRIES` times at most. -/
theorem copies_le (h : Sound i l) : l.copies ≤ 1 + MAX_RETRIES := by
  cases h.phase with
  | unsent _ _ _ _ hn => omega
  | unregistered _ _ _ _ hn => omega
  | waiting r _ _ _ _ _ hle _ hn => omega
  | acked _ _ _ _ _ hn => exact hn
  | expired _ _ _ _ hn => omega
  | done _ _ _ _ _ hn => exact hn

/-- A task that is about to report holds the channel of its own call. -/
theorem reporting_eq (h : Sound i l) {j : Nat} (ht : l.task = some (.reporting j)) : j = i := by
  cases h.phase with
  | expired _ ht' => simpa [ht] using ht'
  | _ => simp_all

/-- When the task has ended, the entry is gone and the result reported, unless a failed
retransmission left the entry behind or the receiving loop is about to report. -/
theorem settled_iff (h : Sound i l) (ht : l.task = some .ended) :
    l.retries = none ∧ Completed l.marks ↔ ¬ Abandoned l.marks ∧ l.held = false := by
  cases h.phase with
  | waiting r _ _ _ _ hr _ _ _ _ ha => simp [hr, ha, ht]
  | acked _ _ _ _ hh _ hc => simp [hh, hc]
  | done _ _ _ hr hh _ hc ha => simp [hr, hh, hc, ha]
  | _ => simp_all

end Sound
end Life
end PessiStreamer.Reliable
