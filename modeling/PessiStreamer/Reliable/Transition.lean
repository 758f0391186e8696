import Mathlib.Algebra.Group.Nat.Defs
import PessiStreamer.Reliable.Socket

/-!
# What each step of a socket can do

All the outcomes of an enabled step in one place, and the invariant that ties the entries
of the map to the calls that made them.
-/

namespace PessiStreamer.Reliable
open Base Common

variable {π α : Type} {shard : UInt64 → Nat}

/-- The outcomes of a step. -/
inductive Transition (shard : UInt64 → Nat) (s : Socket π α) :
    Socket π α → List (Occurrence π α) → Prop
  | call (payload : π) (destination : α) :
    Transition shard s (s.beginCall payload destination) []
  | transmit {i : Nat} {c : Call π α} (hc : s.calls[i]? = some c) (hs : c.stage = .numbered) :
    Transition shard s (s.setCall i { c with stage := .transmitted })
      [.sent (.reliable c.packetId c.payload) c.destination]
  | fail {i : Nat} {c : Call π α} (e : ReliableUdpSocketError) (hc : s.calls[i]? = some c)
      (hs : c.stage = .numbered) : Transition shard s (s.setCall i { c with stage := .failed e }) []
  | register {i : Nat} {c : Call π α} (now : Instant) (hc : s.calls[i]? = some c)
      (hs : c.stage = .transmitted) (hl : ¬ s.Locked shard c.packetId) :
    Transition shard s ((s.setCall i { c with stage := .registered }).setPending
      (s.pendingPackets.insert c.packetId
        ⟨.reliable c.packetId c.payload, i, c.destination, now, 0⟩)) []
  | spawn {i : Nat} {c : Call π α} (hc : s.calls[i]? = some c) (hs : c.stage = .registered) :
    Transition shard s
      (s.setCall i { c with stage := .returned, task := some .sleeping }) []
  | vanish {i : Nat} {c : Call π α} (hc : s.calls[i]? = some c)
      (ht : c.task = some .sleeping ∨ c.task = some .expired)
      (hp : s.pendingPackets.lookup c.packetId = none) :
    Transition shard s (s.setCall i { c with task := some .ended }) []
  | exhaust {i : Nat} {c : Call π α} {p : PendingPacket π α} (hc : s.calls[i]? = some c)
      (ht : c.task = some .sleeping) (hp : s.pendingPackets.lookup c.packetId = some p)
      (hr : MAX_RETRIES ≤ p.retries) :
    Transition shard s (s.setCall i { c with task := some .expired }) []
  | fallDue {i : Nat} {c : Call π α} {p : PendingPacket π α} (hc : s.calls[i]? = some c)
      (ht : c.task = some .sleeping) (hp : s.pendingPackets.lookup c.packetId = some p)
      (hr : p.retries < MAX_RETRIES) :
    Transition shard s (s.setCall i { c with task := some .sending }) []
  | early : Transition shard s s []
  | retransmit {i : Nat} {c : Call π α} {p : PendingPacket π α} (now : Instant)
      (hc : s.calls[i]? = some c) (ht : c.task = some .sending)
      (hp : s.pendingPackets.lookup c.packetId = some p) :
    Transition shard s ((s.setCall i { c with task := some .sleeping }).setPending
      (s.pendingPackets.modify c.packetId fun p ↦
        { p with timestamp := now, retries := p.retries + 1 })) [.sent p.data p.destination]
  | abandon {i : Nat} {c : Call π α} {p : PendingPacket π α} (hc : s.calls[i]? = some c)
      (ht : c.task = some .sending) (hp : s.pendingPackets.lookup c.packetId = some p) :
    Transition shard s (s.setCall i { c with task := some .ended })
      [.retransmitFailed c.packetId]
  | expire {i : Nat} {c : Call π α} {p : PendingPacket π α} (hc : s.calls[i]? = some c)
      (ht : c.task = some .expired) (hp : s.pendingPackets.lookup c.packetId = some p) :
    Transition shard s ((s.setCall i { c with task := some (.reporting p.sender) }).setPending
      (s.pendingPackets.erase c.packetId)) []
  | timeOut {i sender : Nat} {c : Call π α} (hc : s.calls[i]? = some c)
      (ht : c.task = some (.reporting sender)) :
    Transition shard s (s.setCall i { c with task := some .ended })
      [.completed sender .timeout]
  | receive (packet : UdpPacket π) (source : α) (hr : s.receiving = .idle) :
    Transition shard s (s.setReceiving (.received packet source)) [.received packet source]
  | ack {packetId : UInt64} {source : α} {p : PendingPacket π α} (after : Duration)
      (hr : s.receiving = .received (.ack packetId) source)
      (hl : ¬ s.Locked shard packetId) (hp : s.pendingPackets.lookup packetId = some p) :
    Transition shard s ((s.setPending (s.pendingPackets.erase packetId)).setReceiving
      (.reporting p.sender after)) [.ackProcessed packetId source]
  | ackMiss {packetId : UInt64} {source : α}
      (hr : s.receiving = .received (.ack packetId) source)
      (hp : s.pendingPackets.lookup packetId = none) :
    Transition shard s (s.setReceiving .idle) [.ackProcessed packetId source]
  | accept {packetId : UInt64} {payload : π} {source : α}
      (hr : s.receiving = .received (.reliable packetId payload) source) :
    Transition shard s (s.setReceiving .idle)
      [.returned (.reliable packetId payload) source, .sent (.ack packetId) source]
  | ackFailed {packetId : UInt64} {payload : π} {source : α}
      (hr : s.receiving = .received (.reliable packetId payload) source) :
    Transition shard s (s.setReceiving .idle) []
  | unreliable {payload : π} {source : α}
      (hr : s.receiving = .received (.unreliable payload) source) :
    Transition shard s (s.setReceiving .idle) [.returned (.unreliable payload) source]
  | acknowledge {sender : Nat} {after : Duration} (hr : s.receiving = .reporting sender after) :
    Transition shard s (s.setReceiving .idle) [.completed sender (.acknowledged after)]

namespace Socket

variable {s t : Socket π α} {a : Action π α} {i : Nat} {c : Call π α}
  {o : List (Occurrence π α)}

private theorem transition_of_stepSend (hc : s.calls[i]? = some c)
    (h : s.stepSend shard i c a = some (t, o)) : Transition shard s t o := by
  unfold stepSend at h
  split at h
  · split at h
    · next hs =>
      split at h
      · cases h
        exact .transmit hc hs
      · cases h
        exact .fail _ hc hs
    · cases h
  · split at h
    · next hs =>
      cases h
      exact .register _ hc hs.1 hs.2
    · cases h
  · split at h
    · next hs =>
      cases h
      exact .spawn hc hs
    · cases h
  · cases h

private theorem transition_of_stepTask (hc : s.calls[i]? = some c)
    (h : s.stepTask shard i c a = some (t, o)) : Transition shard s t o := by
  unfold stepTask at h
  split at h
  · split at h
    · next ht =>
      split at h
      · next p hp =>
        split at h
        · next hr =>
          cases h
          exact .exhaust hc ht.1 hp hr
        · next hr =>
          split at h
          · cases h
            exact .fallDue hc ht.1 hp (Nat.lt_of_not_le hr)
          · cases h
            exact .early
      · next hp =>
        cases h
        exact .vanish hc (.inl ht.1) hp
    · cases h
  · split at h
    · next ht =>
      split at h
      · next p hp =>
        split at h
        · cases h
          exact .retransmit _ hc ht hp
        · cases h
          exact .abandon hc ht hp
      · cases h
    · cases h
  · split at h
    · next ht =>
      split at h
      · next p hp =>
        cases h
        exact .expire hc ht.1 hp
      · next hp =>
        cases h
        exact .vanish hc (.inr ht.1) hp
    · cases h
  · split at h
    · next ht =>
      cases h
      exact .timeOut hc ht
    · cases h
  · cases h

private theorem transition_of_stepReceive {ok : Bool} {now : Instant}
    (h : s.stepReceive shard ok now = some (t, o)) : Transition shard s t o := by
  unfold stepReceive at h
  split at h
  · next hr =>
    split at h
    · cases h
    · next hl =>
      split at h
      · next hp =>
        cases h
        exact .ack _ hr hl hp
      · next hp =>
        cases h
        exact .ackMiss hr hp
  · next hr =>
    split at h
    · cases h
      exact .accept hr
    · cases h
      exact .ackFailed hr
  · next hr =>
    cases h
    exact .unreliable hr
  · next hr =>
    cases h
    exact .acknowledge hr
  · cases h

/-- An enabled step has one of the listed outcomes. -/
theorem transition_of_step? (h : s.step? shard a = some (t, o)) : Transition shard s t o := by
  cases a with
  | call payload destination =>
    cases h
    exact .call payload destination
  | receive packet source =>
    simp only [step?] at h
    split at h
    · next hr =>
      cases h
      exact .receive packet source hr
    · cases h
  | process ok now => exact transition_of_stepReceive h
  | transmit i r | register i r | spawn i =>
    obtain ⟨c, hc, h⟩ := Option.bind_eq_some_iff.mp h
    exact transition_of_stepSend hc h
  | wake i now | retransmit i ok now | expire i | reportTimeout i =>
    obtain ⟨c, hc, h⟩ := Option.bind_eq_some_iff.mp h
    exact transition_of_stepTask hc h

/-- A call that goes on leaves the table as it is. -/
@[simp] theorem setCall_pendingPackets (s : Socket π α) (i : Nat) (c : Call π α) :
    (s.setCall i c).pendingPackets = s.pendingPackets := rfl

/-- A call that goes on leaves the reception as it is. -/
@[simp] theorem setCall_receiving (s : Socket π α) (i : Nat) (c : Call π α) :
    (s.setCall i c).receiving = s.receiving := rfl

/-- A change of the table leaves the calls as they are. -/
@[simp] theorem setPending_calls (s : Socket π α) (m : Map UInt64 (PendingPacket π α)) :
    (s.setPending m).calls = s.calls := rfl

/-- The table is the new one. -/
@[simp] theorem setPending_pendingPackets (s : Socket π α) (m : Map UInt64 (PendingPacket π α)) :
    (s.setPending m).pendingPackets = m := rfl

/-- A change of the table leaves the reception as it is. -/
@[simp] theorem setPending_receiving (s : Socket π α) (m : Map UInt64 (PendingPacket π α)) :
    (s.setPending m).receiving = s.receiving := rfl

/-- A reception that goes on leaves the calls as they are. -/
@[simp] theorem setReceiving_calls (s : Socket π α) (r : ReceiveStage π α) :
    (s.setReceiving r).calls = s.calls := rfl

/-- A reception that goes on leaves the table as it is. -/
@[simp] theorem setReceiving_pendingPackets (s : Socket π α) (r : ReceiveStage π α) :
    (s.setReceiving r).pendingPackets = s.pendingPackets := rfl

/-- The reception is the new one. -/
@[simp] theorem setReceiving_receiving (s : Socket π α) (r : ReceiveStage π α) :
    (s.setReceiving r).receiving = r := rfl

/-- A new call leaves the table as it is. -/
@[simp] theorem beginCall_pendingPackets (s : Socket π α) (payload : π) (destination : α) :
    (s.beginCall payload destination).pendingPackets = s.pendingPackets := rfl

/-- A new call leaves the reception as it is. -/
@[simp] theorem beginCall_receiving (s : Socket π α) (payload : π) (destination : α) :
    (s.beginCall payload destination).receiving = s.receiving := rfl

/-- The changed call stands where it stood. -/
theorem setCall_calls (hc : s.calls[i]? = some c) (c' : Call π α) (j : Nat) :
    (s.setCall i c').calls[j]? = if j = i then some c' else s.calls[j]? := by
  obtain ⟨hlt, -⟩ := List.getElem?_eq_some_iff.mp hc
  simp only [setCall, List.getElem?_set]
  by_cases hj : j = i
  · simp [hj, hlt]
  · simp [hj, Ne.symm hj]

/-- A new call gets the next number and joins the others. -/
theorem beginCall_calls (s : Socket π α) (payload : π) (destination : α) (j : Nat) :
    (s.beginCall payload destination).calls[j]? =
      if j = s.calls.length then some ⟨s.sequenceNumber, payload, destination, .numbered, none⟩
      else s.calls[j]? := by
  simp only [beginCall]
  by_cases hj : j = s.calls.length
  · simp [hj]
  · rw [if_neg hj]
    rcases Nat.lt_or_gt_of_ne hj with hlt | hgt
    · rw [List.getElem?_append_left hlt]
    · rw [List.getElem?_append_right (Nat.le_of_lt hgt), List.getElem?_eq_none (Nat.le_of_lt hgt)]
      exact List.getElem?_eq_none (by simp; omega)

end Socket

/-- No call is forgotten. -/
theorem calls_length_le {s t : Socket π α} {o : List (Occurrence π α)}
    (ht : Transition shard s t o) : s.calls.length ≤ t.calls.length := by
  cases ht <;> simp [Socket.setCall, Socket.beginCall]

/-- A step of a monitored socket adds what was observed of it. -/
theorem Monitor.transition {m m' : Monitor π α} {a : Action π α}
    (h : m.step? shard a = some m') :
    ∃ o, m.socket.step? shard a = some (m'.socket, o) ∧ m'.history = o ++ m.history ∧
      Transition shard m.socket m'.socket o := by
  obtain ⟨⟨t, o⟩, hstep, rfl⟩ := Option.map_eq_some_iff.mp h
  exact ⟨o, hstep, rfl, Socket.transition_of_step? hstep⟩

/-- Two records of one call, at different times. -/
structure SameCall (c c' : Call π α) : Prop where
  packetId : c'.packetId = c.packetId
  payload : c'.payload = c.payload
  destination : c'.destination = c.destination

/-- A call has the number, payload and destination that it has. -/
theorem SameCall.refl (c : Call π α) : SameCall c c := ⟨rfl, rfl, rfl⟩

/-- The counter numbers the calls, and an entry belongs to the call whose number is its key. -/
structure WellFormed (s : Socket π α) : Prop where
  counter : s.sequenceNumber = .ofNat s.calls.length
  numbered : ∀ (i : Nat) (c : Call π α), s.calls[i]? = some c → c.packetId = .ofNat i
  entry : ∀ (k : UInt64) (p : PendingPacket π α), s.pendingPackets.lookup k = some p →
    ∃ c, s.calls[p.sender]? = some c ∧ c.packetId = k ∧ p.data = .reliable k c.payload ∧
      p.destination = c.destination

namespace WellFormed

variable {s t : Socket π α} {i : Nat} {c c' : Call π α} {o : List (Occurrence π α)}

/-- A new socket is well-formed. -/
theorem new : WellFormed (Socket.new : Socket π α) where
  counter := rfl
  numbered := by
    intro i c hc
    cases hc
  entry := by
    intro k p hp
    cases hp

/-- A call that goes on keeps its number, its payload and its destination. -/
theorem setCall (h : WellFormed s) (hc : s.calls[i]? = some c) (hsame : SameCall c c') :
    WellFormed (s.setCall i c') where
  counter := by
    simpa [Socket.setCall] using h.counter
  numbered := by
    intro j d hd
    rw [Socket.setCall_calls hc] at hd
    split at hd
    · next hj =>
      cases hd
      rw [hsame.packetId, hj]
      exact h.numbered i c hc
    · exact h.numbered j d hd
  entry := by
    intro k p hp
    obtain ⟨d, hd, hk, hdata, hdest⟩ := h.entry k p hp
    by_cases hj : p.sender = i
    · obtain rfl : c = d := Option.some.inj (hc.symm.trans (hj ▸ hd))
      refine ⟨c', ?_, hsame.packetId.trans hk, ?_, hdest.trans hsame.destination.symm⟩
      · rw [Socket.setCall_calls hc, if_pos hj]
      · rw [hdata, hsame.payload]
    · refine ⟨d, ?_, hk, hdata, hdest⟩
      rw [Socket.setCall_calls hc, if_neg hj]
      exact hd

/-- Entries may go, and what stays may change its clock and its counter. -/
theorem setPending (h : WellFormed s) {m : Map UInt64 (PendingPacket π α)}
    (hm : ∀ k p, m.lookup k = some p → ∃ p', s.pendingPackets.lookup k = some p' ∧
      p'.sender = p.sender ∧ p'.data = p.data ∧ p'.destination = p.destination) :
    WellFormed (s.setPending m) where
  counter := h.counter
  numbered := h.numbered
  entry := by
    intro k p hp
    obtain ⟨p', hp', hs, hd, ha⟩ := hm k p hp
    rw [← hs, ← hd, ← ha]
    exact h.entry k p' hp'

private theorem setReceiving (h : WellFormed s) (r : ReceiveStage π α) :
    WellFormed (s.setReceiving r) :=
  ⟨h.counter, h.numbered, h.entry⟩

private theorem erase (h : WellFormed s) (k : UInt64) :
    WellFormed (s.setPending (s.pendingPackets.erase k)) := by
  refine h.setPending fun j p hp ↦ ⟨p, ?_, rfl, rfl, rfl⟩
  rw [Map.lookup_erase_ite] at hp
  split at hp
  · cases hp
  · exact hp

private theorem beginCall (h : WellFormed s) (payload : π) (destination : α) :
    WellFormed (s.beginCall payload destination) where
  counter := by
    simp [Socket.beginCall, h.counter, UInt64.ofNat_add]
  numbered := by
    intro j d hd
    rw [Socket.beginCall_calls] at hd
    split at hd
    · next hj =>
      cases hd
      rw [hj]
      exact h.counter
    · exact h.numbered j d hd
  entry := by
    intro k p hp
    obtain ⟨d, hd, hrest⟩ := h.entry k p hp
    refine ⟨d, ?_, hrest⟩
    obtain ⟨hlt, -⟩ := List.getElem?_eq_some_iff.mp hd
    rw [Socket.beginCall_calls, if_neg (Nat.ne_of_lt hlt)]
    exact hd

/-- The entry of a call is inserted under the number of the call. -/
theorem register (h : WellFormed s) (hc : s.calls[i]? = some c) (now : Instant) :
    WellFormed (s.setPending (s.pendingPackets.insert c.packetId
      ⟨.reliable c.packetId c.payload, i, c.destination, now, 0⟩)) where
  counter := h.counter
  numbered := h.numbered
  entry := by
    intro k p hp
    rw [Socket.setPending_pendingPackets, Map.lookup_insert_ite] at hp
    split at hp
    · next hk =>
      cases hp
      exact ⟨c, hc, hk.symm, by rw [hk], rfl⟩
    · exact h.entry k p hp

/-- A retransmission changes clock and counter of its entry. -/
theorem touch (h : WellFormed s) {k : UInt64} {p : PendingPacket π α}
    (hp : s.pendingPackets.lookup k = some p) (now : Instant) :
    WellFormed (s.setPending (s.pendingPackets.modify k fun p ↦
      { p with timestamp := now, retries := p.retries + 1 })) := by
  refine h.setPending fun j p' hp' ↦ ?_
  rw [Map.lookup_modify] at hp'
  split at hp'
  · next hj =>
    rw [hp] at hp'
    cases hp'
    exact ⟨p, hj ▸ hp, rfl, rfl, rfl⟩
  · exact ⟨p', hp', rfl, rfl, rfl⟩

/-- Every step keeps the entries with their calls. -/
theorem step (h : WellFormed s) (ht : Transition shard s t o) : WellFormed t := by
  cases ht with
  | call payload destination => exact h.beginCall payload destination
  | transmit hc => exact h.setCall hc ⟨rfl, rfl, rfl⟩
  | fail e hc => exact h.setCall hc ⟨rfl, rfl, rfl⟩
  | register now hc => exact (h.register hc now).setCall hc ⟨rfl, rfl, rfl⟩
  | spawn hc => exact h.setCall hc ⟨rfl, rfl, rfl⟩
  | vanish hc => exact h.setCall hc ⟨rfl, rfl, rfl⟩
  | exhaust hc => exact h.setCall hc ⟨rfl, rfl, rfl⟩
  | fallDue hc => exact h.setCall hc ⟨rfl, rfl, rfl⟩
  | early => exact h
  | retransmit now hc ht hp => exact (h.touch hp now).setCall hc ⟨rfl, rfl, rfl⟩
  | abandon hc => exact h.setCall hc ⟨rfl, rfl, rfl⟩
  | expire hc ht hp => exact (h.erase _).setCall hc ⟨rfl, rfl, rfl⟩
  | timeOut hc => exact h.setCall hc ⟨rfl, rfl, rfl⟩
  | receive packet source => exact h.setReceiving _
  | ack after hr hl hp => exact (h.erase _).setReceiving _
  | ackMiss => exact h.setReceiving _
  | accept => exact h.setReceiving _
  | ackFailed => exact h.setReceiving _
  | unreliable => exact h.setReceiving _
  | acknowledge => exact h.setReceiving _

/-- With fewer calls than numbers, the number of a packet tells its call. -/
theorem call_eq (h : WellFormed s) (hlen : s.calls.length ≤ 2 ^ 64) {j : Nat}
    (hc : s.calls[i]? = some c) (hc' : s.calls[j]? = some c') (hid : c.packetId = c'.packetId) :
    i = j := by
  obtain ⟨hi, -⟩ := List.getElem?_eq_some_iff.mp hc
  obtain ⟨hj, -⟩ := List.getElem?_eq_some_iff.mp hc'
  rw [h.numbered i c hc, h.numbered j c' hc'] at hid
  have hnat := congrArg UInt64.toNat hid
  simp only [UInt64.toNat_ofNat'] at hnat
  omega

end WellFormed

section Occurrences

variable {s t : Socket π α} {o : List (Occurrence π α)}

/-- A call keeps its number, payload and destination. -/
theorem Transition.persists (ht : Transition shard s t o) {j : Nat} {c : Call π α}
    (hj : s.calls[j]? = some c) : ∃ c', t.calls[j]? = some c' ∧ SameCall c c' := by
  have hset {i : Nat} {d d' : Call π α} (hd : s.calls[i]? = some d) (hsame : SameCall d d') :
      ∃ c', (s.setCall i d').calls[j]? = some c' ∧ SameCall c c' := by
    rw [Socket.setCall_calls hd]
    by_cases hji : j = i
    · subst hji
      obtain rfl : c = d := Option.some.inj (hj.symm.trans hd)
      exact ⟨d', if_pos rfl, hsame⟩
    · exact ⟨c, by rw [if_neg hji, hj], .refl c⟩
  cases ht with
  | call payload destination =>
    obtain ⟨hlt, -⟩ := List.getElem?_eq_some_iff.mp hj
    refine ⟨c, ?_, .refl c⟩
    rw [Socket.beginCall_calls, if_neg (Nat.ne_of_lt hlt), hj]
  | transmit hd | fail e hd | register now hd | spawn hd | vanish hd | exhaust hd | fallDue hd
  | retransmit now hd | abandon hd | expire hd | timeOut hd => exact hset hd ⟨rfl, rfl, rfl⟩
  | _ => exact ⟨c, hj, .refl c⟩

/-- A datagram is a copy of the packet of a call, or the acknowledgement of one that was
returned. -/
theorem Transition.sent_cases (ht : Transition shard s t o) (hw : WellFormed s)
    {packet : UdpPacket π} {destination : α} (h : .sent packet destination ∈ o) :
    (∃ c ∈ s.calls, packet = .reliable c.packetId c.payload ∧ destination = c.destination) ∨
    ∃ packetId payload, packet = .ack packetId ∧
      .returned (.reliable packetId payload) destination ∈ o := by
  cases ht with
  | transmit hc =>
    cases List.mem_singleton.mp h
    exact .inl ⟨_, List.mem_of_getElem? hc, rfl, rfl⟩
  | retransmit now hc _ hp =>
    cases List.mem_singleton.mp h
    obtain ⟨c', hc', hk, hdata, hdest⟩ := hw.entry _ _ hp
    exact .inl ⟨c', List.mem_of_getElem? hc', by rw [hdata, hk], hdest⟩
  | accept hr =>
    right
    simp only [List.mem_cons, reduceCtorEq, Occurrence.sent.injEq, List.mem_nil_iff, or_false,
      false_or] at h
    obtain ⟨rfl, rfl⟩ := h
    exact ⟨_, _, rfl, List.mem_cons_self⟩
  | _ => simp at h

/-- Only a received Ack is processed. -/
theorem Transition.ackProcessed_cases (ht : Transition shard s t o) {packetId : UInt64} {source : α}
    (h : .ackProcessed packetId source ∈ o) : s.receiving = .received (.ack packetId) source := by
  cases ht with
  | ack after hr =>
    cases List.mem_singleton.mp h
    exact hr
  | ackMiss hr =>
    cases List.mem_singleton.mp h
    exact hr
  | _ => simp at h

/-- What `receive` returns it has received, and a reliable packet it has acknowledged. -/
theorem Transition.returned_cases (ht : Transition shard s t o) {packet : UdpPacket π} {source : α}
    (h : .returned packet source ∈ o) : s.receiving = .received packet source ∧
      ∀ packetId payload, packet = .reliable packetId payload →
        .sent (.ack packetId) source ∈ o := by
  cases ht with
  | accept hr =>
    simp only [List.mem_cons, reduceCtorEq, Occurrence.returned.injEq, List.mem_nil_iff,
      or_false] at h
    obtain ⟨rfl, rfl⟩ := h
    refine ⟨hr, fun packetId payload heq ↦ ?_⟩
    cases heq
    simp
  | unreliable hr =>
    cases List.mem_singleton.mp h
    refine ⟨hr, fun packetId payload heq ↦ ?_⟩
    cases heq
  | _ => simp at h

/-- What is being handled was received, now or before. -/
theorem Transition.receiving_cases (ht : Transition shard s t o) {packet : UdpPacket π} {source : α}
    (h : t.receiving = .received packet source) :
    s.receiving = .received packet source ∨ .received packet source ∈ o := by
  cases ht with
  | receive p a =>
    cases h
    exact .inr List.mem_cons_self
  | ack | ackMiss | accept | ackFailed | unreliable | acknowledge => cases h
  | _ => exact .inl h

/-- Only a datagram from the network is observed as received. -/
theorem received_of_step? {a : Action π α} (h : s.step? shard a = some (t, o))
    {packet : UdpPacket π} {source : α} (hr : .received packet source ∈ o) :
    a = .receive packet source := by
  have hsend {i : Nat} {c : Call π α} (h : s.stepSend shard i c a = some (t, o)) :
      .received packet source ∉ o := by
    unfold Socket.stepSend at h
    repeat' split at h
    all_goals first
      | (cases h; done)
      | (cases h; simp)
  have htask {i : Nat} {c : Call π α} (h : s.stepTask shard i c a = some (t, o)) :
      .received packet source ∉ o := by
    unfold Socket.stepTask at h
    repeat' split at h
    all_goals first
      | (cases h; done)
      | (cases h; simp)
  have hreceive {ok : Bool} {now : Instant} (h : s.stepReceive shard ok now = some (t, o)) :
      .received packet source ∉ o := by
    unfold Socket.stepReceive at h
    repeat' split at h
    all_goals first
      | (cases h; done)
      | (cases h; simp)
  cases a with
  | call payload destination =>
    cases h
    cases hr
  | receive p a =>
    simp only [Socket.step?] at h
    split at h
    · cases h
      cases List.mem_singleton.mp hr
      rfl
    · cases h
  | process ok now => exact (hreceive h hr).elim
  | transmit i r | register i r | spawn i =>
    obtain ⟨c, -, h⟩ := Option.bind_eq_some_iff.mp h
    exact (hsend h hr).elim
  | wake i now | retransmit i ok now | expire i | reportTimeout i =>
    obtain ⟨c, -, h⟩ := Option.bind_eq_some_iff.mp h
    exact (htask h hr).elim

end Occurrences

end PessiStreamer.Reliable
