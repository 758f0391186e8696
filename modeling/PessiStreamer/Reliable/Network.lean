import PessiStreamer.Reliable.Resolution

/-!
# Sockets over a lossy network

Any number of sockets, one at each address, over a network that loses, duplicates, delays
and reorders datagrams but delivers none that was not sent.
-/

namespace PessiStreamer.Reliable
open Base Common

variable {π α : Type} [DecidableEq α] {shard : α → UInt64 → Nat}

/-- A packet on its way between two sockets. -/
structure Datagram (π α : Type) where
  source : α
  destination : α
  packet : UdpPacket π
  deriving DecidableEq, Repr

/-- Sockets with their histories at their addresses, and the datagrams on their way. -/
structure Network (π α : Type) where
  endpoint : α → Monitor π α
  inFlight : List (Datagram π α)

/-- A step of one socket, or of the network with the datagram at a position. -/
inductive NetworkEvent (π α : Type) where
  | act (address : α) (action : Action π α)
  | deliver (k : Nat)
  | lose (k : Nat)
  | duplicate (k : Nat)

/-- The datagrams an endpoint handed to the network. -/
def sentBy (address : α) (o : List (Occurrence π α)) : List (Datagram π α) :=
  o.filterMap fun
    | .sent packet destination => some ⟨address, destination, packet⟩
    | _ => none

namespace Network

/-- Sockets that were just opened, and nothing in flight. -/
def new : Network π α := ⟨fun _ ↦ .new, []⟩

/-- One endpoint takes a step, and what it sends is in flight. -/
def act (shard : α → UInt64 → Nat) (n : Network π α) (address : α) (action : Action π α) :
    Option (Network π α) :=
  ((n.endpoint address).socket.step? (shard address) action).map fun r ↦
    { endpoint := Function.update n.endpoint address ⟨r.1, r.2 ++ (n.endpoint address).history⟩
      inFlight := n.inFlight ++ sentBy address r.2 }

/-- One step of the network, if it is possible. -/
def step? (shard : α → UInt64 → Nat) (n : Network π α) :
    NetworkEvent π α → Option (Network π α)
  | .act address action => if action.isReceive then none else n.act shard address action
  | .deliver k => do
    let d ← n.inFlight[k]?
    { n with inFlight := n.inFlight.eraseIdx k }.act shard d.destination
      (.receive d.packet d.source)
  | .lose k => some { n with inFlight := n.inFlight.eraseIdx k }
  | .duplicate k => do
    let d ← n.inFlight[k]?
    return { n with inFlight := n.inFlight ++ [d] }

/-- The states of a network after any run from the opening of its sockets. -/
def Reachable (shard : α → UInt64 → Nat) (n : Network π α) : Prop :=
  ∃ tr, Run (fun n e n' ↦ Network.step? shard n e = some n') .new tr n

end Network

/-- What the source of a packet did before the packet came to be in flight. -/
def Network.Genuine (n : Network π α) (source destination : α) : UdpPacket π → Prop
  | .unreliable _ => True
  | .reliable packetId payload => ∃ c ∈ (n.endpoint source).socket.calls,
      c.packetId = packetId ∧ c.payload = payload ∧ c.destination = destination
  | .ack packetId => ∃ payload, .returned (.reliable packetId payload) destination ∈
      (n.endpoint source).history

namespace Network

variable {n n' : Network π α} {a : α}

/-- What was genuine stays so: calls are not forgotten and histories grow. -/
def Grows (n n' : Network π α) : Prop := ∀ b,
  (∀ c ∈ (n.endpoint b).socket.calls, ∃ c' ∈ (n'.endpoint b).socket.calls, SameCall c c') ∧
  (n.endpoint b).history ⊆ (n'.endpoint b).history

omit [DecidableEq α] in
private theorem Genuine.grow {source destination : α} {packet : UdpPacket π}
    (h : n.Genuine source destination packet) (hg : n.Grows n') :
    n'.Genuine source destination packet := by
  cases packet with
  | unreliable payload => trivial
  | reliable packetId payload =>
    obtain ⟨c, hc, rfl, rfl, rfl⟩ := h
    obtain ⟨c', hc', hsame⟩ := (hg source).1 c hc
    exact ⟨c', hc', hsame.packetId, hsame.payload, hsame.destination⟩
  | ack packetId =>
    obtain ⟨payload, h⟩ := h
    exact ⟨payload, (hg source).2 h⟩

/-- A step of one endpoint. -/
theorem act_cases {action : Action π α} (h : n.act shard a action = some n') :
    ∃ t o, (n.endpoint a).socket.step? (shard a) action = some (t, o) ∧
      n'.endpoint = Function.update n.endpoint a ⟨t, o ++ (n.endpoint a).history⟩ ∧
      n'.inFlight = n.inFlight ++ sentBy a o := by
  obtain ⟨⟨t, o⟩, hstep, rfl⟩ := Option.map_eq_some_iff.mp h
  exact ⟨t, o, hstep, rfl, rfl⟩

/-- A step is one of the network alone, or of one endpoint, which may take a datagram off the
network. -/
theorem step_cases {e : NetworkEvent π α} (h : n.step? shard e = some n') :
    (n'.endpoint = n.endpoint ∧ n'.inFlight ⊆ n.inFlight) ∨
    ∃ a action t o, (n.endpoint a).socket.step? (shard a) action = some (t, o) ∧
      n'.endpoint = Function.update n.endpoint a ⟨t, o ++ (n.endpoint a).history⟩ ∧
      n'.inFlight ⊆ n.inFlight ++ sentBy a o ∧
      ∀ packet source, action = .receive packet source → ⟨source, a, packet⟩ ∈ n.inFlight := by
  cases e with
  | act a action =>
    right
    simp only [step?] at h
    split at h
    · cases h
    · next hr =>
      obtain ⟨t, o, hstep, hend, hflight⟩ := act_cases h
      refine ⟨a, action, t, o, hstep, hend, hflight ▸ List.Subset.refl _,
        fun packet source heq ↦ ?_⟩
      simp [heq, Action.isReceive] at hr
  | deliver k =>
    right
    simp only [step?, Option.bind_eq_bind, Option.bind_eq_some_iff] at h
    obtain ⟨d, hd, hact⟩ := h
    obtain ⟨t, o, hstep, hend, hflight⟩ := act_cases hact
    refine ⟨d.destination, _, t, o, hstep, hend, ?_, fun packet source heq ↦ ?_⟩
    · rw [hflight]
      intro x hx
      exact (List.mem_append.mp hx).elim (fun hx ↦ List.mem_append_left _ (List.eraseIdx_subset hx))
        fun hx ↦ List.mem_append_right _ hx
    · cases heq
      exact List.mem_of_getElem? hd
  | lose k =>
    cases h
    exact .inl ⟨rfl, List.eraseIdx_subset⟩
  | duplicate k =>
    left
    simp only [step?, Option.bind_eq_bind, Option.bind_eq_some_iff] at h
    obtain ⟨d, hd, hadd⟩ := h
    cases hadd
    refine ⟨rfl, fun x hx ↦ ?_⟩
    rcases List.mem_append.mp hx with hx | hx
    · exact hx
    · exact List.mem_singleton.mp hx ▸ List.mem_of_getElem? hd

omit [DecidableEq α] in

/-- The datagrams of an endpoint are those that it has sent. -/
theorem mem_sentBy {o : List (Occurrence π α)} {d : Datagram π α} :
    d ∈ sentBy a o ↔ d.source = a ∧ .sent d.packet d.destination ∈ o := by
  rw [sentBy, List.mem_filterMap]
  constructor
  · rintro ⟨x, hx, hd⟩
    cases x with
    | sent packet destination =>
      cases hd
      exact ⟨rfl, hx⟩
    | _ => cases hd
  · rintro ⟨rfl, hd⟩
    exact ⟨_, hd, rfl⟩

/-- Every packet on its way was sent by its source, and every acknowledgement by an endpoint
that returned the payload. -/
structure Honest (n : Network π α) : Prop where
  wellFormed : ∀ b, WellFormed (n.endpoint b).socket
  inFlight : ∀ d ∈ n.inFlight, n.Genuine d.source d.destination d.packet
  receiving : ∀ b packet source, (n.endpoint b).socket.receiving = .received packet source →
    n.Genuine source b packet ∧ .received packet source ∈ (n.endpoint b).history
  returned : ∀ b packetId payload source,
    .returned (.reliable packetId payload) source ∈ (n.endpoint b).history →
      n.Genuine source b (.reliable packetId payload) ∧
      .received (.reliable packetId payload) source ∈ (n.endpoint b).history ∧
      .sent (.ack packetId) source ∈ (n.endpoint b).history
  acked : ∀ b packetId source, .ackProcessed packetId source ∈ (n.endpoint b).history →
    n.Genuine source b (.ack packetId)

omit [DecidableEq α] in
private theorem honest_new : Honest (new : Network π α) where
  wellFormed := fun _ ↦ .new
  inFlight := by
    intro d hd
    cases hd
  receiving := by
    intro b packet source h
    cases h
  returned := by
    intro b packetId payload source h
    cases h
  acked := by
    intro b packetId source h
    cases h

/-- Whatever the network does to the datagrams, it forges none. -/
theorem Honest.step {e : NetworkEvent π α} (h : Honest n) (hstep : n.step? shard e = some n') :
    Honest n' := by
  rcases step_cases hstep with ⟨hend, hflight⟩ | ⟨a, action, t, o, hstep, hend, hflight, hreceive⟩
  · obtain ⟨endpoint', inFlight'⟩ := n'
    obtain rfl : endpoint' = n.endpoint := hend
    exact ⟨h.wellFormed, fun d hd ↦ h.inFlight d (hflight hd), h.receiving, h.returned, h.acked⟩
  · have ht := Socket.transition_of_step? hstep
    have hself : n'.endpoint a = ⟨t, o ++ (n.endpoint a).history⟩ := by simp [hend]
    have hother {b : α} (hb : b ≠ a) : n'.endpoint b = n.endpoint b := by simp [hend, hb]
    have hgrows : n.Grows n' := by
      intro b
      by_cases hb : b = a
      · subst hb
        rw [hself]
        refine ⟨fun c hc ↦ ?_, List.subset_append_right _ _⟩
        obtain ⟨j, hj⟩ := List.mem_iff_getElem?.mp hc
        obtain ⟨c', hc', hsame⟩ := ht.persists hj
        exact ⟨c', List.mem_of_getElem? hc', hsame⟩
      · rw [hother hb]
        exact ⟨fun c hc ↦ ⟨c, hc, .refl c⟩, List.Subset.refl _⟩
    have hreceived {packet : UdpPacket π} {source : α} (hmem : .received packet source ∈ o) :
        n.Genuine source a packet :=
      h.inFlight _ (hreceive packet source (received_of_step? hstep hmem))
    have hnew {x : Occurrence π α} (hx : x ∈ (n'.endpoint a).history) :
        x ∈ o ∨ x ∈ (n.endpoint a).history := by
      rw [hself] at hx
      exact List.mem_append.mp hx
    have hkept {b : α} {x : Occurrence π α} (hx : x ∈ (n.endpoint b).history) :
        x ∈ (n'.endpoint b).history := (hgrows b).2 hx
    have hadded {x : Occurrence π α} (hx : x ∈ o) : x ∈ (n'.endpoint a).history := by
      rw [hself]
      exact List.mem_append_left _ hx
    refine ⟨fun b ↦ ?_, fun d hd ↦ ?_, fun b packet source hr ↦ ?_,
      fun b packetId payload source hr ↦ ?_, fun b packetId source hp ↦ ?_⟩
    · by_cases hb : b = a
      · subst hb
        rw [hself]
        exact (h.wellFormed b).step ht
      · rw [hother hb]
        exact h.wellFormed b
    · rcases List.mem_append.mp (hflight hd) with hd | hd
      · exact (h.inFlight d hd).grow hgrows
      · obtain ⟨source, destination, packet⟩ := d
        obtain ⟨rfl, hsent⟩ := mem_sentBy.mp hd
        rcases ht.sent_cases (h.wellFormed source) hsent with
          ⟨c, hc, hpacket, hdest⟩ | ⟨k, payload, hpacket, hret⟩
        · obtain rfl : packet = _ := hpacket
          exact Genuine.grow ⟨c, hc, rfl, rfl, hdest.symm⟩ hgrows
        · obtain rfl : packet = _ := hpacket
          exact ⟨payload, hadded hret⟩
    · by_cases hb : b = a
      · subst hb
        rw [hself] at hr
        rcases ht.receiving_cases hr with hr | hr
        · obtain ⟨hg, hmem⟩ := h.receiving b packet source hr
          exact ⟨hg.grow hgrows, hkept hmem⟩
        · exact ⟨(hreceived hr).grow hgrows, hadded hr⟩
      · rw [hother hb] at hr ⊢
        obtain ⟨hg, hmem⟩ := h.receiving b packet source hr
        exact ⟨hg.grow hgrows, hmem⟩
    · by_cases hb : b = a
      · subst hb
        rcases hnew hr with hr | hr
        · obtain ⟨hrec, hack⟩ := ht.returned_cases hr
          obtain ⟨hg, hmem⟩ := h.receiving b _ source hrec
          exact ⟨hg.grow hgrows, hkept hmem, hadded (hack packetId payload rfl)⟩
        · obtain ⟨hg, hmem, hack⟩ := h.returned b packetId payload source hr
          exact ⟨hg.grow hgrows, hkept hmem, hkept hack⟩
      · rw [hother hb] at hr ⊢
        obtain ⟨hg, hmem, hack⟩ := h.returned b packetId payload source hr
        exact ⟨hg.grow hgrows, hmem, hack⟩
    · by_cases hb : b = a
      · subst hb
        rcases hnew hp with hp | hp
        · exact (h.receiving b _ source (ht.ackProcessed_cases hp)).1.grow hgrows
        · exact (h.acked b packetId source hp).grow hgrows
      · rw [hother hb] at hp
        exact (h.acked b packetId source hp).grow hgrows

/-- In every reachable state the datagrams in flight were sent by their sources. -/
theorem Reachable.honest (h : Reachable shard n) : Honest n := by
  obtain ⟨tr, hrun⟩ := h
  exact hrun.invariant (fun _ _ _ hn hstep ↦ hn.step hstep) honest_new

/-- A step of a network is, for each of its sockets, a step or none. -/
theorem endpoint_step {e : NetworkEvent π α} (h : n.step? shard e = some n') (b : α) :
    n'.endpoint b = n.endpoint b ∨
      ∃ action, Monitor.step? (shard b) (n.endpoint b) action = some (n'.endpoint b) := by
  rcases step_cases h with ⟨hend, -⟩ | ⟨a, action, t, o, hstep, hend, -, -⟩
  · exact .inl (congrFun hend b)
  · by_cases hb : b = a
    · subst hb
      right
      exact ⟨action, by simp [Monitor.step?, hstep, hend]⟩
    · left
      simp [hend, hb]

/-- No call is forgotten, and histories only grow. -/
theorem endpoint_grows {e : NetworkEvent π α} (h : n.step? shard e = some n') (b : α) :
    (n.endpoint b).socket.calls.length ≤ (n'.endpoint b).socket.calls.length ∧
    (∀ (j : Nat) (c : Call π α), (n.endpoint b).socket.calls[j]? = some c →
      ∃ c', (n'.endpoint b).socket.calls[j]? = some c' ∧ SameCall c c') ∧
    (n.endpoint b).history ⊆ (n'.endpoint b).history := by
  rcases endpoint_step h b with heq | ⟨action, hstep⟩
  · rw [heq]
    exact ⟨Nat.le_refl _, fun j c hc ↦ ⟨c, hc, .refl c⟩, List.Subset.refl _⟩
  · obtain ⟨o, -, hhist, ht⟩ := Monitor.transition hstep
    rw [hhist]
    exact ⟨calls_length_le ht, fun j c hc ↦ ht.persists hc, List.subset_append_right _ _⟩

/-- Each socket of a network is in a state it could reach alone. -/
theorem Reachable.endpoint (h : Reachable shard n) (b : α) :
    Reliable.Reachable (shard b) (n.endpoint b) := by
  obtain ⟨tr, hrun⟩ := h
  refine hrun.invariant (I := fun n ↦ Reliable.Reachable (shard b) (n.endpoint b)) ?_
    ⟨[], .refl _⟩
  rintro n e n' ⟨tr, hn⟩ hstep
  rcases endpoint_step hstep b with heq | ⟨action, haction⟩
  · rw [heq]
    exact ⟨tr, hn⟩
  · exact ⟨_, hn.tail haction⟩

/-- A send that was reported as acknowledged was received by the endpoint it was meant for,
which acknowledged it and returned its payload. -/
theorem reachable_no_false_ack (h : Reachable shard n)
    (hlen : (n.endpoint a).socket.calls.length < 2 ^ 64) {i : Nat} {c : Call π α}
    {after : Duration} (hc : (n.endpoint a).socket.calls[i]? = some c)
    (hack : .completed i (.acknowledged after) ∈ (n.endpoint a).history) :
    .received (.reliable c.packetId c.payload) a ∈ (n.endpoint c.destination).history ∧
    .sent (.ack c.packetId) a ∈ (n.endpoint c.destination).history ∧
    .returned (.reliable c.packetId c.payload) a ∈ (n.endpoint c.destination).history := by
  have hn := h.honest
  obtain ⟨newer, older, heq⟩ := List.append_of_mem hack
  obtain ⟨source, hprocessed⟩ :=
    (reachable_result_discipline (h.endpoint a) hlen hc).2.1 newer older after heq
  have hmem : .ackProcessed c.packetId source ∈ (n.endpoint a).history := by
    rw [heq]
    exact List.mem_append_right _ (List.mem_cons_of_mem _ hprocessed)
  obtain ⟨payload, hreturned⟩ := hn.acked a c.packetId source hmem
  obtain ⟨⟨c', hc', hid, rfl, rfl⟩, hreceived, hsent⟩ :=
    hn.returned source c.packetId payload a hreturned
  -- the acknowledged number is the one of this call, so the packet is, too
  obtain ⟨j, hj⟩ := List.mem_iff_getElem?.mp hc'
  obtain rfl := (hn.wellFormed a).call_eq (Nat.le_of_lt hlen) hj hc hid
  obtain rfl : c' = c := Option.some.inj (hj.symm.trans hc)
  exact ⟨hreceived, hsent, hreturned⟩

/-- The network after a list of events, each of which must be enabled. -/
def after (shard : α → UInt64 → Nat) (events : List (NetworkEvent π α)) : Network π α :=
  (trace (Network.step? shard) .new events).2

private theorem reachable_after (events : List (NetworkEvent π α)) :
    Reachable shard (after shard events) :=
  ⟨_, run_trace _ _ events⟩

end Network

/-- Endpoint `false` sends to endpoint `true`, which acknowledges. -/
def roundTrip : Network String Bool := .after (fun _ _ ↦ 0)
  [.act false (.call "five" true), .act false (.transmit 0 (.ok ())), .act false (.register 0 0),
    .act false (.spawn 0), .deliver 0, .act true (.process true 0), .deliver 0,
    .act false (.process true 1), .act false (.process true 1)]

/-- The other endpoint has returned the payload. -/
theorem no_false_ack_roundTrip :
    .returned (.reliable 0 "five") false ∈ (roundTrip.endpoint true).history :=
  (Network.reachable_no_false_ack (n := roundTrip) (a := false) (i := 0)
    (c := ⟨0, "five", true, .returned, some .sleeping⟩) (Network.reachable_after _)
    (by decide) (by decide) (by exact List.mem_cons_self)).2.2

end PessiStreamer.Reliable
