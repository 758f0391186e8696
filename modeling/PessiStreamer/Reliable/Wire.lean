import PessiStreamer.Common.Wire
import PessiStreamer.Reliable.Network

/-!
# The reliable layer over bytes

What the sockets hand to the network are bytes, written by `bincode::serialize`; `receive` reads
the first of them into a buffer and decodes what it finds there. The network of packets is what
remains of it: a datagram is decoded to the packet that was written, or is lost.
-/

namespace PessiStreamer.Reliable
open Base Common

section Format

variable {π : Type} {F : Format π}

/-- The number of the variant of a `UdpPacket`. -/
def udpVariant : UdpPacket π → Wire.Variant
  | .unreliable _ => 0
  | .reliable _ _ => 1
  | .ack _ => 2

/-- The fields of a variant. -/
def udpFields (F : Format π) (k : Wire.Variant) : Format (UdpPacket π) :=
  if k = 0 then
    F.embed .unreliable (fun | .unreliable payload => some payload | _ => none) (by
      rintro payload (_ | _ | _)
      · simp [eq_comm]
      · simp
      · simp)
  else if k = 1 then
    ((Format.ofCodec u64).prod F).embed (fun p ↦ .reliable p.1 p.2)
      (fun | .reliable packetId payload => some (packetId, payload) | _ => none) (by
        rintro ⟨packetId, payload⟩ (_ | _ | _)
        · simp
        · simp [eq_comm]
        · simp)
  else if k = 2 then
    (Format.ofCodec u64).embed .ack (fun | .ack packetId => some packetId | _ => none) (by
      rintro packetId (_ | _ | _)
      · simp
      · simp
      · simp [eq_comm])
  else .ofCodec .fail

private theorem udpFields_valid {k : Wire.Variant} {p : UdpPacket π} (h : (udpFields F k).Valid p) :
    udpVariant p = k := by
  unfold udpFields at h
  split at h
  · next hk =>
    obtain ⟨payload, rfl, -⟩ := Format.embed_valid.mp h
    exact hk.symm
  · split at h
    · next hk =>
      obtain ⟨q, rfl, -⟩ := Format.embed_valid.mp h
      exact hk.symm
    · split at h
      · next hk =>
        obtain ⟨packetId, rfl, -⟩ := Format.embed_valid.mp h
        exact hk.symm
      · exact h.elim

/-- A `UdpPacket` whose payload has the format `F`. -/
def udpPacket (F : Format π) : Format (UdpPacket π) :=
  Format.keyed (.littleEndian 4) udpVariant (udpFields F) fun _ _ ↦ udpFields_valid

/-- The payload of a packet, if it has one. -/
def UdpPacket.payload? : UdpPacket π → Option π
  | .unreliable payload | .reliable _ payload => some payload
  | .ack _ => none

/-- A packet can be written if its payload can. -/
theorem udpPacket_valid {p : UdpPacket π} :
    (udpPacket F).Valid p ↔ ∀ payload ∈ p.payload?, F.Valid payload := by
  show (Codec.littleEndian 4).Valid _ ∧ (udpFields F (udpVariant p)).Valid p ↔ _
  rw [and_iff_right (Codec.littleEndian_valid 4 _)]
  cases p with
  | unreliable payload =>
    show (udpFields F 0).Valid _ ↔ _
    unfold udpFields
    rw [if_pos rfl, Format.embed_valid_iff]
    simp [UdpPacket.payload?]
  | reliable packetId payload =>
    show (udpFields F 1).Valid _ ↔ _
    unfold udpFields
    rw [if_neg (by decide), if_pos rfl, Format.embed_valid_iff (a := (packetId, payload))]
    have hid := u64_valid packetId
    simp only [UdpPacket.payload?, Option.mem_def, Option.some.injEq, forall_eq']
    exact and_iff_right hid
  | ack packetId =>
    show (udpFields F 2).Valid _ ↔ _
    unfold udpFields
    rw [if_neg (by decide), if_neg (by decide), if_pos rfl, Format.embed_valid_iff]
    simp only [UdpPacket.payload?, Option.mem_def]
    exact iff_of_true (u64_valid packetId) fun _ h ↦ nomatch h

/-- The bytes that a packet takes. -/
def UdpPacket.size (size : π → Nat) : UdpPacket π → Nat
  | .unreliable payload => 4 + size payload
  | .reliable _ payload => 12 + size payload
  | .ack _ => 12

private theorem udpPacket_sized {size : π → Nat} (h : F.Sized size) :
    (udpPacket F).Sized (UdpPacket.size size) := by
  have hfields (k : Wire.Variant) : (udpFields F k).Sized fun p ↦ p.size size - 4 := by
    unfold udpFields
    split
    · apply h.embed
      intro payload
      simp only [UdpPacket.size]
      omega
    · split
      · apply (Wire.u64_sized.prod h).embed
        intro p
        simp only [UdpPacket.size]
        omega
      · split
        · exact Wire.u64_sized.embed fun _ ↦ rfl
        · exact fun p hp ↦ hp.elim
  intro p hp
  refine (Format.Sized.keyed Wire.length_variant hfields p hp).trans ?_
  cases p with
  | unreliable payload => simp only [UdpPacket.size]; omega
  | reliable packetId payload => simp only [UdpPacket.size]; omega
  | ack packetId => rfl

end Format

/-- The functions of `bincode` that a socket uses. -/
structure Serialization (π : Type) where
  serialize : UdpPacket π → Option (List UInt8)
  deserialize : List UInt8 → Option (UdpPacket π)

/-- `bincode` writes packets in its format, refuses those that it cannot represent, and reads a
packet from the front of the bytes. -/
structure Serialization.Follows {π : Type} (s : Serialization π) (F : Format π) : Prop where
  serialize : ∀ p data,
    s.serialize p = some data ↔ (udpPacket F).Valid p ∧ data = (udpPacket F).encode p
  deserialize : ∀ l, s.deserialize l = ((udpPacket F).decode l).map Prod.fst

/-- Whatever the size of the buffer, a packet is received as it was sent if it fits into the buffer,
and otherwise not at all. -/
theorem deserialize_sent {s : Serialization Packet} (hs : s.Follows Wire.packet)
    {p : UdpPacket Packet} (hp : ∀ payload ∈ p.payload?, Wire.Fits payload) (bufferSize : Nat) :
    ∃ data, s.serialize p = some data ∧ s.deserialize (data.take bufferSize) =
      if p.size Wire.size ≤ bufferSize then some p else none := by
  have hvalid : (udpPacket Wire.packet).Valid p := by
    rw [udpPacket_valid]
    exact fun payload hpayload ↦ Wire.packet_valid.mpr (hp payload hpayload)
  refine ⟨_, (hs.serialize p _).mpr ⟨hvalid, rfl⟩, ?_⟩
  rw [hs.deserialize, Format.decode_take hvalid, udpPacket_sized Wire.packet_sized p hvalid]

/-- The format of the packets, run by its own definitions. -/
def bincode : Serialization Packet where
  serialize p :=
    if ∀ payload ∈ p.payload?, Wire.Fits payload then some ((udpPacket Wire.packet).encode p)
    else none
  deserialize l := ((udpPacket Wire.packet).decode l).map Prod.fst

private theorem bincode_follows : bincode.Follows Wire.packet where
  serialize := by
    intro p data
    have hvalid : (udpPacket Wire.packet).Valid p ↔ ∀ payload ∈ p.payload?, Wire.Fits payload := by
      rw [udpPacket_valid]
      exact forall₂_congr fun _ _ ↦ Wire.packet_valid
    rw [hvalid, bincode, Option.ite_none_right_eq_some, Option.some.injEq, eq_comm (a := data)]
  deserialize _ := rfl

/-- A buffer of 40 bytes is too small for three bytes of a video. -/
theorem deserialize_sent_short : ∃ data,
    bincode.serialize (.reliable 3 (.videoPacket ⟨5, 1, [7, 8, 9]⟩)) = some data ∧
      bincode.deserialize (data.take 40) = none := by
  have hfits : ∀ payload ∈ (UdpPacket.reliable 3 (Packet.videoPacket ⟨5, 1, [7, 8, 9]⟩)).payload?,
      Wire.Fits payload := by decide
  exact deserialize_sent bincode_follows hfits 40

section Network

variable {π α : Type} [DecidableEq α] {shard : α → UInt64 → Nat}

/-- A datagram as the operating system has it. -/
structure RawDatagram (α : Type) where
  source : α
  destination : α
  data : List UInt8
  deriving DecidableEq, Repr

/-- Sockets and the bytes in flight between them. -/
structure RawNetwork (π α : Type) where
  endpoint : α → Monitor π α
  inFlight : List (RawDatagram α)

/-- What is handed to the operating system for a packet. -/
def Serialization.raw (s : Serialization π) (d : Datagram π α) : Option (RawDatagram α) :=
  (s.serialize d.packet).map fun data ↦ ⟨d.source, d.destination, data⟩

namespace RawNetwork

/-- A network of new sockets. -/
def new : RawNetwork π α := ⟨fun _ ↦ .new, []⟩

/-- One endpoint takes a step, for which it must be able to write what it sends. -/
def act (s : Serialization π) (shard : α → UInt64 → Nat) (n : RawNetwork π α) (address : α)
    (action : Action π α) : Option (RawNetwork π α) := do
  let r ← (n.endpoint address).socket.step? (shard address) action
  let sent ← (sentBy address r.2).mapM s.raw
  return {
    endpoint := Function.update n.endpoint address ⟨r.1, r.2 ++ (n.endpoint address).history⟩
    inFlight := n.inFlight ++ sent }

/-- The bytes that arrive are cut to the size of the buffer; where they are no packet, `receive`
returns an error and leaves the socket as it is. -/
def step? (s : Serialization π) (bufferSize : Nat) (shard : α → UInt64 → Nat)
    (n : RawNetwork π α) : NetworkEvent π α → Option (RawNetwork π α)
  | .act address action => if action.isReceive then none else n.act s shard address action
  | .deliver k => do
    let d ← n.inFlight[k]?
    let rest : RawNetwork π α := { n with inFlight := n.inFlight.eraseIdx k }
    match s.deserialize (d.data.take bufferSize) with
    | some packet => rest.act s shard d.destination (.receive packet d.source)
    | none =>
      match (n.endpoint d.destination).socket.receiving with
      | .idle => return rest
      | _ => none
  | .lose k => some { n with inFlight := n.inFlight.eraseIdx k }
  | .duplicate k => do
    let d ← n.inFlight[k]?
    return { n with inFlight := n.inFlight ++ [d] }

/-- The states that the byte-level network can reach. -/
def Reachable (s : Serialization π) (bufferSize : Nat) (shard : α → UInt64 → Nat)
    (n : RawNetwork π α) : Prop :=
  ∃ tr, Run (fun n e n' ↦ RawNetwork.step? s bufferSize shard n e = some n') .new tr n

/-- The bytes in flight are those of the packets in flight, and the sockets are the same. -/
structure Carries (F : Format π) (n : RawNetwork π α) (m : Network π α) : Prop where
  endpoint : n.endpoint = m.endpoint
  inFlight : n.inFlight = m.inFlight.map fun d ↦
    ⟨d.source, d.destination, (udpPacket F).encode d.packet⟩
  valid : ∀ d ∈ m.inFlight, (udpPacket F).Valid d.packet

variable {F : Format π} {s : Serialization π} {bufferSize : Nat} {n n' : RawNetwork π α}
  {m : Network π α}

omit [DecidableEq α] in
private theorem mapM_raw (hs : s.Follows F) {ds : List (Datagram π α)} {raw : List (RawDatagram α)}
    (h : ds.mapM s.raw = some raw) : (∀ d ∈ ds, (udpPacket F).Valid d.packet) ∧
      raw = ds.map fun d ↦ ⟨d.source, d.destination, (udpPacket F).encode d.packet⟩ := by
  induction ds generalizing raw with
  | nil =>
    cases h
    exact ⟨List.forall_mem_nil _, rfl⟩
  | cons d ds ih =>
    simp only [List.mapM_cons, Option.bind_eq_bind, Option.bind_eq_some_iff] at h
    obtain ⟨rd, hd, rds, hds, heq⟩ := h
    cases heq
    obtain ⟨data, hdata, rfl⟩ := Option.map_eq_some_iff.mp hd
    obtain ⟨hvalid, rfl⟩ := (hs.serialize d.packet data).mp hdata
    obtain ⟨hall, rfl⟩ := ih hds
    exact ⟨List.forall_mem_cons.mpr ⟨hvalid, hall⟩, rfl⟩

private theorem Carries.act (h : Carries F n m) (hs : s.Follows F) {a : α} {action : Action π α}
    (hact : n.act s shard a action = some n') :
    ∃ m', m.act shard a action = some m' ∧ Carries F n' m' := by
  simp only [RawNetwork.act, Option.bind_eq_bind, Option.bind_eq_some_iff] at hact
  obtain ⟨r, hr, sent, hsent, heq⟩ := hact
  cases heq
  obtain ⟨hvalid, rfl⟩ := mapM_raw hs hsent
  rw [h.endpoint] at hr
  refine ⟨_, congrArg (Option.map _) hr, ?_, ?_, ?_⟩
  · simp only [h.endpoint]
  · simp only [h.inFlight, List.map_append]
  · exact List.forall_mem_append.mpr ⟨h.valid, hvalid⟩

/-- A step over bytes is one of the network of packets; a datagram that does not fit into the
buffer is lost. -/
theorem Carries.step (h : Carries F n m) (hs : s.Follows F) {e : NetworkEvent π α}
    (hstep : n.step? s bufferSize shard e = some n') :
    ∃ e' m', m.step? shard e' = some m' ∧ Carries F n' m' := by
  have hrest (k : Nat) : Carries F { n with inFlight := n.inFlight.eraseIdx k }
      { m with inFlight := m.inFlight.eraseIdx k } := by
    refine ⟨h.endpoint, ?_, fun d hd ↦ h.valid d (List.eraseIdx_subset hd)⟩
    simp only [h.inFlight, List.eraseIdx_map]
  have hdatagram {k : Nat} {d : RawDatagram α} (hd : n.inFlight[k]? = some d) :
      ∃ d', m.inFlight[k]? = some d' ∧ (udpPacket F).Valid d'.packet ∧
        d = ⟨d'.source, d'.destination, (udpPacket F).encode d'.packet⟩ := by
    rw [h.inFlight, List.getElem?_map] at hd
    obtain ⟨d', hd', rfl⟩ := Option.map_eq_some_iff.mp hd
    exact ⟨d', hd', h.valid d' (List.mem_of_getElem? hd'), rfl⟩
  cases e with
  | act a action =>
    simp only [RawNetwork.step?] at hstep
    split at hstep
    · cases hstep
    · next hreceive =>
      obtain ⟨m', hm', hcarries⟩ := h.act hs hstep
      exact ⟨.act a action, m', (if_neg hreceive).trans hm', hcarries⟩
  | deliver k =>
    simp only [RawNetwork.step?, Option.bind_eq_bind, Option.bind_eq_some_iff] at hstep
    obtain ⟨d, hd, hstep⟩ := hstep
    obtain ⟨d', hd', hvalid, rfl⟩ := hdatagram hd
    rw [hs.deserialize, Format.decode_take hvalid] at hstep
    split at hstep
    · next packet hpacket =>
      split at hpacket
      · cases hpacket
        obtain ⟨m', hm', hcarries⟩ := (hrest k).act hs hstep
        refine ⟨.deliver k, m', ?_, hcarries⟩
        simp only [Network.step?, hd', Option.bind_eq_bind, Option.bind_some]
        exact hm'
      · cases hpacket
    · split at hstep
      · cases hstep
        exact ⟨.lose k, _, rfl, hrest k⟩
      · cases hstep
  | lose k =>
    cases hstep
    exact ⟨.lose k, _, rfl, hrest k⟩
  | duplicate k =>
    simp only [RawNetwork.step?, Option.bind_eq_bind, Option.bind_eq_some_iff] at hstep
    obtain ⟨d, hd, heq⟩ := hstep
    cases heq
    obtain ⟨d', hd', hvalid, rfl⟩ := hdatagram hd
    refine ⟨.duplicate k, { m with inFlight := m.inFlight ++ [d'] }, ?_, h.endpoint, ?_, ?_⟩
    · simp [Network.step?, hd']
    · simp [h.inFlight]
    · exact List.forall_mem_append.mpr ⟨h.valid, List.forall_mem_singleton.mpr hvalid⟩

/-- A socket observes the datagram it takes off the network, and no other one. -/
theorem received_act {a b : α} {action : Action π α} {packet : UdpPacket π} {source : α}
    (hact : n.act s shard a action = some n')
    (hr : .received packet source ∈ (n'.endpoint b).history) :
    .received packet source ∈ (n.endpoint b).history ∨ action = .receive packet source := by
  simp only [RawNetwork.act, Option.bind_eq_bind, Option.bind_eq_some_iff] at hact
  obtain ⟨r, hstep, sent, -, heq⟩ := hact
  cases heq
  dsimp only at hr
  by_cases hb : b = a
  · subst hb
    rw [Function.update_self] at hr
    rcases List.mem_append.mp hr with hr | hr
    · exact .inr (received_of_step? hstep hr)
    · exact .inl hr
  · rw [Function.update_of_ne hb] at hr
    exact .inl hr

/-- What was received can be written and fits into the buffer. -/
def ReceivedFits (F : Format π) (bufferSize : Nat) (n : RawNetwork π α) : Prop :=
  ∀ a packet source, .received packet source ∈ (n.endpoint a).history →
    (udpPacket F).Valid packet ∧ ((udpPacket F).encode packet).length ≤ bufferSize

private theorem Carries.receivedFits_step (h : Carries F n m) (hs : s.Follows F)
    (hfits : n.ReceivedFits F bufferSize) {e : NetworkEvent π α}
    (hstep : n.step? s bufferSize shard e = some n') : n'.ReceivedFits F bufferSize := by
  intro b packet source hr
  cases e with
  | act a action =>
    simp only [RawNetwork.step?] at hstep
    split at hstep
    · cases hstep
    · next hreceive =>
      rcases received_act hstep hr with hr | rfl
      · exact hfits b packet source hr
      · exact (hreceive rfl).elim
  | deliver k =>
    simp only [RawNetwork.step?, Option.bind_eq_bind, Option.bind_eq_some_iff] at hstep
    obtain ⟨d, hd, hstep⟩ := hstep
    split at hstep
    · next packet' hpacket =>
      rcases received_act hstep hr with hr | heq
      · exact hfits b packet source hr
      · cases heq
        rw [h.inFlight, List.getElem?_map] at hd
        obtain ⟨d', hd', rfl⟩ := Option.map_eq_some_iff.mp hd
        have hvalid := h.valid d' (List.mem_of_getElem? hd')
        rw [hs.deserialize, Format.decode_take hvalid] at hpacket
        split at hpacket
        · next hlength =>
          cases hpacket
          exact ⟨hvalid, hlength⟩
        · cases hpacket
    · split at hstep
      · cases hstep
        exact hfits b packet source hr
      · cases hstep
  | lose k =>
    cases hstep
    exact hfits b packet source hr
  | duplicate k =>
    simp only [RawNetwork.step?, Option.bind_eq_bind, Option.bind_eq_some_iff] at hstep
    obtain ⟨d, hd, heq⟩ := hstep
    cases heq
    exact hfits b packet source hr

/-- Over bytes the sockets get into no state that they do not get into over packets: what one
receives from another is what that one sent, and never more than the buffer holds. -/
theorem Reachable.raw_refines (hs : s.Follows F) (h : RawNetwork.Reachable s bufferSize shard n) :
    ∃ m, Network.Reachable shard m ∧ Carries F n m ∧ n.ReceivedFits F bufferSize ∧
      ∀ a packetId payload source,
        .returned (.reliable packetId payload) source ∈ (n.endpoint a).history →
          ∃ c ∈ (n.endpoint source).socket.calls,
            c.packetId = packetId ∧ c.payload = payload ∧ c.destination = a := by
  obtain ⟨tr, hrun⟩ := h
  have hinv : ∃ m, Network.Reachable shard m ∧ Carries F n m ∧ n.ReceivedFits F bufferSize := by
    refine hrun.invariant (I := fun n ↦ ∃ m, Network.Reachable shard m ∧ Carries F n m ∧
      n.ReceivedFits F bufferSize) ?_ ⟨.new, ⟨[], .refl _⟩, ⟨rfl, rfl, List.forall_mem_nil _⟩, ?_⟩
    · rintro n e n' ⟨m, ⟨tr', hm⟩, hcarries, hfits⟩ hstep
      obtain ⟨e', m', hm', hcarries'⟩ := hcarries.step hs hstep
      exact ⟨m', ⟨_, hm.tail hm'⟩, hcarries', hcarries.receivedFits_step hs hfits hstep⟩
    · intro a packet source hr
      cases hr
  obtain ⟨m, hm, hcarries, hfits⟩ := hinv
  refine ⟨m, hm, hcarries, hfits, fun a packetId payload source hr ↦ ?_⟩
  rw [hcarries.endpoint] at hr ⊢
  exact (hm.honest.returned a packetId payload source hr).1

end RawNetwork
end Network

/-- Endpoint `false` sends a request to endpoint `true`, which receives it. -/
def rawRequest : RawNetwork Packet Bool :=
  (trace (RawNetwork.step? bincode 65536 fun _ _ ↦ 0) .new
    [.act false (.call (.serverPacket (.requestVideo 5)) true), .act false (.transmit 0 (.ok ())),
      .act false (.register 0 0), .act false (.spawn 0), .deliver 0,
      .act true (.process true 0)]).2

/-- The request that arrived as bytes is that of a call of the other end. -/
theorem raw_refines_request : ∃ c ∈ (rawRequest.endpoint false).socket.calls,
    c.packetId = 0 ∧ c.payload = .serverPacket (.requestVideo 5) ∧ c.destination = true := by
  have hreachable : RawNetwork.Reachable bincode 65536 (fun _ _ ↦ 0) rawRequest :=
    ⟨_, run_trace _ _ _⟩
  obtain ⟨m, -, -, -, hreturned⟩ :=
    RawNetwork.Reachable.raw_refines bincode_follows hreachable
  exact hreturned true 0 _ false (by decide +kernel)

end PessiStreamer.Reliable
