import PessiStreamer.Base.Map
import PessiStreamer.Base.Transition
import PessiStreamer.Common.Packet

/-!
# The reliable layer over UDP

`common/src/reliable.rs`, cut at the points where another thread can come in between: each
access to the `DashMap` of pending packets, the atomic counter, each send of the socket and
each completion of a oneshot channel is one step. A payload is its own encoding.
-/

namespace PessiStreamer.Reliable
open Base Common

variable {π α : Type}

/-- `MAX_RETRIES`; `common/src/reliable.rs:15`. -/
def MAX_RETRIES : Nat := 5

/-- A tenth of a second; `common/src/reliable.rs:16`. -/
def TIMEOUT : Duration := 100000000

/-- `std::time::Instant`, by its distance from some origin in nanoseconds. -/
abbrev Instant := Nat

/-- `UdpPacket`; `common/src/reliable.rs:41`. -/
inductive UdpPacket (π : Type) where
  | unreliable (payload : π)
  | reliable (packetId : UInt64) (payload : π)
  | ack (packetId : UInt64)
  deriving DecidableEq, Repr

/-- `PendingPacket`; `common/src/reliable.rs:31`. -/
structure PendingPacket (π α : Type) where
  data : UdpPacket π
  /-- the sending half of the oneshot channel, by the number of the call that made it -/
  sender : Nat
  destination : α
  timestamp : Instant
  retries : Nat
  deriving DecidableEq, Repr

/-- How far a call of `send_reliable` has come. -/
inductive SendStage where
  /-- before the first transmission -/
  | numbered
  /-- before the entry is inserted -/
  | transmitted
  /-- before the retransmission task is spawned -/
  | registered
  | returned
  | failed (e : ReliableUdpSocketError)
  deriving DecidableEq, Repr

/-- How far a retransmission task has come. -/
inductive TaskStage where
  | sleeping
  /-- in `send_to`, holding the guard of its entry -/
  | sending
  /-- after the guard was dropped and before the entry is removed -/
  | expired
  /-- before the timeout is reported to the channel of the entry it removed -/
  | reporting (sender : Nat)
  | ended
  deriving DecidableEq, Repr

/-- A call of `send_reliable` with the task it spawns. -/
structure Call (π α : Type) where
  packetId : UInt64
  payload : π
  destination : α
  stage : SendStage
  task : Option TaskStage
  deriving DecidableEq, Repr

/-- How far the receiving loop has come. -/
inductive ReceiveStage (π α : Type) where
  | idle
  /-- a datagram was decoded -/
  | received (packet : UdpPacket π) (source : α)
  /-- before the acknowledgement is reported to the channel of the entry it removed -/
  | reporting (sender : Nat) (after : Duration)
  deriving DecidableEq, Repr

/-- `ReliableUdpSocket`; `common/src/reliable.rs:19`, with its calls and its reception. -/
structure Socket (π α : Type) where
  sequenceNumber : UInt64
  pendingPackets : Map UInt64 (PendingPacket π α)
  /-- the calls of `send_reliable` so far, oldest first -/
  calls : List (Call π α)
  receiving : ReceiveStage π α
  deriving DecidableEq

/-- What can be observed of a socket. -/
inductive Occurrence (π α : Type) where
  /-- the operating system took a datagram -/
  | sent (packet : UdpPacket π) (destination : α)
  | retransmitFailed (packetId : UInt64)
  | received (packet : UdpPacket π) (source : α)
  /-- `receive` processed an acknowledgement -/
  | ackProcessed (packetId : UInt64) (source : α)
  /-- `receive` returned the payload of a datagram to its caller -/
  | returned (packet : UdpPacket π) (source : α)
  /-- a result was sent over the oneshot channel of a call -/
  | completed (call : Nat) (result : ReliablePacketResult)
  deriving DecidableEq, Repr

/-- The steps of the calls, of their tasks and of the receiving loop, with what the clock
and the operating system answer. -/
inductive Action (π α : Type) where
  | call (payload : π) (destination : α)
  | transmit (call : Nat) (result : Except ReliableUdpSocketError Unit)
  | register (call : Nat) (now : Instant)
  | spawn (call : Nat)
  | wake (call : Nat) (now : Instant)
  | retransmit (call : Nat) (ok : Bool) (now : Instant)
  | expire (call : Nat)
  | reportTimeout (call : Nat)
  | receive (packet : UdpPacket π) (source : α)
  | process (ok : Bool) (now : Instant)

/-- The action takes a datagram off the network. -/
def Action.isReceive : Action π α → Bool
  | .receive _ _ => true
  | _ => false

namespace Socket

/-- `ReliableUdpSocket::new`; `common/src/reliable.rs:63`. -/
def new : Socket π α := ⟨0, ∅, [], .idle⟩

/-- A call goes on. -/
def setCall (s : Socket π α) (i : Nat) (c : Call π α) : Socket π α :=
  { s with calls := s.calls.set i c }

/-- The table of pending packets changes. -/
def setPending (s : Socket π α) (m : Map UInt64 (PendingPacket π α)) : Socket π α :=
  { s with pendingPackets := m }

/-- The reception goes on. -/
def setReceiving (s : Socket π α) (r : ReceiveStage π α) : Socket π α :=
  { s with receiving := r }

/-- A task in `send_to` holds a guard on the shard of this key. -/
def Locked (shard : UInt64 → Nat) (s : Socket π α) (key : UInt64) : Prop :=
  ∃ c ∈ s.calls, c.task = some .sending ∧ shard c.packetId = shard key

instance (shard : UInt64 → Nat) (s : Socket π α) (key : UInt64) :
    Decidable (s.Locked shard key) :=
  inferInstanceAs (Decidable (∃ c ∈ s.calls, c.task = some .sending ∧ shard c.packetId = shard key))

/-- `fetch_add`; `common/src/reliable.rs:85`. -/
def beginCall (s : Socket π α) (payload : π) (destination : α) : Socket π α :=
  { s with
    sequenceNumber := s.sequenceNumber + 1
    calls := s.calls ++ [⟨s.sequenceNumber, payload, destination, .numbered, none⟩] }

/-- One step of `send_reliable` after the packet was numbered; `common/src/reliable.rs:89-108`. -/
def stepSend (shard : UInt64 → Nat) (s : Socket π α) (i : Nat) (c : Call π α) :
    Action π α → Option (Socket π α × List (Occurrence π α))
  | .transmit _ result =>
    if c.stage = .numbered then
      match result with
      | .ok () =>
        some (s.setCall i { c with stage := .transmitted },
          [.sent (.reliable c.packetId c.payload) c.destination])
      | .error e => some (s.setCall i { c with stage := .failed e }, [])
    else none
  | .register _ now =>
    if c.stage = .transmitted ∧ ¬ s.Locked shard c.packetId then
      some ((s.setCall i { c with stage := .registered }).setPending
        (s.pendingPackets.insert c.packetId
          ⟨.reliable c.packetId c.payload, i, c.destination, now, 0⟩), [])
    else none
  | .spawn _ =>
    if c.stage = .registered then
      some (s.setCall i { c with stage := .returned, task := some .sleeping }, [])
    else none
  | _ => none

/-- One step of the task of `handle_retransmission`; `common/src/reliable.rs:180-217`. -/
def stepTask (shard : UInt64 → Nat) (s : Socket π α) (i : Nat) (c : Call π α) :
    Action π α → Option (Socket π α × List (Occurrence π α))
  | .wake _ now =>
    if c.task = some .sleeping ∧ ¬ s.Locked shard c.packetId then
      match s.pendingPackets.lookup c.packetId with
      | some p =>
        if MAX_RETRIES ≤ p.retries then
          some (s.setCall i { c with task := some .expired }, [])
        else if TIMEOUT ≤ now - p.timestamp then
          some (s.setCall i { c with task := some .sending }, [])
        else some (s, [])
      | none => some (s.setCall i { c with task := some .ended }, [])
    else none
  | .retransmit _ ok now =>
    if c.task = some .sending then
      match s.pendingPackets.lookup c.packetId with
      | some p =>
        if ok then
          some ((s.setCall i { c with task := some .sleeping }).setPending
            (s.pendingPackets.modify c.packetId fun p ↦
              { p with timestamp := now, retries := p.retries + 1 }),
            [.sent p.data p.destination])
        else
          -- the entry stays behind
          some (s.setCall i { c with task := some .ended }, [.retransmitFailed c.packetId])
      -- the guard keeps the entry
      | none => none
    else none
  | .expire _ =>
    if c.task = some .expired ∧ ¬ s.Locked shard c.packetId then
      match s.pendingPackets.lookup c.packetId with
      | some p =>
        some ((s.setCall i { c with task := some (.reporting p.sender) }).setPending
          (s.pendingPackets.erase c.packetId), [])
      | none => some (s.setCall i { c with task := some .ended }, [])
    else none
  | .reportTimeout _ =>
    match c.task with
    | some (.reporting sender) =>
      some (s.setCall i { c with task := some .ended }, [.completed sender .timeout])
    | _ => none
  | _ => none

/-- One step of `receive` after a datagram was decoded; `common/src/reliable.rs:158-173`. -/
def stepReceive (shard : UInt64 → Nat) (s : Socket π α) (ok : Bool) (now : Instant) :
    Option (Socket π α × List (Occurrence π α)) :=
  match s.receiving with
  | .received (.ack packetId) source =>
    if s.Locked shard packetId then none
    else
      match s.pendingPackets.lookup packetId with
      | some p =>
        some ((s.setPending (s.pendingPackets.erase packetId)).setReceiving
          (.reporting p.sender (now - p.timestamp)), [.ackProcessed packetId source])
      | none => some (s.setReceiving .idle, [.ackProcessed packetId source])
  | .received (.reliable packetId payload) source =>
    if ok then
      some (s.setReceiving .idle,
        [.returned (.reliable packetId payload) source, .sent (.ack packetId) source])
    else some (s.setReceiving .idle, [])
  | .received (.unreliable payload) source =>
    some (s.setReceiving .idle, [.returned (.unreliable payload) source])
  | .reporting sender after =>
    some (s.setReceiving .idle, [.completed sender (.acknowledged after)])
  | .idle => none

/-- One step of a socket, if it is enabled, with what can be observed of it, newest first. -/
def step? (shard : UInt64 → Nat) (s : Socket π α) (a : Action π α) :
    Option (Socket π α × List (Occurrence π α)) :=
  match a with
  | .call payload destination => some (s.beginCall payload destination, [])
  | .transmit i _ | .register i _ | .spawn i =>
    s.calls[i]?.bind fun c ↦ s.stepSend shard i c a
  | .wake i _ | .retransmit i _ _ | .expire i | .reportTimeout i =>
    s.calls[i]?.bind fun c ↦ s.stepTask shard i c a
  | .receive packet source =>
    match s.receiving with
    | .idle => some (s.setReceiving (.received packet source), [.received packet source])
    | _ => none
  | .process ok now => s.stepReceive shard ok now

end Socket

/-- A socket and everything observed of it so far, newest first. -/
structure Monitor (π α : Type) where
  socket : Socket π α
  history : List (Occurrence π α)

/-- A socket that was just opened. -/
def Monitor.new : Monitor π α := ⟨.new, []⟩

/-- A step of a socket adds what is observed of it to the history. -/
def Monitor.step? (shard : UInt64 → Nat) (m : Monitor π α) (a : Action π α) :
    Option (Monitor π α) :=
  (m.socket.step? shard a).map fun r ↦ ⟨r.1, r.2 ++ m.history⟩

/-- The states of a socket after any run of its calls, tasks and receiving loop, from its
opening, whatever datagrams arrive and whichever sends fail. -/
def Reachable (shard : UInt64 → Nat) (m : Monitor π α) : Prop :=
  ∃ tr, Run (fun s a t ↦ Monitor.step? shard s a = some t) .new tr m

end PessiStreamer.Reliable
