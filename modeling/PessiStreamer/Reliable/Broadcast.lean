import PessiStreamer.Base.Sending
import PessiStreamer.Reliable.Socket

/-!
# Unreliable broadcasts

`ReliableUdpSocket::send_unreliable_broadcast`; `common/src/reliable.rs:122`. The payload is
serialised once, and its encoding is handed to the socket for one address after the other.
-/

namespace PessiStreamer.Reliable
open Base Common

variable {π α δ : Type}

/-- The loop of `send_unreliable_broadcast`: the datagrams sent, and the failure that ended it.
The sends are counted from `i`. -/
def sendToAll (sendTo : Nat → Except ReliableUdpSocketError Unit) (data : δ) (i : Nat) :
    List α → List (α × δ) × Except ReliableUdpSocketError Unit
  | [] => ([], .ok ())
  | addr :: addrs =>
    match sendTo i with
    | .ok () =>
      let r := sendToAll sendTo data (i + 1) addrs
      ((addr, data) :: r.1, r.2)
    | .error e => ([], .error e)

/-- `ReliableUdpSocket::send_unreliable_broadcast`; `common/src/reliable.rs:122`. -/
def sendUnreliableBroadcast (serialize : UdpPacket π → Except ReliableUdpSocketError δ)
    (sendTo : Nat → Except ReliableUdpSocketError Unit) (payload : π) (addrs : List α) :
    List (α × δ) × Except ReliableUdpSocketError Unit :=
  match serialize (.unreliable payload) with
  | .ok data => sendToAll sendTo data 0 addrs
  | .error e => ([], .error e)

variable {serialize : UdpPacket π → Except ReliableUdpSocketError δ}
  {sendTo : Nat → Except ReliableUdpSocketError Unit} {payload : π} {data : δ}

/-- The loop gets through what comes before its first failure. -/
theorem sendToAll_fst (i : Nat) (addrs : List α) : (sendToAll sendTo data i addrs).1 =
    (takenUntilFailure (accepts sendTo) i addrs).map (·, data) := by
  induction addrs generalizing i with
  | nil => rfl
  | cons addr addrs ih =>
    rw [sendToAll, takenUntilFailure_cons]
    cases h : sendTo i with
    | ok u =>
      have hok : accepts sendTo i := accepts_iff.mpr h
      rw [if_pos hok, List.map_cons, ← ih (i + 1)]
    | error e =>
      have hfail : ¬ accepts sendTo i := by
        rw [accepts_iff, h]
        exact nofun
      rw [if_neg hfail]
      rfl

/-- A broadcast sends a copy to each address before the first failure. -/
theorem sendUnreliableBroadcast_fst (h : serialize (.unreliable payload) = .ok data)
    (addrs : List α) : (sendUnreliableBroadcast serialize sendTo payload addrs).1 =
      (takenUntilFailure (accepts sendTo) 0 addrs).map (·, data) := by
  rw [sendUnreliableBroadcast, h]
  exact sendToAll_fst 0 addrs

end PessiStreamer.Reliable
