import PessiStreamer.Node.Delivery
import PessiStreamer.Reliable.Broadcast
import PessiStreamer.Server.State
import PessiStreamer.System.Tasks

/-!
# One packet for many receivers

Nodes and servers hand a packet for several addresses to `send_unreliable_broadcast`, which ends
at the first send that fails.
-/

namespace PessiStreamer.System
open Base Common

/-- A broadcast of a server is one of its socket. -/
theorem broadcast_eq (sendResult : Nat → Except ReliableUdpSocketError Unit) (packet : Packet)
    (i : Nat) (addrs : List SocketAddr) : Server.broadcast sendResult packet i addrs =
      Reliable.sendToAll sendResult packet i addrs := by
  induction addrs generalizing i with
  | nil => rfl
  | cons addr addrs ih =>
    cases h : sendResult i with
    | ok u => simp only [Server.broadcast, Reliable.sendToAll, h, ih]
    | error e => simp only [Server.broadcast, Reliable.sendToAll, h]

/-- A place where one packet goes to several addresses. -/
inductive Fanout where
  /-- `State::handle_video_packet` of a node -/
  | handleVideoPacket (now : SystemTime) (s : Node.State) (packet : VideoPacket)
  /-- a chunk in `State::start_streaming_video` of a server -/
  | startStreamingVideo (s : Server.State) (videoId : VideoId) (streamData : List UInt8)
  /-- a turn of `run_periodic_flood_packets` of a server -/
  | runPeriodicFloodPackets (s : Server.State) (now : SystemTime)

namespace Fanout

/-- The packets handed to the network. -/
def sent (sendResult : Nat → Except ReliableUdpSocketError Unit) :
    Fanout → List (SocketAddr × Packet)
  | handleVideoPacket now s packet =>
    (finalState (Node.handleVideoPacket packet) (.start ⟨now, sendResult⟩ s)).sent
  | startStreamingVideo s videoId streamData => (s.streamVideo videoId streamData sendResult).2
  | runPeriodicFloodPackets s now => (s.flood now sendResult).1

/-- The addresses the packet is meant for. -/
def addrs : Fanout → List SocketAddr
  | handleVideoPacket _ s packet => s.recipients packet
  | startStreamingVideo s videoId _ => s.subscribers videoId
  | runPeriodicFloodPackets s _ => s.neighbours

/-- The packet. -/
def packet : Fanout → Packet
  | handleVideoPacket _ _ packet => .videoPacket packet
  | startStreamingVideo s videoId streamData => .videoPacket ⟨videoId,
      ((s.videos.lookup videoId).map Server.Video.sequenceNumber).getD 0 + 1, streamData⟩
  | runPeriodicFloodPackets s now => .nodePacket (.floodPacket (s.floodPacket now))

/-- Each address whose own send would succeed is sent the packet once, whatever becomes of the
others. -/
def Spares (f : Fanout) (sendResult : Nat → Except ReliableUdpSocketError Unit) : Prop :=
  f.sent sendResult = (taken (accepts sendResult) 0 f.addrs).map (·, f.packet)

/-- The packet reaches the addresses before the first failure. -/
theorem sent_eq (f : Fanout) (sendResult : Nat → Except ReliableUdpSocketError Unit) :
    f.sent sendResult = (takenUntilFailure (accepts sendResult) 0 f.addrs).map (·, f.packet) := by
  cases f with
  | handleVideoPacket now s packet =>
    exact (Node.handleVideoPacket_broadcasted packet ⟨now, sendResult⟩ s).sent
  | startStreamingVideo s videoId streamData =>
    simp only [sent, addrs, packet, Server.State.streamVideo, Server.State.subscribers]
    cases s.videos.lookup videoId with
    | none => rfl
    | some video =>
      show (if video.interested = [] then _ else _ : Server.State × _).2 = _
      by_cases h : video.interested = []
      · rw [if_pos h]
        show [] = (takenUntilFailure _ 0 video.interested).map _
        rw [h]
        rfl
      · rw [if_neg h, broadcast_eq]
        exact Reliable.sendToAll_fst 0 video.interested
  | runPeriodicFloodPackets s now =>
    show (Server.broadcast sendResult _ 0 s.neighbours).1 = _
    rw [broadcast_eq]
    exact Reliable.sendToAll_fst 0 s.neighbours

end Fanout

private theorem map_takenUntilFailure_eq_iff {α β : Type} {ok : Nat → Bool} {l : List α} {b : β} :
    (takenUntilFailure ok 0 l).map (·, b) = (taken ok 0 l).map (·, b) ↔
      FailuresLast ok 0 l.length := by
  rw [← takenUntilFailure_eq_taken_iff]
  exact (List.map_injective_iff.mpr (Prod.mk_left_injective b)).eq_iff

/-- `send_unreliable_broadcast` sends the payload once for every position of its list whose own
send would succeed, and each of its callers spares the other receivers, just if no send that would
succeed comes after one that fails. -/
theorem broadcast_spares_iff {π α δ : Type}
    (serialize : Reliable.UdpPacket π → Except ReliableUdpSocketError δ)
    (sendTo : Nat → Except ReliableUdpSocketError Unit) (payload : π) (data : δ)
    (hdata : serialize (.unreliable payload) = .ok data) (addrs : List α) (f : Fanout) :
    ((Reliable.sendUnreliableBroadcast serialize sendTo payload addrs).1 =
        (taken (accepts sendTo) 0 addrs).map (·, data) ↔
      FailuresLast (accepts sendTo) 0 addrs.length) ∧
    (f.Spares sendTo ↔ FailuresLast (accepts sendTo) 0 f.addrs.length) := by
  constructor
  · rw [Reliable.sendUnreliableBroadcast_fst hdata]
    exact map_takenUntilFailure_eq_iff
  · rw [Fanout.Spares, f.sent_eq]
    exact map_takenUntilFailure_eq_iff

/-- A copy of a flood that cannot be sent ends the task as well, whatever turns were to follow. -/
theorem runPeriodicFloodPackets_ends {now : SystemTime}
    {sendResult : Nat → Except ReliableUdpSocketError Unit} {s : Server.State}
    (hfails : ∃ i < s.neighbours.length, sendResult i ≠ .ok ()) {before : List LoopTurn}
    (hbefore : loop before = .ok ()) (after : List LoopTurn) :
    ∃ e, loop (before ++ .flood now sendResult s :: after) = .error (.socket e) := by
  obtain ⟨i, hi, hfail⟩ := hfails
  cases hturn : (LoopTurn.flood now sendResult s).result with
  | ok u => exact (hfail ((LoopTurn.result_eq_ok _).mp hturn i hi)).elim
  | error e =>
    obtain ⟨err, rfl⟩ := LoopTurn.result_eq_error hturn
    refine ⟨err, ?_⟩
    rw [loop_append, hbefore]
    show ((LoopTurn.flood now sendResult s).result >>= fun _ ↦ loop after) = _
    rw [hturn]
    rfl

/-- A server with two neighbours. -/
def twoNeighbours : Server.State := ⟨9, ∅, [(IpAddr.v4 1).atPort, (IpAddr.v4 2).atPort]⟩

/-- The socket takes the first copy and no other. -/
def firstOnly (i : Nat) : Except ReliableUdpSocketError Unit :=
  if i = 0 then .ok () else .error .ioError

/-- The socket takes every copy but the first. -/
def allButFirst (i : Nat) : Except ReliableUdpSocketError Unit :=
  if i = 0 then .error .ioError else .ok ()

/-- A failure of the last send costs no other address its copy. -/
theorem broadcast_spares_first :
    (Reliable.sendUnreliableBroadcast Except.ok firstOnly "chunk" [1, 2]).1 =
      [(1, .unreliable "chunk")] ∧
    (Fanout.runPeriodicFloodPackets twoNeighbours 0).Spares firstOnly := by
  have hlast : FailuresLast (accepts firstOnly) 0 2 := by
    intro i j hij hj _
    have hi : i = 0 := by omega
    rw [hi]
    rfl
  have h := broadcast_spares_iff Except.ok firstOnly "chunk" (.unreliable "chunk") rfl [1, 2]
    (.runPeriodicFloodPackets twoNeighbours 0)
  exact ⟨h.1.mpr hlast, h.2.mpr hlast⟩

/-- A node that passes video 5 on to two clients. -/
def twoClients : Node.State :=
  Node.simulate (.new 7 [] (IpAddr.v4 7).atPort)
    [(.packet (.serverPacket (.requestVideo 5)) ⟨.v4 3, 4000⟩, .calm 0),
      (.packet (.serverPacket (.requestVideo 5)) ⟨.v4 4, 4000⟩, .calm 0)]

/-- The first send fails, so the second address gets nothing: neither from the socket, nor from a
node that passes a video packet on, nor from a server that floods. -/
theorem broadcast_starved :
    (Reliable.sendUnreliableBroadcast Except.ok allButFirst "chunk" [1, 2]).1 = [] ∧
    taken (accepts allButFirst) 0 [1, 2] = [2] ∧
    ¬ (Fanout.handleVideoPacket 0 twoClients ⟨5, 1, []⟩).Spares allButFirst ∧
    ¬ (Fanout.runPeriodicFloodPackets twoNeighbours 0).Spares allButFirst := by
  unfold Fanout.Spares
  decide +kernel

end PessiStreamer.System
