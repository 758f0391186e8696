import Mathlib.Data.List.Basic

/-!
# Addresses, packets and constants shared by the programs

`common/src/lib.rs` and `common/src/packet.rs`. A `SystemTime` is its distance from
the epoch and a `Duration` its length, both in nanoseconds; the encoding of a time
before the epoch fails, so packets carry none.
-/

namespace PessiStreamer.Common

/-- `std::net::IpAddr`, by its bits. -/
inductive IpAddr where
  | v4 (bits : BitVec 32)
  | v6 (bits : BitVec 128)
  deriving DecidableEq, Repr

/-- `std::net::SocketAddr`. -/
structure SocketAddr where
  ip : IpAddr
  port : UInt16
  deriving DecidableEq, Repr

/-- `VideoId`; `common/src/lib.rs:9`. -/
abbrev VideoId := UInt64

/-- The id that the bootstrapper gave a node. -/
abbrev NodeId := UInt64

/-- Nanoseconds since a fixed moment. -/
abbrev SystemTime := Nat

/-- Nanoseconds. -/
abbrev Duration := Nat

/-- Port used by the servers and the nodes; `common/src/lib.rs:7`. -/
def PORT : UInt16 := 8010

/-- The address of a server or node at `ip`; `node/src/main.rs:24`, `server/src/main.rs:30`. -/
def IpAddr.atPort (ip : IpAddr) : SocketAddr := ⟨ip, PORT⟩

/-- One second; `common/src/lib.rs:11`. -/
def FLOOD_PACKET_INTERVAL : Duration := 1000000000

/-- One second; `common/src/lib.rs:12`. -/
def CLIENT_PING_INTERVAL : Duration := 1000000000

/-- Half a second; `common/src/lib.rs:13`. -/
def VIDEO_PACKET_MAX_DELAY : Duration := 500000000

/-- `SystemTime::duration_since` with `unwrap_or(Duration::ZERO)`, which every caller adds:
a time that lies in the future is at distance zero. -/
def durationSince (now earlier : SystemTime) : Duration := now - earlier

/-- `VideoPacket`; `common/src/packet.rs:19`. -/
structure VideoPacket where
  streamId : VideoId
  sequenceNumber : UInt64
  streamData : List UInt8
  deriving DecidableEq, Repr

/-- Packets originated by a server and passed on by the nodes. -/
structure FloodPacket where
  /-- when the packet was created at the server -/
  createdAtServerTime : SystemTime
  /-- the videos available in the sender -/
  videosAvailable : List (VideoId × String)
  /-- the nodes that have been visited by this packet, oldest first -/
  visitedNodes : List NodeId
  /-- the parents of the sender -/
  myParents : List SocketAddr
  deriving DecidableEq, Repr

/-- `FloodPacket::hops`; `common/src/packet.rs:63`. -/
def FloodPacket.hops (p : FloodPacket) : Nat := p.visitedNodes.length

/-- Packets that only a node should receive. -/
inductive NodePacket where
  | clientPing (sequenceNumber : UInt64) (requestedVideos : List VideoId)
  | newNeighbour
  | floodPacket (packet : FloodPacket)
  deriving DecidableEq, Repr

/-- Packets that ask a server or node to start or stop a video. -/
inductive ServerPacket where
  | requestVideo (videoId : VideoId)
  | stopVideo (videoId : VideoId)
  deriving DecidableEq, Repr

/-- `VideoListPacket`; `common/src/packet.rs:83`. -/
structure VideoListPacket where
  sequenceNumber : UInt64
  videos : List (VideoId × String)
  answerCreationDate : SystemTime
  deriving DecidableEq, Repr

/-- Packets that only a client should receive. -/
inductive ClientPacket where
  | videoList (packet : VideoListPacket)
  deriving DecidableEq, Repr

/-- `Packet`; `common/src/packet.rs:7`. -/
inductive Packet where
  | videoPacket (packet : VideoPacket)
  | nodePacket (packet : NodePacket)
  | serverPacket (packet : ServerPacket)
  | clientPacket (packet : ClientPacket)
  deriving DecidableEq, Repr

/-- Why a send failed; `common/src/reliable.rs:48`. -/
inductive ReliableUdpSocketError where
  | ioError
  | bincodeError
  deriving DecidableEq, Repr

/-- How a reliable send was resolved; `common/src/reliable.rs:55`. -/
inductive ReliablePacketResult where
  | acknowledged (after : Duration)
  | timeout
  deriving DecidableEq, Repr

/-- `oneshot::error::RecvError`: the sending half was dropped. -/
inductive RecvError where
  | mk
  deriving DecidableEq, Repr

end PessiStreamer.Common
