import PessiStreamer.Node.Rules
import PessiStreamer.Server.State

/-!
# Servers and nodes as hosts of the network

What servers and nodes have in common: they keep subscribers for videos and answer the
packets that reach them.
-/

namespace PessiStreamer.System
open Base Common Node

/-- The command about a video that a packet carries: `true` asks for it, `false` stops it. -/
def commandOf (v : VideoId) : Packet → Option Bool
  | .serverPacket (.requestVideo u) => if u = v then some true else none
  | .serverPacket (.stopVideo u) => if u = v then some false else none
  | _ => none

/-- A command is a request or a stop. -/
theorem commandOf_eq_some {v : VideoId} {p : Packet} {b : Bool} (h : commandOf v p = some b) :
    p = .serverPacket (if b then .requestVideo v else .stopVideo v) := by
  unfold commandOf at h
  split at h
  · split at h
    · next hu =>
      cases h
      simp [hu]
    · cases h
  · split at h
    · next hu =>
      cases h
      simp [hu]
    · cases h
  · cases h

/-- A server or a node. -/
inductive Host where
  | server (s : Server.State)
  | node (s : Node.State)
  deriving DecidableEq

namespace Host

/-- The id of a server or node. -/
def id : Host → NodeId
  | .server s => s.id
  | .node s => s.id

/-- The addresses a host sends flood packets to; a node keeps their ips. -/
def neighbours : Host → List SocketAddr
  | .server s => s.neighbours
  | .node s => s.neighbours.map IpAddr.atPort

/-- The host is a node. -/
def isNode : Host → Bool
  | .server _ => false
  | .node _ => true

/-- What the packet loop of the host does with one packet. -/
def handle (env : Env) (packet : Packet) (addr : SocketAddr) : Host → Host
  | .server s => .server (s.handlePacket packet addr)
  | .node s => .node (Event.after ⟨.packet packet addr, env, s⟩).state

/-- The interested list of a video. -/
def subscribers (h : Host) (v : VideoId) : List SocketAddr :=
  match h with
  | .server s => s.subscribers v
  | .node s => s.subscribers v

/-- The host takes subscribers for the video: a server those of its own videos, a node all. -/
def Hosts (h : Host) (v : VideoId) : Prop :=
  match h with
  | .server s => s.Hosts v
  | .node _ => True

instance (h : Host) (v : VideoId) : Decidable (h.Hosts v) :=
  match h with
  | .server s => inferInstanceAs (Decidable ((s.videos.lookup v).isSome = true))
  | .node _ => inferInstanceAs (Decidable True)

variable {h : Host} {env : Env} {v : VideoId} {a : SocketAddr}

/-- The subscribers of a node do not depend on whether the request upstream was sent. -/
private theorem subscribers_requestVideoToNode (u : VideoId) (n : SocketAddr) (c : Ctx) :
    (finalState (requestVideoToNode u n) c).state.subscribers v = c.state.subscribers v := by
  rcases requestVideoToNode_cases u n c with hr | ⟨e, -, hr⟩
  · simp [finalState, hr]
  · simp [finalState, hr]

/-- A request makes its sender a subscriber, whatever becomes of the request upstream. -/
theorem mem_subscribers_request (hv : h.Hosts v) :
    a ∈ (h.handle env (.serverPacket (.requestVideo v)) a).subscribers v := by
  cases h with
  | server s => exact Server.State.mem_subscribers_request hv
  | node s =>
    have hmem := mem_subscribe s v a
    change a ∈ (finalState (handleRequestVideo v a) (.start env s)).state.subscribers v
    rcases handleRequestVideo_cases v a (.start env s) with ⟨-, hr⟩ | ⟨-, n, -, hr⟩ | ⟨-, -, hr⟩
    · simp only [finalState, hr]
      exact hmem
    · have hsub := subscribers_requestVideoToNode (v := v) v n
        ((Ctx.start env s).setState ((Ctx.start env s).state.subscribe v a))
      simp only [finalState, hr] at hsub ⊢
      rw [hsub]
      exact hmem
    · simp only [finalState, hr]
      exact hmem

/-- A stop leaves its sender no subscriber. -/
theorem not_mem_subscribers_stop :
    a ∉ (h.handle env (.serverPacket (.stopVideo v)) a).subscribers v := by
  cases h with
  | server s => exact Server.State.not_mem_subscribers_stop
  | node s =>
    have hnot : a ∉ (s.unsubscribe v a).subscribers v := by simp
    change a ∉ (finalState (handleStopVideo v a) (.start env s)).state.subscribers v
    rcases handleStopVideo_cases v a (.start env s) with ⟨-, hr⟩ | ⟨-, n, -, hr⟩
    · simp only [finalState, hr]
      exact hnot
    · rcases send_cases (.serverPacket (.stopVideo v)) n
        ((Ctx.start env s).setState (((Ctx.start env s).state.unsubscribe v a).dropRoute v))
        with hs | ⟨e, -, hs⟩
      · simp only [finalState, hr, hs]
        exact hnot
      · simp only [finalState, hr, hs]
        exact hnot

end Host
end PessiStreamer.System
