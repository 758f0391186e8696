import PessiStreamer.Base.Sending
import PessiStreamer.Node.Rules

/-!
# What the sends of a node deliver

The packets a run hands to the network, whatever becomes of its sends.
-/

namespace PessiStreamer.Node
open Base Common

/-- The sends of a run that the socket takes. -/
def Env.accepts (env : Env) : Nat → Bool := Base.accepts env.sendResult

/-- Where all sends succeed each one does. -/
theorem Env.AllOk.accepts {env : Env} (h : env.AllOk) (i : Nat) : env.accepts i :=
  accepts_iff.mpr (h i)

/-- A send goes through or fails by its number. -/
theorem send_eq (p : Packet) (a : SocketAddr) (c : Ctx) :
    (c.env.accepts c.attempts = true ∧ send p a c = .ok () (c.push p a)) ∨
      (c.env.accepts c.attempts = false ∧ ∃ e, send p a c = .error (.socket e) c.fail) := by
  unfold send Env.accepts accepts
  cases c.env.sendResult c.attempts with
  | ok u => exact .inl ⟨rfl, rfl⟩
  | error e => exact .inr ⟨rfl, e, rfl⟩

/-- What a send makes of a context, whether it goes through or not. -/
structure Tried (p : Packet) (a : SocketAddr) (c d : Ctx) : Prop where
  sameEnv : d.env = c.env
  state : d.state = c.state
  attempts : d.attempts = c.attempts + 1
  sent : d.sent = c.sent ++ taken c.env.accepts c.attempts [(a, p)]

/-- A send is tried once. -/
theorem send_tried (p : Packet) (a : SocketAddr) (c : Ctx) :
    Tried p a c (finalState (send p a) c) := by
  rcases send_eq p a c with ⟨hok, h⟩ | ⟨hfail, e, h⟩
  · rw [finalState_of_ok h]
    constructor
    · rfl
    · rfl
    · rfl
    · rw [taken_cons, if_pos hok]
      rfl
  · rw [finalState_of_error h]
    constructor
    · rfl
    · rfl
    · rfl
    · rw [taken_cons, hfail]
      exact (List.append_nil _).symm

/-- A request goes out and the route is installed, or its send fails. -/
theorem requestVideoToNode_eq (v : VideoId) (n : SocketAddr) (c : Ctx) :
    (c.env.accepts c.attempts = true ∧ requestVideoToNode v n c =
        .ok () ((c.push (.serverPacket (.requestVideo v)) n).setState (c.state.setRoute v n))) ∨
      (c.env.accepts c.attempts = false ∧
        ∃ e, requestVideoToNode v n c = .error (.socket e) c.fail) := by
  rcases send_eq (.serverPacket (.requestVideo v)) n c with ⟨hok, h⟩ | ⟨hfail, e, h⟩
  · exact .inl ⟨hok, by simp [requestVideoToNode, h]⟩
  · exact .inr ⟨hfail, e, by simp [requestVideoToNode, h]⟩

/-- The state after a request for a video; `ok` tells whether the socket takes the request that is
passed on to another node. -/
def State.afterRequest (s : State) (v : VideoId) (a : SocketAddr) (ok : Bool) : State :=
  if (s.videoRoutes.lookup v).isSome then s.subscribe v a
  else match s.getBestNodeToRedirect v with
    | some n => if ok then (s.subscribe v a).setRoute v n else s.subscribe v a
    | none => (s.subscribe v a).enqueue [v]

/-- A request enters the client, and a route if the send upstream succeeds. -/
theorem handleRequestVideo_state (v : VideoId) (a : SocketAddr) (c : Ctx) :
    (finalState (handleRequestVideo v a) c).state =
      c.state.afterRequest v a (c.env.accepts c.attempts) := by
  unfold State.afterRequest
  rcases handleRequestVideo_cases v a c with ⟨hsome, h⟩ | ⟨hnone, n, hb, h⟩ | ⟨hnone, hb, h⟩
  · rw [finalState_of_ok h, if_pos hsome]
    rfl
  · rw [if_neg (by simp [hnone]), hb, finalState_congr h]
    rcases requestVideoToNode_eq v n (c.setState (c.state.subscribe v a)) with
      ⟨hok, hreq⟩ | ⟨hfail, e, hreq⟩
    · have hok : c.env.accepts c.attempts = true := hok
      rw [finalState_of_ok hreq, hok]
      rfl
    · have hfail : c.env.accepts c.attempts = false := hfail
      rw [finalState_of_error hreq, hfail]
      rfl
  · rw [if_neg (by simp [hnone]), hb, finalState_of_ok h]
    rfl

/-- What a broadcast to `addrs` makes of a context. -/
structure Broadcasted (p : Packet) (addrs : List SocketAddr) (c d : Ctx) : Prop where
  state : d.state = c.state
  sent : d.sent = c.sent ++ (takenUntilFailure c.env.accepts c.attempts addrs).map (·, p)
  attempts : c.attempts ≤ d.attempts
  tries : d.attempts = c.attempts ↔ addrs = []

/-- A broadcast tries its sends until one fails. -/
theorem broadcasted (p : Packet) (addrs : List SocketAddr) (c : Ctx) :
    Broadcasted p addrs c (finalState (sendUnreliableBroadcast p addrs) c) := by
  induction addrs generalizing c with
  | nil => exact ⟨rfl, (List.append_nil _).symm, Nat.le_refl _, iff_of_true rfl rfl⟩
  | cons a addrs ih =>
    have hcons : sendUnreliableBroadcast p (a :: addrs) c =
        (send p a >>= fun _ ↦ sendUnreliableBroadcast p addrs) c := rfl
    rw [bind_apply] at hcons
    rcases send_eq p a c with ⟨hok, hs⟩ | ⟨hfail, e, hs⟩
    · rw [hs] at hcons
      rw [finalState_congr hcons]
      have hrest := ih (c.push p a)
      have hmore : c.attempts < (finalState (sendUnreliableBroadcast p addrs)
          (c.push p a)).attempts := hrest.attempts
      constructor
      · exact hrest.state
      · apply hrest.sent.trans
        simp [hok]
      · exact Nat.le_of_lt hmore
      · exact iff_of_false (Nat.ne_of_gt hmore) (List.cons_ne_nil a addrs)
    · rw [hs] at hcons
      rw [finalState_of_error hcons]
      constructor
      · rfl
      · simp [hfail]
      · exact Nat.le_succ _
      · exact iff_of_false (Nat.succ_ne_self _) (List.cons_ne_nil a addrs)

section VideoPackets

/-- The number `handle_video_packet` expects; `node/src/handle.rs:210`. -/
def State.expected (s : State) (packet : VideoPacket) : UInt64 :=
  (s.lastVideoSequenceNumber.lookup packet.streamId).getD packet.sequenceNumber + 1

/-- Whom a video packet is broadcast to; nobody if it is dropped. -/
def State.recipients (s : State) (packet : VideoPacket) : List SocketAddr :=
  if s.expected packet < packet.sequenceNumber then [] else s.subscribers packet.streamId

/-- The handler of a video packet notes it and broadcasts it. -/
theorem handleVideoPacket_eq (packet : VideoPacket) (c : Ctx) : handleVideoPacket packet c =
    sendUnreliableBroadcast (.videoPacket packet) (c.state.recipients packet)
      (c.setState (c.state.recordVideoPacket packet c.env.now)) := by
  unfold State.recipients State.expected State.subscribers
  simp only [handleVideoPacket, bind_apply, getState_apply, now_apply, modifyState_apply]
  split
  · rfl
  · cases c.state.interested.lookup packet.streamId with
    | none => rfl
    | some subscribers => rfl

/-- What one run of the handler of a video packet does. -/
theorem handleVideoPacket_broadcasted (packet : VideoPacket) (env : Env) (s : State) :
    Broadcasted (.videoPacket packet) (s.recipients packet)
      (.start env (s.recordVideoPacket packet env.now))
      (finalState (handleVideoPacket packet) (.start env s)) := by
  rw [finalState_congr (handleVideoPacket_eq packet (.start env s))]
  exact broadcasted (.videoPacket packet) (s.recipients packet)
    (.start env (s.recordVideoPacket packet env.now))

end VideoPackets
end PessiStreamer.Node
