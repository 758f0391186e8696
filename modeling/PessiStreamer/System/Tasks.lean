import PessiStreamer.Node.Sweeps
import PessiStreamer.Server.State

/-!
# The loops that keep a host alive

`main` joins its tasks in a `select!`, so the first loop that ends takes the host down. Between two
turns of a loop other tasks run, and a turn may find any state.
-/

namespace PessiStreamer.System
open Base Common Node

/-- What `receive` returns; nothing for an acknowledgement. -/
abbrev Received := Except ReliableUdpSocketError (Option (Packet × SocketAddr))

/-- A turn of one of the loops, with the state it finds and what the socket answers. -/
inductive LoopTurn where
  /-- `run_packet_task`; `node/src/node.rs:443` -/
  | nodePacket (received : Received) (env : Env) (s : Node.State)
  /-- `run_client_health_check_task` -/
  | clientHealthCheck (env : Env) (s : Node.State)
  /-- `run_video_health_check_task` -/
  | videoHealthCheck (env : Env) (s : Node.State)
  /-- `run_check_neighbours_task` -/
  | checkNeighbours (env : Env) (s : Node.State)
  /-- `run_client_socket`; `server/src/server.rs:153` -/
  | serverPacket (received : Received) (s : Server.State)
  /-- `run_periodic_flood_packets`; `server/src/server.rs:246` -/
  | flood (now : SystemTime) (sendResult : Nat → Except ReliableUdpSocketError Unit)
      (s : Server.State)

/-- How a handler ends. -/
def ending (m : Handler Unit) (c : Ctx) : Except HandlerError Unit :=
  match m c with
  | .ok _ _ => .ok ()
  | .error e _ => .error e

namespace LoopTurn

/-- How the turn ends; an error ends its loop. Errors of `receive`, and of the handler of a packet,
are logged. -/
def result : LoopTurn → Except HandlerError Unit
  | .nodePacket received env s =>
    match received with
    | .ok (some (p, addr)) => ending (attempt (handlePacket p addr)) (.start env s)
    | .ok none => .ok ()
    | .error _ => .ok ()
  | .clientHealthCheck env s => ending Node.clientHealthCheck (.start env s)
  | .videoHealthCheck env s => ending Node.videoHealthCheck (.start env s)
  | .checkNeighbours env s => ending Node.checkNeighbours (.start env s)
  | .serverPacket _ _ => .ok ()
  | .flood now sendResult s =>
    match (s.flood now sendResult).2 with
    | .ok () => .ok ()
    | .error e => .error (.socket e)

/-- A sweep treats every entry of its list; a packet is no sweep. -/
def Complete : LoopTurn → Prop
  | .nodePacket _ _ _ => True
  | .clientHealthCheck env s =>
    visited (checkClient env.now) s.lastPings.entries (.start env s) = s.lastPings.entries ∧
    ∀ ping ∈ s.lastPings.entries, Silent env.now ping →
      (finalState Node.clientHealthCheck (.start env s)).state.Left ping.1
  | .videoHealthCheck env s =>
    visited (checkVideo env.now) s.lastVideoPacketTime.entries (.start env s) =
      s.lastVideoPacketTime.entries
  | .checkNeighbours env s =>
    visited neighbourUnresponsive (s.staleParents env.now) (.start env s) =
      s.staleParents env.now ∧
    ∀ n ∈ s.staleParents env.now,
      (finalState Node.checkNeighbours (.start env s)).state.Left n ∧
      ¬ (finalState Node.checkNeighbours (.start env s)).state.IsActive n ∧
      ∀ c, ∃ d, handleUnresponsiveNode n c = .ok () d
  | .serverPacket _ _ => True
  | .flood now sendResult s => (s.flood now sendResult).1.map Prod.fst = s.neighbours

/-- The socket takes the sends of the two sweeps that pass a failed one up: the requests for the
overdue videos, and the copies of a flood. -/
def SendsTaken : LoopTurn → Prop
  | .videoHealthCheck env s =>
    ∀ i < s.lastVideoPacketTime.entries.countP fun p ↦ s.Overdue env.now p,
      env.sendResult i = .ok ()
  | .flood _ sendResult s => ∀ i < s.neighbours.length, sendResult i = .ok ()
  | _ => True

end LoopTurn

/-- The turns of a loop, one after the other until one fails. -/
def loop (turns : List LoopTurn) : Except HandlerError Unit := turns.forM LoopTurn.result

section Turns

variable {t : LoopTurn} {env : Env} {s : Node.State} {e : HandlerError}

private theorem ending_eq_ok {m : Handler Unit} {c : Ctx} :
    ending m c = .ok () ↔ ∃ d, m c = .ok () d := by
  unfold ending
  cases h : m c with
  | ok u d => simp
  | error e d => simp

private theorem ending_attempt (m : Handler Unit) (c : Ctx) : ending (attempt m) c = .ok () := by
  unfold ending attempt
  cases m c with
  | ok u d => rfl
  | error e d => rfl

private theorem requestVideoToNode_fails (v : VideoId) (n : SocketAddr) :
    Triple (fun _ ↦ True) (requestVideoToNode v n) (fun _ _ ↦ True)
      fun e _ ↦ ∃ err, e = .socket err := by
  intro c _
  rcases requestVideoToNode_cases v n c with h | ⟨err, -, h⟩
  · rw [h]
    trivial
  · rw [h]
    exact ⟨err, rfl⟩

/-- The sweep over the videos fails by its sends only. -/
theorem videoHealthCheck_error (h : ending Node.videoHealthCheck (.start env s) = .error e) :
    ∃ err, e = .socket err := by
  have hrule : Triple (fun _ ↦ True) Node.videoHealthCheck (fun _ _ ↦ True)
      fun e _ ↦ ∃ err, e = .socket err := by
    rw [videoHealthCheck]
    apply Triple.bind (Q := fun _ _ ↦ True) fun _ _ ↦ trivial
    intro s
    apply Triple.bind (Q := fun _ _ ↦ True) fun _ _ ↦ trivial
    intro t
    apply Triple.forM
    intro p _
    apply Triple.bind (Q := fun _ _ ↦ True) fun _ _ ↦ trivial
    intro u
    apply Triple.ite
    · intro _
      cases u.videoRoutes.lookup p.1 with
      | none => exact Triple.pure fun _ _ ↦ trivial
      | some n => exact requestVideoToNode_fails p.1 n
    · exact fun _ ↦ Triple.pure fun _ _ ↦ trivial
  have hend := hrule (.start env s) trivial
  unfold ending at h
  cases hr : Node.videoHealthCheck (.start env s) with
  | ok u d =>
    rw [hr] at h
    cases h
  | error e' d =>
    rw [hr] at h hend
    cases h
    exact hend

private theorem broadcast_snd (sendResult : Nat → Except ReliableUdpSocketError Unit)
    (packet : Packet)
    (i : Nat) (addrs : List SocketAddr) :
    (Server.broadcast sendResult packet i addrs).2 = .ok () ↔
      ∀ j < addrs.length, sendResult (i + j) = .ok () := by
  induction addrs generalizing i with
  | nil => simp [Server.broadcast]
  | cons addr addrs ih =>
    rw [Server.broadcast, List.length_cons, Nat.forall_lt_succ_left, Nat.add_zero]
    cases hsend : sendResult i with
    | ok u =>
      apply (ih (i + 1)).trans
      simp [Nat.add_assoc, Nat.add_comm 1]
    | error e => simp

/-- A flood returns just if the socket takes a copy for each neighbour. -/
theorem flood_eq_ok (now : SystemTime)
    (sendResult : Nat → Except ReliableUdpSocketError Unit) (s : Server.State) :
    (s.flood now sendResult).2 = .ok () ↔
      ∀ i < s.neighbours.length, sendResult i = .ok () := by
  apply (broadcast_snd sendResult _ 0 s.neighbours).trans
  simp only [Nat.zero_add]

private theorem broadcast_fst {sendResult : Nat → Except ReliableUdpSocketError Unit}
    {packet : Packet}
    {i : Nat} {addrs : List SocketAddr}
    (h : (Server.broadcast sendResult packet i addrs).2 = .ok ()) :
    (Server.broadcast sendResult packet i addrs).1.map Prod.fst = addrs := by
  induction addrs generalizing i with
  | nil => rfl
  | cons addr addrs ih =>
    rw [Server.broadcast] at h ⊢
    cases hsend : sendResult i with
    | ok u =>
      rw [hsend] at h
      exact congrArg (addr :: ·) (ih h)
    | error e =>
      rw [hsend] at h
      cases h

/-- A turn returns just if the sends it depends on succeed. -/
theorem LoopTurn.result_eq_ok (t : LoopTurn) : t.result = .ok () ↔ t.SendsTaken := by
  cases t with
  | nodePacket received env s =>
    apply iff_of_true _ trivial
    rcases received with err | _ | ⟨p, addr⟩
    · rfl
    · rfl
    · exact ending_attempt _ _
  | clientHealthCheck env s =>
    apply iff_of_true _ trivial
    obtain ⟨_, d, hd, -⟩ := (clientHealthCheck_rule s env.now).returns (s := .start env s) rfl
    exact ending_eq_ok.mpr ⟨d, hd⟩
  | videoHealthCheck env s =>
    have hsweep := checkVideo_ok_iff env.now s.lastVideoPacketTime.entries (.start env s)
    simp only [Ctx.start, Nat.zero_add] at hsweep
    exact ending_eq_ok.trans hsweep
  | checkNeighbours env s =>
    apply iff_of_true _ trivial
    obtain ⟨_, d, hd, -⟩ := (checkNeighbours_rule s env.now).returns (s := .start env s) rfl
    exact ending_eq_ok.mpr ⟨d, hd⟩
  | serverPacket received s => exact iff_of_true rfl trivial
  | flood now sendResult s =>
    have hsends := flood_eq_ok now sendResult s
    rw [SendsTaken, ← hsends, result]
    cases (s.flood now sendResult).2 with
    | ok u => simp
    | error e => simp

/-- A turn that fails fails by a send. -/
theorem LoopTurn.result_eq_error {t : LoopTurn} (h : t.result = .error e) :
    ∃ err, e = .socket err := by
  have hsends (hs : t.SendsTaken) : False := by
    rw [t.result_eq_ok.mpr hs] at h
    cases h
  cases t with
  | videoHealthCheck env s => exact videoHealthCheck_error h
  | flood now sendResult s =>
    rw [result] at h
    split at h
    · cases h
    · next err _ =>
      cases h
      exact ⟨err, rfl⟩
  | _ => exact (hsends trivial).elim

/-- A turn that returns has treated everything. -/
theorem LoopTurn.complete (t : LoopTurn) (h : t.result = .ok ()) : t.Complete := by
  cases t with
  | nodePacket received env s => trivial
  | clientHealthCheck env s =>
    have hrule := clientHealthCheck_rule s env.now (E := fun _ _ ↦ False)
    obtain ⟨_, d, hd, hleft⟩ := hrule.returns (s := .start env s) rfl
    have hend : finalState Node.clientHealthCheck (.start env s) = d := finalState_of_ok hd
    constructor
    · exact visited_of_ok hd
    · rw [hend]
      exact hleft
  | videoHealthCheck env s =>
    obtain ⟨d, hd⟩ := ending_eq_ok.mp h
    exact visited_of_ok hd
  | checkNeighbours env s =>
    have hrule := checkNeighbours_rule s env.now (E := fun _ _ ↦ False)
    obtain ⟨_, d, hd, hleft⟩ := hrule.returns (s := .start env s) rfl
    have hend : finalState Node.checkNeighbours (.start env s) = d := finalState_of_ok hd
    constructor
    · exact visited_of_ok hd
    · intro n hn
      rw [hend]
      refine ⟨(hleft n hn).1, (hleft n hn).2, fun c ↦ ?_⟩
      obtain ⟨_, d, hd, -⟩ := (handleUnresponsiveNode_shrinks c.state n).returns (s := c) rfl
      exact ⟨d, hd⟩
  | serverPacket received s => trivial
  | flood now sendResult s =>
    apply broadcast_fst (i := 0)
    exact (flood_eq_ok now sendResult s).mpr ((flood now sendResult s).result_eq_ok.mp h)

/-- A turn only comes when all before it have returned. -/
theorem loop_append (turns turns' : List LoopTurn) :
    loop (turns ++ turns') = loop turns >>= fun _ ↦ loop turns' := List.forM_append

private theorem loop_eq_ok (turns : List LoopTurn) :
    loop turns = .ok () ↔ ∀ t ∈ turns, t.result = .ok () := by
  induction turns with
  | nil => exact iff_of_true rfl (by simp)
  | cons t turns ih =>
    have hcons : loop (t :: turns) = (t.result >>= fun _ ↦ loop turns) := rfl
    rw [hcons, List.forall_mem_cons, ← ih]
    cases t.result with
    | ok u =>
      show loop turns = .ok () ↔ _
      simp
    | error e =>
      show Except.error e = .ok () ↔ _
      simp

/-- The error that ends a loop is that of one of its turns. -/
theorem exists_of_loop_error {turns : List LoopTurn} (h : loop turns = .error e) :
    ∃ t ∈ turns, t.result = .error e := by
  induction turns with
  | nil => cases h
  | cons t turns ih =>
    have hcons : loop (t :: turns) = (t.result >>= fun _ ↦ loop turns) := rfl
    rw [hcons] at h
    cases hr : t.result with
    | ok u =>
      rw [hr] at h
      obtain ⟨t', ht', he⟩ := ih h
      exact ⟨t', List.mem_cons_of_mem t ht', he⟩
    | error e' =>
      rw [hr] at h
      cases h
      exact ⟨t, List.mem_cons_self, hr⟩

end Turns

/-- No loop ends by a failed send and every sweep treats all of its entries, if and only if the
socket takes the requests for overdue videos and the floods. -/
theorem loops_survive_iff (turns : List LoopTurn) :
    ((∀ err, loop turns ≠ .error (.socket err)) ∧ ∀ t ∈ turns, t.Complete) ↔
      ∀ t ∈ turns, t.SendsTaken := by
  have hloop : loop turns = .ok () ↔ ∀ t ∈ turns, t.SendsTaken := by
    rw [loop_eq_ok]
    exact forall₂_congr fun t _ ↦ t.result_eq_ok
  rw [← hloop]
  constructor
  · rintro ⟨hsocket, -⟩
    cases hend : loop turns with
    | ok u => rfl
    | error e =>
      obtain ⟨t, -, ht⟩ := exists_of_loop_error hend
      obtain ⟨err, rfl⟩ := LoopTurn.result_eq_error ht
      exact absurd hend (hsocket err)
  · intro hend
    constructor
    · intro err herr
      rw [hend] at herr
      cases herr
    · exact fun t ht ↦ t.complete ((loop_eq_ok turns).mp hend t ht)

/-- A node passes on a video of a neighbour. -/
def passingOn : Node.State :=
  simulate (.new 1 [] (IpAddr.v4 1).atPort) (List.map (·, .calm 0)
    [.packet (.nodePacket (.floodPacket ⟨0, [(5, "five")], [9], []⟩)) (IpAddr.v4 2).atPort,
      .packet (.serverPacket (.requestVideo 5)) (IpAddr.v4 3).atPort,
      .packet (.videoPacket ⟨5, 1, []⟩) (IpAddr.v4 2).atPort])

/-- The socket takes nothing for a while. -/
def unreachable (now : SystemTime) : Env := ⟨now, fun _ ↦ .error .ioError⟩

/-- A single failed request ends the sweeps over the videos, and a single failed copy the floods. -/
theorem loops_ended :
    Node.Reachable 1 [] (IpAddr.v4 1).atPort passingOn ∧
    loop [.videoHealthCheck (unreachable 1000000000) passingOn] = .error (.socket .ioError) ∧
    loop [.flood 0 (fun _ ↦ .error .ioError) (.new 9 [(IpAddr.v4 1).atPort])] =
      .error (.socket .ioError) := by
  constructor
  · exact Node.reachable_simulate 1 [] _ (by simp [Env.calm_allOk])
  · exact ⟨rfl, rfl⟩

end PessiStreamer.System
