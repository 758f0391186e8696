import PessiStreamer.Client.Knowledge

/-!
# The pings of a client and their answers

A client numbers its pings, and an answer with the number of a ping that is still expected gives
the node it comes from a round-trip time. In every run each ping counts at most once, however often
its answer arrives.
-/

namespace PessiStreamer.Client
open Base Common

/-- Pings of these nodes, numbered from `n` on. -/
def numbered (n : UInt64) (t : SystemTime) :
    List SocketAddr → List (UInt64 × SocketAddr × SystemTime)
  | [] => []
  | a :: as => (n, a, t) :: numbered (n + 1) t as

/-- The pings among the packets that were sent, with their numbers, nodes and times. -/
def pingsIn (t : SystemTime) (sent : List (SocketAddr × Packet)) :
    List (UInt64 × SocketAddr × SystemTime) :=
  sent.filterMap fun x ↦
    match x.2 with
    | .nodePacket (.clientPing n _) => some (n, x.1, t)
    | _ => none

/-- An expected answer. -/
structure Answer where
  number : UInt64
  addr : SocketAddr
  rtt : Duration
  receivedAt : SystemTime
  deriving DecidableEq, Repr

namespace Event

/-- The pings that the event numbers, whether they can be sent or not. -/
def numbers (e : Event) : List (UInt64 × SocketAddr × SystemTime) :=
  match e.input with
  | .pingNodes =>
    numbered e.view.pingSequenceNumber e.env.now (e.view.nodes.entries.map fun x ↦ x.2.addr)
  | _ => []

/-- The pings that the event sends. -/
def asks (e : Event) : List (UInt64 × SocketAddr × SystemTime) := pingsIn e.env.now e.after.sent

/-- The expected answer that the event brings. -/
def answer? (e : Event) : Option Answer :=
  match e.input with
  | .packet (.clientPacket (.videoList p)) addr =>
    (e.view.pendingPings.lookup p.sequenceNumber).map fun ping ↦
      ⟨p.sequenceNumber, addr, durationSince e.env.now ping.2, e.env.now⟩
  | _ => none

/-- The round-trip time that the event gives the node. -/
def rtt? (n : SocketAddr) (e : Event) : Option Duration :=
  e.answer?.bind fun r ↦ if r.addr = n then some r.rtt else none

end Event

section Numbers

variable {n : UInt64} {t : SystemTime} {as : List SocketAddr}

/-- Each node gets one number. -/
@[simp]
theorem length_numbered : (numbered n t as).length = as.length := by
  induction as generalizing n with
  | nil => rfl
  | cons a as ih => simp [numbered, ih]

private theorem numbered_fst :
    (numbered n t as).map Prod.fst = (List.range as.length).map fun i ↦ n + .ofNat i := by
  induction as generalizing n with
  | nil => rfl
  | cons a as ih =>
    have hadd (i : Nat) : n + 1 + .ofNat i = n + .ofNat (i + 1) := by
      rw [UInt64.ofNat_add]
      ac_rfl
    simp [numbered, ih, List.range_succ_eq_map, hadd]

private theorem pingsIn_append (s s' : List (SocketAddr × Packet)) :
    pingsIn t (s ++ s') = pingsIn t s ++ pingsIn t s' := List.filterMap_append

end Numbers

/-- In the midst of a sweep that numbers the pings `all`: the pings `l` were numbered so far, and
those of the nodes `as` come next. -/
structure Sweeping (before : State) (t : SystemTime)
    (all l : List (UInt64 × SocketAddr × SystemTime)) (as : List SocketAddr) (c : Ctx) :
    Prop where
  clock : c.env.now = t
  rest : l ++ numbered c.state.pingSequenceNumber t as = all
  next : c.state.pingSequenceNumber = before.pingSequenceNumber + .ofNat l.length
  sent : (pingsIn t c.sent).Sublist l
  pending : ∀ n x, c.state.pendingPings.lookup n = some x →
    before.pendingPings.lookup n = some x ∨ (n, x) ∈ pingsIn t c.sent

section Sweeps

variable {before : State} {t : SystemTime} {all : List (UInt64 × SocketAddr × SystemTime)}
  {a : SocketAddr} {as : List SocketAddr} {E : ClientError → Ctx → Prop}

private theorem pingNode_rule :
    Triple (fun c ↦ ∃ l, Sweeping before t all l (a :: as) c) (pingNode a)
      (fun _ c ↦ ∃ l, Sweeping before t all l as c) E := by
  rintro c ⟨l, hc⟩
  let ping := c.state.pingSequenceNumber
  have hnext : ping + 1 = before.pingSequenceNumber + .ofNat (l ++ [(ping, a, t)]).length := by
    rw [List.length_append, List.length_singleton, UInt64.ofNat_add, ← UInt64.add_assoc,
      ← hc.next]
    rfl
  have hrest : (l ++ [(ping, a, t)]) ++ numbered (ping + 1) t as = all := by
    rw [List.append_assoc]
    exact hc.rest
  cases hsend : c.env.sendResult c.attempts with
  | error e =>
    have hrun : pingNode a c =
        .ok () { c with state := c.state.nextPing, attempts := c.attempts + 1 } := by
      simp [pingNode, getState, modifyState, now, attempt, send, Ctx.setState, hsend]
    rw [hrun]
    exact ⟨_, hc.clock, hrest, hnext, hc.sent.trans (List.sublist_append_left _ _), hc.pending⟩
  | ok u =>
    let packet := Packet.nodePacket (.clientPing ping (c.state.getVideosPlayingFromNode a))
    have hrun : pingNode a c = .ok () { c with
        state := c.state.nextPing.recordPing ping a c.env.now
        attempts := c.attempts + 1
        sent := c.sent ++ [(a, packet)] } := by
      simp [pingNode, getState, modifyState, now, attempt, send, Ctx.setState, hsend, packet, ping]
    have hsent : pingsIn t (c.sent ++ [(a, packet)]) = pingsIn t c.sent ++ [(ping, a, t)] :=
      pingsIn_append _ _
    rw [hrun]
    refine ⟨_, hc.clock, hrest, hnext, ?_, fun n x hx ↦ ?_⟩
    · rw [hsent]
      exact hc.sent.append_right _
    · rw [hsent, List.mem_append, List.mem_singleton]
      simp only [State.recordPing, State.nextPing, Map.lookup_insert_ite] at hx
      split at hx
      · next hn =>
        cases hx
        rw [hn, hc.clock]
        exact .inr (.inr rfl)
      · rcases hc.pending n x hx with hx | hx
        · exact .inl hx
        · exact .inr (.inl hx)

/-- A sweep numbers a ping for each node, one after the other. -/
theorem startPingNodes_rule (before : State) (t : SystemTime) :
    Triple (fun c ↦ c.state = before ∧ c.env.now = t ∧ c.sent = []) startPingNodes
      (fun _ c ↦ ∃ l, Sweeping before t (numbered before.pingSequenceNumber t
        (before.nodes.entries.map fun x ↦ x.2.addr)) l [] c) E := by
  rintro c ⟨rfl, rfl, hsent⟩
  let all := numbered c.state.pingSequenceNumber c.env.now
    (c.state.nodes.entries.map fun x ↦ x.2.addr)
  let I (rest : List (Sigma fun _ : SocketAddr ↦ Node)) (c' : Ctx) : Prop :=
    ∃ l, Sweeping c.state c.env.now all l (rest.map fun x ↦ x.2.addr) c'
  have hloop : Triple (I c.state.nodes.entries)
      (c.state.nodes.entries.forM fun e ↦ pingNode e.2.addr) (fun _ ↦ I []) E :=
    Triple.forM_rest _ fun x rest _ ↦ pingNode_rule
  apply hloop c
  refine ⟨[], rfl, rfl, ?_, ?_, fun n x hx ↦ .inl hx⟩
  · simp
  · rw [hsent]
    exact .slnil

end Sweeps

namespace Event

variable {e : Event}

/-- Only a sweep sends pings. -/
theorem asks_eq_nil (h : e.input ≠ .pingNodes) : e.asks = [] := by
  apply List.filterMap_eq_nil_iff.mpr
  intro x hx
  have hother := e.of_sent (R := fun p ↦ ∀ n vs, p ≠ .nodePacket (.clientPing n vs))
    (fun _ _ _ ↦ by simp) (fun hin ↦ (h hin).elim) x hx
  split
  · next n vs heq => exact (hother n vs heq).elim
  · rfl

/-- What a sweep leaves. -/
theorem sweeping_after (h : e.input = .pingNodes) :
    Sweeping e.view e.env.now e.numbers e.numbers [] e.after := by
  have hrun := startPingNodes_rule e.view e.env.now (E := fun _ _ ↦ False)
    ⟨e.env, e.view, 0, []⟩ ⟨rfl, rfl, rfl⟩
  obtain ⟨l, hl⟩ : ∃ l, Sweeping e.view e.env.now e.numbers l [] e.after := by
    rw [after, numbers, h]
    unfold finalState handleInput
    split at hrun
    · next hok => simpa [hok] using hrun
    · exact hrun.elim
  have hall : l = e.numbers := (List.append_nil l).symm.trans hl.rest
  exact hall ▸ hl

private theorem numbers_fst (e : Event) : e.numbers.map Prod.fst =
    (List.range e.numbers.length).map fun i ↦ e.view.pingSequenceNumber + .ofNat i := by
  unfold numbers
  split
  · rw [numbered_fst, length_numbered]
  · rfl

/-- The pings that are sent are among those that are numbered. -/
theorem asks_sublist (e : Event) : e.asks.Sublist e.numbers := by
  by_cases h : e.input = .pingNodes
  · exact (sweeping_after h).sent
  · rw [asks_eq_nil h]
    exact List.nil_sublist _

/-- The number of the next ping. -/
theorem pingSequenceNumber_after (e : Event) : e.after.state.pingSequenceNumber =
    e.view.pingSequenceNumber + .ofNat e.numbers.length := by
  by_cases h : e.input = .pingNodes
  · exact (sweeping_after h).next
  · have hnone : e.numbers = [] := by
      unfold numbers
      split
      · next hin => exact (h hin).elim
      · rfl
    rw [hnone]
    apply Unconcerned.after (P := fun s ↦ s.pingSequenceNumber = e.view.pingSequenceNumber + 0)
      ⟨fun _ _ _ ↦ id, fun _ _ ↦ id, fun _ _ _ ↦ id, fun _ _ ↦ id⟩ (fun _ _ ↦ id)
      (fun hin ↦ (h hin).elim)
    have hreceived : e.received.pingSequenceNumber = e.view.pingSequenceNumber := by
      unfold received
      split
      · unfold State.receiveAnswer
        split
        · rfl
        · rfl
      · rfl
    rw [hreceived, UInt64.add_zero]

/-- Only an answer is one. -/
theorem answer?_eq_none
    (h : ∀ p a, e.input = .packet (.clientPacket (.videoList p)) a → False) :
    e.answer? = none := by
  unfold answer?
  split
  · next p a hin => exact (h p a hin).elim
  · rfl

/-- An expected answer is to a ping that the client expects an answer to. -/
theorem answer?_eq_some {r : Answer} (h : e.answer? = some r) :
    ∃ p a ping, e.input = .packet (.clientPacket (.videoList p)) a ∧
      (p.sequenceNumber = r.number ∧ a = r.addr) ∧
      e.view.pendingPings.lookup r.number = some ping ∧
      r.rtt = durationSince r.receivedAt ping.2 := by
  unfold answer? at h
  split at h
  · next p a hin =>
    obtain ⟨ping, hping, rfl⟩ := Option.map_eq_some_iff.mp h
    exact ⟨p, a, ping, hin, ⟨rfl, rfl⟩, hping, rfl⟩
  · cases h

/-- A ping is expected since the event, or still and not answered by it. -/
theorem pendingPing_after {n : UInt64} {x : SocketAddr × SystemTime}
    (h : e.after.state.pendingPings.lookup n = some x) :
    (n, x) ∈ e.asks ∨
      e.view.pendingPings.lookup n = some x ∧ ∀ r, e.answer? = some r → r.number ≠ n := by
  by_cases hin : e.input = .pingNodes
  · rcases (sweeping_after hin).pending n x h with hbefore | hasked
    · refine .inr ⟨hbefore, fun r hr ↦ ?_⟩
      simp [answer?, hin] at hr
    · exact .inl hasked
  · right
    let P (s : State) : Prop := s.pendingPings.lookup n = some x →
      e.view.pendingPings.lookup n = some x ∧ ∀ r, e.answer? = some r → r.number ≠ n
    suffices P e.after.state from this h
    apply Unconcerned.after ⟨fun _ _ _ ↦ id, fun _ _ ↦ id, fun _ _ _ ↦ id, fun _ _ ↦ id⟩
      (fun _ _ ↦ id) (fun hping ↦ (hin hping).elim)
    intro hx
    unfold received at hx
    split at hx
    · next p addr hpacket =>
      unfold State.receiveAnswer at hx
      cases hping : e.view.pendingPings.lookup p.sequenceNumber with
      | none =>
        rw [hping] at hx
        exact ⟨hx, by simp [answer?, hpacket, hping]⟩
      | some ping =>
        rw [hping] at hx
        simp only [State.answered, State.dropPing, State.updateVideoNames,
          Map.lookup_erase_ite] at hx
        split at hx
        · cases hx
        · next hn => exact ⟨hx, by simpa [answer?, hpacket, hping] using Ne.symm hn⟩
    · next hother => exact ⟨hx, by simp [answer?_eq_none hother]⟩

/-- An expected answer gives its node a round-trip time. -/
theorem latestRtts_after (e : Event) (n : SocketAddr) :
    (e.after.state.nodes.lookup n).map Node.latestRtts = (e.view.nodes.lookup n).map fun node ↦
      match e.rtt? n with
      | some rtt => node.latestRtts.pushBack rtt
      | none => node.latestRtts := by
  let P (s : State) : Prop :=
    (s.nodes.lookup n).map Node.latestRtts = (e.view.nodes.lookup n).map fun node ↦
      match e.rtt? n with
      | some rtt => node.latestRtts.pushBack rtt
      | none => node.latestRtts
  have hreceived : P e.received := by
    simp only [P, rtt?]
    unfold received
    split
    · next p addr hpacket =>
      have hanswer : e.answer? = (e.view.pendingPings.lookup p.sequenceNumber).map fun ping ↦
          ⟨p.sequenceNumber, addr, durationSince e.env.now ping.2, e.env.now⟩ := by
        simp only [answer?, hpacket]
      rw [hanswer]
      unfold State.receiveAnswer
      cases hping : e.view.pendingPings.lookup p.sequenceNumber with
      | none => rfl
      | some ping =>
        simp only [State.answered, State.dropPing, State.updateVideoNames, Map.lookup_modify,
          Option.map_some, Option.bind_some]
        by_cases hn : n = addr
        · subst hn
          simp only [if_true, Option.map_map]
          rfl
        · simp [hn, Ne.symm hn]
    · next hother =>
      rw [answer?_eq_none hother]
      rfl
  apply Unconcerned.after (P := P) ⟨fun _ _ _ ↦ id, fun _ _ ↦ id, fun _ _ _ ↦ id, fun _ _ ↦ id⟩
    _ _ hreceived
  · intro s a hs
    simp only [P, State.markUnresponsive, Map.lookup_modify]
    split
    · next hn =>
      subst hn
      rw [Option.map_map]
      exact hs
    · exact hs
  · intro hin
    have hkeep : Keeps P startPingNodes := startPingNodes_frame (fun _ ↦ id) fun _ _ _ _ ↦ id
    have hview : P e.view := by
      have hsame : e.received = e.view := by simp [received, hin]
      exact hsame ▸ hreceived
    rw [after, hin]
    exact hkeep.finalState hview

end Event

section Runs

variable {servers : List IpAddr} {s : State} {tr tr' : List (State × Event)}

/-- The pings that a run numbered, oldest first. -/
def numberedIn (tr : List (State × Event)) : List (UInt64 × SocketAddr × SystemTime) :=
  tr.flatMap fun p ↦ p.2.numbers

/-- The pings that a run sent, oldest first. -/
def askedIn (tr : List (State × Event)) : List (UInt64 × SocketAddr × SystemTime) :=
  tr.flatMap fun p ↦ p.2.asks

/-- The expected answers that a run brought, oldest first. -/
def answersIn (tr : List (State × Event)) : List Answer := tr.filterMap fun p ↦ p.2.answer?

/-- The round-trip times that a run gave a node, oldest first. -/
def rttsIn (n : SocketAddr) (tr : List (State × Event)) : List Duration :=
  tr.filterMap fun p ↦ p.2.rtt? n

/-- What holds of the pings in every state of every run. -/
structure Pinging (tr : List (State × Event)) (s : State) : Prop where
  next : s.pingSequenceNumber = .ofNat (numberedIn tr).length
  numbers : (numberedIn tr).map Prod.fst = (List.range (numberedIn tr).length).map .ofNat
  sent : (askedIn tr).Sublist (numberedIn tr)
  pending : ∀ n x, s.pendingPings.lookup n = some x → (n, x) ∈ askedIn tr
  answered : ∀ r ∈ answersIn tr, ∃ a t, (r.number, a, t) ∈ askedIn tr ∧
    r.rtt = durationSince r.receivedAt t
  rtts : ∀ n node, s.nodes.lookup n = some node → node.latestRtts = .newest 10 (rttsIn n tr)

private theorem pinging_new (servers : List IpAddr) : Pinging [] (.new servers) where
  next := rfl
  numbers := rfl
  sent := .slnil
  pending n x h := by cases h
  answered r h := by cases h
  rtts n node hn := by
    obtain ⟨a, rfl⟩ := lookup_new hn
    rfl

namespace Pinging

private theorem step (h : Pinging tr s) {e : Event} {t : State} (he : Step s e t) :
    Pinging (tr ++ [(s, e)]) t := by
  obtain ⟨hview, rfl⟩ := he
  have hnumbered : numberedIn (tr ++ [(s, e)]) = numberedIn tr ++ e.numbers := by
    simp [numberedIn]
  have hasked : askedIn (tr ++ [(s, e)]) = askedIn tr ++ e.asks := by
    simp [askedIn]
  have hnext : e.view.pingSequenceNumber = .ofNat (numberedIn tr).length := by
    rw [hview.pingSequenceNumber, h.next]
  constructor
  · rw [e.pingSequenceNumber_after, hnext, hnumbered, List.length_append, UInt64.ofNat_add]
  · rw [hnumbered, List.map_append, h.numbers, List.length_append, List.range_add,
      List.map_append, List.map_map, e.numbers_fst, hnext]
    simp [Function.comp_def]
  · rw [hnumbered, hasked]
    exact h.sent.append e.asks_sublist
  · intro n x hx
    rw [hasked, List.mem_append]
    rcases e.pendingPing_after hx with hx | ⟨hx, -⟩
    · exact .inr hx
    · rw [AList.perm_lookup hview.pendingPings] at hx
      exact .inl (h.pending n x hx)
  · intro r hr
    rw [answersIn, List.filterMap_append, List.mem_append] at hr
    rw [hasked]
    rcases hr with hr | hr
    · obtain ⟨a, u, ha, hrtt⟩ := h.answered r hr
      exact ⟨a, u, List.mem_append_left _ ha, hrtt⟩
    · obtain ⟨q, hq, hr⟩ := List.mem_filterMap.mp hr
      rw [List.mem_singleton.mp hq] at hr
      obtain ⟨p, a, ⟨b, u⟩, -, -, hping, hrtt⟩ := Event.answer?_eq_some hr
      rw [AList.perm_lookup hview.pendingPings] at hping
      exact ⟨b, u, List.mem_append_left _ (h.pending _ _ hping), hrtt⟩
  · intro n node hn
    have hafter := e.latestRtts_after n
    rw [hn, AList.perm_lookup hview.nodes, Option.map_some] at hafter
    obtain ⟨node', hnode', hrtts⟩ := Option.map_eq_some_iff.mp hafter.symm
    rw [← hrtts, h.rtts n node' hnode', rttsIn, rttsIn, List.filterMap_append]
    cases hrtt : e.rtt? n with
    | none => simp [hrtt]
    | some rtt => simp [hrtt, CircularBuffer.newest_pushBack]

private theorem nodup_numbers (h : Pinging tr s) (hcount : (numberedIn tr).length ≤ 2 ^ 64) :
    ((numberedIn tr).map Prod.fst).Nodup := by
  rw [h.numbers]
  apply List.nodup_range.map_on
  intro i hi j hj hij
  have hlt {k : Nat} (hk : k ∈ List.range (numberedIn tr).length) : k < UInt64.size :=
    Nat.lt_of_lt_of_le (List.mem_range.mp hk) hcount
  have hnat := congrArg UInt64.toNat hij
  rwa [UInt64.toNat_ofNat_of_lt' (hlt hi), UInt64.toNat_ofNat_of_lt' (hlt hj)] at hnat

/-- While the numbers suffice, a number stands for one ping. -/
theorem eq_of_asked (h : Pinging tr s) (hcount : (numberedIn tr).length ≤ 2 ^ 64) {n : UInt64}
    {x y : SocketAddr × SystemTime} (hx : (n, x) ∈ askedIn tr) (hy : (n, y) ∈ askedIn tr) :
    x = y := by
  have hsame := List.inj_on_of_nodup_map (h.nodup_numbers hcount) (h.sent.subset hx)
    (h.sent.subset hy) rfl
  exact (Prod.mk.inj hsame).2

end Pinging

/-- Every run of a client keeps its records of the pings. -/
theorem run_pinging (hrun : Run Step (.new servers) tr s) : Pinging tr s := by
  induction hrun with
  | refl => exact pinging_new servers
  | tail _ he ih => exact ih.step he

/-- While the numbers suffice, each ping counts at most once. -/
theorem run_answers (hrun : Run Step (.new servers) tr s)
    (hcount : (numberedIn tr).length ≤ 2 ^ 64) :
    ((answersIn tr).map Answer.number).Nodup ∧
      ∀ r ∈ answersIn tr, s.pendingPings.lookup r.number = none := by
  induction hrun with
  | refl => exact ⟨.nil, fun r hr ↦ (List.not_mem_nil hr).elim⟩
  | @tail s t tr e hrun he ih =>
    have hping := run_pinging hrun
    obtain ⟨hview, rfl⟩ := id he
    have hnumbered : numberedIn (tr ++ [(s, e)]) = numberedIn tr ++ e.numbers := by
      simp [numberedIn]
    have hanswers : answersIn (tr ++ [(s, e)]) = answersIn tr ++ e.answer?.toList := by
      cases hr : e.answer? with
      | none => simp [answersIn, hr]
      | some r => simp [answersIn, hr]
    have hdistinct := (hping.step he).nodup_numbers hcount
    rw [hnumbered, List.length_append] at hcount
    obtain ⟨hnodup, hnone⟩ := ih (Nat.le_of_add_right_le hcount)
    have hnew {r : Answer} (hr : e.answer? = some r) :
        r.number ∉ (answersIn tr).map Answer.number := by
      intro hmem
      obtain ⟨r', hr', hsame⟩ := List.mem_map.mp hmem
      obtain ⟨-, -, ping, -, -, hpending, -⟩ := Event.answer?_eq_some hr
      rw [AList.perm_lookup hview.pendingPings, ← hsame, hnone r' hr'] at hpending
      cases hpending
    rw [hanswers]
    constructor
    · cases hr : e.answer? with
      | none => simpa using hnodup
      | some r =>
        rw [Option.toList_some, List.map_append, List.map_singleton, ← List.concat_eq_append,
          List.nodup_concat]
        exact ⟨hnew hr, hnodup⟩
    · intro r hr
      rw [Option.eq_none_iff_forall_ne_some]
      intro x hx
      rcases List.mem_append.mp hr with hr | hr
      · rcases e.pendingPing_after hx with hask | ⟨hbefore, -⟩
        · -- the numbers of the sweep are new
          obtain ⟨a, t, hasked, -⟩ := hping.answered r hr
          rw [hnumbered, List.map_append, List.nodup_append] at hdistinct
          exact hdistinct.2.2 _ (List.mem_map_of_mem (hping.sent.subset hasked)) _
            (List.mem_map_of_mem (e.asks_sublist.subset hask)) rfl
        · rw [AList.perm_lookup hview.pendingPings, hnone r hr] at hbefore
          cases hbefore
      · rw [Option.mem_toList] at hr
        rcases e.pendingPing_after hx with hask | ⟨-, hother⟩
        · obtain ⟨p, a, -, hin, -⟩ := Event.answer?_eq_some hr
          rw [Event.asks_eq_nil (by simp [hin])] at hask
          cases hask
        · exact hother r hr rfl

end Runs
end PessiStreamer.Client
