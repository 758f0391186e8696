import PessiStreamer.Node.Rules

/-!
# What the sweeps of a node achieve

The sweeps over clients and neighbours log a failed send and carry on, so they treat every entry
whatever becomes of the sends. The sweep over the videos passes its first failed send up.
-/

namespace PessiStreamer.Node
open Base Common

/-- Nobody has subscribed since the state `s`, and the known routes are those of `s`. -/
structure Shrunk (s t : State) : Prop where
  subscribers : ∀ a v, a ∈ t.subscribers v → a ∈ s.subscribers v
  availableRoutes : t.availableRoutes = s.availableRoutes

/-- An address has left every list. -/
def State.Left (s : State) (a : SocketAddr) : Prop := ∀ v, a ∉ s.subscribers v

private theorem Shrunk.refl (s : State) : Shrunk s s := ⟨fun _ _ ↦ id, rfl⟩

/-- A video is sent to its subscribers. -/
theorem mem_videosSending {s : State} {a : SocketAddr} {v : VideoId} :
    v ∈ s.videosSending a ↔ a ∈ s.subscribers v := by
  simp only [State.videosSending, List.mem_map, List.mem_filter, decide_eq_true_eq]
  constructor
  · rintro ⟨e, ⟨he, ha⟩, rfl⟩
    rw [subscribers_of_mem_entries he]
    exact ha
  · intro h
    exact ⟨_, ⟨mem_entries_of_subscriber h, h⟩, rfl⟩

section Stops

variable {s : State} {a : SocketAddr} {E : HandlerError → Ctx → Prop}

/-- A stop takes its address out of the list and enters nobody, whether its send fails or not. -/
theorem handleStopVideo_shrinks (v : VideoId) (rest : List VideoId) :
    Triple (fun c ↦ Shrunk s c.state ∧ ∀ u, a ∈ c.state.subscribers u → u ∈ v :: rest)
      (attempt (handleStopVideo v a))
      (fun _ c ↦ Shrunk s c.state ∧ ∀ u, a ∈ c.state.subscribers u → u ∈ rest) E := by
  apply Triple.attempt
  rintro c ⟨hc, hrest⟩
  have hshrunk : Shrunk s (c.state.unsubscribe v a) := by
    constructor
    · intro b u hb
      rw [State.unsubscribe_subscribers] at hb
      split at hb
      · next hu =>
        rw [hu]
        exact hc.subscribers b v (List.mem_filter.mp hb).1
      · exact hc.subscribers b u hb
    · exact hc.availableRoutes
  have hleft (u : VideoId) (hu : a ∈ (c.state.unsubscribe v a).subscribers u) : u ∈ rest := by
    rw [State.unsubscribe_subscribers] at hu
    split at hu
    · simp at hu
    · next huv =>
      exact (List.mem_cons.mp (hrest u hu)).resolve_left huv
  rcases handleStopVideo_cases v a c with ⟨-, h⟩ | ⟨-, n, -, h⟩
  · rw [h]
    exact ⟨hshrunk, hleft⟩
  · have hdrop : Shrunk s ((c.state.unsubscribe v a).dropRoute v) :=
      ⟨hshrunk.subscribers, hshrunk.availableRoutes⟩
    rw [h]
    rcases send_cases (.serverPacket (.stopVideo v)) n
      (c.setState ((c.state.unsubscribe v a).dropRoute v)) with hs | ⟨e, -, hs⟩
    · rw [hs]
      exact ⟨hdrop, hleft⟩
    · rw [hs]
      exact ⟨hdrop, hleft⟩

/-- Stopping all videos of an address. -/
theorem stopAll_rule (s : State) (a : SocketAddr) :
    Triple (fun c ↦ c.state = s)
      ((s.videosSending a).forM fun v ↦ attempt (handleStopVideo v a))
      (fun _ c ↦ Shrunk s c.state ∧ c.state.Left a) E := by
  have hloop := Triple.forM_rest (E := E) (s.videosSending a)
    (g := fun v ↦ attempt (handleStopVideo v a))
    (I := fun rest c ↦ Shrunk s c.state ∧ ∀ u, a ∈ c.state.subscribers u → u ∈ rest)
    fun v rest _ ↦ handleStopVideo_shrinks v rest
  apply hloop.consequence
  · rintro c rfl
    exact ⟨.refl c.state, fun u hu ↦ mem_videosSending.mpr hu⟩
  · rintro _ c ⟨hc, hleft⟩
    exact ⟨hc, fun v hv ↦ List.not_mem_nil (hleft v hv)⟩
  · exact fun _ _ ↦ id

/-- What only sends requests leaves the lists of subscribers alone. -/
theorem requestVideoToNode_shrinks (v : VideoId) (n : SocketAddr) :
    Maintains (fun c ↦ Shrunk s c.state ∧ c.state.Left a) (requestVideoToNode v n) := by
  rintro c ⟨hc, hleft⟩
  rcases requestVideoToNode_cases v n c with h | ⟨e, -, h⟩
  · rw [h]
    exact ⟨⟨hc.subscribers, hc.availableRoutes⟩, hleft⟩
  · rw [h]
    exact ⟨hc, hleft⟩

private theorem connectToParents_shrinks (vs : List VideoId) :
    Triple (fun c ↦ Shrunk s c.state ∧ c.state.Left a) (connectToParents a vs)
      (fun _ c ↦ Shrunk s c.state ∧ c.state.Left a) E := by
  apply triple_bind_getState
  intro t
  apply Triple.strengthen _ fun c hc ↦ hc.1
  apply Triple.ite
  · exact fun _ ↦ Triple.pure fun _ ↦ id
  · intro _
    apply Triple.forM
    intro parent _
    apply Triple.ite
    · exact fun _ ↦ Triple.pure fun _ ↦ id
    · intro _
      apply Triple.attempt
      intro c hc
      rcases send_cases (.nodePacket .newNeighbour) parent c with h | ⟨e, -, h⟩
      · rw [connectToNodeParent, h]
        exact hc
      · rw [connectToNodeParent, h]
        exact hc

/-- Giving up a node never fails. It leaves every list, and nobody enters one. -/
theorem handleUnresponsiveNode_shrinks (s : State) (a : SocketAddr) :
    Triple (fun c ↦ c.state = s) (handleUnresponsiveNode a)
      (fun _ c ↦ Shrunk s c.state ∧ c.state.Left a) E := by
  apply triple_bind_getState
  intro t
  apply Triple.bind (Q := fun _ c ↦ Shrunk s c.state ∧ c.state.Left a)
  · rintro c ⟨rfl, rfl⟩
    exact stopAll_rule c.state a c rfl
  intro _
  apply Triple.bind (Q := fun _ c ↦ Shrunk s c.state ∧ c.state.Left a)
  · apply redirectVideos_rule (I := fun _ _ c ↦ Shrunk s c.state ∧ c.state.Left a)
    · exact fun v rest left n ↦ (requestVideoToNode_shrinks v n).strengthen fun c hc ↦ hc.1
    · exact fun _ _ _ _ _ hc ↦ hc
    · exact []
  intro remaining
  apply (connectToParents_shrinks remaining).bind
  rintro _ c ⟨hc, hleft⟩
  exact ⟨⟨hc.subscribers, hc.availableRoutes⟩, hleft⟩

end Stops

section Clients

variable {s : State} {E : HandlerError → Ctx → Prop}

/-- The client has not sent a ping for too long; `node/src/node.rs:401`. -/
def Silent (t : SystemTime) (ping : Sigma fun _ : SocketAddr ↦ SystemTime) : Prop :=
  CLIENT_PING_INTERVAL * 3 < durationSince t ping.2

private theorem Shrunk.left {s t : State} {a : SocketAddr} (h : Shrunk s t) (ha : s.Left a) :
    t.Left a :=
  fun v hv ↦ ha v (h.subscribers a v hv)

/-- The silent clients among those visited have left every list. -/
def ClientsLeft (s : State) (t : SystemTime)
    (rest : List (Sigma fun _ : SocketAddr ↦ SystemTime)) (c : Ctx) : Prop :=
  ∀ ping ∈ s.lastPings.entries, ping ∈ rest ∨ (Silent t ping → c.state.Left ping.1)

private theorem checkClient_rule (t : SystemTime) (ping : Sigma fun _ : SocketAddr ↦ SystemTime)
    (rest : List (Sigma fun _ : SocketAddr ↦ SystemTime)) :
    Triple (ClientsLeft s t (ping :: rest)) (checkClient t ping) (fun _ ↦ ClientsLeft s t rest)
      E := by
  apply triple_bind_getState
  intro u
  apply Triple.ite
  · rintro - c ⟨hc, rfl⟩
    apply (stopAll_rule c.state ping.1).weaken _ c rfl
    rintro _ d ⟨hd, hleft⟩ p hp
    rcases hc p hp with hmem | hgone
    · rcases List.mem_cons.mp hmem with rfl | hmem
      · exact .inr fun _ ↦ hleft
      · exact .inl hmem
    · exact .inr fun hsilent ↦ hd.left (hgone hsilent)
  · rintro hsilent c ⟨hc, rfl⟩ p hp
    rcases hc p hp with hmem | hgone
    · rcases List.mem_cons.mp hmem with rfl | hmem
      · exact .inr fun h ↦ absurd h hsilent
      · exact .inl hmem
    · exact .inr hgone

/-- The sweep over the clients never fails and leaves no silent client in a list. -/
theorem clientHealthCheck_rule (s : State) (t : SystemTime) :
    Triple (fun c ↦ c.state = s) (s.lastPings.entries.forM (checkClient t))
      (fun _ c ↦ ∀ ping ∈ s.lastPings.entries, Silent t ping → c.state.Left ping.1) E := by
  have hloop := Triple.forM_rest (E := E) (I := ClientsLeft s t) (g := checkClient t)
    s.lastPings.entries fun ping rest _ ↦ checkClient_rule t ping rest
  apply hloop.consequence
  · exact fun c _ ping hp ↦ .inl hp
  · intro _ c hc ping hp
    exact (hc ping hp).resolve_left List.not_mem_nil
  · exact fun _ _ ↦ id

end Clients

section Neighbours

variable {stale : List SocketAddr} {E : HandlerError → Ctx → Prop}

/-- The silent neighbours are known, and those visited are given up and in no list. -/
structure GivenUp (stale rest : List SocketAddr) (c : Ctx) : Prop where
  known : ∀ n ∈ stale, (c.state.availableRoutes.lookup n).isSome
  done : ∀ n ∈ stale, n ∈ rest ∨ c.state.Left n ∧ ¬ c.state.IsActive n

/-- Routes are never forgotten, so there is something to mark. -/
theorem neighbourUnresponsive_rule {n : SocketAddr} (hn : n ∈ stale) (rest : List SocketAddr) :
    Triple (GivenUp stale (n :: rest)) (neighbourUnresponsive n) (fun _ ↦ GivenUp stale rest)
      E := by
  apply triple_bind_getState
  intro u
  apply Triple.ite
  · intro _
    apply Triple.bind (Q := fun _ c ↦
      GivenUp stale (n :: rest) (c.setState u) ∧ c.state = u.markUnresponsive n)
    · rintro c ⟨hc, rfl⟩
      exact ⟨hc, rfl⟩
    rintro _ c ⟨hc, hstate⟩
    apply (handleUnresponsiveNode_shrinks (u.markUnresponsive n) n).weaken _ c hstate
    rintro _ d ⟨hd, hleft⟩
    have hactive (m : SocketAddr) : d.state.IsActive m ↔ m ≠ n ∧ u.IsActive m :=
      (State.isActive_congr hd.availableRoutes m).trans State.isActive_markUnresponsive
    constructor
    · intro m hm
      have hknown : (u.availableRoutes.lookup m).isSome := hc.known m hm
      rw [hd.availableRoutes, State.markUnresponsive, Map.lookup_modify]
      split
      · next hmn =>
        rw [← hmn]
        simpa using hknown
      · exact hknown
    · intro m hm
      rcases hc.done m hm with hmem | ⟨hgone, hinactive⟩
      · rcases List.mem_cons.mp hmem with rfl | hmem
        · exact .inr ⟨hleft, fun h ↦ ((hactive m).mp h).1 rfl⟩
        · exact .inl hmem
      · exact .inr ⟨fun v hv ↦ hgone v (hd.subscribers m v hv),
          fun h ↦ hinactive ((hactive m).mp h).2⟩
  · rintro hnone c ⟨hc, rfl⟩
    exact absurd (hc.known n hn) hnone

/-- The sweep over the neighbours never fails and gives up every silent one. -/
theorem checkNeighbours_rule (s : State) (t : SystemTime) :
    Triple (fun c ↦ c.state = s) ((s.staleParents t).forM neighbourUnresponsive)
      (fun _ c ↦ ∀ n ∈ s.staleParents t, c.state.Left n ∧ ¬ c.state.IsActive n) E := by
  have hloop := Triple.forM_rest (E := E) (I := GivenUp (s.staleParents t))
    (g := neighbourUnresponsive) (s.staleParents t) fun n rest hrest ↦
      neighbourUnresponsive_rule (hrest.subset List.mem_cons_self) rest
  apply hloop.consequence
  · rintro c rfl
    constructor
    · intro n hn
      obtain ⟨e, he, rfl⟩ := List.mem_map.mp hn
      have hlookup := Map.mem_entries_iff.mp (List.mem_filter.mp he).1
      rw [hlookup]
      rfl
    · exact fun n hn ↦ .inl hn
  · intro _ c hc n hn
    exact (hc.done n hn).resolve_left List.not_mem_nil
  · exact fun _ _ ↦ id

end Neighbours

section Videos

/-- The video has had no packet for too long, and comes from some node; `node/src/node.rs:430`. -/
def State.Overdue (s : State) (t : SystemTime) (packet : Sigma fun _ : VideoId ↦ SystemTime) :
    Prop :=
  VIDEO_PACKET_MAX_DELAY < durationSince t packet.2 ∧ (s.videoRoutes.lookup packet.1).isSome

instance (s : State) (t : SystemTime) (packet : Sigma fun _ : VideoId ↦ SystemTime) :
    Decidable (s.Overdue t packet) := inferInstanceAs (Decidable (_ ∧ _))

/-- The sweep over the videos returns just if the socket takes all of its requests. -/
theorem checkVideo_ok_iff (t : SystemTime) (packets : List (Sigma fun _ : VideoId ↦ SystemTime))
    (c : Ctx) : (∃ d, packets.forM (checkVideo t) c = .ok () d) ↔
      ∀ i < packets.countP fun p ↦ c.state.Overdue t p,
        c.env.sendResult (c.attempts + i) = .ok () := by
  induction packets generalizing c with
  | nil => simp
  | cons p packets ih =>
    have hcons : (p :: packets).forM (checkVideo t) c =
        (checkVideo t p >>= fun _ ↦ packets.forM (checkVideo t)) c := rfl
    rw [hcons, bind_apply]
    by_cases hp : c.state.Overdue t p
    · obtain ⟨n, hn⟩ := Option.isSome_iff_exists.mp hp.2
      have hturn : checkVideo t p c = requestVideoToNode p.1 n c := by
        simp only [checkVideo, bind_apply, getState_apply, if_pos hp.1, hn]
      -- the request installs the route that was there
      have hcount : (packets.countP fun q ↦ (c.state.setRoute p.1 n).Overdue t q) =
          packets.countP fun q ↦ c.state.Overdue t q := by
        apply List.countP_congr
        intro q _
        rw [decide_eq_true_iff, decide_eq_true_iff, State.Overdue, State.setRoute_lookup]
        by_cases hq : q.1 = p.1
        · have hroute : c.state.videoRoutes.lookup q.1 = some n := by
            rw [hq]
            exact hn
          simp [State.Overdue, hq, hroute]
        · simp [State.Overdue, hq]
      rw [hturn, List.countP_cons_of_pos (by simpa using hp), Nat.forall_lt_succ_left]
      cases hsend : c.env.sendResult c.attempts with
      | ok u =>
        have ho : requestVideoToNode p.1 n c = .ok ()
            ((c.push (.serverPacket (.requestVideo p.1)) n).setState (c.state.setRoute p.1 n)) := by
          simp [requestVideoToNode, send, hsend]
        rw [ho]
        apply (ih _).trans
        rw [Ctx.setState_state, hcount]
        simp [Nat.add_assoc, Nat.add_comm 1]
      | error e =>
        have ho : requestVideoToNode p.1 n c = .error (.socket e) c.fail := by
          simp [requestVideoToNode, send, hsend]
        rw [ho]
        simp
    · have hturn : checkVideo t p c = .ok () c := by
        simp only [checkVideo, bind_apply, getState_apply]
        by_cases hlate : VIDEO_PACKET_MAX_DELAY < durationSince t p.2
        · have hnone : c.state.videoRoutes.lookup p.1 = none := by
            rw [← Option.not_isSome_iff_eq_none]
            exact fun h ↦ hp ⟨hlate, h⟩
          rw [if_pos hlate, hnone]
          rfl
        · rw [if_neg hlate]
          rfl
      rw [hturn, List.countP_cons_of_neg (by simpa using hp)]
      exact ih c

end Videos
end PessiStreamer.Node
