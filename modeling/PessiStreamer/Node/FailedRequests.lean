import PessiStreamer.Node.Exact
import PessiStreamer.Node.Failover

/-!
# Videos whose requests fail

`request_video_to_node` installs a route only when its packet goes out. Its callers react to a
request for a video, to a flood packet and to a node that is given up.
-/

namespace PessiStreamer.Node
open Base Common

/-- A call that asks for videos because of an event. -/
inductive Reaction where
  | handleRequestVideo (videoId : VideoId) (addr : SocketAddr)
  | handleFloodPacket (fromAddr : SocketAddr) (p : FloodPacket)
  | handleUnresponsiveNode (addr : SocketAddr)
  /-- both callers of `handle_unresponsive_node` mark the node first; `node/src/node.rs:385`,
  `node/src/handle.rs:181` -/
  | giveUp (addr : SocketAddr)

/-- The computation of a call. -/
def Reaction.handler : Reaction → Handler Unit
  | handleRequestVideo videoId addr => Node.handleRequestVideo videoId addr
  | handleFloodPacket fromAddr p => Node.handleFloodPacket fromAddr p
  | handleUnresponsiveNode addr => Node.handleUnresponsiveNode addr
  | giveUp addr => do
    modifyState fun s ↦ s.markUnresponsive addr
    Node.handleUnresponsiveNode addr

/-- The state after a call. -/
def Reaction.after (r : Reaction) (env : Env) (s : State) : State :=
  (finalState r.handler (.start env s)).state

namespace State

/-- A video that is queued or comes from an active node. -/
def Held (s : State) (v : VideoId) : Prop :=
  v ∈ s.pendingVideoRequests ∨ ∃ n, s.videoRoutes.lookup v = some n ∧ s.IsActive n

instance (s : State) (n : SocketAddr) : Decidable (s.IsActive n) :=
  decidable_of_iff _ status_eq_active_iff

instance (s : State) (v : VideoId) : Decidable (s.Held v) :=
  decidable_of_iff (v ∈ s.pendingVideoRequests ∨ (s.videoRoutes.lookup v).any fun n ↦ s.IsActive n)
    (by simp [Held, Option.any_eq_true])

/-- From `s` to `t` no video with subscribers was lost that was held, or has a new one. -/
def KeepsVideos (s t : State) : Prop :=
  ∀ v, t.subscribers v ≠ [] → (s.Held v ∨ ∃ a ∈ t.subscribers v, a ∉ s.subscribers v) → t.Held v

end State

/-- The request of a new subscriber finds the video queued or its route active, or goes out if it
has to. -/
def RequestTaken (s : State) (env : Env) (v : VideoId) (a : SocketAddr) : Prop :=
  a ∈ s.subscribers v ∨ v ∈ s.pendingVideoRequests ∨
    match s.videoRoutes.lookup v with
    | some n => s.IsActive n
    | none => s.Offered v → env.accepts 0

/-- Of the requests for each queued video that a flood packet lists and somebody wants, one goes
out, or the video has an active route already. -/
def DrainTaken (s : State) (env : Env) (fromAddr : SocketAddr) (p : FloodPacket) : Prop :=
  s.id ∉ p.visitedNodes → ∀ v ∈ s.pendingListed p.videosAvailable, s.subscribers v ≠ [] →
    (∃ j, (s.pendingListed p.videosAvailable)[j]? = some v ∧ env.accepts j) ∨
      ∃ n, s.videoRoutes.lookup v = some n ∧ (n = fromAddr ∨ s.IsActive n)

/-- The request for each video that came from an active node, is wanted by others than that node
and is not queued goes out. -/
def RedirectsTaken (s : State) (env : Env) (a : SocketAddr) : Prop :=
  s.IsActive a → ∀ j v, ((s.markUnresponsive a).asksFor a)[j]? = some v →
    (∃ b ∈ s.subscribers v, b ≠ a) → v ∉ s.pendingVideoRequests →
      env.accepts ((s.stopsFor a).length + j)

/-- The requests that matter go out. -/
def Reaction.Taken (s : State) (env : Env) : Reaction → Prop
  | handleRequestVideo v a => RequestTaken s env v a
  | handleFloodPacket fromAddr p => DrainTaken s env fromAddr p
  | handleUnresponsiveNode _ => True
  | giveUp a => RedirectsTaken s env a

section Requests

variable {s t : State} {env : Env} {v : VideoId} {a : SocketAddr}

private theorem State.held_congr (hpend : t.pendingVideoRequests = s.pendingVideoRequests)
    (hroute : t.videoRoutes = s.videoRoutes) (havail : t.availableRoutes = s.availableRoutes)
    (u : VideoId) : t.Held u ↔ s.Held u := by
  simp only [Held, hpend, hroute, State.isActive_congr havail]

/-- Who is new after `a` subscribed to `v`. -/
theorem new_subscriber_iff {u : VideoId} :
    (∃ b ∈ (s.subscribe v a).subscribers u, b ∉ s.subscribers u) ↔ u = v ∧ a ∉ s.subscribers v := by
  rw [State.subscribe_subscribers]
  by_cases hu : u = v
  · subst hu
    by_cases ha : a ∈ s.subscribers u
    · simp [ha]
    · simp [ha]
  · simp [hu]

/-- A subscription alone keeps all videos just if it is no new one, or its video is held. -/
theorem keepsVideos_subscribe : s.KeepsVideos (s.subscribe v a) ↔
    a ∈ s.subscribers v ∨ s.Held v := by
  have hheld (u : VideoId) : (s.subscribe v a).Held u ↔ s.Held u := State.held_congr rfl rfl rfl u
  constructor
  · intro h
    by_cases ha : a ∈ s.subscribers v
    · exact .inl ha
    · right
      apply (hheld v).mp
      apply h v (List.ne_nil_of_mem (mem_subscribe s v a))
      exact .inr (new_subscriber_iff.mpr ⟨rfl, ha⟩)
  · intro h u _ hu
    apply (hheld u).mpr
    rcases hu with hu | hnew
    · exact hu
    · obtain ⟨rfl, ha⟩ := new_subscriber_iff.mp hnew
      exact h.resolve_left ha

/-- A subscription whose video is held afterwards. -/
theorem keepsVideos_of_held (hsub : ∀ u, t.subscribers u = (s.subscribe v a).subscribers u)
    (hothers : ∀ u, u ≠ v → s.Held u → t.Held u) (hv : t.Held v) : s.KeepsVideos t := by
  intro u _ hu
  by_cases huv : u = v
  · rw [huv]
    exact hv
  · rcases hu with hu | ⟨b, hb, hnew⟩
    · exact hothers u huv hu
    · rw [hsub] at hb
      exact absurd (new_subscriber_iff.mp ⟨b, hb, hnew⟩).1 huv

private theorem handleRequestVideo_keeps_iff (s : State) (env : Env) (v : VideoId)
    (a : SocketAddr) :
    s.KeepsVideos ((Reaction.handleRequestVideo v a).after env s) ↔ RequestTaken s env v a := by
  have hafter : (Reaction.handleRequestVideo v a).after env s =
      s.afterRequest v a (env.accepts 0) := handleRequestVideo_state v a (.start env s)
  rw [hafter, State.afterRequest, RequestTaken]
  cases hr : s.videoRoutes.lookup v with
  | some n =>
    rw [if_pos (Option.isSome_some), keepsVideos_subscribe]
    simp only [State.Held, hr, Option.some.injEq, exists_eq_left']
  | none =>
    rw [if_neg (by simp)]
    cases hb : s.getBestNodeToRedirect v with
    | some n =>
      have hoffers : s.Offers n v := State.offers_of_best hb
      cases hok : env.accepts 0 with
      | true =>
        apply iff_of_true
        · apply keepsVideos_of_held (v := v) (a := a)
          · exact fun _ ↦ rfl
          · intro u huv hu
            show ((s.subscribe v a).setRoute v n).Held u
            rw [State.Held, State.setRoute_lookup, if_neg huv]
            exact hu
          · right
            refine ⟨n, ?_, hoffers.isActive⟩
            show ((s.subscribe v a).setRoute v n).videoRoutes.lookup v = some n
            rw [State.setRoute_lookup, if_pos rfl]
        · exact .inr (.inr fun _ ↦ rfl)
      | false =>
        have hoffered : s.Offered v := ⟨n, hoffers⟩
        show s.KeepsVideos (s.subscribe v a) ↔ _
        simp [keepsVideos_subscribe, State.Held, hr, hoffered]
    | none =>
      apply iff_of_true
      · apply keepsVideos_of_held (v := v) (a := a)
        · exact fun _ ↦ rfl
        · intro u _ hu
          rcases hu with hu | hu
          · exact .inl (State.enqueue_pending _ _ _ |>.mpr (.inl hu))
          · exact .inr hu
        · exact .inl (State.enqueue_pending _ _ _ |>.mpr (.inr (by simp)))
      · right
        right
        rintro ⟨n, hn⟩
        exact absurd hn (State.best_eq_none_iff.mp hb n)

end Requests

section Drains

variable {s : State} {env : Env} {n fromAddr : SocketAddr} {E : HandlerError → Ctx → Prop}

/-- The loop that asks one node for several videos routes those whose requests go out. -/
theorem requestAll_routes (vs : List VideoId) (s : State) (k : Nat) :
    Triple (fun c ↦ c.env = env ∧ c.attempts = k ∧ c.state = s)
      (vs.forM fun v ↦ attempt (requestVideoToNode v n))
      (fun _ c ↦ c.state = s.routeAll (taken env.accepts k vs) n) E := by
  induction vs generalizing s k with
  | nil => exact Triple.pure fun c hc ↦ hc.2.2
  | cons v vs ih =>
    apply Triple.bind (Q := fun _ c ↦ c.env = env ∧ c.attempts = k + 1 ∧
      c.state = if env.accepts k then s.setRoute v n else s)
    · apply Triple.attempt
      rintro c ⟨rfl, rfl, rfl⟩
      rcases requestVideoToNode_eq v n c with ⟨hok, h⟩ | ⟨hfail, e, h⟩
      · rw [h, if_pos hok]
        exact ⟨rfl, rfl, rfl⟩
      · rw [h, hfail]
        exact ⟨rfl, rfl, rfl⟩
    · intro _
      apply (ih _ (k + 1)).weaken
      intro _ c hc
      rw [hc, taken_cons]
      split
      · rfl
      · rfl

/-- The queued videos that a list offers are routed where their requests go out, and leave the
queue. -/
theorem checkPendingVideos_state (s : State) (videos : List (VideoId × String)) :
    Triple (fun c ↦ c.env = env ∧ c.attempts = 0 ∧ c.state = s) (checkPendingVideos n videos)
      (fun _ c ↦ c.state = (s.routeAll (taken env.accepts 0 (s.pendingListed videos)) n).dequeue
        (s.pendingListed videos)) E := by
  apply triple_bind_getState
  intro t
  apply Triple.strengthen (P := fun c ↦ t = s ∧ c.env = env ∧ c.attempts = 0 ∧ c.state = s)
  · apply Triple.of_forall
    rintro rfl
    apply (requestAll_routes (t.pendingListed videos) t 0).bind
    rintro _ c hc
    show (c.state.dequeue (t.pendingListed videos)) = _
    rw [hc]
  · rintro c ⟨⟨henv, hattempts, rfl⟩, rfl⟩
    exact ⟨rfl, henv, hattempts, rfl⟩

/-- Passing a flood packet on changes no state. -/
theorem forwardAll_state (f : State → SocketAddr → Packet) (addrs : List SocketAddr) :
    Triple (fun c ↦ c.state = s) (addrs.forM fun addr ↦ attempt do
      let s ← getState
      send (f s addr) addr) (fun _ c ↦ c.state = s) E := by
  apply Triple.forM
  intro addr _
  apply Triple.attempt
  apply triple_bind_getState
  rintro t c ⟨hc, rfl⟩
  rcases send_cases (f c.state addr) addr c with h | ⟨e, -, h⟩
  · rw [h]
    exact hc
  · rw [h]
    exact hc

/-- The node after a flood packet that is no loop. -/
theorem handleFloodPacket_state {p : FloodPacket} (hid : s.id ∉ p.visitedNodes) :
    (Reaction.handleFloodPacket fromAddr p).after env s =
      ((s.learn fromAddr p env.now).routeAll
        (taken env.accepts 0 (s.pendingListed p.videosAvailable)) fromAddr).dequeue
          (s.pendingListed p.videosAvailable) := by
  have hrun : Triple (fun c ↦ c = .start env s) (handleFloodPacket fromAddr p)
      (fun _ c ↦ c.state = ((s.learn fromAddr p env.now).routeAll
        (taken env.accepts 0 (s.pendingListed p.videosAvailable)) fromAddr).dequeue
          (s.pendingListed p.videosAvailable))
      (fun _ c ↦ c.state = ((s.learn fromAddr p env.now).routeAll
        (taken env.accepts 0 (s.pendingListed p.videosAvailable)) fromAddr).dequeue
          (s.pendingListed p.videosAvailable)) := by
    apply triple_bind_getState
    intro t
    apply Triple.ite
    · rintro hloop c ⟨rfl, rfl⟩
      exact absurd hloop hid
    intro _
    apply Triple.bind (Q := fun t c ↦ t = env.now ∧ c = .start env s)
    · rintro c ⟨rfl, -⟩
      exact ⟨rfl, rfl⟩
    intro now
    apply Triple.of_forall
    rintro rfl
    apply Triple.bind (Q := fun _ c ↦
      c = (Ctx.start env s).setState (s.updateVideoNames p.videosAvailable))
    · rintro c rfl
      rfl
    intro _
    apply Triple.bind (Q := fun _ c ↦ c = (Ctx.start env s).setState (s.learn fromAddr p env.now))
    · rintro c rfl
      rfl
    intro _
    apply Triple.bind
    · apply (checkPendingVideos_state (s.learn fromAddr p env.now) p.videosAvailable).strengthen
      rintro c rfl
      exact ⟨rfl, rfl, rfl⟩
    intro _
    apply triple_bind_getState
    intro u
    apply Triple.strengthen _ fun c hc ↦ hc.1
    apply forwardAll_state (fun s addr ↦ .nodePacket (.floodPacket { p with
      myParents := s.getParents
      visitedNodes := p.visitedNodes ++ [u.id]
      videosAvailable := s.getVideos addr }))
  exact Triple.finalState hrun rfl

/-- Routes leave the subscribers as they are. -/
@[simp] theorem State.routeAll_subscribers (s : State) (vs : List VideoId) (v : VideoId) :
    (s.routeAll vs n).subscribers v = s.subscribers v := by
  rw [State.routeAll_eq]
  rfl

private theorem State.keepsVideos_refl (s : State) : s.KeepsVideos s := by
  rintro v - (hv | ⟨b, hb, hnew⟩)
  · exact hv
  · exact absurd hb hnew

/-- Which videos are held after some of the queued ones were routed to the sender. -/
theorem held_drained {p : FloodPacket} {now : SystemTime} {done listed : List VideoId}
    {v : VideoId} :
    (((s.learn fromAddr p now).routeAll done fromAddr).dequeue listed).Held v ↔
      (v ∈ s.pendingVideoRequests ∧ v ∉ listed) ∨ v ∈ done ∨
        ∃ n, s.videoRoutes.lookup v = some n ∧ (n = fromAddr ∨ s.IsActive n) := by
  have hpend : ((s.learn fromAddr p now).routeAll done fromAddr).pendingVideoRequests =
      s.pendingVideoRequests := by
    rw [State.routeAll_eq]
    rfl
  have hactive (n : SocketAddr) : (((s.learn fromAddr p now).routeAll done fromAddr).dequeue
      listed).IsActive n ↔ n = fromAddr ∨ s.IsActive n := by
    rw [← State.isActive_updateRoute (s := s) (p := p) (t := now)]
    apply State.isActive_congr
    rw [State.dequeue_availableRoutes, State.routeAll_eq]
    rfl
  have hroute : (s.learn fromAddr p now).videoRoutes = s.videoRoutes := rfl
  simp only [State.Held, State.dequeue_pending, hpend, State.dequeue_videoRoutes,
    State.routeAll_lookup, hactive, hroute]
  by_cases hv : v ∈ done
  · simp [hv]
  · simp [hv]

private theorem handleFloodPacket_keeps_iff (s : State) (env : Env) (fromAddr : SocketAddr)
    (p : FloodPacket) : s.KeepsVideos ((Reaction.handleFloodPacket fromAddr p).after env s) ↔
      DrainTaken s env fromAddr p := by
  by_cases hid : s.id ∈ p.visitedNodes
  · have hafter : (Reaction.handleFloodPacket fromAddr p).after env s = s :=
      congrArg Ctx.state (floodPacket_loop hid)
    rw [hafter]
    exact iff_of_true s.keepsVideos_refl fun h ↦ absurd hid h
  have hsub (v : VideoId) : ((Reaction.handleFloodPacket fromAddr p).after env s).subscribers v =
      s.subscribers v := by
    rw [handleFloodPacket_state hid, State.dequeue_subscribers, State.routeAll_subscribers]
    rfl
  have hheld (v : VideoId) : ((Reaction.handleFloodPacket fromAddr p).after env s).Held v ↔
      (v ∈ s.pendingVideoRequests ∧ v ∉ s.pendingListed p.videosAvailable) ∨
        (∃ j, (s.pendingListed p.videosAvailable)[j]? = some v ∧ env.accepts j) ∨
        ∃ n, s.videoRoutes.lookup v = some n ∧ (n = fromAddr ∨ s.IsActive n) := by
    rw [handleFloodPacket_state hid, held_drained, mem_taken_iff]
    simp only [Nat.zero_add]
  constructor
  · intro h _ v hv hne
    have hafter := h v (hsub v ▸ hne) (.inl (.inl (mem_pendingListed.mp hv).1))
    exact ((hheld v).mp hafter).resolve_left fun hqueued ↦ hqueued.2 hv
  · intro h v hne hv
    rw [hsub] at hne
    apply (hheld v).mpr
    rcases hv with (hpend | ⟨n, hn, hactive⟩) | ⟨b, hb, hnew⟩
    · by_cases hlisted : v ∈ s.pendingListed p.videosAvailable
      · exact .inr (h hid v hlisted hne)
      · exact .inl ⟨hpend, hlisted⟩
    · exact .inr (.inr ⟨n, hn, .inr hactive⟩)
    · rw [hsub] at hb
      exact absurd hb hnew

end Drains

section Redirected

variable {s : State} {a : SocketAddr} {env : Env} {asked : List (VideoId × SocketAddr)}
  {queued : List VideoId} {hellos : List (SocketAddr × Packet)} {v : VideoId} {c : Ctx}

/-- A video with subscribers left was wanted by others than the node given up, and none is new. -/
theorem Outcome.wanted (h : Outcome s a env asked queued hellos c)
    (hv : c.state.subscribers v ≠ []) : ∃ b ∈ s.subscribers v, b ≠ a := by
  rw [h.subscribers] at hv
  obtain ⟨b, hb⟩ := List.exists_mem_of_ne_nil _ hv
  rw [List.mem_filter, decide_eq_true_eq] at hb
  exact ⟨b, hb⟩

/-- Which videos wanted by others are held after the node was given up. -/
theorem Outcome.held_iff (h : Outcome s a env asked queued hellos c)
    (hasks : asked.map Prod.fst = s.asksFor a) (hv : ∃ b ∈ s.subscribers v, b ≠ a) :
    c.state.Held v ↔ v ∈ s.pendingVideoRequests ∨ v ∈ queued ∨
      (∃ j, (s.asksFor a)[j]? = some v ∧ env.accepts ((s.stopsFor a).length + j)) ∨
      ∃ n, s.videoRoutes.lookup v = some n ∧ s.IsActive n := by
  have hactive (n : SocketAddr) : c.state.IsActive n ↔ s.IsActive n :=
    State.isActive_congr h.availableRoutes n
  have honly : ¬ s.OnlySubscriber v a := by
    rintro ⟨-, honly⟩
    obtain ⟨b, hb, hba⟩ := hv
    exact hba (honly b hb)
  rw [← mem_taken_asked hasks, State.Held, h.pending, List.mem_append, or_assoc]
  apply or_congr_right
  apply or_congr_right
  by_cases htaken : v ∈ (taken env.accepts (s.stopsFor a).length asked).map Prod.fst
  · obtain ⟨x, hx, rfl⟩ := List.mem_map.mp htaken
    apply iff_of_true
    · exact ⟨x.2, h.rerouted x hx,
        (hactive x.2).mpr (h.offers x (taken_sublist.subset hx)).isActive⟩
    · exact .inl htaken
  · rw [h.routes v htaken, if_neg honly]
    simp only [hactive, htaken, false_or]

/-- Nobody is new after a node was given up. -/
theorem Outcome.not_new (h : Outcome s a env asked queued hellos c) :
    ¬ ∃ b ∈ c.state.subscribers v, b ∉ s.subscribers v := by
  rintro ⟨b, hb, hnew⟩
  rw [h.subscribers] at hb
  exact hnew (List.mem_of_mem_filter hb)

/-- The call alone keeps what is held, since the node it is about does not count as active. -/
theorem handleUnresponsiveNode_keeps (s : State) (env : Env) (a : SocketAddr) :
    s.KeepsVideos ((Reaction.handleUnresponsiveNode a).after env s) := by
  obtain ⟨asked, hellos, hasks, h⟩ := handleUnresponsiveNode_outcome s a env
  intro v hv hheld
  apply (h.held_iff hasks (h.wanted hv)).mpr
  rcases hheld.resolve_right h.not_new with hpend | hroute
  · exact .inl hpend
  · exact .inr (.inr (.inr hroute))

private theorem nodup_asksFor (s : State) (a : SocketAddr) : (s.asksFor a).Nodup :=
  (nodup_videosReceiving s a).sublist List.filter_sublist

private theorem giveUp_keeps_iff (s : State) (env : Env) (a : SocketAddr) :
    s.KeepsVideos ((Reaction.giveUp a).after env s) ↔ RedirectsTaken s env a := by
  obtain ⟨asked, hellos, hasks, h⟩ := handleUnresponsiveNode_outcome (s.markUnresponsive a) a env
  have hafter : (Reaction.giveUp a).after env s =
      (finalState (handleUnresponsiveNode a) (.start env (s.markUnresponsive a))).state := rfl
  have hroutes (v : VideoId) (n : SocketAddr) :
      (s.markUnresponsive a).videoRoutes.lookup v = some n ↔ s.videoRoutes.lookup v = some n :=
    Iff.rfl
  rw [hafter]
  constructor
  · rintro hkeeps hactive j v hj hother hpend
    have hasked := State.mem_asksFor.mp (List.mem_of_getElem? hj)
    have hsub : (finalState (handleUnresponsiveNode a)
        (.start env (s.markUnresponsive a))).state.subscribers v ≠ [] := by
      obtain ⟨b, hb, hba⟩ := hother
      rw [h.subscribers]
      exact List.ne_nil_of_mem (List.mem_filter.mpr ⟨hb, decide_eq_true hba⟩)
    have hheld := hkeeps v hsub (.inl (.inr ⟨a, hasked.1, hactive⟩))
    rcases (h.held_iff hasks hother).mp hheld with hv | hv | ⟨i, hi, hok⟩ | ⟨n, hn, hn'⟩
    · exact absurd hv hpend
    · exact absurd hasked.2 (State.mem_leftFor.mp hv).2
    · obtain ⟨hil, hi⟩ := List.getElem?_eq_some_iff.mp hi
      obtain ⟨hjl, hj⟩ := List.getElem?_eq_some_iff.mp hj
      rw [← (nodup_asksFor _ a).getElem_inj_iff.mp (hi.trans hj.symm)]
      exact hok
    · rw [hasked.1] at hn
      cases hn
      exact absurd rfl (State.isActive_markUnresponsive.mp hn').1
  · intro htaken v hv hheld
    have hother := h.wanted hv
    apply (h.held_iff hasks hother).mpr
    rcases hheld.resolve_right h.not_new with hpend | ⟨n, hn, hactive⟩
    · exact .inl hpend
    · by_cases hna : n = a
      · subst hna
        by_cases hoffered : (s.markUnresponsive n).Offered v
        · obtain ⟨j, hj⟩ := List.getElem?_of_mem
            (State.mem_asksFor.mpr ⟨(hroutes v n).mpr hn, hoffered⟩)
          by_cases hpend : v ∈ s.pendingVideoRequests
          · exact .inl hpend
          · exact .inr (.inr (.inl ⟨j, hj, htaken hactive j v hj hother hpend⟩))
        · exact .inr (.inl (State.mem_leftFor.mpr ⟨(hroutes v n).mpr hn, hoffered⟩))
      · exact .inr (.inr (.inr ⟨n, hn, State.isActive_markUnresponsive.mpr ⟨hna, hactive⟩⟩))

end Redirected

section Calls

/-- A call loses no video just if the requests that matter go out. -/
theorem keepsVideos_iff (r : Reaction) (env : Env) (s : State) :
    s.KeepsVideos (r.after env s) ↔ r.Taken s env := by
  cases r with
  | handleRequestVideo v a => exact handleRequestVideo_keeps_iff s env v a
  | handleFloodPacket fromAddr p => exact handleFloodPacket_keeps_iff s env fromAddr p
  | handleUnresponsiveNode a => exact iff_of_true (handleUnresponsiveNode_keeps s env a) trivial
  | giveUp a => exact giveUp_keeps_iff s env a

/-- An environment in which every send fails. -/
def Env.cut (now : SystemTime) : Env := ⟨now, fun _ ↦ .error .ioError⟩

/-- Neighbour 1 offers video 5, which nobody has asked for yet. -/
def offered : State := handled [(offer [5], (IpAddr.v4 1).atPort)]

/-- A client waits for video 5, which no node offers. -/
def waiting : State := handled [(.serverPacket (.requestVideo 5), viewer)]

/-- The sends fail: when a client asks for video 5, when neighbour 1 offers the video a client
waits for, and when neighbour 1 is given up and neighbour 2 is asked in its place. -/
theorem failed_request_loses :
    (Reachable 9 [] (IpAddr.v4 9).atPort offered ∧
      ¬ offered.KeepsVideos ((Reaction.handleRequestVideo 5 viewer).after (.cut 0) offered)) ∧
    (Reachable 9 [] (IpAddr.v4 9).atPort waiting ∧
      ¬ waiting.KeepsVideos ((Reaction.handleFloodPacket (IpAddr.v4 1).atPort
        ⟨0, [(5, "")], [], []⟩).after (.cut 0) waiting)) ∧
    (Reachable 9 [] (IpAddr.v4 9).atPort betweenTwo ∧
      ¬ betweenTwo.KeepsVideos ((Reaction.giveUp (IpAddr.v4 1).atPort).after (.cut 0)
        betweenTwo)) := by
  have hlost {s t : State} (hsub : t.subscribers 5 ≠ [])
      (hdue : s.Held 5 ∨ ∃ a ∈ t.subscribers 5, a ∉ s.subscribers 5) (ht : ¬ t.Held 5) :
      ¬ s.KeepsVideos t := fun h ↦ ht (h 5 hsub hdue)
  constructor
  · exact ⟨reachable_handled _, hlost (by decide +kernel) (by decide +kernel) (by decide +kernel)⟩
  constructor
  · exact ⟨reachable_handled _, hlost (by decide +kernel) (by decide +kernel) (by decide +kernel)⟩
  · exact ⟨reachable_handled _, hlost (by decide +kernel) (by decide +kernel) (by decide +kernel)⟩

end Calls
end PessiStreamer.Node
