import PessiStreamer.Node.Exact
import PessiStreamer.Node.FailedRequests
import PessiStreamer.Node.Ping
import PessiStreamer.Node.Reception

/-!
# The queue of videos to be requested

Requests, pings and neighbours given up append to `pending_video_requests` without a look at what
it holds, and flood packets drain it.
-/

namespace PessiStreamer.Node
open Base Common

/-- The videos that a ping queues: those with neither a route nor an active node that lists them,
up to the first request that the socket refuses. Once `asked` for, a video has a route. -/
def State.queuedByPing (s : State) (ok : Nat → Bool) : List VideoId → List VideoId → List VideoId
  | _, [] => []
  | asked, v :: vs =>
    if (s.videoRoutes.lookup v).isSome ∨ v ∈ asked then s.queuedByPing ok asked vs
    else if (s.getBestNodeToRedirect v).isSome then
      if ok asked.length then s.queuedByPing ok (v :: asked) vs else []
    else v :: s.queuedByPing ok asked vs

namespace Event

/-- The videos the event queues. -/
def queued (e : Event) : List VideoId :=
  match e.input with
  | .packet (.serverPacket (.requestVideo v)) _ =>
    if (e.view.videoRoutes.lookup v).isNone ∧ (e.view.getBestNodeToRedirect v).isNone then [v]
    else []
  | .packet (.nodePacket (.clientPing _ requestedVideos)) _ =>
    e.view.queuedByPing e.env.accepts [] requestedVideos
  | _ =>
    match e.givesUp with
    | some addr => (e.view.markUnresponsive addr).leftFor addr
    | none => []

/-- The videos the event takes out of the queue. -/
def dequeued (e : Event) : List VideoId :=
  match e.input with
  | .packet (.nodePacket (.floodPacket p)) _ =>
    if e.view.id ∈ p.visitedNodes then [] else e.view.pendingListed p.videosAvailable
  | _ => []

/-- The event queues no video twice and none that is queued already. -/
def QueuesNew (e : Event) : Prop :=
  e.queued.Nodup ∧ ∀ v ∈ e.queued, v ∉ e.view.pendingVideoRequests

instance (e : Event) : Decidable e.QueuesNew :=
  have : Decidable (∀ v ∈ e.queued, v ∉ e.view.pendingVideoRequests) := List.decidableBAll _ _
  inferInstanceAs (Decidable (_ ∧ _))

/-- How often the event sends a request for the video. -/
def asks (e : Event) (v : VideoId) : Nat :=
  e.after.sent.countP fun message ↦ message.2 = .serverPacket (.requestVideo v)

/-- If the event is a flood packet that makes queued videos available, it asks once for each. -/
def AsksOnce (e : Event) : Prop :=
  e.env.AllOk → ∀ v ∈ e.dequeued, e.asks v = 1

end Event

section Handlers

variable {s : State} {addr : SocketAddr} {v : VideoId}

/-- The queue is this one. -/
def State.Queue (q : List VideoId) (s : State) : Prop := s.pendingVideoRequests = q

private theorem indifferent_queue (q : List VideoId) : Indifferent (State.Queue q) where
  subscribe _ _ _ := id
  unsubscribe _ _ _ := id
  setRoute _ _ _ := id
  dropRoute _ _ := id

/-- What a computation that keeps the queue leaves of it. -/
theorem queue_of_maintains {α : Type} {m : Handler α}
    (h : ∀ q, Maintains (OnState (State.Queue q)) m) (c : Ctx) :
    (finalState m c).state.pendingVideoRequests = c.state.pendingVideoRequests :=
  (h c.state.pendingVideoRequests).finalState rfl

/-- The first loop of a ping. -/
theorem requestLoop_queue (addr : SocketAddr) (requested asked : List VideoId) (c : Ctx)
    (hroutes : ∀ u, (c.state.videoRoutes.lookup u).isSome ↔
      (s.videoRoutes.lookup u).isSome ∨ u ∈ asked)
    (havailable : c.state.availableRoutes = s.availableRoutes)
    (hattempts : c.attempts = asked.length) :
    (finalState (requested.forM (requestMissing addr)) c).state.pendingVideoRequests =
      c.state.pendingVideoRequests ++ s.queuedByPing c.env.accepts asked requested := by
  induction requested generalizing asked c with
  | nil => exact (List.append_nil _).symm
  | cons v vs ih =>
    have hcons : (v :: vs).forM (requestMissing addr) c =
        (requestMissing addr v >>= fun _ ↦ vs.forM (requestMissing addr)) c := rfl
    unfold State.queuedByPing
    by_cases hrouted : (s.videoRoutes.lookup v).isSome ∨ v ∈ asked
    · have hturn : requestMissing addr v c = .ok () c := by
        simp [requestMissing, (hroutes v).mpr hrouted]
      rw [bind_apply, hturn] at hcons
      rw [if_pos hrouted, finalState_congr hcons]
      exact ih asked c hroutes havailable hattempts
    · have hnone : c.state.videoRoutes.lookup v = none := by
        rw [← Option.not_isSome_iff_eq_none, hroutes]
        exact hrouted
      have hturn : requestMissing addr v c = handleRequestVideo v addr c := by
        simp [requestMissing, hnone]
      rw [bind_apply, hturn] at hcons
      rw [if_neg hrouted, ← best_isSome_congr havailable]
      rcases handleRequestVideo_cases v addr c with ⟨hsome, -⟩ | ⟨-, n, hb, he⟩ | ⟨-, hb, he⟩
      · rw [hnone] at hsome
        cases hsome
      · rw [he] at hcons
        rw [hb, if_pos (Option.isSome_some), ← hattempts]
        rcases requestVideoToNode_eq v n (c.setState (c.state.subscribe v addr)) with
          ⟨hok, h⟩ | ⟨hfail, e, h⟩
        · have hok' : c.env.accepts c.attempts = true := hok
          rw [h] at hcons
          rw [finalState_congr hcons, if_pos hok']
          apply ih (v :: asked)
          · intro u
            show ((c.state.videoRoutes.insert v n).lookup u).isSome ↔ _
            rw [Map.lookup_insert_ite]
            by_cases hu : u = v
            · simp [hu]
            · simp [hu, hroutes]
          · exact havailable
          · rw [List.length_cons, ← hattempts]
            rfl
        · have hfail' : c.env.accepts c.attempts = false := hfail
          rw [h] at hcons
          rw [finalState_of_error hcons, hfail']
          exact (List.append_nil _).symm
      · rw [he] at hcons
        have hrest := ih asked (c.setState ((c.state.subscribe v addr).enqueue [v])) hroutes
          havailable hattempts
        rw [hb, if_neg (by simp), finalState_congr hcons, hrest]
        exact List.append_assoc _ _ _

private theorem handleClientPing_queue (n : UInt64) (requested : List VideoId) (addr : SocketAddr)
    (env : Env) (s : State) :
    (finalState (handleClientPing n requested addr) (.start env s)).state.pendingVideoRequests =
      s.pendingVideoRequests ++ s.queuedByPing env.accepts [] requested := by
  have hrun : handleClientPing n requested addr (.start env s) =
      (requested.forM (requestMissing addr) >>= fun _ ↦ getState >>= fun u ↦
        u.interested.entries.forM (stopUnrequested requested addr) >>= fun _ ↦
        send (pingAnswer n (s.getVideos addr) env.now) addr)
        ((Ctx.start env s).setState (s.recordPing addr env.now)) := rfl
  rw [finalState_congr hrun]
  have hrest (a : PUnit) (c : Ctx) : (finalState (getState >>= fun u ↦
      u.interested.entries.forM (stopUnrequested requested addr) >>= fun _ ↦
        send (pingAnswer n (s.getVideos addr) env.now) addr) c).state.pendingVideoRequests =
      c.state.pendingVideoRequests := by
    apply queue_of_maintains
    intro q
    apply getState_frame.bind
    intro u
    apply Maintains.bind
    · exact (indifferent_queue q).stopUnrequested requested u
    · exact fun _ ↦ send_frame _ addr
  refine (finalState_bind (g := fun c : Ctx ↦ c.state.pendingVideoRequests) hrest _).trans ?_
  exact requestLoop_queue (s := s) addr requested [] _ (fun u ↦ by simp [State.recordPing]) rfl rfl

private theorem handleRequestVideo_queue (v : VideoId) (addr : SocketAddr) (env : Env) (s : State) :
    (finalState (handleRequestVideo v addr) (.start env s)).state.pendingVideoRequests =
      s.pendingVideoRequests ++
        if (s.videoRoutes.lookup v).isNone ∧ (s.getBestNodeToRedirect v).isNone then [v]
        else [] := by
  rw [handleRequestVideo_state]
  show (s.afterRequest v addr _).pendingVideoRequests = _
  unfold State.afterRequest
  cases hr : s.videoRoutes.lookup v with
  | some n => simp
  | none =>
    cases hb : s.getBestNodeToRedirect v with
    | some n =>
      simp only [Option.isSome_none, Bool.false_eq_true, if_false]
      split
      · simp
      · simp
    | none => simp [State.enqueue]

private theorem giveUp_queue (addr : SocketAddr) (env : Env) (s : State) :
    (finalState (do
      modifyState fun t ↦ t.markUnresponsive addr
      handleUnresponsiveNode addr) (.start env s)).state.pendingVideoRequests =
      s.pendingVideoRequests ++ (s.markUnresponsive addr).leftFor addr := by
  obtain ⟨asked, hellos, -, h⟩ := handleUnresponsiveNode_outcome (s.markUnresponsive addr) addr env
  exact h.pending

private theorem handleFloodPacket_queue (fromAddr : SocketAddr) (p : FloodPacket) (env : Env)
    (s : State) :
    (finalState (handleFloodPacket fromAddr p) (.start env s)).state.pendingVideoRequests =
      s.pendingVideoRequests.filter fun v ↦ v ∉
        if s.id ∈ p.visitedNodes then [] else s.pendingListed p.videosAvailable := by
  by_cases hid : s.id ∈ p.visitedNodes
  · rw [floodPacket_loop hid, if_pos hid]
    simp [Ctx.start]
  · rw [if_neg hid]
    have hstate : (Reaction.handleFloodPacket fromAddr p).after env s = _ :=
      handleFloodPacket_state hid
    show ((Reaction.handleFloodPacket fromAddr p).after env s).pendingVideoRequests = _
    rw [hstate, State.routeAll_eq]
    rfl

end Handlers

namespace Event

/-- The tasks that may give up a neighbour do so, or leave the state alone. -/
theorem after_givesUp {e : Event} (h : (∃ addr, e.input = .neighbourUnresponsive addr) ∨
      ∃ target result, e.input = .floodPacketResult target result) :
    e.after = match e.givesUp with
      | some addr => finalState (do
          modifyState fun t ↦ t.markUnresponsive addr
          handleUnresponsiveNode addr) (.start e.env e.view)
      | none => .start e.env e.view := by
  obtain ⟨input, env, s⟩ := e
  rcases h with ⟨addr, hin⟩ | ⟨target, result, hin⟩
  · obtain rfl : input = .neighbourUnresponsive addr := hin
    have hrun : neighbourUnresponsive addr (.start env s) =
        (if (s.availableRoutes.lookup addr).isSome then do
          modifyState fun t ↦ t.markUnresponsive addr
          handleUnresponsiveNode addr
        else throw .unwrapNone : Handler Unit) (.start env s) := rfl
    refine (finalState_congr hrun).trans ?_
    by_cases hknown : (s.availableRoutes.lookup addr).isSome
    · simp only [givesUp, if_pos hknown]
    · simp only [givesUp, if_neg hknown]
      rfl
  · obtain rfl : input = .floodPacketResult target result := hin
    have hrun : handleSendFloodPacketResult target result (.start env s) =
        (if floodUnreached result ∧
            (s.availableRoutes.lookup target).map RouteInfo.status = some .active then do
          modifyState fun t ↦ t.markUnresponsive target
          handleUnresponsiveNode target
        else pure () : Handler Unit) (.start env s) := rfl
    refine (finalState_congr hrun).trans ?_
    by_cases hlost : floodUnreached result ∧
        (s.availableRoutes.lookup target).map RouteInfo.status = some .active
    · simp only [givesUp, if_pos hlost]
    · simp only [givesUp, if_neg hlost]
      rfl

/-- An event takes videos out of the queue, or appends some. -/
theorem queue_after (e : Event) : e.after.state.pendingVideoRequests =
    (e.view.pendingVideoRequests.filter fun v ↦ v ∉ e.dequeued) ++ e.queued := by
  obtain ⟨input, env, s⟩ := e
  -- nothing is dequeued and nothing is queued
  have hkeep {m : Handler Unit} (h : ∀ q, Maintains (OnState (State.Queue q)) m) :
      (finalState m (.start env s)).state.pendingVideoRequests =
        (s.pendingVideoRequests.filter fun v ↦ v ∉ ([] : List VideoId)) ++ [] := by
    rw [queue_of_maintains h]
    simp [Ctx.start]
  have happend {m : Handler Unit} {vs : List VideoId}
      (h : (finalState m (.start env s)).state.pendingVideoRequests =
        s.pendingVideoRequests ++ vs) :
      (finalState m (.start env s)).state.pendingVideoRequests =
        (s.pendingVideoRequests.filter fun v ↦ v ∉ ([] : List VideoId)) ++ vs := by
    rw [h]
    simp
  have hgive (h : (∃ addr, input = .neighbourUnresponsive addr) ∨
        ∃ target result, input = .floodPacketResult target result)
      (hdequeued : dequeued ⟨input, env, s⟩ = [])
      (hqueued : queued ⟨input, env, s⟩ = match givesUp ⟨input, env, s⟩ with
        | some addr => (s.markUnresponsive addr).leftFor addr
        | none => []) :
      (after ⟨input, env, s⟩).state.pendingVideoRequests =
        (s.pendingVideoRequests.filter fun v ↦ v ∉ dequeued ⟨input, env, s⟩) ++
          queued ⟨input, env, s⟩ := by
    rw [after_givesUp h, hdequeued, hqueued]
    cases givesUp ⟨input, env, s⟩ with
    | some addr => exact happend (giveUp_queue addr env s)
    | none => simp [Ctx.start]
  cases input with
  | packet p addr =>
    rcases p with p | (⟨n, requested⟩ | _ | p) | (v | v) | p
    · have hstate := (handleVideoPacket_broadcasted p env s).state
      apply happend
      exact (congrArg State.pendingVideoRequests hstate).trans (List.append_nil _).symm
    · exact happend (handleClientPing_queue n requested addr env s)
    · exact hkeep fun q ↦ modifyState_frame fun _ ↦ id
    · exact (handleFloodPacket_queue addr p env s).trans (List.append_nil _).symm
    · exact happend (handleRequestVideo_queue v addr env s)
    · exact hkeep fun q ↦ (indifferent_queue q).handleStopVideo
    · exact hkeep fun q _ hc ↦ hc
  | neighbourUnresponsive addr => exact hgive (.inl ⟨addr, rfl⟩) rfl rfl
  | clientHealthCheck => exact hkeep fun q ↦ (indifferent_queue q).clientHealthCheck
  | videoHealthCheck => exact hkeep fun q ↦ (indifferent_queue q).videoHealthCheck
  | floodPacketResult target result => exact hgive (.inr ⟨target, result, rfl⟩) rfl rfl
  | parentAnswer addr result =>
    rcases result with e | _ | _
    · exact hkeep fun q ↦ Maintains.pure ()
    · exact hkeep fun q ↦ modifyState_frame fun _ ↦ id
    · exact hkeep fun q ↦ Maintains.pure ()

private theorem dequeued_or_queued (e : Event) : e.dequeued = [] ∨ e.queued = [] := by
  obtain ⟨input, env, s⟩ := e
  rcases input with ⟨p, addr⟩ | addr | _ | _ | ⟨target, result⟩ | ⟨addr, result⟩
  · rcases p with p | (⟨n, requested⟩ | _ | p) | (v | v) | p
    all_goals first | exact .inl rfl | exact .inr rfl
  all_goals exact .inl rfl

/-- The queue stays free of duplicates just if the event queues new videos only. -/
theorem nodup_after_iff {e : Event} (h : e.view.pendingVideoRequests.Nodup) :
    e.after.state.pendingVideoRequests.Nodup ↔ e.QueuesNew := by
  rw [queue_after, List.nodup_append', QueuesNew]
  rcases e.dequeued_or_queued with hnone | hnone
  · have hall : (e.view.pendingVideoRequests.filter fun v ↦ v ∉ e.dequeued) =
        e.view.pendingVideoRequests := by
      simp [hnone]
    rw [hall, and_iff_right h, List.disjoint_comm]
    rfl
  · simp [hnone, h.filter]

/-- From a queue without duplicates each video is asked for once. -/
theorem asksOnce_of_nodup {e : Event} (h : e.view.pendingVideoRequests.Nodup) : e.AsksOnce := by
  obtain ⟨input, env, s⟩ := e
  intro hok v hv
  unfold dequeued at hv
  split at hv
  · next p fromAddr hin =>
    split at hv
    · cases hv
    · next hid =>
      have hinput : input = .packet (.nodePacket (.floodPacket p)) fromAddr := hin
      have hsent := (floodPacket_after (s := s) fromAddr hok hid).2
      have hforwards (t : State) : (t.forwards fromAddr p).countP (fun message ↦
          message.2 = .serverPacket (.requestVideo v)) = 0 := by
        rw [List.countP_eq_zero]
        intro message hmessage
        obtain ⟨addr, -, rfl⟩ := List.mem_map.mp hmessage
        simp
      rw [asks, after, hinput]
      show (finalState (handleFloodPacket fromAddr p) _).sent.countP _ = 1
      rw [hsent, List.countP_append, hforwards, List.countP_map]
      have hcount : (s.pendingListed p.videosAvailable).count v = 1 :=
        List.count_eq_one_of_mem (h.filter _) hv
      rw [Nat.add_zero, ← hcount, List.count]
      apply List.countP_congr
      intro u _
      simp
  · cases hv

end Event

section Runs

variable {id : NodeId} {neighbours : List IpAddr} {localAddr : SocketAddr} {s t : State}
  {e : Event} {tr : List (State × Event)}

/-- One step. -/
theorem Step.nodup_iff (h : Step s e t) (hs : s.pendingVideoRequests.Nodup) :
    e.AsksOnce ∧ t.pendingVideoRequests.Nodup ↔ e.QueuesNew := by
  obtain ⟨hview, rfl⟩ := h
  have hnodup : e.view.pendingVideoRequests.Nodup := by
    rw [hview.pendingVideoRequests]
    exact hs
  rw [and_iff_right (Event.asksOnce_of_nodup hnodup)]
  exact Event.nodup_after_iff hnodup

/-- In a run from a fresh node the queue is free of duplicates throughout, and floods ask once for
what they make available, just if each step queues new videos only. -/
theorem queuedOnce_iff (hrun : Run Step (.new id neighbours localAddr) tr t) :
    (∀ p ∈ tr, p.1.pendingVideoRequests.Nodup ∧ p.2.AsksOnce) ∧ t.pendingVideoRequests.Nodup ↔
      ∀ p ∈ tr, p.2.QueuesNew := by
  apply Run.invariant_iff (I := fun s ↦ s.pendingVideoRequests.Nodup)
    (J := fun _ ↦ True) (D := fun _ e ↦ e.AsksOnce) (P := fun _ e ↦ e.QueuesNew) _ _ hrun trivial
  · exact List.nodup_nil
  · exact fun _ _ _ _ _ ↦ trivial
  · exact fun s e t _ hs hstep ↦ hstep.nodup_iff hs

/-- A viewer requests video 5, and another node offers it. -/
def requestedThenOffered : List (Input × Env) :=
  [(.packet (.serverPacket (.requestVideo 5)) viewer, .calm 0),
    (.packet (offer [5]) (IpAddr.v4 1).atPort, .calm 0)]

/-- The request is delivered twice. -/
def requestedTwiceThenOffered : List (Input × Env) :=
  (.packet (.serverPacket (.requestVideo 5)) viewer, .calm 0) :: requestedThenOffered

/-- A video that was requested twice is asked for once. -/
theorem queuedOnce_requestedThenOffered :
    ((∀ p ∈ record (.new 9 [] (IpAddr.v4 9).atPort) requestedThenOffered,
        p.1.pendingVideoRequests.Nodup ∧ p.2.AsksOnce) ∧
      (simulate (.new 9 [] (IpAddr.v4 9).atPort) requestedThenOffered).pendingVideoRequests.Nodup) ∧
    (simulate (.new 9 [] (IpAddr.v4 9).atPort)
      (requestedThenOffered.take 1)).pendingVideoRequests = [5] := by
  constructor
  · apply (queuedOnce_iff (run_record _ requestedThenOffered)).mpr
    have hall : (record (.new 9 [] (IpAddr.v4 9).atPort) requestedThenOffered).all fun p ↦
        p.2.QueuesNew := by decide +kernel
    exact fun p hp ↦ of_decide_eq_true (List.all_eq_true.mp hall p hp)
  · decide +kernel

/-- A video requested twice is queued twice, and the flood packet that offers it makes the node
ask for it twice. -/
theorem requestedTwice_queuedTwice :
    Run Step (.new 9 [] (IpAddr.v4 9).atPort)
      (record (.new 9 [] (IpAddr.v4 9).atPort) requestedTwiceThenOffered)
      (simulate (.new 9 [] (IpAddr.v4 9).atPort) requestedTwiceThenOffered) ∧
    (simulate (.new 9 [] (IpAddr.v4 9).atPort)
      (requestedTwiceThenOffered.take 2)).pendingVideoRequests = [5, 5] ∧
    ¬ ((∀ p ∈ record (.new 9 [] (IpAddr.v4 9).atPort) requestedTwiceThenOffered,
        p.1.pendingVideoRequests.Nodup ∧ p.2.AsksOnce) ∧
      (simulate (.new 9 [] (IpAddr.v4 9).atPort)
        requestedTwiceThenOffered).pendingVideoRequests.Nodup) := by
  constructor
  · exact run_record _ requestedTwiceThenOffered
  constructor
  · decide +kernel
  · rintro ⟨hall, -⟩
    have hnodup : (record (.new 9 [] (IpAddr.v4 9).atPort) requestedTwiceThenOffered).all fun p ↦
        p.1.pendingVideoRequests.Nodup := by
      apply List.all_eq_true.mpr
      exact fun p hp ↦ decide_eq_true (hall p hp).1
    exact absurd hnodup (by decide +kernel)

end Runs
end PessiStreamer.Node
