import PessiStreamer.Node.Ping

/-!
# A request and a stop that run at the same time

`handle_request_video` for one subscriber of a video, and `handle_stop_video` for another one,
taking turns at every access to a map. The request holds the guard of the list of subscribers
until it returns, the stop holds no guard from one access to the next.
-/

namespace PessiStreamer.Node
open Base Common

/-- The routes within the delay bound, which the second pass of `get_best_node_to_redirect`
ranks; `node/src/node.rs:133`. -/
def State.withinDelay (s : State) (videoId : VideoId) :
    List (Sigma fun _ : SocketAddr ↦ RouteInfo) :=
  match ((s.routesListing videoId).map fun e ↦ e.2.averageDelayToServer).min? with
  | some d => (s.routesListing videoId).filter fun e ↦
    e.2.averageDelayToServer ≤ d + d / 100 * State.DELAY_THRESHOLD_PERCENTAGE
  | none => []

private theorem State.best_eq_argmin (s : State) (v : VideoId) :
    s.getBestNodeToRedirect v = ((s.withinDelay v).argmin s.redirectKey).map fun e ↦ e.1 := by
  rw [State.getBestNodeToRedirect_eq, selectNear, State.withinDelay]
  cases ((s.routesListing v).map fun e ↦ e.2.averageDelayToServer).min? with
  | none => rfl
  | some d => rfl

/-- Where a run of `handle_request_video` stands. -/
inductive RequestStage where
  | entering
  | lookingUp
  | selecting
  /-- with the best route so far and its rank -/
  | ranking (todo : List (Sigma fun _ : SocketAddr ↦ RouteInfo))
      (best : Option ((Sigma fun _ : SocketAddr ↦ RouteInfo) × (ℕ ×ₗ ℕ ×ₗ ℕ)))
  | sending (node : SocketAddr)
  | installing (node : SocketAddr)
  | queueing
  /-- nothing is left to do but to drop the guard -/
  | leaving
  | returned
  deriving DecidableEq

/-- It holds the guard of the entry. -/
def RequestStage.Holds : RequestStage → Bool
  | .entering => false
  | .returned => false
  | _ => true

/-- Where a run of `handle_stop_video` stands. -/
inductive StopStage where
  | removing
  | counting
  | unrouting
  | sending (node : SocketAddr)
  | returned
  deriving DecidableEq

/-- The two runs, the state they share and what they have sent. -/
structure Race where
  state : State
  request : RequestStage
  stop : StopStage
  sent : List (SocketAddr × Packet)

/-- Which of the two handlers goes on. -/
inductive Runner where
  | request
  | stop
  deriving DecidableEq

namespace Race

/-- Before the first step of either. -/
def start (s : State) : Race := ⟨s, .entering, .removing, []⟩

variable (v : VideoId) (a b : SocketAddr)

/-- The next access of `handle_request_video(v, b)`; `node/src/handle.rs:48`. -/
def stepRequest (r : Race) : Option Race :=
  match r.request with
  | .entering => some { r with state := r.state.subscribe v b, request := .lookingUp }
  | .lookingUp =>
    match r.state.videoRoutes.lookup v with
    -- the guard of the route found is held until the handler returns
    | some _ => some { r with request := .returned }
    | none => some { r with request := .selecting }
  | .selecting => some { r with request := .ranking (r.state.withinDelay v) none }
  | .ranking (e :: todo) best =>
    some { r with request := .ranking todo (prefer best e (r.state.redirectKey e)) }
  | .ranking [] (some best) => some { r with request := .sending best.1.1 }
  | .ranking [] none => some { r with request := .queueing }
  | .sending n => some { r with
      request := .installing n
      sent := r.sent ++ [(n, .serverPacket (.requestVideo v))] }
  | .installing n => some { r with state := r.state.setRoute v n, request := .leaving }
  | .queueing => some { r with state := r.state.enqueue [v], request := .leaving }
  | .leaving => some { r with request := .returned }
  | .returned => none

/-- The next access of `handle_stop_video(v, a)`; `node/src/handle.rs:81`. The accesses to the
list of subscribers wait for its guard. -/
def stepStop (r : Race) : Option Race :=
  match r.stop with
  | .removing =>
    if r.request.Holds then none
    else some { r with state := r.state.unsubscribe v a, stop := .counting }
  | .counting =>
    if r.request.Holds then none
    else if (r.state.subscribers v).length = 0 then some { r with stop := .unrouting }
    else some { r with stop := .returned }
  | .unrouting =>
    match r.state.videoRoutes.lookup v with
    | some n => some { r with state := r.state.dropRoute v, stop := .sending n }
    | none => some { r with stop := .returned }
  | .sending n => some { r with
      stop := .returned
      sent := r.sent ++ [(n, .serverPacket (.stopVideo v))] }
  | .returned => none

/-- One of the two takes its next step. -/
def step? (r : Race) : Runner → Option Race
  | .request => r.stepRequest v b
  | .stop => r.stepStop v a

/-- The interleavings of the two. -/
def Step (r : Race) (who : Runner) (r' : Race) : Prop := r.step? v a b who = some r'

/-- Both have returned. -/
def Over (r : Race) : Prop := r.request = .returned ∧ r.stop = .returned

/-- The request has found or installed a route, or queued the video. -/
def Answered (r : Race) : Prop := r.request = .leaving ∨ r.request = .returned

/-- The video has a route or is queued. -/
def Provided (r : Race) : Prop :=
  (r.state.videoRoutes.lookup v).isSome ∨ v ∈ r.state.pendingVideoRequests

/-- This step removes the route that answered the request. -/
def Unroutes (r : Race) (who : Runner) : Prop :=
  who = .stop ∧ r.stop = .unrouting ∧ r.Answered ∧ v ∉ r.state.pendingVideoRequests

instance (r : Race) : Decidable r.Answered := inferInstanceAs (Decidable (_ ∨ _))

instance (r : Race) (who : Runner) : Decidable (r.Unroutes v who) :=
  inferInstanceAs (Decidable (_ ∧ _))

/-- What a step can do to the state and to what each of the two has achieved. -/
inductive Move (r : Race) : Runner → Race → Prop where
  | enter {r' : Race} (hr : r.request = .entering) (hr' : r'.request = .lookingUp)
      (hstop : r'.stop = r.stop) (hstate : r'.state = r.state.subscribe v b) : Move r .request r'
  | find {r' : Race} (n : SocketAddr) (hroute : r.state.videoRoutes.lookup v = some n)
      (hr : r.request = .lookingUp) (hr' : r'.request = .returned) (hstop : r'.stop = r.stop)
      (hstate : r'.state = r.state) : Move r .request r'
  | advance {r' : Race} (hr : r.request ≠ .entering) (hr' : r'.request ≠ .entering)
      (hans : r'.Answered ↔ r.Answered) (hstop : r'.stop = r.stop) (hstate : r'.state = r.state) :
      Move r .request r'
  | install {r' : Race} (n : SocketAddr) (hr : r.request = .installing n)
      (hr' : r'.request = .leaving) (hstop : r'.stop = r.stop)
      (hstate : r'.state = r.state.setRoute v n) : Move r .request r'
  | queue {r' : Race} (hr : r.request = .queueing) (hr' : r'.request = .leaving)
      (hstop : r'.stop = r.stop) (hstate : r'.state = r.state.enqueue [v]) : Move r .request r'
  | leave {r' : Race} (hr : r.request.Holds = false) (hs : r.stop = .removing)
      (hs' : r'.stop = .counting) (hreq : r'.request = r.request)
      (hstate : r'.state = r.state.unsubscribe v a) : Move r .stop r'
  | count {r' : Race} (hr : r.request.Holds = false) (hs : r.stop = .counting)
      (hs' : r'.stop = if r.state.subscribers v = [] then .unrouting else .returned)
      (hreq : r'.request = r.request) (hstate : r'.state = r.state) : Move r .stop r'
  | unroute {r' : Race} (n : SocketAddr) (hroute : r.state.videoRoutes.lookup v = some n)
      (hs : r.stop = .unrouting) (hs' : r'.stop = .sending n) (hreq : r'.request = r.request)
      (hstate : r'.state = r.state.dropRoute v) : Move r .stop r'
  | finish {r' : Race}
      (hs : r.stop = .unrouting ∧ r.state.videoRoutes.lookup v = none ∨ ∃ n, r.stop = .sending n)
      (hs' : r'.stop = .returned) (hreq : r'.request = r.request) (hstate : r'.state = r.state) :
      Move r .stop r'

variable {v a b} {r r' : Race} {who : Runner}

private theorem Step.move (h : Step v a b r who r') : Move v a b r who r' := by
  cases who with
  | request =>
    have hstep : r.stepRequest v b = some r' := h
    unfold stepRequest at hstep
    cases hr : r.request with
    | entering =>
      rw [hr] at hstep
      cases hstep
      exact .enter hr rfl rfl rfl
    | lookingUp =>
      rw [hr] at hstep
      cases hroute : r.state.videoRoutes.lookup v with
      | some n =>
        simp only [hroute] at hstep
        cases hstep
        exact .find n hroute hr rfl rfl rfl
      | none =>
        simp only [hroute] at hstep
        cases hstep
        exact .advance (by simp [hr]) (by simp) (by simp [Answered, hr]) rfl rfl
    | ranking todo best =>
      rw [hr] at hstep
      cases todo with
      | cons e todo =>
        cases hstep
        exact .advance (by simp [hr]) (by simp) (by simp [Answered, hr]) rfl rfl
      | nil =>
        cases best with
        | none =>
          cases hstep
          exact .advance (by simp [hr]) (by simp) (by simp [Answered, hr]) rfl rfl
        | some best =>
          cases hstep
          exact .advance (by simp [hr]) (by simp) (by simp [Answered, hr]) rfl rfl
    | installing n =>
      rw [hr] at hstep
      cases hstep
      exact .install n hr rfl rfl rfl
    | queueing =>
      rw [hr] at hstep
      cases hstep
      exact .queue hr rfl rfl rfl
    | returned =>
      rw [hr] at hstep
      cases hstep
    | _ =>
      rw [hr] at hstep
      cases hstep
      exact .advance (by simp [hr]) (by simp) (by simp [Answered, hr]) rfl rfl
  | stop =>
    have hstep : r.stepStop v a = some r' := h
    unfold stepStop at hstep
    cases hs : r.stop with
    | removing =>
      rw [hs] at hstep
      cases hr : r.request.Holds with
      | true => simp [hr] at hstep
      | false =>
        simp only [hr] at hstep
        cases hstep
        exact .leave hr hs rfl rfl rfl
    | counting =>
      rw [hs] at hstep
      cases hr : r.request.Holds with
      | true => simp [hr] at hstep
      | false =>
        simp only [hr, List.length_eq_zero_iff] at hstep
        by_cases hl : r.state.subscribers v = []
        · simp only [hl] at hstep
          cases hstep
          exact .count hr hs (by simp [hl]) rfl rfl
        · simp only [hl] at hstep
          cases hstep
          exact .count hr hs (by simp [hl]) rfl rfl
    | unrouting =>
      rw [hs] at hstep
      cases hroute : r.state.videoRoutes.lookup v with
      | some n =>
        simp only [hroute] at hstep
        cases hstep
        exact .unroute n hroute hs rfl rfl rfl
      | none =>
        simp only [hroute] at hstep
        cases hstep
        exact .finish (.inl ⟨hs, hroute⟩) rfl rfl rfl
    | sending n =>
      rw [hs] at hstep
      cases hstep
      exact .finish (.inr ⟨n, hs⟩) rfl rfl rfl
    | returned =>
      rw [hs] at hstep
      cases hstep

/-- The request enters its subscriber first, and the stop removes another one. -/
theorem Move.subscribed (h : Move v a b r who r') (hab : a ≠ b)
    (hr : r.request ≠ .entering → b ∈ r.state.subscribers v) :
    r'.request ≠ .entering → b ∈ r'.state.subscribers v := by
  cases h with
  | enter _ _ _ hstate =>
    intro _
    rw [hstate]
    exact mem_subscribe r.state v b
  | find n _ hreq _ _ hstate =>
    intro _
    rw [hstate]
    exact hr (by simp [hreq])
  | advance hreq _ _ _ hstate =>
    intro _
    rw [hstate]
    exact hr hreq
  | install n hreq _ _ hstate =>
    intro _
    rw [hstate]
    exact hr (by simp [hreq])
  | queue hreq _ _ hstate =>
    intro _
    rw [hstate]
    exact hr (by simp [hreq])
  | leave _ _ _ hreq hstate =>
    intro hne
    rw [hreq] at hne
    rw [hstate, State.unsubscribe_subscribers, if_pos rfl]
    simp [hr hne, hab.symm]
  | count _ _ _ hreq hstate =>
    rw [hreq, hstate]
    exact hr
  | unroute n _ _ _ hreq hstate =>
    rw [hreq, hstate]
    exact hr
  | finish _ _ hreq hstate =>
    rw [hreq, hstate]
    exact hr

private theorem provided_congr (hstate : r'.state = r.state) : r'.Provided v ↔ r.Provided v := by
  simp only [Provided, hstate]

private theorem answered_congr (hreq : r'.request = r.request) : r'.Answered ↔ r.Answered := by
  simp only [Answered, hreq]

/-- What answers the request stays until the stop removes it. -/
theorem Move.provided (h : Move v a b r who r') (hw : ¬ r.Unroutes v who)
    (hr : r.Answered → r.Provided v) : r'.Answered → r'.Provided v := by
  cases h with
  | enter _ hreq _ _ =>
    intro hans
    simp [Answered, hreq] at hans
  | find n hroute _ _ _ hstate =>
    intro _
    rw [provided_congr hstate]
    exact .inl (by simp [hroute])
  | advance _ _ hans _ hstate =>
    rw [hans, provided_congr hstate]
    exact hr
  | install n _ _ _ hstate =>
    intro _
    exact .inl (by simp [hstate])
  | queue _ _ _ hstate =>
    intro _
    exact .inr (by simp [hstate])
  | leave _ _ _ hreq hstate =>
    rw [answered_congr hreq]
    intro hans
    have hprov := hr hans
    rw [Provided, hstate]
    exact hprov
  | count _ _ _ hreq hstate =>
    rw [answered_congr hreq, provided_congr hstate]
    exact hr
  | unroute n _ hs _ hreq hstate =>
    rw [answered_congr hreq]
    intro hans
    -- the route goes, so the video must be queued
    have hq : v ∈ r.state.pendingVideoRequests := by
      by_contra hq
      exact hw ⟨rfl, hs, hans, hq⟩
    exact .inr (by simpa [hstate] using hq)
  | finish _ _ hreq hstate =>
    rw [answered_congr hreq, provided_congr hstate]
    exact hr

/-- The request is answered, the stop is past the route, and the video has nothing. -/
def Stranded (v : VideoId) (r : Race) : Prop :=
  r.Answered ∧ (r.stop = .returned ∨ ∃ n, r.stop = .sending n) ∧ ¬ r.Provided v

/-- Nobody provides for the video any more. -/
theorem Move.stranded (h : Move v a b r who r') (hr : r.Stranded v) : r'.Stranded v := by
  obtain ⟨hans, hstop, hprov⟩ := hr
  cases h with
  | enter hreq => simp [Answered, hreq] at hans
  | find n _ hreq => simp [Answered, hreq] at hans
  | advance _ _ hans' hs hstate =>
    rw [Stranded, hans', hs, provided_congr hstate]
    exact ⟨hans, hstop, hprov⟩
  | install n hreq => simp [Answered, hreq] at hans
  | queue hreq => simp [Answered, hreq] at hans
  | leave _ hs => simp [hs] at hstop
  | count _ hs => simp [hs] at hstop
  | unroute n _ hs => simp [hs] at hstop
  | finish _ hs' hreq hstate =>
    rw [Stranded, answered_congr hreq, provided_congr hstate]
    exact ⟨hans, .inl hs', hprov⟩

/-- Removing the route that answered the request strands the video. -/
theorem Move.strands (h : Move v a b r who r') (hw : r.Unroutes v who) : r'.Stranded v := by
  obtain ⟨rfl, hs, hans, hq⟩ := hw
  cases h with
  | leave _ hs' => simp [hs] at hs'
  | count _ hs' => simp [hs] at hs'
  | unroute n _ _ hs' hreq hstate =>
    rw [Stranded, answered_congr hreq]
    refine ⟨hans, .inr ⟨n, hs'⟩, ?_⟩
    simpa [Provided, hstate] using hq
  | finish hs' hret hreq hstate =>
    rw [Stranded, answered_congr hreq, provided_congr hstate]
    refine ⟨hans, .inl hret, ?_⟩
    rcases hs' with ⟨-, hroute⟩ | ⟨n, hn⟩
    · simpa [Provided, hroute] using hq
    · simp [hs] at hn

section Alone

variable {s : State} {tr : List (Race × Runner)} (now : SystemTime)

/-- What the request has done at each of its stages when nothing comes between them. -/
def RequestAlone (v : VideoId) (b : SocketAddr) (now : SystemTime) (s : State) (r : Race) : Prop :=
  match r.request with
  | .entering => r.state = s ∧ r.sent = []
  | .lookingUp => r.state = s.subscribe v b ∧ r.sent = []
  | .selecting => (r.state = s.subscribe v b ∧ r.sent = []) ∧ s.videoRoutes.lookup v = none
  | .ranking todo best => (r.state = s.subscribe v b ∧ r.sent = []) ∧
      s.videoRoutes.lookup v = none ∧ ∃ done, s.withinDelay v = done ++ todo ∧
        best = (done.argmin s.redirectKey).map fun e ↦ (e, s.redirectKey e)
  | .sending n => (r.state = s.subscribe v b ∧ r.sent = []) ∧
      s.videoRoutes.lookup v = none ∧ s.getBestNodeToRedirect v = some n
  | .installing n => (r.state = s.subscribe v b ∧
      r.sent = [(n, .serverPacket (.requestVideo v))]) ∧
      s.videoRoutes.lookup v = none ∧ s.getBestNodeToRedirect v = some n
  | .queueing => (r.state = s.subscribe v b ∧ r.sent = []) ∧
      s.videoRoutes.lookup v = none ∧ s.getBestNodeToRedirect v = none
  | _ =>
    r.state = (finalState (handleRequestVideo v b) (.start (.calm now) s)).state ∧
    r.sent = (finalState (handleRequestVideo v b) (.start (.calm now) s)).sent

private theorem stepRequest_alone (hr : RequestAlone v b now s r)
    (h : r.stepRequest v b = some r') : RequestAlone v b now s r' := by
  obtain ⟨state, request, stop, sent⟩ := r
  cases request with
  | entering =>
    cases h
    obtain ⟨rfl, rfl⟩ := hr
    exact ⟨rfl, rfl⟩
  | lookingUp =>
    obtain ⟨rfl, rfl⟩ := hr
    cases hroute : s.videoRoutes.lookup v with
    | some n =>
      simp only [stepRequest, State.subscribe_videoRoutes, hroute] at h
      cases h
      simp [RequestAlone, finalState, handleRequestVideo, Ctx.start, hroute]
    | none =>
      simp only [stepRequest, State.subscribe_videoRoutes, hroute] at h
      cases h
      exact ⟨⟨rfl, rfl⟩, hroute⟩
  | selecting =>
    cases h
    obtain ⟨⟨rfl, rfl⟩, hroute⟩ := hr
    exact ⟨⟨rfl, rfl⟩, hroute, [], rfl, rfl⟩
  | ranking todo best =>
    obtain ⟨⟨rfl, rfl⟩, hroute, done, hdone, hbest⟩ := hr
    cases todo with
    | cons e todo =>
      cases h
      refine ⟨⟨rfl, rfl⟩, hroute, done ++ [e], by simp [hdone], ?_⟩
      rw [hbest]
      exact prefer_argmin s.redirectKey done e
    | nil =>
      rw [List.append_nil] at hdone
      have hsel := s.best_eq_argmin v
      rw [hdone] at hsel
      cases hmin : done.argmin s.redirectKey with
      | none =>
        rw [hmin] at hsel hbest
        rw [hbest] at h
        cases h
        exact ⟨⟨rfl, rfl⟩, hroute, hsel⟩
      | some e =>
        rw [hmin] at hsel hbest
        rw [hbest] at h
        cases h
        exact ⟨⟨rfl, rfl⟩, hroute, hsel⟩
  | sending n =>
    cases h
    obtain ⟨⟨rfl, rfl⟩, hsel⟩ := hr
    exact ⟨⟨rfl, rfl⟩, hsel⟩
  | installing n =>
    cases h
    obtain ⟨⟨rfl, rfl⟩, hroute, hsel⟩ := hr
    have hbest : (s.subscribe v b).getBestNodeToRedirect v = some n := hsel
    simp [RequestAlone, finalState, handleRequestVideo, requestVideoToNode, send, Env.calm,
      Ctx.start, hroute, hbest, Ctx.push, Ctx.setState]
  | queueing =>
    cases h
    obtain ⟨⟨rfl, rfl⟩, hroute, hsel⟩ := hr
    have hbest : (s.subscribe v b).getBestNodeToRedirect v = none := hsel
    simp [RequestAlone, finalState, handleRequestVideo, Ctx.start, hroute, hbest]
  | leaving =>
    cases h
    exact hr
  | returned => cases h

/-- A request that nothing comes between is the handler's run. -/
theorem request_alone (h : Run (Step v a b) (start s) tr r) (htr : ∀ p ∈ tr, p.2 = .request)
    (hret : r.request = .returned) :
    r.state = (finalState (handleRequestVideo v b) (.start (.calm now) s)).state ∧
    r.sent = (finalState (handleRequestVideo v b) (.start (.calm now) s)).sent := by
  have hr : RequestAlone v b now s r := by
    apply h.invariant_of_forall (P := fun _ who ↦ who = .request) _ htr ⟨rfl, rfl⟩
    rintro r _ r' hr rfl hstep
    exact stepRequest_alone now hr hstep
  rw [RequestAlone, hret] at hr
  exact hr

/-- What the stop has done at each of its stages when nothing comes between them. -/
def StopAlone (v : VideoId) (a : SocketAddr) (now : SystemTime) (s : State) (r : Race) : Prop :=
  match r.stop with
  | .removing => r.state = s ∧ r.sent = []
  | .counting => r.state = s.unsubscribe v a ∧ r.sent = []
  | .unrouting => (r.state = s.unsubscribe v a ∧ r.sent = []) ∧
      (s.unsubscribe v a).subscribers v = []
  | .sending n => (r.state = (s.unsubscribe v a).dropRoute v ∧ r.sent = []) ∧
      (s.unsubscribe v a).subscribers v = [] ∧ s.videoRoutes.lookup v = some n
  | .returned =>
    r.state = (finalState (handleStopVideo v a) (.start (.calm now) s)).state ∧
    r.sent = (finalState (handleStopVideo v a) (.start (.calm now) s)).sent

private theorem stepStop_alone (hreq : r.request = .entering) (hr : StopAlone v a now s r)
    (h : r.stepStop v a = some r') : StopAlone v a now s r' := by
  obtain ⟨state, request, stop, sent⟩ := r
  cases hreq
  cases stop with
  | removing =>
    obtain ⟨rfl, rfl⟩ := hr
    cases h
    exact ⟨rfl, rfl⟩
  | counting =>
    obtain ⟨rfl, rfl⟩ := hr
    by_cases hl : ((s.unsubscribe v a).subscribers v).length = 0
    · simp only [stepStop, RequestStage.Holds, hl] at h
      cases h
      exact ⟨⟨rfl, rfl⟩, List.length_eq_zero_iff.mp hl⟩
    · simp only [stepStop, RequestStage.Holds, hl] at h
      cases h
      rw [List.length_eq_zero_iff] at hl
      rcases handleStopVideo_cases v a (.start (.calm now) s) with ⟨-, he⟩ | ⟨hnil, -⟩
      · rw [StopAlone, finalState, he]
        exact ⟨rfl, rfl⟩
      · exact absurd hnil hl
  | unrouting =>
    obtain ⟨⟨rfl, rfl⟩, hl⟩ := hr
    cases hroute : s.videoRoutes.lookup v with
    | some n =>
      simp only [stepStop, State.unsubscribe_videoRoutes, hroute] at h
      cases h
      exact ⟨⟨rfl, rfl⟩, hl, hroute⟩
    | none =>
      simp only [stepStop, State.unsubscribe_videoRoutes, hroute] at h
      cases h
      simp [StopAlone, finalState, handleStopVideo, Ctx.start, hroute]
  | sending n =>
    obtain ⟨⟨rfl, rfl⟩, hl, hroute⟩ := hr
    cases h
    have hlen : ((s.unsubscribe v a).subscribers v).length = 0 := List.length_eq_zero_iff.mpr hl
    simp only [StopAlone, finalState, handleStopVideo, bind_apply, modifyState_apply,
      getState_apply, Ctx.setState_state, Ctx.start, hlen, State.unsubscribe_videoRoutes, hroute]
    exact ⟨rfl, rfl⟩
  | returned => cases h

/-- A stop that nothing comes between is the handler's run. -/
theorem stop_alone (h : Run (Step v a b) (start s) tr r) (htr : ∀ p ∈ tr, p.2 = .stop)
    (hret : r.stop = .returned) :
    r.state = (finalState (handleStopVideo v a) (.start (.calm now) s)).state ∧
    r.sent = (finalState (handleStopVideo v a) (.start (.calm now) s)).sent := by
  have hr : r.request = .entering ∧ StopAlone v a now s r := by
    apply h.invariant_of_forall (P := fun _ who ↦ who = .stop) _ htr ⟨rfl, rfl, rfl⟩
    rintro r _ r' ⟨hreq, hr⟩ rfl hstep
    have hkeep : r'.request = r.request := by
      cases hstep.move with
      | leave _ _ _ hk => exact hk
      | count _ _ _ hk => exact hk
      | unroute _ _ _ _ hk => exact hk
      | finish _ _ hk => exact hk
    exact ⟨hkeep.trans hreq, stepStop_alone now hreq hr hstep⟩
  rw [StopAlone, hret] at hr
  exact hr.2

end Alone

variable {s : State} {tr : List (Race × Runner)}

/-- After a step that removes the answering route the video stays stranded. -/
theorem run_stranded (h : Run (Step v a b) (start s) tr r)
    (hw : ∃ p ∈ tr, p.1.Unroutes v p.2) : r.Stranded v := by
  induction h with
  | refl =>
    obtain ⟨p, hp, -⟩ := hw
    cases hp
  | tail _ he ih =>
    obtain ⟨p, hp, hw⟩ := hw
    rcases List.mem_append.mp hp with hp | hp
    · exact he.move.stranded (ih ⟨p, hp, hw⟩)
    · rw [List.mem_singleton.mp hp] at hw
      exact he.move.strands hw

/-- Once both are over, the new subscriber is in and its video has a route or is queued, if and
only if the stop never removed the route that answered the request. -/
theorem race_provides_iff (hab : a ≠ b) (h : Run (Step v a b) (start s) tr r) (hover : r.Over) :
    (b ∈ r.state.subscribers v ∧ r.Provided v) ↔ ∀ p ∈ tr, ¬ p.1.Unroutes v p.2 := by
  constructor
  · intro hend p hp hw
    exact (run_stranded h ⟨p, hp, hw⟩).2.2 hend.2
  · intro hw
    constructor
    · have hsub : r.request ≠ .entering → b ∈ r.state.subscribers v :=
        h.invariant (fun _ _ _ hr he ↦ he.move.subscribed hab hr) (fun hne ↦ absurd rfl hne)
      exact hsub (by simp [hover.1])
    · have hprov : r.Answered → r.Provided v :=
        h.invariant_of_forall (fun _ _ _ hr hw he ↦ he.move.provided hw hr) hw
          (by simp [Answered, start])
      exact hprov (.inr hover.1)

/-- The only client of a video stops it while another one asks for it. -/
def overtaken : List (Race × Runner) × Race :=
  trace (step? 5 (IpAddr.v4 3).atPort (IpAddr.v4 4).atPort) (start watchedByOne)
    [.stop, .stop, .request, .request, .stop, .stop]

/-- The stop has counted no subscriber and goes on to remove the route that the request found. -/
theorem request_overtaken : Reachable 1 [] (IpAddr.v4 1).atPort watchedByOne ∧
    Run (Step 5 (IpAddr.v4 3).atPort (IpAddr.v4 4).atPort) (start watchedByOne) overtaken.1
      overtaken.2 ∧
    overtaken.2.Over ∧
    ¬ ((IpAddr.v4 4).atPort ∈ overtaken.2.state.subscribers 5 ∧ overtaken.2.Provided 5) := by
  constructor
  · exact reachable_simulate 1 [] _ (by simp [Env.calm_allOk])
  constructor
  · exact run_trace _ _ _
  constructor
  · exact ⟨rfl, rfl⟩
  · rintro ⟨-, hroute | hq⟩
    · exact absurd hroute (by decide)
    · exact absurd hq (by decide)

/-- The stop is over before the request begins. -/
def inTurn : List (Race × Runner) × Race :=
  trace (step? 5 (IpAddr.v4 3).atPort (IpAddr.v4 4).atPort) (start watchedByOne)
    [.stop, .stop, .stop, .stop, .request, .request, .request, .request, .request, .request,
      .request, .request]

/-- Where the request follows the stop the video is provided. -/
theorem race_provides_inTurn :
    (IpAddr.v4 4).atPort ∈ inTurn.2.state.subscribers 5 ∧ inTurn.2.Provided 5 := by
  apply (race_provides_iff (by decide) (run_trace _ _ _) ⟨rfl, rfl⟩).mpr
  decide

end Race
end PessiStreamer.Node
