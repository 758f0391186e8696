import PessiStreamer.Node.Calm
import PessiStreamer.Node.Change
import PessiStreamer.Node.Delivery
import PessiStreamer.Node.Sweeps

/-!
# Giving up a node, exactly

`handle_unresponsive_node` logs its failed sends and carries on. Which messages it tries, and in
which order, depends on the state it starts in only: first the stops of the videos that nobody
else wanted, then a request for each video that came from the node and that another one offers.
-/

namespace PessiStreamer.Node
open Base Common

namespace State

/-- The address is a subscriber of the video, and the only one. -/
def OnlySubscriber (s : State) (v : VideoId) (a : SocketAddr) : Prop :=
  s.subscribers v ≠ [] ∧ ∀ b ∈ s.subscribers v, b = a

instance (s : State) (v : VideoId) (a : SocketAddr) : Decidable (s.OnlySubscriber v a) :=
  inferInstanceAs (Decidable (_ ∧ _))

/-- Some active node lists the video. -/
def Offered (s : State) (v : VideoId) : Prop := ∃ n, s.Offers n v

/-- The stops that follow when the videos are no longer sent to `a`, with where they go. -/
def stops (s : State) (a : SocketAddr) (vs : List VideoId) : List (VideoId × SocketAddr) :=
  vs.filterMap fun v ↦
    if s.OnlySubscriber v a then (s.videoRoutes.lookup v).map (v, ·) else none

/-- The stops sent when `a` is given up. -/
def stopsFor (s : State) (a : SocketAddr) : List (VideoId × SocketAddr) :=
  s.stops a (s.videosSending a)

/-- The videos asked for elsewhere when `a` is given up. -/
def asksFor (s : State) (a : SocketAddr) : List VideoId :=
  (s.videosReceiving a).filter fun v ↦ (s.getBestNodeToRedirect v).isSome

/-- The videos queued when `a` is given up. -/
def leftFor (s : State) (a : SocketAddr) : List VideoId :=
  (s.videosReceiving a).filter fun v ↦ (s.getBestNodeToRedirect v).isNone

variable {s t : State} {v : VideoId} {a n : SocketAddr}

/-- The only subscriber is one. -/
theorem OnlySubscriber.mem (h : s.OnlySubscriber v a) : a ∈ s.subscribers v := by
  obtain ⟨b, hb⟩ := List.exists_mem_of_ne_nil _ h.1
  exact h.2 b hb ▸ hb

/-- Without its only subscriber a video has none, and the other way round. -/
theorem onlySubscriber_iff (h : a ∈ s.subscribers v) :
    s.OnlySubscriber v a ↔ (s.subscribers v).filter (· ≠ a) = [] := by
  rw [List.filter_eq_nil_iff]
  constructor
  · intro hs b hb
    simpa using hs.2 b hb
  · intro hs
    constructor
    · exact List.ne_nil_of_mem h
    · exact fun b hb ↦ by simpa using hs b hb

private theorem isSome_best_iff : (s.getBestNodeToRedirect v).isSome ↔ s.Offered v := by
  rw [Option.isSome_iff_ne_none, Ne, best_eq_none_iff, Offered]
  exact not_forall_not

instance (s : State) (v : VideoId) : Decidable (s.Offered v) :=
  decidable_of_iff _ isSome_best_iff

/-- The videos to ask others for are those received from the node that someone else offers. -/
theorem mem_asksFor : v ∈ s.asksFor a ↔ s.videoRoutes.lookup v = some a ∧ s.Offered v := by
  rw [asksFor, List.mem_filter, mem_videosReceiving, isSome_best_iff]

/-- The videos that are left are those received from the node that nobody else offers. -/
theorem mem_leftFor : v ∈ s.leftFor a ↔ s.videoRoutes.lookup v = some a ∧ ¬ s.Offered v := by
  rw [leftFor, List.mem_filter, mem_videosReceiving, ← isSome_best_iff, Bool.not_eq_true,
    ← Option.not_isSome, Bool.not_eq_true']

private theorem mem_stops {vs : List VideoId} :
    (v, n) ∈ s.stops a vs ↔ v ∈ vs ∧ s.OnlySubscriber v a ∧ s.videoRoutes.lookup v = some n := by
  simp only [stops, List.mem_filterMap]
  constructor
  · rintro ⟨u, hu, hsome⟩
    split at hsome
    · next honly =>
      obtain ⟨m, hm, heq⟩ := Option.map_eq_some_iff.mp hsome
      cases heq
      exact ⟨hu, honly, hm⟩
    · cases hsome
  · rintro ⟨hv, honly, hn⟩
    refine ⟨v, hv, ?_⟩
    rw [if_pos honly, hn]
    rfl

/-- A stop goes where a video is routed that only the node wants. -/
theorem mem_stopsFor : (v, n) ∈ s.stopsFor a ↔
    s.OnlySubscriber v a ∧ s.videoRoutes.lookup v = some n := by
  rw [stopsFor, mem_stops, mem_videosSending]
  exact and_iff_right_of_imp fun h ↦ h.1.mem

end State

/-- No video is sent twice to a node. -/
theorem nodup_videosSending (s : State) (a : SocketAddr) : (s.videosSending a).Nodup :=
  (List.filter_sublist.map _).nodup (s.interested.nodupKeys : s.interested.entries.keys.Nodup)

/-- The message that tells a node to stop a video. -/
def stopMessage (x : VideoId × SocketAddr) : SocketAddr × Packet :=
  (x.2, .serverPacket (.stopVideo x.1))

/-- The message that asks a node for a video. -/
def askMessage (x : VideoId × SocketAddr) : SocketAddr × Packet :=
  (x.2, .serverPacket (.requestVideo x.1))

section Stops

/-- After the videos `done` are no longer sent to `a`. -/
structure Stopping (s : State) (a : SocketAddr) (env : Env) (done : List VideoId) (c : Ctx) :
    Prop where
  sameEnv : c.env = env
  availableRoutes : c.state.availableRoutes = s.availableRoutes
  pending : c.state.pendingVideoRequests = s.pendingVideoRequests
  subscribers : ∀ v, c.state.subscribers v =
    if v ∈ done then (s.subscribers v).filter (· ≠ a) else s.subscribers v
  routes : ∀ v, c.state.videoRoutes.lookup v =
    if v ∈ done ∧ s.OnlySubscriber v a then none else s.videoRoutes.lookup v
  attempts : c.attempts = (s.stops a done).length
  sent : c.sent = (taken env.accepts 0 (s.stops a done)).map stopMessage

variable {s : State} {a : SocketAddr} {env : Env} {done : List VideoId} {v : VideoId} {c d : Ctx}
  {E : HandlerError → Ctx → Prop}

private theorem stopping_start (s : State) (a : SocketAddr) (env : Env) :
    Stopping s a env [] (.start env s) where
  sameEnv := rfl
  availableRoutes := rfl
  pending := rfl
  subscribers := fun v ↦ by simp [Ctx.start]
  routes := fun v ↦ by simp [Ctx.start]
  attempts := rfl
  sent := rfl

/-- One more video is no longer sent, and its stop is tried where one is due. -/
theorem Stopping.next (h : Stopping s a env done c) (henv : d.env = c.env)
    (havail : d.state.availableRoutes = c.state.availableRoutes)
    (hpend : d.state.pendingVideoRequests = c.state.pendingVideoRequests)
    (hsub : ∀ u, d.state.subscribers u = (c.state.unsubscribe v a).subscribers u)
    (hroute : ∀ u, d.state.videoRoutes.lookup u =
      if u = v ∧ s.OnlySubscriber v a then none else c.state.videoRoutes.lookup u)
    (hattempts : d.attempts = c.attempts + (s.stops a [v]).length)
    (hsent : d.sent = c.sent ++ (taken env.accepts c.attempts (s.stops a [v])).map stopMessage) :
    Stopping s a env (done ++ [v]) d := by
  have happend : s.stops a (done ++ [v]) = s.stops a done ++ s.stops a [v] :=
    List.filterMap_append
  constructor
  · exact henv.trans h.sameEnv
  · exact havail.trans h.availableRoutes
  · exact hpend.trans h.pending
  · intro u
    rw [hsub, State.unsubscribe_subscribers, h.subscribers, h.subscribers]
    by_cases huv : u = v
    · subst huv
      by_cases hu : u ∈ done
      · simp [hu, List.filter_filter]
      · simp [hu]
    · simp [huv]
  · intro u
    rw [hroute, h.routes]
    by_cases huv : u = v
    · subst huv
      by_cases honly : s.OnlySubscriber u a
      · simp [honly]
      · simp [honly]
    · simp [huv]
  · rw [hattempts, h.attempts, happend, List.length_append]
  · rw [hsent, h.sent, happend, taken_append, List.map_append, h.attempts, Nat.zero_add]

/-- The one stop that may be due for a video. -/
theorem State.stops_singleton (s : State) (a : SocketAddr) (v : VideoId) : s.stops a [v] =
    if s.OnlySubscriber v a then ((s.videoRoutes.lookup v).map (v, ·)).toList else [] := by
  by_cases honly : s.OnlySubscriber v a
  · cases hn : s.videoRoutes.lookup v with
    | none => simp [stops, honly, hn]
    | some n => simp [stops, honly, hn]
  · simp [stops, honly]

/-- One turn of the loop that stops the videos. -/
theorem handleStopVideo_stopping (hv : v ∉ done) (hsub : a ∈ s.subscribers v) :
    Triple (Stopping s a env done) (attempt (handleStopVideo v a))
      (fun _ ↦ Stopping s a env (done ++ [v])) E := by
  apply Triple.attempt
  apply Triple.of_finalState
  intro c hc
  have hroute : c.state.videoRoutes.lookup v = s.videoRoutes.lookup v := by
    rw [hc.routes, if_neg fun h ↦ hv h.1]
  have hleft : (c.state.unsubscribe v a).subscribers v = [] ↔ s.OnlySubscriber v a := by
    rw [State.unsubscribe_subscribers, if_pos rfl, hc.subscribers, if_neg hv,
      State.onlySubscriber_iff hsub]
  rcases handleStopVideo_cases v a c with ⟨hkeep, h⟩ | ⟨hempty, n, hn, h⟩
  · have hlost : s.OnlySubscriber v a → c.state.videoRoutes.lookup v = none :=
      fun honly ↦ hkeep.resolve_left fun hne ↦ hne (hleft.mpr honly)
    have hnone : s.stops a [v] = [] := by
      rw [State.stops_singleton]
      split
      · next honly =>
        rw [← hroute, hlost honly]
        rfl
      · rfl
    rw [finalState_of_ok h]
    apply hc.next (v := v)
    · rfl
    · rfl
    · rfl
    · exact fun _ ↦ rfl
    · intro u
      split
      · next hu =>
        rw [hu.1]
        exact hlost hu.2
      · rfl
    · rw [hnone]
      rfl
    · rw [hnone]
      exact (List.append_nil _).symm
  · have honly := hleft.mp hempty
    have hone : s.stops a [v] = [(v, n)] := by
      rw [State.stops_singleton, if_pos honly, ← hroute, hn]
      rfl
    have htried := send_tried (.serverPacket (.stopVideo v)) n
      (c.setState ((c.state.unsubscribe v a).dropRoute v))
    rw [← finalState_congr h] at htried
    apply hc.next (v := v)
    · exact htried.sameEnv
    · rw [htried.state]
      rfl
    · rw [htried.state]
      rfl
    · rw [htried.state]
      exact fun _ ↦ rfl
    · intro u
      rw [htried.state, Ctx.setState_state, State.dropRoute_lookup]
      simp [honly]
    · rw [hone]
      exact htried.attempts
    · rw [hone, ← taken_map, ← hc.sameEnv]
      exact htried.sent

/-- The loop that stops the videos sent to `a`. -/
theorem stopAll_stopping (s : State) (a : SocketAddr) (env : Env) :
    Triple (fun c ↦ c = .start env s)
      ((s.videosSending a).forM fun v ↦ attempt (handleStopVideo v a))
      (fun _ ↦ Stopping s a env (s.videosSending a)) E := by
  have hloop := Triple.forM_rest (E := E) (s.videosSending a)
    (g := fun v ↦ attempt (handleStopVideo v a))
    (I := fun rest c ↦ ∃ done, s.videosSending a = done ++ rest ∧ Stopping s a env done c) ?_
  · apply hloop.consequence
    · rintro c rfl
      exact ⟨[], rfl, stopping_start s a env⟩
    · rintro _ c ⟨done, hdone, hc⟩
      rw [List.append_nil] at hdone
      rw [hdone]
      exact hc
    · exact fun _ _ ↦ id
  · rintro v rest hrest c ⟨done, hdone, hc⟩
    have hnew : v ∉ done := by
      have hnodup := nodup_videosSending s a
      rw [hdone] at hnodup
      exact fun hv ↦ (List.disjoint_of_nodup_append hnodup) hv List.mem_cons_self
    have hsub : a ∈ s.subscribers v :=
      mem_videosSending.mp (hrest.subset List.mem_cons_self)
    apply (handleStopVideo_stopping hnew hsub).weaken _ c hc
    exact fun _ d hd ↦ ⟨done ++ [v], by rw [hdone, List.append_assoc]; rfl, hd⟩

end Stops

section Redirects

/-- After requests were tried as in `asked`, videos queued and new neighbours greeted. -/
structure Outcome (s : State) (a : SocketAddr) (env : Env) (asked : List (VideoId × SocketAddr))
    (queued : List VideoId) (hellos : List (SocketAddr × Packet)) (c : Ctx) : Prop where
  sameEnv : c.env = env
  availableRoutes : c.state.availableRoutes = s.availableRoutes
  pending : c.state.pendingVideoRequests = s.pendingVideoRequests ++ queued
  subscribers : ∀ v, c.state.subscribers v = (s.subscribers v).filter (· ≠ a)
  offers : ∀ x ∈ asked, s.Offers x.2 x.1
  rerouted : ∀ x ∈ taken env.accepts (s.stopsFor a).length asked,
    c.state.videoRoutes.lookup x.1 = some x.2
  routes : ∀ v, v ∉ (taken env.accepts (s.stopsFor a).length asked).map Prod.fst →
    c.state.videoRoutes.lookup v =
      if s.OnlySubscriber v a then none else s.videoRoutes.lookup v
  greets : ∀ x ∈ hellos, x.2 = .nodePacket .newNeighbour
  sent : c.sent = (taken env.accepts 0 (s.stopsFor a)).map stopMessage ++
    (taken env.accepts (s.stopsFor a).length asked).map askMessage ++ hellos

variable {s : State} {a n : SocketAddr} {env : Env} {asked : List (VideoId × SocketAddr)}
  {queued : List VideoId} {hellos : List (SocketAddr × Packet)} {v : VideoId} {c d : Ctx}
  {E : HandlerError → Ctx → Prop}

/-- The stops come before the requests. -/
theorem Stopping.outcome (h : Stopping s a env (s.videosSending a) c) :
    Outcome s a env [] [] [] c where
  sameEnv := h.sameEnv
  availableRoutes := h.availableRoutes
  pending := h.pending.trans (List.append_nil _).symm
  subscribers := by
    intro v
    rw [h.subscribers]
    split
    · rfl
    · next hv =>
      have hfilter : (s.subscribers v).filter (· ≠ a) = s.subscribers v := by
        rw [List.filter_eq_self]
        rintro b hb
        simp only [decide_eq_true_eq]
        rintro rfl
        exact hv (mem_videosSending.mpr hb)
      exact hfilter.symm
  offers := nofun
  rerouted := nofun
  routes := by
    intro v _
    rw [h.routes]
    have hiff : (v ∈ s.videosSending a ∧ s.OnlySubscriber v a) ↔ s.OnlySubscriber v a :=
      and_iff_right_of_imp fun honly ↦ mem_videosSending.mpr honly.mem
    simp only [hiff]
  greets := nofun
  sent := by
    rw [h.sent, List.append_nil]
    exact (List.append_nil _).symm

/-- One more node that is asked offers its video. -/
theorem Outcome.offers_concat (h : Outcome s a env asked [] [] c) (hn : s.Offers n v) :
    ∀ x ∈ asked ++ [(v, n)], s.Offers x.2 x.1 := by
  intro x hx
  rcases List.mem_append.mp hx with hx | hx
  · exact h.offers x hx
  · rw [List.mem_singleton.mp hx]
    exact hn

/-- One more request goes through. -/
theorem Outcome.ask (h : Outcome s a env asked [] [] c) (hn : s.Offers n v)
    (hv : v ∉ asked.map Prod.fst) (hattempts : c.attempts = (s.stopsFor a).length + asked.length)
    (hok : env.accepts c.attempts = true) : Outcome s a env (asked ++ [(v, n)]) [] []
      ((c.push (.serverPacket (.requestVideo v)) n).setState (c.state.setRoute v n)) := by
  have htaken : taken env.accepts (s.stopsFor a).length (asked ++ [(v, n)]) =
      taken env.accepts (s.stopsFor a).length asked ++ [(v, n)] := by
    rw [taken_concat, ← hattempts, if_pos hok]
  constructor
  · exact h.sameEnv
  · exact h.availableRoutes
  · exact h.pending
  · exact h.subscribers
  · exact h.offers_concat hn
  · intro x hx
    rw [htaken] at hx
    rw [Ctx.setState_state, State.setRoute_lookup]
    rcases List.mem_append.mp hx with hx | hx
    · have hne : x.1 ≠ v := by
        intro hxv
        rw [← hxv] at hv
        exact hv (List.mem_map_of_mem (taken_sublist.subset hx))
      rw [if_neg hne]
      exact h.rerouted x hx
    · rw [List.mem_singleton.mp hx, if_pos rfl]
  · intro u hu
    rw [htaken, List.map_append, List.mem_append, not_or] at hu
    have hne : u ≠ v := by simpa using hu.2
    rw [Ctx.setState_state, State.setRoute_lookup, if_neg hne]
    exact h.routes u hu.1
  · exact h.greets
  · have hsent := h.sent
    rw [List.append_nil] at hsent
    rw [htaken, List.map_append, Ctx.setState_sent, Ctx.push_sent, hsent, List.append_nil,
      List.append_assoc]
    rfl

/-- One more request fails. -/
theorem Outcome.askFails (h : Outcome s a env asked [] [] c) (hn : s.Offers n v)
    (hattempts : c.attempts = (s.stopsFor a).length + asked.length)
    (hfail : env.accepts c.attempts = false) :
    Outcome s a env (asked ++ [(v, n)]) [] [] c.fail := by
  have htaken : taken env.accepts (s.stopsFor a).length (asked ++ [(v, n)]) =
      taken env.accepts (s.stopsFor a).length asked := by
    rw [taken_concat, ← hattempts, hfail]
    rfl
  constructor
  · exact h.sameEnv
  · exact h.availableRoutes
  · exact h.pending
  · exact h.subscribers
  · exact h.offers_concat hn
  · rw [htaken]
    exact h.rerouted
  · rw [htaken]
    exact h.routes
  · exact h.greets
  · rw [htaken]
    exact h.sent

/-- What holds while the videos received from `a` are redirected. -/
structure Redirects (s : State) (a : SocketAddr) (env : Env) (todo left : List VideoId)
    (c : Ctx) (done : List VideoId) (asked : List (VideoId × SocketAddr)) : Prop where
  split : s.videosReceiving a = done ++ todo
  left : left = done.filter fun v ↦ (s.getBestNodeToRedirect v).isNone
  asks : asked.map Prod.fst = done.filter fun v ↦ (s.getBestNodeToRedirect v).isSome
  attempts : c.attempts = (s.stopsFor a).length + asked.length
  outcome : Outcome s a env asked [] [] c

/-- The loop that redirects the videos received from `a`. -/
theorem redirectVideos_outcome (s : State) (a : SocketAddr) (env : Env) :
    Triple (fun c ↦ ∃ done asked, Redirects s a env (s.videosReceiving a) [] c done asked)
      (redirectVideos (s.videosReceiving a))
      (fun remaining c ↦ ∃ done asked, Redirects s a env [] remaining c done asked) E := by
  refine redirectVideos_rule
    (I := fun todo left c ↦ ∃ done asked, Redirects s a env todo left c done asked) ?_ ?_ _ []
  · rintro v rest left n c ⟨⟨done, asked, hc⟩, hbest⟩
    have hoffers : s.Offers n v :=
      (State.offers_congr hc.outcome.availableRoutes n v).mp (State.offers_of_best hbest)
    have hsome : (s.getBestNodeToRedirect v).isSome := State.isSome_best_iff.mpr ⟨n, hoffers⟩
    have hnew : v ∉ asked.map Prod.fst := by
      have hnodup := nodup_videosReceiving s a
      rw [hc.split] at hnodup
      rw [hc.asks]
      exact fun hv ↦ (List.disjoint_of_nodup_append hnodup) (List.mem_of_mem_filter hv)
        List.mem_cons_self
    have hnone : (s.getBestNodeToRedirect v).isNone = false :=
      Option.isNone_eq_false_iff.mpr hsome
    have hnext {d : Ctx} (hattempts : d.attempts = c.attempts + 1)
        (hd : Outcome s a env (asked ++ [(v, n)]) [] [] d) :
        Redirects s a env rest left d (done ++ [v]) (asked ++ [(v, n)]) := by
      constructor
      · rw [hc.split, List.append_assoc]
        rfl
      · simp [hc.left, hnone]
      · simp [hc.asks, hsome]
      · rw [hattempts, hc.attempts, List.length_append, Nat.add_assoc]
        rfl
      · exact hd
    rcases requestVideoToNode_eq v n c with ⟨hok, h⟩ | ⟨hfail, e, h⟩
    · rw [hc.outcome.sameEnv] at hok
      rw [h]
      exact ⟨_, _, hnext rfl (hc.outcome.ask hoffers hnew hc.attempts hok)⟩
    · rw [hc.outcome.sameEnv] at hfail
      rw [h]
      exact ⟨_, _, hnext rfl (hc.outcome.askFails hoffers hc.attempts hfail)⟩
  · rintro v rest left c hbest ⟨done, asked, hc⟩
    have hunoffered : ¬ s.Offered v := by
      rintro ⟨n, hn⟩
      exact State.best_eq_none_iff.mp hbest n
        ((State.offers_congr hc.outcome.availableRoutes n v).mpr hn)
    have hsome : (s.getBestNodeToRedirect v).isSome = false := by
      rw [Bool.eq_false_iff, Ne, State.isSome_best_iff]
      exact hunoffered
    have hnone : (s.getBestNodeToRedirect v).isNone := by
      rw [← Option.not_isSome, hsome]
      rfl
    refine ⟨done ++ [v], asked, ?_⟩
    constructor
    · rw [hc.split, List.append_assoc]
      rfl
    · simp [hc.left, hnone]
    · simp [hc.asks, hsome]
    · exact hc.attempts
    · exact hc.outcome

/-- Greeting a parent. -/
theorem connectToParents_outcome (addr : SocketAddr) (vs : List VideoId) :
    Triple (fun c ↦ ∃ hellos, Outcome s a env asked queued hellos c) (connectToParents addr vs)
      (fun _ c ↦ ∃ hellos, Outcome s a env asked queued hellos c) E := by
  apply triple_bind_getState
  intro t
  apply Triple.strengthen _ fun c hc ↦ hc.1
  apply Triple.ite
  · exact fun _ ↦ Triple.pure fun _ ↦ id
  intro _
  apply Triple.forM
  intro parent _
  apply Triple.ite
  · exact fun _ ↦ Triple.pure fun _ ↦ id
  intro _
  apply Triple.attempt
  rintro c ⟨hellos, hc⟩
  rw [connectToNodeParent]
  rcases send_cases (.nodePacket .newNeighbour) parent c with h | ⟨e, -, h⟩
  · rw [h]
    refine ⟨hellos ++ [(parent, .nodePacket .newNeighbour)], ?_⟩
    constructor
    · exact hc.sameEnv
    · exact hc.availableRoutes
    · exact hc.pending
    · exact hc.subscribers
    · exact hc.offers
    · exact hc.rerouted
    · exact hc.routes
    · intro x hx
      rcases List.mem_append.mp hx with hx | hx
      · exact hc.greets x hx
      · rw [List.mem_singleton.mp hx]
    · rw [Ctx.push_sent, hc.sent, List.append_assoc]
  · rw [h]
    exact ⟨hellos, hc.sameEnv, hc.availableRoutes, hc.pending, hc.subscribers, hc.offers,
      hc.rerouted, hc.routes, hc.greets, hc.sent⟩

/-- The videos left without a node are queued. -/
theorem Outcome.enqueue (h : Outcome s a env asked [] hellos c) (vs : List VideoId) :
    Outcome s a env asked vs hellos (c.setState (c.state.enqueue vs)) where
  sameEnv := h.sameEnv
  availableRoutes := h.availableRoutes
  pending := by
    have hpend := h.pending
    rw [List.append_nil] at hpend
    rw [Ctx.setState_state, State.enqueue, hpend]
  subscribers := h.subscribers
  offers := h.offers
  rerouted := h.rerouted
  routes := h.routes
  greets := h.greets
  sent := h.sent

/-- What giving up `a` makes of a state, whatever becomes of the sends. -/
theorem handleUnresponsiveNode_outcome (s : State) (a : SocketAddr) (env : Env) :
    ∃ asked hellos, asked.map Prod.fst = s.asksFor a ∧ Outcome s a env asked (s.leftFor a) hellos
      (finalState (handleUnresponsiveNode a) (.start env s)) := by
  have hrun : Triple (fun c ↦ c = .start env s) (handleUnresponsiveNode a)
      (fun _ c ↦ ∃ asked hellos, asked.map Prod.fst = s.asksFor a ∧
        Outcome s a env asked (s.leftFor a) hellos c)
      (fun _ c ↦ ∃ asked hellos, asked.map Prod.fst = s.asksFor a ∧
        Outcome s a env asked (s.leftFor a) hellos c) := by
    apply triple_bind_getState
    intro t
    apply Triple.strengthen (P := fun c ↦ t = s ∧ c = .start env s)
    · apply Triple.of_forall
      rintro rfl
      apply (stopAll_stopping t a env).bind
      intro _
      apply Triple.bind (Q := fun remaining c ↦ ∃ done asked,
        Redirects t a env [] remaining c done asked)
      · apply (redirectVideos_outcome t a env).strengthen
        intro c hc
        exact ⟨[], [], rfl, rfl, rfl, hc.attempts, hc.outcome⟩
      intro remaining
      rintro c ⟨done, asked, hc⟩
      have hdone : t.videosReceiving a = done := by
        rw [hc.split, List.append_nil]
      have hleft : remaining = t.leftFor a := by
        rw [hc.left, State.leftFor, hdone]
      have hasks : asked.map Prod.fst = t.asksFor a := by
        rw [hc.asks, State.asksFor, hdone]
      have hgreet : Triple (fun c ↦ ∃ hellos, Outcome t a env asked [] hellos c)
          (connectToParents a remaining >>= fun _ ↦ modifyState fun s ↦ s.enqueue remaining)
          (fun _ c ↦ ∃ asked hellos, asked.map Prod.fst = t.asksFor a ∧
            Outcome t a env asked (t.leftFor a) hellos c)
          (fun _ c ↦ ∃ asked hellos, asked.map Prod.fst = t.asksFor a ∧
            Outcome t a env asked (t.leftFor a) hellos c) := by
        apply (connectToParents_outcome a remaining).bind
        rintro _ d ⟨hellos, hd⟩
        rw [← hleft]
        exact ⟨asked, hellos, hasks, hd.enqueue remaining⟩
      exact hgreet c ⟨[], hc.outcome⟩
    · rintro c ⟨rfl, rfl⟩
      exact ⟨rfl, rfl⟩
  exact Triple.finalState hrun rfl

end Redirects
end PessiStreamer.Node
