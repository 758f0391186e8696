import PessiStreamer.Node.Calm

/-!
# Videos without subscribers

A node that routes or queues a video should do so for a subscriber. A step that removes
the last subscriber of a video cleans the route table, but not the queue, nor the list of
videos that giving up a node is about to redirect. The runs in which no step does that
are exactly treated here: in them every routed, queued or requested video has a subscriber.
-/

namespace PessiStreamer.Node
open Base Common

/-- The videos that are queued when the handler of an event starts, or redirected by it. -/
def Event.Waiting (e : Event) (v : VideoId) : Prop :=
  v ∈ e.view.pendingVideoRequests ∨ ∃ n, e.givesUp = some n ∧ e.view.videoRoutes.lookup v = some n

/-- A waiting video that loses a subscriber keeps another one. -/
def Event.LeavesSubscriber (e : Event) : Prop :=
  ∀ v, e.Waiting v → (∃ a ∈ e.view.subscribers v, e.Removes v a) →
    ∃ b ∈ e.view.subscribers v, ¬ e.Removes v b

/-- Every routed or queued video has a subscriber. -/
def Subscribed (s : State) : Prop :=
  ∀ v, (s.videoRoutes.lookup v).isSome ∨ v ∈ s.pendingVideoRequests → s.subscribers v ≠ []

/-- A subscriber of the video that the handler leaves alone. -/
def Keeper (stays : VideoId → SocketAddr → Prop) (s : State) (v : VideoId) : Prop :=
  ∃ b ∈ s.subscribers v, stays v b

/-- What holds while a handler runs: `stays` are the subscribers it does not remove and
`due` the videos it redirects. -/
structure Attended (stays : VideoId → SocketAddr → Prop) (due : VideoId → Prop) (c : Ctx) :
    Prop where
  routed : ∀ v n, c.state.videoRoutes.lookup v = some n → c.state.subscribers v ≠ []
  queued : ∀ v ∈ c.state.pendingVideoRequests, Keeper stays c.state v
  due : ∀ v, due v → Keeper stays c.state v
  requested : ∀ v n, (n, .serverPacket (.requestVideo v)) ∈ c.sent → Keeper stays c.state v

private theorem Keeper.ne_nil {stays : VideoId → SocketAddr → Prop} {s : State} {v : VideoId}
    (h : Keeper stays s v) : s.subscribers v ≠ [] := by
  obtain ⟨b, hb, -⟩ := h
  exact List.ne_nil_of_mem hb

namespace Attended

variable {stays : VideoId → SocketAddr → Prop} {due : VideoId → Prop} {c d : Ctx}

/-- The invariant speaks about subscribers, routes, the queue and the packets sent. -/
theorem congr (h : Attended stays due c) (hsub : ∀ v, d.state.subscribers v = c.state.subscribers v)
    (hroute : d.state.videoRoutes = c.state.videoRoutes)
    (hpend : d.state.pendingVideoRequests = c.state.pendingVideoRequests)
    (hsent : d.sent = c.sent) : Attended stays due d where
  routed := by
    intro v n hn
    rw [hroute] at hn
    rw [hsub]
    exact h.routed v n hn
  queued := by
    intro v hv
    rw [hpend] at hv
    simpa only [Keeper, hsub] using h.queued v hv
  due := by
    intro v hv
    simpa only [Keeper, hsub] using h.due v hv
  requested := by
    intro v n hn
    rw [hsent] at hn
    simpa only [Keeper, hsub] using h.requested v n hn

/-- Packets other than requests are free. -/
theorem push {p : Packet} {a : SocketAddr} (h : Attended stays due c)
    (hp : ∀ v, p ≠ .serverPacket (.requestVideo v)) : Attended stays due (c.push p a) where
  routed := h.routed
  queued := h.queued
  due := h.due
  requested := by
    intro v n hn
    rw [Ctx.push_sent] at hn
    rcases List.mem_append.mp hn with hn | hn
    · exact h.requested v n hn
    · obtain ⟨-, rfl⟩ := Prod.mk.inj (List.mem_singleton.mp hn)
      exact (hp v rfl).elim

/-- A video with a subscriber who stays may be requested. -/
theorem request {v : VideoId} {n : SocketAddr} (h : Attended stays due c)
    (hv : Keeper stays c.state v) : Attended stays due
      ((c.push (.serverPacket (.requestVideo v)) n).setState (c.state.setRoute v n)) where
  routed := by
    intro u m hm
    by_cases hu : u = v
    · subst hu
      exact hv.ne_nil
    · exact h.routed u m (by simpa [hu] using hm)
  queued := h.queued
  due := h.due
  requested := by
    intro u m hm
    rw [Ctx.setState_sent, Ctx.push_sent] at hm
    rcases List.mem_append.mp hm with hm | hm
    · exact h.requested u m hm
    · cases List.mem_singleton.mp hm
      exact hv

/-- A new subscriber. -/
theorem subscribe {v : VideoId} {a : SocketAddr} (h : Attended stays due c) :
    Attended stays due (c.setState (c.state.subscribe v a)) := by
  have hmono (u : VideoId) (b : SocketAddr) (hb : b ∈ c.state.subscribers u) :
      b ∈ (c.state.subscribe v a).subscribers u := by
    rw [State.subscribe_subscribers]
    by_cases hu : u = v
    · subst hu
      by_cases ha : a ∈ c.state.subscribers u
      · simpa [ha] using hb
      · simp [ha, hb]
    · simpa [hu] using hb
  have hkeep (u : VideoId) (hu : Keeper stays c.state u) :
      Keeper stays (c.state.subscribe v a) u := by
    obtain ⟨b, hb, hs⟩ := hu
    exact ⟨b, hmono u b hb, hs⟩
  refine ⟨fun u n hn ↦ ?_, fun u hu ↦ hkeep u (h.queued u hu), fun u hu ↦ hkeep u (h.due u hu),
    fun u n hn ↦ hkeep u (h.requested u n hn)⟩
  obtain ⟨b, hb⟩ := List.exists_mem_of_ne_nil _ (h.routed u n hn)
  exact List.ne_nil_of_mem (hmono u b hb)

end Attended

section Handlers

variable {stays : VideoId → SocketAddr → Prop} {due : VideoId → Prop}

private theorem handleRequestVideo_attended {v : VideoId} {a : SocketAddr} (hstay : stays v a) :
    Keeps (Attended stays due) (handleRequestVideo v a) := by
  intro c ⟨hok, hs⟩
  have hkeeper : Keeper stays (c.state.subscribe v a) v := ⟨a, mem_subscribe _ v a, hstay⟩
  rcases handleRequestVideo_cases v a c with ⟨-, h⟩ | ⟨-, n, -, h⟩ | ⟨-, -, h⟩
  · rw [h]
    exact ⟨hok, hs.subscribe⟩
  · rw [h]
    have hreq : Triple (Calm fun d ↦ Attended stays due d ∧ d.state = c.state.subscribe v a)
        (requestVideoToNode v n) (fun _ ↦ Calm (Attended stays due))
        (fun _ ↦ Calm (Attended stays due)) :=
      calm_requestVideoToNode fun d hd ↦ hd.1.request (hd.2 ▸ hkeeper)
    exact hreq (c.setState (c.state.subscribe v a)) ⟨hok, hs.subscribe, rfl⟩
  · rw [h]
    have hsub := hs.subscribe (v := v) (a := a)
    refine ⟨hok, hsub.routed, fun u hu ↦ ?_, hsub.due, hsub.requested⟩
    rcases State.enqueue_pending _ _ _ |>.mp hu with hu | hu
    · exact hsub.queued u hu
    · obtain rfl := List.mem_singleton.mp hu
      exact hkeeper

/-- Removing a subscriber who does not stay drops the route of a video that is left alone. -/
theorem handleStopVideo_attended {v : VideoId} {a : SocketAddr} (hleave : ∀ b, stays v b → b ≠ a) :
    Keeps (Attended stays due) (handleStopVideo v a) := by
  intro c ⟨hok, hs⟩
  have hkeep (u : VideoId) (hu : Keeper stays c.state u) :
      Keeper stays (c.state.unsubscribe v a) u := by
    obtain ⟨b, hb, hsb⟩ := hu
    refine ⟨b, ?_, hsb⟩
    rw [State.unsubscribe_subscribers]
    by_cases huv : u = v
    · subst huv
      simpa [hleave b hsb] using hb
    · simpa [huv] using hb
  have hother {u : VideoId} (huv : u ≠ v) :
      (c.state.unsubscribe v a).subscribers u = c.state.subscribers u := by
    simp [huv]
  rcases handleStopVideo_cases v a c with ⟨hleft, h⟩ | ⟨hnil, n, hn, h⟩
  · rw [h]
    refine ⟨hok, fun u m hm ↦ ?_, fun u hu ↦ hkeep u (hs.queued u hu),
      fun u hu ↦ hkeep u (hs.due u hu), fun u m hm ↦ hkeep u (hs.requested u m hm)⟩
    by_cases huv : u = v
    · subst huv
      rcases hleft with hleft | hleft
      · exact hleft
      · simp [hleft] at hm
    · rw [Ctx.setState_state, hother huv]
      exact hs.routed u m hm
  · rw [h]
    refine calm_send (Q := Attended stays due) (E := fun _ ↦ Calm (Attended stays due))
      (fun d hd ↦ Attended.push hd (by simp)) _ ⟨hok, fun u m hm ↦ ?_,
        fun u hu ↦ hkeep u (hs.queued u hu), fun u hu ↦ hkeep u (hs.due u hu),
        fun u m hm ↦ hkeep u (hs.requested u m hm)⟩
    by_cases huv : u = v
    · simp [huv] at hm
    · rw [Ctx.setState_state, State.dropRoute_subscribers, hother huv]
      exact hs.routed u m (by simpa [huv] using hm)

/-- Giving up a node redirects or queues the videos that were routed over it. -/
theorem handleUnresponsiveNode_attended {E : HandlerError → Ctx → Prop} (addr : SocketAddr)
    (hleave : ∀ v b, stays v b → b ≠ addr) :
    Triple (Calm fun c ↦ Attended stays due c ∧
        ∀ v, c.state.videoRoutes.lookup v = some addr → due v)
      (handleUnresponsiveNode addr) (fun _ ↦ Calm (Attended stays due)) E := by
  refine calm_bind_getState fun s ↦ Triple.strengthen (P := fun c ↦
    (∀ v ∈ s.videosReceiving addr, due v) ∧ Calm (Attended stays due) c) ?_ ?_
  · refine Triple.of_forall fun hdue ↦ ?_
    have hstop : Triple (Calm (Attended stays due))
        ((s.videosSending addr).forM fun v ↦ attempt (handleStopVideo v addr))
        (fun _ ↦ Calm (Attended stays due)) E :=
      Triple.forM fun v _ ↦ (handleStopVideo_attended (hleave v)).attempt
    refine Triple.bind hstop fun _ ↦ Triple.bind (Q := fun remaining ↦
      Calm fun c ↦ Attended stays due c ∧ ∀ v ∈ remaining, due v) ?_ fun remaining ↦ ?_
    · refine (calm_redirectVideos (I := fun todo left c ↦ Attended stays due c ∧
        (∀ v ∈ todo, due v) ∧ ∀ v ∈ left, due v) ?_ ?_ _).consequence ?_ ?_ fun _ _ ↦ id
      · rintro v rest left n c - ⟨hc, htodo, hleft⟩
        obtain ⟨hv, hrest⟩ := List.forall_mem_cons.mp htodo
        exact ⟨hc.request (hc.due v hv), hrest, hleft⟩
      · rintro v rest left c - ⟨hc, htodo, hleft⟩
        obtain ⟨hv, hrest⟩ := List.forall_mem_cons.mp htodo
        refine ⟨hc, hrest, fun u hu ↦ ?_⟩
        rcases List.mem_append.mp hu with hu | hu
        · exact hleft u hu
        · exact List.mem_singleton.mp hu ▸ hv
      · exact fun c hc ↦ ⟨hc.1, hc.2, hdue, by simp⟩
      · exact fun _ c hc ↦ ⟨hc.1, hc.2.1, hc.2.2.2⟩
    · refine Triple.bind (calm_connectToParents (fun c a hc ↦ ⟨hc.1.push (by simp), hc.2⟩)
        addr remaining) fun _ ↦ calm_modifyState fun c ⟨hc, hrem⟩ ↦ ?_
      refine ⟨hc.routed, fun v hv ↦ ?_, hc.due, hc.requested⟩
      rcases State.enqueue_pending _ _ _ |>.mp hv with hv | hv
      · exact hc.queued v hv
      · exact hc.due v (hrem v hv)
  · rintro c ⟨hok, ⟨hc, hdue⟩, rfl⟩
    exact ⟨fun v hv ↦ hdue v (mem_videosReceiving.mp hv), hok, hc⟩

private theorem checkPendingVideos_attended {E : HandlerError → Ctx → Prop} (fromAddr : SocketAddr)
    (videos : List (VideoId × String)) :
    Triple (Calm (Attended stays due)) (checkPendingVideos fromAddr videos)
      (fun _ ↦ Calm (Attended stays due)) E := by
  refine calm_checkPendingVideos (I := fun drained _ c ↦ Attended stays due c ∧
    ∀ v ∈ drained, Keeper stays c.state v) ?_ ?_ ?_
  · exact fun c hc ↦ ⟨hc, fun v hv ↦ hc.queued v (mem_pendingListed.mp hv).1⟩
  · exact fun drained v rest c hv ⟨hc, hd⟩ ↦ ⟨hc.request (hd v hv), hd⟩
  · rintro drained c ⟨hc, -⟩
    exact ⟨hc.routed, fun v hv ↦ hc.queued v (State.dequeue_pending _ _ _ |>.mp hv).1, hc.due,
      hc.requested⟩

private theorem handleFloodPacket_attended (fromAddr : SocketAddr) (p : FloodPacket) :
    Keeps (Attended stays due) (handleFloodPacket fromAddr p) := by
  refine Keeps.bind Keeps.getState fun s ↦ Keeps.ite (fun _ ↦ Keeps.pure ()) fun _ ↦ ?_
  refine Keeps.bind Keeps.now fun t ↦ Keeps.bind (Keeps.modifyState fun c hc ↦ ?_) fun _ ↦
    Keeps.bind (Keeps.modifyState fun c hc ↦ ?_) fun _ ↦
      Keeps.bind (checkPendingVideos_attended fromAddr p.videosAvailable) fun _ ↦ ?_
  · exact hc.congr (fun _ ↦ rfl) rfl rfl rfl
  · exact hc.congr (fun _ ↦ rfl) rfl rfl rfl
  refine Keeps.bind Keeps.getState fun s ↦ Keeps.forM fun addr _ ↦ Keeps.attempt ?_
  exact Keeps.bind Keeps.getState fun _ ↦ calm_send fun _ hc ↦ hc.push (by simp)

private theorem handleClientPing_attended (sequenceNumber : UInt64) {requested : List VideoId}
    {addr : SocketAddr} (hstay : ∀ v ∈ requested, stays v addr)
    (hleave : ∀ v ∉ requested, ∀ b, stays v b → b ≠ addr) :
    Keeps (Attended stays due) (handleClientPing sequenceNumber requested addr) := by
  refine Keeps.bind Keeps.getState fun s ↦ Keeps.bind Keeps.now fun t ↦
    Keeps.bind ?_ fun _ ↦ Keeps.bind (Keeps.forM fun v hv ↦ ?_) fun _ ↦ ?_
  · exact Keeps.modifyState fun c hc ↦ hc.congr (fun _ ↦ rfl) rfl rfl rfl
  · exact Keeps.bind Keeps.getState fun s ↦
      Keeps.ite (fun _ ↦ Keeps.pure ()) fun _ ↦ handleRequestVideo_attended (hstay v hv)
  · refine Keeps.bind Keeps.getState fun s ↦ Keeps.bind (Keeps.forM fun video _ ↦ ?_) fun _ ↦
      calm_send fun _ hc ↦ hc.push (by simp)
    exact Keeps.ite (fun h ↦ handleStopVideo_attended (hleave video.1 h.1)) fun _ ↦ Keeps.pure ()

private theorem handleVideoPacket_attended (packet : VideoPacket) :
    Keeps (Attended stays due) (handleVideoPacket packet) := by
  refine Keeps.bind Keeps.getState fun s ↦ Keeps.bind Keeps.now fun t ↦
    Keeps.bind (Keeps.modifyState fun c hc ↦ hc.congr (fun _ ↦ rfl) rfl rfl rfl) fun _ ↦
      Keeps.ite (fun _ ↦ Keeps.pure ()) fun _ ↦ ?_
  cases s.interested.lookup packet.streamId with
  | some subscribers => exact Keeps.forM fun addr _ ↦ calm_send fun _ hc ↦ hc.push (by simp)
  | none => exact Keeps.pure ()

private theorem registerNewNeighbour_attended (addr : SocketAddr) :
    Keeps (Attended stays due) (modifyState fun s ↦ s.registerNewNeighbour addr.ip) :=
  Keeps.modifyState fun _ hc ↦ hc.congr (fun _ ↦ rfl) rfl rfl rfl

/-- Asking again for a routed video asks for a video with subscribers. -/
theorem videoHealthCheck_attended (hstay : ∀ v b, stays v b) :
    Keeps (Attended stays due) videoHealthCheck := by
  refine Keeps.bind Keeps.getState fun s ↦ Keeps.bind Keeps.now fun t ↦
    Keeps.forM fun packet _ ↦ calm_bind_getState fun s ↦ Triple.ite (fun _ ↦ ?_) fun _ ↦ ?_
  · cases hr : s.videoRoutes.lookup packet.1 with
    | some n =>
      apply calm_requestVideoToNode
      rintro c ⟨hc, rfl⟩
      obtain ⟨b, hb⟩ := List.exists_mem_of_ne_nil _ (hc.routed _ n hr)
      exact hc.request ⟨b, hb, hstay _ b⟩
    | none => exact Triple.pure fun c hc ↦ ⟨hc.1, hc.2.1⟩
  · exact Triple.pure fun c hc ↦ ⟨hc.1, hc.2.1⟩

/-- The sweep removes the clients whose last ping is too old. -/
theorem clientHealthCheck_attended (view : State) (t : SystemTime)
    (hleave : ∀ b t', view.lastPings.lookup b = some t' →
      CLIENT_PING_INTERVAL * 3 < durationSince t t' → ∀ v c, stays v c → c ≠ b)
    {E : HandlerError → Ctx → Prop} :
    Triple (Calm fun c ↦ Attended stays due c ∧ c.state = view ∧ c.env.now = t)
      clientHealthCheck (fun _ ↦ Calm (Attended stays due)) E := by
  refine calm_bind_getState fun s ↦ fun c ⟨hok, ⟨hc, hview, ht⟩, hs⟩ ↦ ?_
  obtain rfl : view = s := hview.symm.trans hs
  rw [bind_apply, now_apply, ht]
  refine (Triple.forM (I := Calm (Attended stays due)) fun ping hping ↦ ?_) c ⟨hok, hc⟩
  refine Triple.bind (Q := fun _ ↦ Calm (Attended stays due)) (fun _ hd ↦ hd) fun s ↦
    Triple.ite (fun hold ↦ Triple.forM fun v _ ↦ ?_) fun _ ↦ Triple.pure fun _ ↦ id
  refine Keeps.attempt (handleStopVideo_attended fun b hb ↦ ?_)
  exact hleave ping.1 ping.2 (Map.mem_entries_iff.mp hping) hold v b hb

/-- Marking a node changes neither subscribers nor routes. -/
theorem giveUp_attended {E : HandlerError → Ctx → Prop} (addr : SocketAddr)
    (hleave : ∀ v b, stays v b → b ≠ addr) :
    Triple (Calm fun c ↦ Attended stays due c ∧
        ∀ v, c.state.videoRoutes.lookup v = some addr → due v)
      (do
        modifyState fun s ↦ s.markUnresponsive addr
        handleUnresponsiveNode addr) (fun _ ↦ Calm (Attended stays due)) E := by
  refine Triple.bind (calm_modifyState ?_) fun _ ↦ handleUnresponsiveNode_attended addr hleave
  exact fun c hc ↦ ⟨hc.1.congr (fun _ ↦ rfl) rfl rfl rfl, hc.2⟩

end Handlers

namespace Event

/-- The videos the handler of an event redirects. -/
def Redirects (e : Event) (v : VideoId) : Prop :=
  ∃ n, e.givesUp = some n ∧ e.view.videoRoutes.lookup v = some n

/-- What holds when the handler of an event starts. -/
structure Started (e : Event) (c : Ctx) : Prop where
  attended : Attended (fun v b ↦ ¬ e.Removes v b) e.Redirects c
  state : c.state = e.view
  now : c.env.now = e.env.now

private theorem started_start {e : Event} (hs : Subscribed e.view) (hl : e.LeavesSubscriber) :
    e.Started (.start e.env e.view) where
  attended := by
    have hkeeper (v : VideoId) (hw : e.Waiting v) (hne : e.view.subscribers v ≠ []) :
        Keeper (fun v b ↦ ¬ e.Removes v b) e.view v := by
      by_cases hr : ∃ a ∈ e.view.subscribers v, e.Removes v a
      · exact hl v hw hr
      · obtain ⟨b, hb⟩ := List.exists_mem_of_ne_nil _ hne
        exact ⟨b, hb, fun h ↦ hr ⟨b, hb, h⟩⟩
    refine ⟨fun v n hn ↦ hs v (.inl ?_), fun v hv ↦ hkeeper v (.inl hv) (hs v (.inr hv)),
      fun v hv ↦ hkeeper v (.inr hv) (hs v (.inl ?_)), fun v n hn ↦ ?_⟩
    · exact Option.isSome_iff_exists.mpr ⟨n, hn⟩
    · obtain ⟨n, -, hn⟩ := hv
      exact Option.isSome_iff_exists.mpr ⟨n, hn⟩
    · cases hn
  state := rfl
  now := rfl

/-- The handler of a step that leaves a subscriber to every waiting video. -/
theorem handleInput_attended (e : Event) :
    Triple (Calm e.Started) (handleInput e.input)
      (fun _ ↦ Calm (Attended (fun v b ↦ ¬ e.Removes v b) e.Redirects))
      (fun _ ↦ Calm (Attended (fun v b ↦ ¬ e.Removes v b) e.Redirects)) := by
  have hkeeps {m : Handler Unit}
      (h : Keeps (Attended (fun v b ↦ ¬ e.Removes v b) e.Redirects) m) :
      Triple (Calm e.Started) m
        (fun _ ↦ Calm (Attended (fun v b ↦ ¬ e.Removes v b) e.Redirects))
        (fun _ ↦ Calm (Attended (fun v b ↦ ¬ e.Removes v b) e.Redirects)) :=
    Triple.strengthen h fun c hc ↦ ⟨hc.1, hc.2.attended⟩
  have hgiveUp {addr : SocketAddr} (h : e.givesUp = some addr)
      (hremoves : ∀ v, e.Removes v addr) :
      Triple (Calm e.Started) (do
          modifyState fun s ↦ s.markUnresponsive addr
          handleUnresponsiveNode addr)
        (fun _ ↦ Calm (Attended (fun v b ↦ ¬ e.Removes v b) e.Redirects))
        (fun _ ↦ Calm (Attended (fun v b ↦ ¬ e.Removes v b) e.Redirects)) := by
    refine (giveUp_attended addr ?_).strengthen fun c hc ↦ ⟨hc.1, hc.2.attended, fun v hv ↦ ?_⟩
    · rintro v b hb rfl
      exact hb (hremoves v)
    · exact ⟨addr, h, hc.2.state ▸ hv⟩
  obtain ⟨input, env, view⟩ := e
  rcases input with ⟨p, addr⟩ | addr | _ | _ | ⟨target, result⟩ | ⟨addr, result⟩
  · rcases p with p | (⟨n, vs⟩ | _ | p) | (v | v) | p
    · exact hkeeps (handleVideoPacket_attended p)
    · refine hkeeps (handleClientPing_attended n ?_ ?_)
      · exact fun v hv h ↦ h.1 hv
      · rintro v hv b hb rfl
        exact hb ⟨hv, rfl⟩
    · exact hkeeps (registerNewNeighbour_attended addr)
    · exact hkeeps (handleFloodPacket_attended addr p)
    · exact hkeeps (handleRequestVideo_attended (fun h ↦ by cases h))
    · refine hkeeps (handleStopVideo_attended ?_)
      rintro b hb rfl
      exact hb ⟨rfl, rfl⟩
    · exact hkeeps (Keeps.throw _)
  · refine calm_bind_getState fun s ↦ Triple.ite (fun h ↦ ?_) fun h ↦ ?_
    · refine Triple.strengthen (P := fun c ↦ s = view ∧ Calm _ c)
        (Triple.of_forall fun hview ↦ ?_) fun c hc ↦ ⟨hc.2.2.symm.trans hc.2.1.state, hc.1, hc.2.1⟩
      rw [hview] at h
      have hg : (Event.mk (.neighbourUnresponsive addr) env view).givesUp = some addr := if_pos h
      exact hgiveUp hg fun _ ↦ hg
    · exact fun c hc ↦ ⟨hc.1, hc.2.1.attended⟩
  · refine Triple.strengthen (clientHealthCheck_attended view env.now ?_)
      fun c hc ↦ ⟨hc.1, hc.2.attended, hc.2.state, hc.2.now⟩
    rintro b t' ht' hold v c hc rfl
    exact hc ⟨t', ht', hold⟩
  · exact hkeeps (videoHealthCheck_attended fun v b h ↦ by cases h)
  · refine calm_bind_getState fun s ↦ Triple.ite (fun h ↦ ?_) fun h ↦ ?_
    · refine Triple.strengthen (P := fun c ↦ s = view ∧ Calm _ c)
        (Triple.of_forall fun hview ↦ ?_) fun c hc ↦ ⟨hc.2.2.symm.trans hc.2.1.state, hc.1, hc.2.1⟩
      rw [hview] at h
      have hg : (Event.mk (.floodPacketResult target result) env view).givesUp = some target :=
        if_pos h
      exact hgiveUp hg fun _ ↦ hg
    · exact fun c hc ↦ ⟨hc.1, hc.2.1.attended⟩
  · rcases result with e | _ | _
    · exact hkeeps (Keeps.pure ())
    · exact hkeeps (registerNewNeighbour_attended addr)
    · exact hkeeps (Keeps.pure ())

private theorem attended_after {e : Event} (hok : e.env.AllOk) (hs : Subscribed e.view)
    (hl : e.LeavesSubscriber) : Attended (fun v b ↦ ¬ e.Removes v b) e.Redirects e.after := by
  have h := Triple.finalState (handleInput_attended e) (s := .start e.env e.view)
    ⟨hok, started_start hs hl⟩
  exact h.2

end Event

/-- A state whose routed and queued videos have subscribers leads to such a state, if the
step leaves a subscriber to each waiting video; and it requests no other video. -/
theorem Step.subscribed {s t : State} {e : Event} (h : Step s e t) (hok : e.env.AllOk)
    (hl : e.LeavesSubscriber) (hs : Subscribed s) :
    Subscribed t ∧ ∀ v n, (n, .serverPacket (.requestVideo v)) ∈ e.after.sent →
      t.subscribers v ≠ [] := by
  obtain ⟨hr, rfl⟩ := h
  have hview : Subscribed e.view := by
    intro v hv
    rw [hr.subscribers]
    rw [hr.route, hr.pendingVideoRequests] at hv
    exact hs v hv
  have ha := e.attended_after hok hview hl
  refine ⟨fun v hv ↦ ?_, fun v n hn ↦ (ha.requested v n hn).ne_nil⟩
  rcases hv with hv | hv
  · obtain ⟨n, hn⟩ := Option.isSome_iff_exists.mp hv
    exact ha.routed v n hn
  · exact (ha.queued v hv).ne_nil

/-- In every run whose steps leave a subscriber to each waiting video, the routed and queued
videos have subscribers, and each request is for a video that has one when its step ends. -/
theorem run_subscribed {id : NodeId} {neighbours : List IpAddr} {localAddr : SocketAddr}
    {s : State} {tr : List (State × Event)} (hrun : Run Step (.new id neighbours localAddr) tr s)
    (hok : ∀ p ∈ tr, p.2.env.AllOk) (hl : ∀ p ∈ tr, p.2.LeavesSubscriber) :
    (∀ v, (s.videoRoutes.lookup v).isSome ∨ v ∈ s.pendingVideoRequests → s.subscribers v ≠ []) ∧
    ∀ p ∈ tr, ∀ v n, (n, .serverPacket (.requestVideo v)) ∈ p.2.after.sent →
      p.2.after.state.subscribers v ≠ [] := by
  induction hrun with
  | refl =>
    refine ⟨fun v hv ↦ ?_, fun p hp ↦ by cases hp⟩
    rcases hv with hv | hv
    · cases hv
    · cases hv
  | @tail t u tr e _ he ih =>
    obtain ⟨hs, hreq⟩ := ih (fun p hp ↦ hok p (List.mem_append_left _ hp))
      fun p hp ↦ hl p (List.mem_append_left _ hp)
    have hstep := he.subscribed (hok (t, e) (by simp)) (hl (t, e) (by simp)) hs
    refine ⟨hstep.1, fun p hp ↦ ?_⟩
    rcases List.mem_append.mp hp with hp | hp
    · exact hreq p hp
    · cases List.mem_singleton.mp hp
      rw [← he.2]
      exact hstep.2

/-- A step that removes no subscriber. -/
theorem Event.leavesSubscriber_of_not_removes {e : Event} (h : ∀ v b, ¬ e.Removes v b) :
    e.LeavesSubscriber := by
  rintro v - ⟨a, -, ha⟩
  exact (h v a ha).elim

/-- Two clients ask for a video nobody offers, and one of them for a video that neighbour 2 does. -/
def requestsBeforeStop : List (Input × Env) :=
  [(.packet (.serverPacket (.requestVideo 5)) (IpAddr.v4 3).atPort, .calm 0),
    (.packet (.serverPacket (.requestVideo 5)) (IpAddr.v4 4).atPort, .calm 0),
    (.packet (.nodePacket (.floodPacket ⟨0, [(6, "six")], [9], []⟩)) (IpAddr.v4 2).atPort, .calm 0),
    (.packet (.serverPacket (.requestVideo 6)) (IpAddr.v4 3).atPort, .calm 0)]

/-- The first client stops the video that is still queued. -/
def firstStops : Event :=
  ⟨.packet (.serverPacket (.stopVideo 5)) (IpAddr.v4 3).atPort, .calm 0,
    simulate (.new 1 [] (IpAddr.v4 1).atPort) requestsBeforeStop⟩

/-- Both videos keep their other subscriber, one in the queue and one on its route. -/
theorem run_subscribed_one_stops :
    (5 ∈ firstStops.after.state.pendingVideoRequests ∧
      firstStops.after.state.subscribers 5 ≠ []) ∧
    firstStops.after.state.videoRoutes.lookup 6 = some (IpAddr.v4 2).atPort ∧
      firstStops.after.state.subscribers 6 ≠ [] := by
  obtain ⟨tr, hrun, htr⟩ := run_simulate (.new 1 [] (IpAddr.v4 1).atPort) requestsBeforeStop
  have hcalm (p : State × Event) (hp : p ∈ tr) :
      p.2.env.AllOk ∧ ∀ v b, ¬ p.2.Removes v b := by
    have hmem : (p.2.input, p.2.env) ∈ requestsBeforeStop := htr ▸ List.mem_map_of_mem hp
    simp only [requestsBeforeStop, List.mem_cons, List.mem_nil_iff, or_false, Prod.mk.injEq] at hmem
    rcases hmem with ⟨hi, he⟩ | ⟨hi, he⟩ | ⟨hi, he⟩ | ⟨hi, he⟩
    all_goals exact ⟨he ▸ Env.calm_allOk 0, by simp [Event.Removes, Event.givesUp, hi]⟩
  have hrouted : firstStops.after.state.videoRoutes.lookup 6 = some (IpAddr.v4 2).atPort := by
    decide
  have hqueued : 5 ∈ firstStops.after.state.pendingVideoRequests := by decide
  have hsubscribed := (run_subscribed (hrun.tail (e := firstStops) ⟨.refl _, rfl⟩) ?_ ?_).1
  · exact ⟨⟨hqueued, hsubscribed 5 (.inr hqueued)⟩, hrouted,
      hsubscribed 6 (.inl (hrouted ▸ rfl))⟩
  · intro p hp
    rcases List.mem_append.mp hp with hp | hp
    · exact (hcalm p hp).1
    · cases List.mem_singleton.mp hp
      exact Env.calm_allOk 0
  · intro p hp
    rcases List.mem_append.mp hp with hp | hp
    · exact Event.leavesSubscriber_of_not_removes (hcalm p hp).2
    · cases List.mem_singleton.mp hp
      -- the second client remains
      rintro v - ⟨a, -, rfl, -⟩
      refine ⟨(IpAddr.v4 4).atPort, by decide, ?_⟩
      rintro ⟨-, h⟩
      revert h
      decide

/-- A client asks for a video nobody offers, and stops it again. -/
def forgottenRequest : State :=
  simulate (.new 1 [] (IpAddr.v4 1).atPort) (List.map (·, .calm 0)
    [.packet (.serverPacket (.requestVideo 5)) (IpAddr.v4 3).atPort,
      .packet (.serverPacket (.stopVideo 5)) (IpAddr.v4 3).atPort])

/-- The first node that offers the forgotten video. -/
def forgottenOffer : Event where
  input := .packet (.nodePacket (.floodPacket ⟨0, [(5, "five")], [9], []⟩)) (IpAddr.v4 2).atPort
  env := .calm 0
  view := forgottenRequest

/-- A stopped video stays queued, and the node asks for it when it is offered. -/
theorem forgotten_request :
    Reachable 1 [] (IpAddr.v4 1).atPort forgottenRequest ∧
    5 ∈ forgottenRequest.pendingVideoRequests ∧ forgottenRequest.subscribers 5 = [] ∧
    ((IpAddr.v4 2).atPort, .serverPacket (.requestVideo 5)) ∈ forgottenOffer.after.sent ∧
    forgottenOffer.after.state.videoRoutes.lookup 5 = some (IpAddr.v4 2).atPort ∧
    forgottenOffer.after.state.subscribers 5 = [] :=
  ⟨reachable_simulate 1 [] _ (by simp [Env.calm_allOk]), by decide, by decide, by decide,
    by decide, by decide⟩

end PessiStreamer.Node
