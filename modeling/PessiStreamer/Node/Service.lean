import PessiStreamer.Node.Calm

/-!
# Every subscribed video is received or queued

The service invariant of a node, for all runs in which the sends succeed. Inside
`handle_unresponsive_node` it fails for the videos that are still to be redirected, so the
proof carries the set of these exceptions along.
-/

namespace PessiStreamer.Node
open Base Common

/-- The service invariant for one video. -/
structure Served (s : State) (v : VideoId) : Prop where
  /-- a subscribed video is queued or routed over an active node -/
  subscribed : s.subscribers v ≠ [] → v ∈ s.pendingVideoRequests ∨
    ∃ n, s.videoRoutes.lookup v = some n ∧ s.IsActive n
  /-- no active node lists a queued video -/
  queued : v ∈ s.pendingVideoRequests → ∀ n, ¬ s.Offers n v
  /-- a route leads over an active node, or the video is queued -/
  routed : ∀ n, s.videoRoutes.lookup v = some n → s.IsActive n ∨ v ∈ s.pendingVideoRequests

/-- The service invariant with exceptions, which keep only the clause about the queue. -/
structure ServedExcept (D : VideoId → Prop) (s : State) : Prop where
  served : ∀ v, ¬ D v → Served s v
  queued : ∀ v, v ∈ s.pendingVideoRequests → ∀ n, ¬ s.Offers n v

/-- The service invariant of a node. -/
def ServiceInvariant (s : State) : Prop := ∀ v, Served s v

namespace Served

variable {s t : State} {v : VideoId}

/-- The invariant of a video depends on its own entries and on the available routes. -/
theorem congr (h : Served s v) (hsub : t.subscribers v = s.subscribers v)
    (hroute : t.videoRoutes.lookup v = s.videoRoutes.lookup v)
    (hpend : v ∈ t.pendingVideoRequests ↔ v ∈ s.pendingVideoRequests)
    (havail : t.availableRoutes = s.availableRoutes) : Served t v where
  subscribed := by
    intro hne
    rw [hsub] at hne
    rw [hpend, hroute]
    simpa only [State.isActive_congr havail] using h.subscribed hne
  queued := by
    intro hq n
    rw [State.offers_congr havail]
    exact h.queued (hpend.mp hq) n
  routed := by
    intro n hn
    rw [hroute] at hn
    rw [hpend, State.isActive_congr havail]
    exact h.routed n hn

/-- Fewer subscribers ask for nothing more. -/
theorem unsubscribe {u : VideoId} {a : SocketAddr} (h : Served s v) :
    Served (s.unsubscribe u a) v where
  subscribed := by
    intro hne
    apply h.subscribed
    intro hnil
    apply hne
    by_cases hu : v = u
    · subst hu
      simp [hnil]
    · simp [hu, hnil]
  queued := h.queued
  routed := h.routed

/-- A route over an active node serves the video. -/
theorem setRoute {n : SocketAddr} (hq : v ∈ s.pendingVideoRequests → ∀ n, ¬ s.Offers n v)
    (hn : s.IsActive n) : Served (s.setRoute v n) v where
  subscribed := fun _ ↦ .inr ⟨n, by simp, hn⟩
  queued := hq
  routed := by
    intro m hm
    rw [State.setRoute_lookup, if_pos rfl] at hm
    obtain rfl := Option.some.inj hm
    exact .inl hn

end Served

private theorem handleRequestVideo_serves (v : VideoId) (a : SocketAddr) :
    Keeps (OnState ServiceInvariant) (handleRequestVideo v a) := by
  intro c ⟨hok, hs⟩
  rcases handleRequestVideo_cases v a c with ⟨hr, h⟩ | ⟨hr, n, hb, h⟩ | ⟨hr, hb, h⟩
  · rw [h]
    refine ⟨hok, fun u ↦ ?_⟩
    by_cases hu : u = v
    · subst hu
      obtain ⟨n, hn⟩ := Option.isSome_iff_exists.mp hr
      refine ⟨fun _ ↦ ?_, (hs u).queued, (hs u).routed⟩
      rcases (hs u).routed n hn with ha | hp
      · exact .inr ⟨n, hn, ha⟩
      · exact .inl hp
    · exact (hs u).congr (by simp [hu]) rfl .rfl rfl
  · rw [h]
    rcases requestVideoToNode_cases v n (c.setState (c.state.subscribe v a)) with h' | ⟨e, he, -⟩
    · rw [h']
      refine ⟨hok, fun u ↦ ?_⟩
      by_cases hu : u = v
      · subst hu
        exact Served.setRoute (hs u).queued (State.offers_of_best hb).isActive
      · exact (hs u).congr (by simp [hu]) (by simp [hu]) .rfl rfl
    · rw [Ctx.setState_env, hok] at he
      cases he
  · rw [h]
    refine ⟨hok, fun u ↦ ?_⟩
    by_cases hu : u = v
    · subst hu
      refine ⟨fun _ ↦ .inl (by simp), fun _ ↦ State.best_eq_none_iff.mp hb, fun n hn ↦ .inr ?_⟩
      simp
    · exact (hs u).congr (by simp [hu]) rfl (by simp [hu]) rfl

private theorem handleStopVideo_serves {D : VideoId → Prop} (v : VideoId) (a : SocketAddr) :
    Keeps (OnState (ServedExcept D)) (handleStopVideo v a) := by
  intro c ⟨hok, hs⟩
  rcases handleStopVideo_cases v a c with ⟨-, h⟩ | ⟨hnil, n, hn, h⟩
  · rw [h]
    exact ⟨hok, fun u hu ↦ (hs.served u hu).unsubscribe, hs.queued⟩
  · have hsend : (c.setState ((c.state.unsubscribe v a).dropRoute v)).env.AllOk := hok
    rw [h, send_of_allOk hsend]
    refine ⟨hok, fun u hu ↦ ?_, hs.queued⟩
    by_cases huv : u = v
    · subst huv
      refine ⟨fun hne ↦ (hne hnil).elim, (hs.served u hu).queued, fun m hm ↦ ?_⟩
      simp at hm
    · exact ((hs.served u hu).unsubscribe (u := v) (a := a)).congr rfl (by simp [huv]) .rfl rfl

private theorem handleStopVideo_keeps (v : VideoId) (a : SocketAddr) :
    Keeps (OnState ServiceInvariant) (handleStopVideo v a) := by
  refine (handleStopVideo_serves (D := fun _ ↦ False) v a).consequence ?_ ?_ ?_
  · exact fun c hc ↦ ⟨hc.1, fun u _ ↦ hc.2 u, fun u ↦ (hc.2 u).queued⟩
  · exact fun _ c hc ↦ ⟨hc.1, fun u ↦ hc.2.served u id⟩
  · exact fun _ c hc ↦ ⟨hc.1, fun u ↦ hc.2.served u id⟩

/-- Redirecting takes each video off the exceptions, except those no node was found for. -/
theorem redirectVideos_serves {E : HandlerError → Ctx → Prop} (vs : List VideoId) :
    Triple (Calm (OnState (ServedExcept (· ∈ vs)))) (redirectVideos vs)
      (fun remaining ↦ Calm <| OnState fun s ↦ ServedExcept (· ∈ remaining) s ∧
        ∀ v ∈ remaining, ∀ n, ¬ s.Offers n v) E := by
  refine (calm_redirectVideos (I := fun todo left ↦ OnState fun s ↦
    ServedExcept (fun v ↦ v ∈ todo ∨ v ∈ left) s ∧ ∀ v ∈ left, ∀ n, ¬ s.Offers n v)
    ?_ ?_ vs).consequence ?_ ?_ fun _ _ ↦ id
  · rintro v rest left n c hb ⟨hs, hleft⟩
    refine ⟨⟨fun u hu ↦ ?_, hs.queued⟩, hleft⟩
    by_cases huv : u = v
    · subst huv
      exact Served.setRoute (hs.queued u) (State.offers_of_best hb).isActive
    · refine (hs.served u ?_).congr rfl (by simp [huv]) .rfl rfl
      simpa [huv] using hu
  · rintro v rest left c hb ⟨hs, hleft⟩
    refine ⟨⟨fun u hu ↦ hs.served u ?_, hs.queued⟩, fun u hu ↦ ?_⟩
    · simp only [List.mem_cons, List.mem_append, List.mem_nil_iff] at hu ⊢
      tauto
    · rcases List.mem_append.mp hu with hu | hu
      · exact hleft u hu
      · obtain rfl := List.mem_singleton.mp hu
        exact State.best_eq_none_iff.mp hb
  · rintro c ⟨hok, hs⟩
    exact ⟨hok, ⟨fun u hu ↦ hs.served u fun h ↦ hu (.inl h), hs.queued⟩, by simp⟩
  · rintro remaining c ⟨hok, hs, hleft⟩
    exact ⟨hok, ⟨fun u hu ↦ hs.served u (by simpa using hu), hs.queued⟩, hleft⟩

/-- Queueing the videos left without a node ends their exception. -/
theorem ServedExcept.enqueue {s : State} {vs : List VideoId} (h : ServedExcept (· ∈ vs) s)
    (hvs : ∀ v ∈ vs, ∀ n, ¬ s.Offers n v) : ServiceInvariant (s.enqueue vs) := by
  intro v
  by_cases hv : v ∈ vs
  · have hp : v ∈ (s.enqueue vs).pendingVideoRequests := by simp [hv]
    exact ⟨fun _ ↦ .inl hp, fun _ ↦ hvs v hv, fun _ _ ↦ .inr hp⟩
  · exact (h.served v hv).congr rfl rfl (by simp [hv]) rfl

/-- Giving up a node restores the invariant that broke for the videos routed over it. -/
theorem handleUnresponsiveNode_serves {E : HandlerError → Ctx → Prop} (addr : SocketAddr) :
    Triple (Calm <| OnState fun s ↦
        ServedExcept (fun v ↦ s.videoRoutes.lookup v = some addr) s)
      (handleUnresponsiveNode addr) (fun _ ↦ Calm (OnState ServiceInvariant)) E := by
  refine calm_bind_getState fun s ↦ ?_
  have hstop : Triple (Calm (OnState (ServedExcept (· ∈ s.videosReceiving addr))))
      ((s.videosSending addr).forM fun v ↦ attempt (handleStopVideo v addr))
      (fun _ ↦ Calm (OnState (ServedExcept (· ∈ s.videosReceiving addr)))) E :=
    Triple.forM fun v _ ↦ (handleStopVideo_serves v addr).attempt
  refine Triple.bind (hstop.strengthen ?_) fun _ ↦
    Triple.bind (redirectVideos_serves _) fun remaining ↦ ?_
  · rintro c ⟨hok, hs, rfl⟩
    exact ⟨hok, fun v hv ↦ hs.served v fun h ↦ hv (mem_videosReceiving.mpr h), hs.queued⟩
  refine Triple.bind (calm_connectToParents (fun _ _ hc ↦ hc) addr remaining) fun _ ↦
    calm_modifyState ?_
  rintro c ⟨hu, hrem⟩
  exact hu.enqueue hrem

/-- Marking a node unresponsive breaks the invariant only for the videos routed over it. -/
theorem ServiceInvariant.markUnresponsive {s : State} (h : ServiceInvariant s)
    (addr : SocketAddr) :
    ServedExcept (fun v ↦ (s.markUnresponsive addr).videoRoutes.lookup v = some addr)
      (s.markUnresponsive addr) := by
  have hqueued (v : VideoId) (hq : v ∈ s.pendingVideoRequests) (n : SocketAddr) :
      ¬ (s.markUnresponsive addr).Offers n v := by
    intro ho
    exact (h v).queued hq n (State.offers_markUnresponsive.mp ho).2
  have hact {v : VideoId} {n : SocketAddr} (hv : s.videoRoutes.lookup v ≠ some addr)
      (hn : s.videoRoutes.lookup v = some n) (ha : s.IsActive n) :
      (s.markUnresponsive addr).IsActive n := by
    refine State.isActive_markUnresponsive.mpr ⟨?_, ha⟩
    rintro rfl
    exact hv hn
  refine ⟨fun v hv ↦ ⟨fun hne ↦ ?_, hqueued v, fun n hn ↦ ?_⟩, hqueued⟩
  · rcases (h v).subscribed hne with hp | ⟨n, hn, ha⟩
    · exact .inl hp
    · exact .inr ⟨n, hn, hact hv hn ha⟩
  · rcases (h v).routed n hn with ha | hp
    · exact .inl (hact hv hn ha)
    · exact .inr hp

/-- A node that is marked unresponsive and given up. -/
theorem giveUp_serves (addr : SocketAddr) :
    Keeps (OnState ServiceInvariant) (do
      modifyState fun s ↦ s.markUnresponsive addr
      handleUnresponsiveNode addr) := by
  refine Triple.bind (calm_modifyState ?_) fun _ ↦ handleUnresponsiveNode_serves addr
  exact fun c hc ↦ ServiceInvariant.markUnresponsive hc addr

/-- Between the update of a route and the end of the drain, only the queued videos that the
flood packet lists may be on offer. -/
structure Draining (fromAddr : SocketAddr) (listed : VideoId → Prop) (s : State) : Prop where
  isActive : s.IsActive fromAddr
  subscribed : ∀ v, s.subscribers v ≠ [] → v ∈ s.pendingVideoRequests ∨
    ∃ n, s.videoRoutes.lookup v = some n ∧ s.IsActive n
  queued : ∀ v, v ∈ s.pendingVideoRequests → ¬ listed v → ∀ n, ¬ s.Offers n v
  routed : ∀ v n, s.videoRoutes.lookup v = some n → s.IsActive n ∨ v ∈ s.pendingVideoRequests

private theorem ServiceInvariant.updateRoute {s : State} (h : ServiceInvariant s)
    (fromAddr : SocketAddr) (p : FloodPacket) (t : SystemTime) :
    Draining fromAddr (· ∈ p.videosAvailable.map Prod.fst) (s.updateRoute fromAddr p t) where
  isActive := State.isActive_updateRoute.mpr (.inl rfl)
  subscribed := by
    intro v hne
    rcases (h v).subscribed hne with hp | ⟨n, hn, ha⟩
    · exact .inl hp
    · exact .inr ⟨n, hn, State.isActive_updateRoute.mpr (.inr ha)⟩
  queued := by
    intro v hq hl n ho
    rw [State.offers_updateRoute] at ho
    split at ho
    · exact hl ho
    · exact (h v).queued hq n ho
  routed := by
    intro v n hn
    rcases (h v).routed n hn with ha | hp
    · exact .inl (State.isActive_updateRoute.mpr (.inr ha))
    · exact .inr hp

/-- Routing a video over the sender of the flood packet. -/
theorem Draining.setRoute {fromAddr : SocketAddr} {listed : VideoId → Prop} {s : State}
    (h : Draining fromAddr listed s) (v : VideoId) :
    Draining fromAddr listed (s.setRoute v fromAddr) where
  isActive := h.isActive
  subscribed := by
    intro u hne
    by_cases hu : u = v
    · exact .inr ⟨fromAddr, by simp [hu], h.isActive⟩
    · rw [State.setRoute_lookup, if_neg hu]
      exact h.subscribed u hne
  queued := h.queued
  routed := by
    intro u n hn
    by_cases hu : u = v
    · obtain rfl : fromAddr = n := by simpa [hu] using hn
      exact .inl h.isActive
    · exact h.routed u n (by simpa [hu] using hn)

/-- Every listed video that was queued leaves the queue for the sender of the packet. -/
theorem checkPendingVideos_serves {E : HandlerError → Ctx → Prop} (fromAddr : SocketAddr)
    (videos : List (VideoId × String)) :
    Triple (Calm (OnState (Draining fromAddr (· ∈ videos.map Prod.fst))))
      (checkPendingVideos fromAddr videos) (fun _ ↦ Calm (OnState ServiceInvariant)) E := by
  refine calm_checkPendingVideos (I := fun drained rest ↦ OnState fun s ↦
    Draining fromAddr (· ∈ videos.map Prod.fst) s ∧
    (∀ v ∈ s.pendingVideoRequests, v ∈ videos.map Prod.fst → v ∈ drained) ∧
    ∀ v ∈ drained, v ∈ rest ∨ s.videoRoutes.lookup v = some fromAddr) ?_ ?_ ?_
  · exact fun c hc ↦ ⟨hc, fun v hv hl ↦ mem_pendingListed.mpr ⟨hv, hl⟩, fun v hv ↦ .inl hv⟩
  · rintro drained v rest c - ⟨hs, hd, hr⟩
    refine ⟨hs.setRoute v, hd, fun u hu ↦ ?_⟩
    by_cases huv : u = v
    · simp [huv]
    · simpa [huv] using hr u hu
  · rintro drained c ⟨hs, hd, hr⟩ v
    by_cases hv : v ∈ drained
    · have hroute : c.state.videoRoutes.lookup v = some fromAddr := by simpa using hr v hv
      refine ⟨fun _ ↦ .inr ⟨fromAddr, hroute, hs.isActive⟩, fun hq ↦ ?_, fun n hn ↦ .inl ?_⟩
      · simp [hv] at hq
      · obtain rfl : fromAddr = n := Option.some.inj (hroute.symm.trans hn)
        exact hs.isActive
    · refine Served.congr (s := c.state) ⟨hs.subscribed v, fun hq ↦ hs.queued v hq ?_, hs.routed v⟩
        rfl rfl (by simp [hv]) rfl
      exact fun hl ↦ hv (hd v hq hl)

private theorem handleFloodPacket_serves (fromAddr : SocketAddr) (p : FloodPacket) :
    Keeps (OnState ServiceInvariant) (handleFloodPacket fromAddr p) := by
  refine Keeps.bind Keeps.getState fun s ↦ Keeps.ite (fun _ ↦ Keeps.pure ()) fun _ ↦ ?_
  refine Keeps.bind Keeps.now fun t ↦ Keeps.bind (Keeps.modifyState fun c hc v ↦ ?_) fun _ ↦ ?_
  · exact (hc v).congr rfl rfl .rfl rfl
  refine Triple.bind (Q := fun _ ↦
    Calm (OnState (Draining fromAddr (· ∈ p.videosAvailable.map Prod.fst)))) ?_ fun _ ↦ ?_
  · exact calm_modifyState fun c hc ↦ ServiceInvariant.updateRoute hc fromAddr p t
  refine Triple.bind (checkPendingVideos_serves fromAddr p.videosAvailable) fun _ ↦ ?_
  refine Keeps.bind Keeps.getState fun s ↦ Keeps.forM fun addr _ ↦ Keeps.attempt ?_
  exact Keeps.bind Keeps.getState fun _ ↦ calm_send fun _ hc ↦ hc

private theorem handleClientPing_serves (sequenceNumber : UInt64) (requested : List VideoId)
    (addr : SocketAddr) :
    Keeps (OnState ServiceInvariant) (handleClientPing sequenceNumber requested addr) := by
  refine Keeps.bind Keeps.getState fun s ↦ Keeps.bind Keeps.now fun t ↦
    Keeps.bind ?_ fun _ ↦ Keeps.bind (Keeps.forM fun v _ ↦ ?_) fun _ ↦ ?_
  · exact Keeps.modifyState fun c hc v ↦ (hc v).congr rfl rfl .rfl rfl
  · exact Keeps.bind Keeps.getState fun s ↦
      Keeps.ite (fun _ ↦ Keeps.pure ()) fun _ ↦ handleRequestVideo_serves v addr
  · refine Keeps.bind Keeps.getState fun s ↦ Keeps.bind (Keeps.forM fun video _ ↦ ?_) fun _ ↦
      calm_send fun _ hc ↦ hc
    exact Keeps.ite (fun _ ↦ handleStopVideo_keeps video.1 addr) fun _ ↦ Keeps.pure ()

private theorem handleVideoPacket_serves (packet : VideoPacket) :
    Keeps (OnState ServiceInvariant) (handleVideoPacket packet) := by
  refine Keeps.bind Keeps.getState fun s ↦ Keeps.bind Keeps.now fun t ↦
    Keeps.bind (Keeps.modifyState fun c hc v ↦ ?_) fun _ ↦
      Keeps.ite (fun _ ↦ Keeps.pure ()) fun _ ↦ ?_
  · exact (hc v).congr rfl rfl .rfl rfl
  cases s.interested.lookup packet.streamId with
  | some subscribers => exact Keeps.forM fun addr _ ↦ calm_send fun _ hc ↦ hc
  | none => exact Keeps.pure ()

private theorem clientHealthCheck_serves : Keeps (OnState ServiceInvariant) clientHealthCheck := by
  refine Keeps.bind Keeps.getState fun s ↦ Keeps.bind Keeps.now fun t ↦
    Keeps.forM fun ping _ ↦ Keeps.bind Keeps.getState fun s ↦
      Keeps.ite (fun _ ↦ ?_) fun _ ↦ Keeps.pure ()
  exact Keeps.forM fun v _ ↦ (handleStopVideo_keeps v ping.1).attempt

/-- Asking again installs the route that is there already. -/
theorem videoHealthCheck_serves : Keeps (OnState ServiceInvariant) videoHealthCheck := by
  refine Keeps.bind Keeps.getState fun s ↦ Keeps.bind Keeps.now fun t ↦
    Keeps.forM fun packet _ ↦ calm_bind_getState fun s ↦ Triple.ite (fun _ ↦ ?_) fun _ ↦ ?_
  · cases hr : s.videoRoutes.lookup packet.1 with
    | some n =>
      apply calm_requestVideoToNode
      rintro c ⟨hs, rfl⟩ v
      refine (hs v).congr rfl ?_ .rfl rfl
      by_cases hv : v = packet.1
      · subst hv
        simp [hr]
      · simp [hv]
    | none => exact Triple.pure fun c hc ↦ ⟨hc.1, hc.2.1⟩
  · exact Triple.pure fun c hc ↦ ⟨hc.1, hc.2.1⟩

private theorem neighbourUnresponsive_serves (addr : SocketAddr) :
    Keeps (OnState ServiceInvariant) (neighbourUnresponsive addr) :=
  Keeps.bind Keeps.getState fun _ ↦ Keeps.ite (fun _ ↦ giveUp_serves addr) fun _ ↦
    Keeps.throw _

private theorem handleSendFloodPacketResult_serves (target : SocketAddr)
    (result : Except ReliableUdpSocketError (Except RecvError ReliablePacketResult)) :
    Keeps (OnState ServiceInvariant) (handleSendFloodPacketResult target result) :=
  Keeps.bind Keeps.getState fun _ ↦ Keeps.ite (fun _ ↦ giveUp_serves target) fun _ ↦
    Keeps.pure ()

private theorem registerNewNeighbour_serves (addr : SocketAddr) :
    Keeps (OnState ServiceInvariant)
      (modifyState fun s ↦ s.registerNewNeighbour addr.ip) :=
  Keeps.modifyState fun _ hc v ↦ (hc v).congr rfl rfl .rfl rfl

/-- Every handler keeps the service invariant while all sends succeed. -/
theorem handleInput_serves (i : Input) : Keeps (OnState ServiceInvariant) (handleInput i) := by
  rcases i with ⟨p, addr⟩ | addr | _ | _ | ⟨target, result⟩ | ⟨addr, result⟩
  · rcases p with p | (⟨n, vs⟩ | _ | p) | (v | v) | p
    · exact handleVideoPacket_serves p
    · exact handleClientPing_serves n vs addr
    · exact registerNewNeighbour_serves addr
    · exact handleFloodPacket_serves addr p
    · exact handleRequestVideo_serves v addr
    · exact handleStopVideo_keeps v addr
    · exact Keeps.throw _
  · exact neighbourUnresponsive_serves addr
  · exact clientHealthCheck_serves
  · exact videoHealthCheck_serves
  · exact handleSendFloodPacketResult_serves target result
  · rcases result with e | _ | _
    · exact Keeps.pure ()
    · exact registerNewNeighbour_serves addr
    · exact Keeps.pure ()

private theorem ServiceInvariant.reorder {s r : State} (h : ServiceInvariant s) (hr : s.Reorder r) :
    ServiceInvariant r := by
  intro v
  refine ⟨fun hne ↦ ?_, fun hq n ↦ ?_, fun n hn ↦ ?_⟩
  · rw [hr.subscribers] at hne
    simpa only [hr.pendingVideoRequests, hr.route, hr.isActive] using (h v).subscribed hne
  · rw [hr.offers]
    exact (h v).queued (hr.pendingVideoRequests ▸ hq) n
  · rw [hr.route] at hn
    simpa only [hr.pendingVideoRequests, hr.isActive] using (h v).routed n hn

/-- A step in which all sends succeed keeps every subscribed video served. -/
theorem Step.serves {s t : State} {e : Event} (h : Step s e t) (hok : e.env.AllOk)
    (hs : ServiceInvariant s) : ServiceInvariant t := by
  obtain ⟨hr, rfl⟩ := h
  exact (handleInput_serves e.input).finalState hok (hs.reorder hr)

/-- A node that was just started has no subscribers. -/
theorem serviceInvariant_new (id : NodeId) (neighbours : List IpAddr) (localAddr : SocketAddr) :
    ServiceInvariant (.new id neighbours localAddr) := by
  intro v
  refine ⟨fun hne ↦ (hne rfl).elim, fun hq ↦ ?_, fun n hn ↦ ?_⟩
  · cases hq
  · cases hn

/-- The service invariant holds after every run in which the sends succeed. -/
theorem Reachable.serves {id : NodeId} {neighbours : List IpAddr} {localAddr : SocketAddr}
    {s : State} (h : Reachable id neighbours localAddr s) : ServiceInvariant s := by
  obtain ⟨tr, hrun, hok⟩ := h
  exact hrun.invariant_of_forall (P := fun _ e ↦ e.env.AllOk)
    (fun s e t hs he hstep ↦ hstep.serves he hs) hok (serviceInvariant_new id neighbours localAddr)

/-- In every state a node reaches while its sends succeed, each video with subscribers is
queued or routed over an active node, no active node lists a queued video, and a route leads
over an active node unless the video is queued. -/
theorem reachable_service {id : NodeId} {neighbours : List IpAddr} {localAddr : SocketAddr}
    {s : State} (h : Reachable id neighbours localAddr s) (v : VideoId) :
    (s.subscribers v ≠ [] → v ∈ s.pendingVideoRequests ∨
      ∃ n, s.videoRoutes.lookup v = some n ∧ s.IsActive n) ∧
    (v ∈ s.pendingVideoRequests → ∀ n r, s.availableRoutes.lookup n = some r →
      r.status = .active → v ∉ r.availableVideos) ∧
    ∀ n, s.videoRoutes.lookup v = some n → s.IsActive n ∨ v ∈ s.pendingVideoRequests := by
  have hv := h.serves v
  refine ⟨hv.subscribed, fun hq n r hr hs hl ↦ ?_, hv.routed⟩
  exact hv.queued hq n ⟨r, hr, hs, hl⟩

/-- A video is requested, offered by a node and drained to it; the node falls silent and
comes back without the video. -/
def revivedWithoutVideo : State :=
  let node : SocketAddr := (IpAddr.v4 2).atPort
  let client : SocketAddr := (IpAddr.v4 3).atPort
  let flood (videos : List (VideoId × String)) : Input :=
    .packet (.nodePacket (.floodPacket ⟨0, videos, [9], []⟩)) node
  simulate (.new 1 [] (IpAddr.v4 1).atPort) (List.map (·, .calm 0)
    [.packet (.serverPacket (.requestVideo 5)) client, flood [(5, "five")],
      .neighbourUnresponsive node, flood []])

/-- The video is queued or routed over an active node. -/
theorem reachable_service_revived :
    5 ∈ revivedWithoutVideo.pendingVideoRequests ∨
      ∃ n, revivedWithoutVideo.videoRoutes.lookup 5 = some n ∧ revivedWithoutVideo.IsActive n :=
  (reachable_service (reachable_simulate 1 [] _ (by simp [Env.calm_allOk])) 5).1 (by decide)

end PessiStreamer.Node
