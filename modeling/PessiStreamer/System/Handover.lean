import PessiStreamer.Node.Exact

/-!
# Handover after a catastrophic failure

A node loses its only source of a video and connects to the parents that source last
advertised. The chain of packets between the node and such a parent restores the stream.
-/

namespace PessiStreamer.System
open Base Common Node

/-- One run of a handler in which every send succeeds, in any iteration order of the maps. -/
def Ran (m : Handler Unit) (s : Node.State) (c : Ctx) : Prop :=
  ∃ env view, env.AllOk ∧ s.Reorder view ∧ c = finalState m (.start env view)

section Queueing

variable {v : VideoId} {X P : SocketAddr} {s : Node.State}

/-- What giving up a node leaves alone, while no node offers the video. -/
structure Orphaned (v : VideoId) (X P : SocketAddr) (s t : Node.State) : Prop where
  id : t.id = s.id
  localAddr : t.localAddr = s.localAddr
  unoffered : ∀ n, ¬ t.Offers n v
  parent : P ∈ t.parentsOf X

private theorem Orphaned.congr {t u : Node.State} (h : Orphaned v X P s t) (hid : u.id = t.id)
    (haddr : u.localAddr = t.localAddr) (havail : u.availableRoutes = t.availableRoutes) :
    Orphaned v X P s u where
  id := hid.trans h.id
  localAddr := haddr.trans h.localAddr
  unoffered := fun n ↦ by
    rw [State.offers_congr havail]
    exact h.unoffered n
  parent := by
    rw [State.parentsOf, havail]
    exact h.parent

private theorem handleStopVideo_orphaned (u : VideoId) (a : SocketAddr) :
    Keeps (OnState (Orphaned v X P s)) (handleStopVideo u a) := by
  intro c ⟨hok, hc⟩
  rcases handleStopVideo_cases u a c with ⟨-, h⟩ | ⟨-, n, -, h⟩
  · rw [h]
    exact ⟨hok, hc.congr rfl rfl rfl⟩
  · have hsend : (c.setState ((c.state.unsubscribe u a).dropRoute u)).env.AllOk := hok
    rw [h, send_of_allOk hsend]
    exact ⟨hok, hc.congr rfl rfl rfl⟩

/-- Every parent but the node itself is asked to take the node as a neighbour. -/
theorem connectToParents_sends {E : HandlerError → Ctx → Prop} {I : Ctx → Prop}
    (hpush : ∀ c a, I c → I (c.push (.nodePacket .newNeighbour) a))
    (haddr : ∀ c, I c → P ≠ c.state.localAddr) {remaining : List VideoId}
    (hrem : remaining ≠ []) :
    Triple (Calm fun c ↦ I c ∧ P ∈ c.state.parentsOf X) (connectToParents X remaining)
      (fun _ ↦ Calm fun c ↦ I c ∧ (P, .nodePacket .newNeighbour) ∈ c.sent) E := by
  refine calm_bind_getState fun t ↦ ?_
  rw [if_neg hrem]
  refine (Triple.forM_rest (I := fun rest ↦ Calm fun c ↦ (I c ∧ c.state = t) ∧
    (P ∈ rest ∨ (P, .nodePacket .newNeighbour) ∈ c.sent)) _ fun a rest _ ↦ ?_).consequence
    ?_ ?_ fun _ _ ↦ id
  · refine Triple.ite (fun hself ↦ ?_) fun _ ↦ ?_
    · refine Triple.pure fun c ⟨hok, ⟨hc, hs⟩, hP⟩ ↦ ⟨hok, ⟨hc, hs⟩, ?_⟩
      rcases hP with hP | hP
      · rcases List.mem_cons.mp hP with rfl | hP
        · exact (haddr c hc (by rw [hself, hs])).elim
        · exact .inl hP
      · exact .inr hP
    · refine Triple.attempt (calm_send fun c ⟨⟨hc, hs⟩, hP⟩ ↦ ⟨⟨hpush c a hc, hs⟩, ?_⟩)
      rw [Ctx.push_sent]
      rcases hP with hP | hP
      · rcases List.mem_cons.mp hP with rfl | hP
        · exact .inr (by simp)
        · exact .inl hP
      · exact .inr (List.mem_append_left _ hP)
  · rintro c ⟨hok, ⟨hc, hP⟩, rfl⟩
    exact ⟨hok, ⟨hc, rfl⟩, .inl hP⟩
  · rintro _ c ⟨hok, ⟨hc, -⟩, hP⟩
    exact ⟨hok, hc, by simpa using hP⟩

/-- A video that no node offers is queued, and the parents are asked. -/
theorem handleUnresponsiveNode_queues {E : HandlerError → Ctx → Prop} (hP : P ≠ s.localAddr) :
    Triple (Calm fun c ↦ Orphaned v X P s c.state ∧ c.state.videoRoutes.lookup v = some X)
      (handleUnresponsiveNode X)
      (fun _ ↦ Calm fun c ↦ Orphaned v X P s c.state ∧ v ∈ c.state.pendingVideoRequests ∧
        (P, .nodePacket .newNeighbour) ∈ c.sent) E := by
  refine calm_bind_getState fun t ↦ Triple.strengthen (P := fun c ↦
    v ∈ t.videosReceiving X ∧ Calm (OnState (Orphaned v X P s)) c)
    (Triple.of_forall fun hv ↦ ?_) ?_
  · refine Triple.bind (Triple.forM fun u _ ↦ (handleStopVideo_orphaned u X).attempt) fun _ ↦
      Triple.bind (Q := fun remaining ↦ Calm fun c ↦ Orphaned v X P s c.state ∧ v ∈ remaining)
        ?_ fun remaining ↦ ?_
    · refine (calm_redirectVideos (I := fun todo left c ↦ Orphaned v X P s c.state ∧
        (v ∈ todo ∨ v ∈ left)) ?_ ?_ _).consequence ?_ ?_ fun _ _ ↦ id
      · rintro u rest left n c hb ⟨hc, hv⟩
        refine ⟨hc.congr rfl rfl rfl, ?_⟩
        rcases hv with hv | hv
        · rcases List.mem_cons.mp hv with rfl | hv
          · exact (hc.unoffered n (State.offers_of_best hb)).elim
          · exact .inl hv
        · exact .inr hv
      · rintro u rest left c - ⟨hc, hv⟩
        refine ⟨hc, ?_⟩
        simp only [List.mem_cons, List.mem_append, List.mem_nil_iff] at hv ⊢
        tauto
      · exact fun c hc ↦ ⟨hc.1, hc.2, .inl hv⟩
      · exact fun _ c hc ↦ ⟨hc.1, hc.2.1, by simpa using hc.2.2⟩
    · refine Triple.strengthen (P := fun c ↦ v ∈ remaining ∧
        Calm (OnState (Orphaned v X P s)) c) (Triple.of_forall fun hv ↦ ?_)
        fun c hc ↦ ⟨hc.2.2, hc.1, hc.2.1⟩
      refine Triple.bind (Triple.strengthen (connectToParents_sends
        (I := OnState (Orphaned v X P s)) (fun c a hc ↦ hc) (fun c hc ↦ hc.localAddr ▸ hP)
        (List.ne_nil_of_mem hv))
        fun c hc ↦ ⟨hc.1, hc.2, hc.2.parent⟩) fun _ ↦ calm_modifyState fun c hc ↦ ?_
      exact ⟨hc.1.congr rfl rfl rfl, by simp [hv], hc.2⟩
  · rintro c ⟨hok, ⟨hc, hroute⟩, rfl⟩
    exact ⟨mem_videosReceiving.mpr hroute, hok, hc⟩

end Queueing

section Chain

variable {s : Node.State} {c : Ctx} {v : VideoId} {U a : SocketAddr} {F Q : FloodPacket}

private theorem mem_broadcastTo {ip : IpAddr} (hip : ip ∈ s.neighbours) (hne : ip.atPort ≠ U) :
    ip.atPort ∈ s.broadcastTo U := by
  simp only [State.broadcastTo, List.mem_filter, List.mem_map, decide_eq_true_eq]
  exact ⟨⟨ip, hip, rfl⟩, hne⟩

/-- The sender of a flood packet that lists the video offers it from then on. -/
theorem offers_of_flood (h : Ran (handlePacket (.nodePacket (.floodPacket F)) U) s c)
    (hid : s.id ∉ F.visitedNodes) (hv : v ∈ F.videosAvailable.map Prod.fst) :
    c.state.Offers U v := by
  obtain ⟨env, view, hok, hr, rfl⟩ := h
  change (finalState (handleFloodPacket U F) (.start env view)).state.Offers U v
  rw [(floodPacket_after _ hok (hr.id.symm ▸ hid)).1, State.drain_eq]
  change ((view.updateVideoNames F.videosAvailable).updateRoute U F env.now).Offers U v
  rw [State.offers_updateRoute, if_pos rfl]
  exact hv

/-- A flood packet is passed on to every neighbour but its sender. -/
theorem flood_sent (h : Ran (handlePacket (.nodePacket (.floodPacket F)) U) s c)
    (hid : s.id ∉ F.visitedNodes) {ip : IpAddr} (hip : ip ∈ s.neighbours) (hne : ip.atPort ≠ U) :
    ∃ Q, (ip.atPort, .nodePacket (.floodPacket Q)) ∈ c.sent := by
  obtain ⟨env, view, hok, hr, rfl⟩ := h
  refine ⟨((view.learn U F env.now).drain U F.videosAvailable).forwarded F ip.atPort, ?_⟩
  change _ ∈ (finalState (handleFloodPacket U F) (.start env view)).sent
  rw [(floodPacket_after _ hok (hr.id.symm ▸ hid)).2]
  refine List.mem_append_right _ (List.mem_map.mpr ⟨ip.atPort, mem_broadcastTo ?_ hne, rfl⟩)
  rw [State.drain_eq]
  exact hr.neighbours.symm ▸ hip

/-- What a node passes on to another node than the sender lists the video that the sender
offers, and adds the node to the visited ones. -/
theorem flood_lists (h : Ran (handlePacket (.nodePacket (.floodPacket F)) U) s c)
    (hid : s.id ∉ F.visitedNodes) (hv : v ∈ F.videosAvailable.map Prod.fst) (hU : U ≠ a)
    (hQ : (a, .nodePacket (.floodPacket Q)) ∈ c.sent) :
    v ∈ Q.videosAvailable.map Prod.fst ∧ Q.visitedNodes = F.visitedNodes ++ [s.id] := by
  have hoffers := offers_of_flood h hid hv
  obtain ⟨env, view, hok, hr, rfl⟩ := h
  change (finalState (handleFloodPacket U F) (.start env view)).state.Offers U v at hoffers
  change _ ∈ (finalState (handleFloodPacket U F) (.start env view)).sent at hQ
  obtain ⟨hstate, hsent⟩ := floodPacket_after U hok (hr.id.symm ▸ hid)
  rw [hstate] at hoffers
  rw [hsent] at hQ
  rcases List.mem_append.mp hQ with hQ | hQ
  · obtain ⟨u, -, hu⟩ := List.mem_map.mp hQ
    simp at hu
  · obtain ⟨addr, -, hQ⟩ := List.mem_map.mp hQ
    cases hQ
    refine ⟨State.mem_getVideos.mpr ⟨?_, U, hU, hoffers⟩, ?_⟩
    · rw [State.drain_eq]
      exact Map.lookup_foldl_insert_isSome.mpr (.inl hv)
    · rw [State.forwarded, State.drain_eq]
      exact congrArg (F.visitedNodes ++ [·]) hr.id

/-- A queued video is asked for at the first node that offers it. -/
theorem flood_drains (h : Ran (handlePacket (.nodePacket (.floodPacket Q)) a) s c)
    (hid : s.id ∉ Q.visitedNodes) (hv : v ∈ Q.videosAvailable.map Prod.fst)
    (hq : v ∈ s.pendingVideoRequests) :
    (a, .serverPacket (.requestVideo v)) ∈ c.sent ∧
    c.state.videoRoutes.lookup v = some a ∧ v ∉ c.state.pendingVideoRequests := by
  obtain ⟨env, view, hok, hr, rfl⟩ := h
  change (a, .serverPacket (.requestVideo v)) ∈
      (finalState (handleFloodPacket a Q) (.start env view)).sent ∧
    (finalState (handleFloodPacket a Q) (.start env view)).state.videoRoutes.lookup v = some a ∧
    v ∉ (finalState (handleFloodPacket a Q) (.start env view)).state.pendingVideoRequests
  obtain ⟨hstate, hsent⟩ := floodPacket_after a hok (hr.id.symm ▸ hid)
  have hlisted : v ∈ view.pendingListed Q.videosAvailable :=
    mem_pendingListed.mpr ⟨hr.pendingVideoRequests.symm ▸ hq, hv⟩
  rw [hstate, hsent]
  refine ⟨List.mem_append_left _ (List.mem_map.mpr ⟨v, hlisted, rfl⟩), ?_, ?_⟩
  · rw [State.drain_route]
    exact if_pos hlisted
  · rw [State.mem_drain_pending]
    exact fun h ↦ h.2 hv

/-- A request for a video on offer leaves the requester subscribed and the video routed. -/
theorem request_routes (h : Ran (handlePacket (.serverPacket (.requestVideo v)) a) s c)
    (hU : s.Offers U v) :
    a ∈ c.state.subscribers v ∧ (c.state.videoRoutes.lookup v).isSome := by
  obtain ⟨env, view, hok, hr, rfl⟩ := h
  change a ∈ (finalState (handleRequestVideo v a) (.start env view)).state.subscribers v ∧
    ((finalState (handleRequestVideo v a) (.start env view)).state.videoRoutes.lookup v).isSome
  rcases handleRequestVideo_cases v a (.start env view) with ⟨hroute, h⟩ | ⟨-, n, -, h⟩ | ⟨-, hb, -⟩
  · simp only [finalState, h]
    exact ⟨mem_subscribe view v a, hroute⟩
  · have hreq : Triple (Calm fun c ↦ c.state = view.subscribe v a) (requestVideoToNode v n)
        (fun _ ↦ Calm fun c ↦ a ∈ c.state.subscribers v ∧ (c.state.videoRoutes.lookup v).isSome)
        fun _ ↦ Calm fun c ↦ a ∈ c.state.subscribers v ∧ (c.state.videoRoutes.lookup v).isSome :=
      calm_requestVideoToNode fun c hc ↦ by simpa [hc] using mem_subscribe view v a
    have hfinal := hreq.finalState (s := (Ctx.start env view).setState (view.subscribe v a))
      ⟨hok, rfl⟩
    rw [finalState, h]
    exact hfinal.2
  · exact (State.best_eq_none_iff.mp hb U ((hr.offers U v).mpr hU)).elim

/-- A node `N` whose only source `X` of a video failed gets the video from a parent `P` that `X`
advertised: it asks `P` to take it as a neighbour, `P` passes the next flood packet on to it,
and `N` asks `P` for the video. `N` is at `ip` and `P` at `a`, and their ids differ. -/
theorem handover {N P : Node.State} {ip : IpAddr} {a : SocketAddr} {c₁ c₂ c₃ : Ctx}
    (hid : N.id ≠ P.id) (ha : a ≠ N.localAddr) {X : SocketAddr}
    (hroute : N.videoRoutes.lookup v = some X) (hnone : ∀ n, ¬ N.Offers n v)
    (hparent : a ∈ N.parentsOf X) (h₁ : Ran (handleUnresponsiveNode X) N c₁)
    (h₂ : Ran (handlePacket (.nodePacket .newNeighbour) ip.atPort) P c₂)
    (hU : U ≠ ip.atPort) (hF : v ∈ F.videosAvailable.map Prod.fst)
    (hN : N.id ∉ F.visitedNodes) (hP : P.id ∉ F.visitedNodes)
    (h₃ : Ran (handlePacket (.nodePacket (.floodPacket F)) U) c₂.state c₃) :
    (a, .nodePacket .newNeighbour) ∈ c₁.sent ∧
    (∃ Q, (ip.atPort, .nodePacket (.floodPacket Q)) ∈ c₃.sent) ∧
    ∀ Q c₄, (ip.atPort, .nodePacket (.floodPacket Q)) ∈ c₃.sent →
      Ran (handlePacket (.nodePacket (.floodPacket Q)) a) c₁.state c₄ →
      (a, .serverPacket (.requestVideo v)) ∈ c₄.sent ∧
      ∀ c₅, Ran (handlePacket (.serverPacket (.requestVideo v)) ip.atPort) c₃.state c₅ →
        c₄.state.videoRoutes.lookup v = some a ∧ v ∉ c₄.state.pendingVideoRequests ∧
        ip.atPort ∈ c₅.state.subscribers v ∧ (c₅.state.videoRoutes.lookup v).isSome := by
  -- `N` queues the video and asks `P`
  have hqueued : c₁.state.id = N.id ∧ v ∈ c₁.state.pendingVideoRequests ∧
      (a, .nodePacket .newNeighbour) ∈ c₁.sent := by
    obtain ⟨env, view, hok, hr, rfl⟩ := h₁
    have horphaned : Orphaned v X a view view := by
      refine ⟨rfl, rfl, fun n hn ↦ hnone n ((hr.offers n v).mp hn), ?_⟩
      rw [State.parentsOf, hr.availableRoute]
      exact hparent
    have hend := (handleUnresponsiveNode_queues (v := v) (X := X) (hr.localAddr ▸ ha)).finalState
      (s := .start env view) ⟨hok, horphaned, (hr.route v).trans hroute⟩
    exact ⟨hend.2.1.id.trans hr.id, hend.2.2⟩
  -- `P` takes `N` as a neighbour
  have htaken : c₂.state.id = P.id ∧ ip ∈ c₂.state.neighbours := by
    obtain ⟨env, view, -, hr, rfl⟩ := h₂
    exact ⟨hr.id, List.mem_append_right _ (List.mem_singleton.mpr rfl)⟩
  have hPF : c₂.state.id ∉ F.visitedNodes := htaken.1 ▸ hP
  refine ⟨hqueued.2.2, flood_sent h₃ hPF htaken.2 hU.symm, fun Q c₄ hQ h₄ ↦ ?_⟩
  -- the flood packet reaches `N`, which drains the queue
  obtain ⟨hlists, hvisited⟩ := flood_lists h₃ hPF hF hU hQ
  have hNQ : c₁.state.id ∉ Q.visitedNodes := by
    rw [hqueued.1, hvisited, htaken.1]
    simp [hN, hid]
  obtain ⟨hrequest, hrouted, hdrained⟩ := flood_drains h₄ hNQ hlists hqueued.2.1
  refine ⟨hrequest, fun c₅ h₅ ↦ ?_⟩
  obtain ⟨hsubscribed, hserved⟩ := request_routes h₅ (offers_of_flood h₃ hPF hF)
  exact ⟨hrouted, hdrained, hsubscribed, hserved⟩

end Chain

/-- A node that will lose its source. -/
def orphanIp : IpAddr := .v4 1

/-- The source it loses. -/
def sourceAddr : SocketAddr := (IpAddr.v4 2).atPort

/-- The parent of the source. -/
def parentAddr : SocketAddr := (IpAddr.v4 3).atPort

/-- A server next to the parent. -/
def serverAddr : SocketAddr := (IpAddr.v4 4).atPort

/-- Run a handler on a state in which every send succeeds. -/
def calmRun (m : Handler Unit) (s : Node.State) : Ctx := finalState m (.start (.calm 0) s)

private theorem ran_calmRun (m : Handler Unit) (s : Node.State) : Ran m s (calmRun m s) :=
  ⟨.calm 0, s, Env.calm_allOk 0, .refl s, rfl⟩

/-- A node that receives video 5 for a client, right after its source was marked. -/
def orphan : Node.State :=
  (simulate (.new 1 [.v4 2] orphanIp.atPort)
    [(.packet (.nodePacket (.floodPacket ⟨0, [(5, "five")], [9, 2], [parentAddr]⟩)) sourceAddr,
        .calm 0),
      (.packet (.nodePacket (.clientPing 0 [5])) ⟨.v4 7, 4000⟩, .calm 0)]).markUnresponsive
    sourceAddr

/-- The parent after it took the node as a neighbour. -/
def parentJoined : Ctx :=
  calmRun (handlePacket (.nodePacket .newNeighbour) orphanIp.atPort) (.new 3 [] parentAddr)

/-- The flood packet of the server that reaches the parent. -/
def serverFlood : FloodPacket := ⟨0, [(5, "five")], [9], []⟩

/-- The parent after it passed a flood packet on. -/
def parentFlooded : Ctx :=
  calmRun (handlePacket (.nodePacket (.floodPacket serverFlood)) serverAddr) parentJoined.state

/-- The node after it handled what the parent passed on. -/
def orphanFlooded : Ctx :=
  calmRun (handlePacket (.nodePacket (.floodPacket
      (parentFlooded.state.forwarded serverFlood orphanIp.atPort))) parentAddr)
    (calmRun (handleUnresponsiveNode sourceAddr) orphan).state

/-- The parent after it handled the request of the node. -/
def parentRequested : Ctx :=
  calmRun (handlePacket (.serverPacket (.requestVideo 5)) orphanIp.atPort) parentFlooded.state

/-- The orphan routes the video over the parent, which has entered it and routes the video itself.
-/
theorem handover_fresh_parent :
    orphanFlooded.state.videoRoutes.lookup 5 = some parentAddr ∧
    5 ∉ orphanFlooded.state.pendingVideoRequests ∧
    orphanIp.atPort ∈ parentRequested.state.subscribers 5 ∧
    (parentRequested.state.videoRoutes.lookup 5).isSome := by
  have hnone : orphan.getBestNodeToRedirect 5 = none := by decide
  have hjoined : Ran (handlePacket (.nodePacket .newNeighbour) orphanIp.atPort)
      (.new 3 [] parentAddr) parentJoined := ran_calmRun _ _
  obtain ⟨-, -, hrest⟩ := handover (N := orphan) (a := parentAddr) (v := 5) (U := serverAddr)
    (F := serverFlood) (by decide) (by decide) (X := sourceAddr) (by decide)
    (State.best_eq_none_iff.mp hnone) (by decide) (ran_calmRun _ _) hjoined (by decide) (by decide)
    (by decide) (by decide) (ran_calmRun _ _)
  obtain ⟨-, hserved⟩ := hrest (parentFlooded.state.forwarded serverFlood orphanIp.atPort)
    orphanFlooded (by decide) (ran_calmRun _ _)
  exact hserved parentRequested (ran_calmRun _ _)

end PessiStreamer.System
