import PessiStreamer.Node.Locks

/-!
# Which routines wait for themselves

Every routine of a node does with its guards what it does without them, except a ping that has
to stop a video: it asks for the guard of the very entry it visits.
-/

namespace PessiStreamer.Node
open Base Common

/-- No guard of the list is on one of the tables. -/
def Avoids (held : List (Guard Shard)) (ts : List Table) : Prop :=
  ∀ g ∈ held, g.resource.table ∉ ts

namespace Avoids

variable {held : List (Guard Shard)} {ts us : List Table} {g : Guard Shard}

private theorem nil (ts : List Table) : Avoids [] ts := by simp [Avoids]

private theorem mono (h : Avoids held ts) (hsub : us ⊆ ts) : Avoids held us :=
  fun g hg hmem ↦ h g hg (hsub hmem)

private theorem cons (h : Avoids held ts) (hg : g.resource.table ∉ ts) : Avoids (g :: held) ts := by
  intro k hk
  rcases List.mem_cons.mp hk with rfl | hk
  · exact hg
  · exact h k hk

/-- A guard on one of these tables is free to take. -/
theorem free (h : Avoids held ts) (hg : g.resource.table ∈ ts) :
    ∀ k ∈ held, ¬ g.Conflicts k := by
  rintro k hk ⟨heq, -⟩
  rw [heq] at hg
  exact h k hk hg

end Avoids

section Implements
open Guarded Locking

variable {held : List (Guard Shard)} {ts : List Table} {g : Guard Shard} {α : Type}
  (sh : Sharding)

private theorem access_implements (h : Avoids held ts) (hg : g.resource.table ∈ ts)
    (m : Handler α) : Implements held (access g m) m :=
  (Implements.lift m).holding (h.free hg)

private theorem touch_implements (h : Avoids held ts) (hg : g.resource.table ∈ ts) :
    Implements held (touch g) (pure ()) := access_implements h hg (pure ())

/-- A loop that only visits the entries of a table. -/
theorem visit_implements {β : Type} {guard : β → Guard Shard} (h : Avoids held ts)
    (hg : ∀ x, (guard x).resource.table ∈ ts) (xs : List β) :
    Implements held (iterate guard xs fun _ ↦ pure () : Locking PUnit) (pure ()) :=
  Implements.forM_pure fun x ↦ (Implements.pure ()).holding (h.free (hg x))

private theorem send_implements (h : Avoids held [.pendingPackets]) (p : Packet) (a : SocketAddr) :
    Implements held (sh.send p a) (send p a) := by
  intro c
  have htouch := touch_implements (g := .write ⟨.pendingPackets, sh.packet c.attempts⟩) h
    (by simp)
  apply ((Implements.lift (send p a)).bind fun _ ↦ htouch) c |>.trans
  rcases send_cases p a c with hs | ⟨e, -, hs⟩
  · rw [Base.bind_apply, hs]
    rfl
  · rw [Base.bind_apply, hs]

private theorem requestVideoToNode_implements (h : Avoids held [.pendingPackets, .videoRoutes])
    (v : VideoId) (n : SocketAddr) :
    Implements held (sh.requestVideoToNode v n) (requestVideoToNode v n) :=
  (send_implements sh (h.mono (by decide)) _ n).bind fun _ ↦ access_implements h (by simp) _

/-- Counting reads the routes of the videos; the guards on the nodes ranked before are read
guards. -/
theorem rank_implements (h : Avoids held [.videoRoutes])
    (hread : ∀ g ∈ held, g.resource.table = .availableRoutes → g.mode = .read)
    (es : List (Sigma fun _ : SocketAddr ↦ RouteInfo)) :
    Implements held (sh.rank es) (pure ()) := by
  induction es generalizing held with
  | nil => exact .pure ()
  | cons e es ih =>
    apply Implements.holding
    · rintro g hg ⟨heq, hw | hw⟩
      · cases hw
      · rw [hread g hg (congrArg Shard.table heq).symm] at hw
        cases hw
    · have h' : Avoids (sh.readAddr .availableRoutes e.1 :: held) [.videoRoutes] :=
        h.cons (by simp)
      apply Implements.andThen
      · intro c
        exact visit_implements h' (fun _ ↦ List.mem_singleton.mpr rfl) _ c
      · apply ih h'
        intro g hg ht
        rcases List.mem_cons.mp hg with rfl | hg
        · rfl
        · exact hread g hg ht

/-- Holding the guards, `q` answers a question about the state. -/
def Queries {β : Type} (held : List (Guard Shard)) (q : Locking β) (f : State → β) : Prop :=
  Implements held q (getState >>= fun s ↦ pure (f s))

private theorem Queries.bind_apply {β : Type} {q : Locking β} {f : State → β} (h : Queries held q f)
    (k : β → Locking α) (c : Ctx) : (q >>= k) held c = k (f c.state) held c := by
  rw [Guarded.bind_apply, h c]
  rfl

private theorem access_getState_queries (h : Avoids held ts) (hg : g.resource.table ∈ ts) :
    Queries held (access g getState) fun s ↦ s :=
  access_implements h hg getState

private theorem getBestNodeToRedirect_queries (h : Avoids held [.availableRoutes, .videoRoutes])
    (v : VideoId) : Queries held (sh.getBestNodeToRedirect v) (·.getBestNodeToRedirect v) := by
  apply (Implements.lift getState).bind
  intro s
  apply Implements.andThen
  · exact visit_implements h (fun _ ↦ List.mem_cons_self) _
  apply Implements.andThen
  · apply rank_implements sh (h.mono (by decide))
    intro g hg ht
    exact absurd (ht ▸ List.mem_cons_self) (h g hg)
  · exact .pure _

private theorem getVideos_queries (h : Avoids held [.videoNames, .availableRoutes])
    (a : SocketAddr) : Queries held (sh.getVideos a) (·.getVideos a) := by
  apply (Implements.lift getState).bind
  intro s
  apply Implements.andThen
  · apply Implements.forM_pure
    intro e
    apply Implements.holding
    · exact h.free (by simp)
    · have h' : Avoids (sh.readVideo .videoNames e.1 :: held) [.availableRoutes] :=
        (h.mono (by decide)).cons (by simp)
      exact visit_implements h' (fun _ ↦ List.mem_cons_self) _
  · exact .pure _

private theorem getParents_queries (h : Avoids held [.availableRoutes]) :
    Queries held sh.getParents State.getParents :=
  (Implements.lift getState).bind fun _ ↦
    (visit_implements h (fun _ ↦ List.mem_cons_self) _).andThen (.pure _)

private theorem handleRequestVideo_implements
    (h : Avoids held [.interested, .videoRoutes, .availableRoutes, .pendingPackets,
      .pendingVideoRequests]) (v : VideoId) (a : SocketAddr) :
    Implements held (sh.handleRequestVideo v a) (handleRequestVideo v a) := by
  apply Implements.holding
  · exact h.free (by simp)
  have h' : Avoids (sh.writeVideo .interested v :: held)
      [.videoRoutes, .availableRoutes, .pendingPackets, .pendingVideoRequests] :=
    (h.mono (by decide)).cons (by simp)
  apply (Implements.lift _).bind
  intro _ c
  apply ((access_getState_queries h' (by simp)).bind_apply _ c).trans
  by_cases hr : (c.state.videoRoutes.lookup v).isSome
  · rw [if_pos hr]
    simp only [Base.bind_apply, getState_apply, if_pos hr]
    rfl
  · rw [if_neg hr]
    simp only [Base.bind_apply, getState_apply, if_neg hr]
    apply ((getBestNodeToRedirect_queries sh (h'.mono (by decide)) v).bind_apply _ c).trans
    cases c.state.getBestNodeToRedirect v with
    | some n => exact requestVideoToNode_implements sh (h'.mono (by decide)) v n c
    | none => exact access_implements h' (by simp) _ c

private theorem handleStopVideo_implements
    (h : Avoids held [.interested, .videoRoutes, .pendingPackets]) (v : VideoId)
    (a : SocketAddr) : Implements held (sh.handleStopVideo v a) (handleStopVideo v a) := by
  apply (access_implements h (by simp) _).bind
  intro _
  apply (access_implements h (by simp) getState).bind
  intro s
  apply Implements.ite
  · intro _
    apply (touch_implements h (by simp)).andThen
    cases s.videoRoutes.lookup v with
    | some n =>
      apply (Implements.lift _).bind
      exact fun _ ↦ send_implements sh (h.mono (by decide)) _ n
    | none => exact .pure ()
  · exact fun _ ↦ .pure ()

private theorem checkPendingVideos_implements
    (h : Avoids held [.pendingVideoRequests, .videoRoutes, .pendingPackets]) (a : SocketAddr)
    (videos : List (VideoId × String)) :
    Implements held (sh.checkPendingVideos a videos) (checkPendingVideos a videos) := by
  apply (access_implements h (by simp) getState).bind
  intro s
  apply Implements.bind
  · apply Implements.forM
    exact fun v ↦ (requestVideoToNode_implements sh (h.mono (by decide)) v a).attempt
  · exact fun _ ↦ access_implements h (by simp) _

private theorem handleFloodPacket_implements (a : SocketAddr) (p : FloodPacket) :
    Implements [] (sh.handleFloodPacket a p) (handleFloodPacket a p) := by
  apply (Implements.lift getState).bind
  intro s
  apply Implements.ite
  · exact fun _ ↦ .pure ()
  intro _
  apply (Implements.lift now).bind
  intro t
  apply (visit_implements (.nil [.videoNames]) (by simp) _).andThen
  apply (Implements.lift _).bind
  intro _
  apply (access_implements (.nil [.availableRoutes]) (by simp) _).bind
  intro _
  apply (checkPendingVideos_implements sh (.nil _) a _).bind
  intro _
  apply (access_implements (.nil [.neighbours]) (by simp) getState).bind
  intro s
  apply Implements.forM
  intro b
  apply Implements.attempt
  intro c
  apply ((getParents_queries sh (.nil _)).bind_apply _ c).trans
  apply ((getVideos_queries sh (.nil _) b).bind_apply _ c).trans
  exact send_implements sh (.nil _) _ b c

private theorem redirectVideos_implements (vs : List VideoId) :
    Implements [] (sh.redirectVideos vs) (redirectVideos vs) := by
  induction vs with
  | nil => exact .pure []
  | cons v vs ih =>
    intro c
    apply ((getBestNodeToRedirect_queries sh (.nil _) v).bind_apply _ c).trans
    unfold redirectVideos
    simp only [Base.bind_apply, getState_apply]
    cases c.state.getBestNodeToRedirect v with
    | some n =>
      exact ((requestVideoToNode_implements sh (.nil _) v n).attempt.bind fun _ ↦ ih) c
    | none => exact (ih.bind fun _ ↦ .pure _) c

private theorem connectToParents_implements (a : SocketAddr) (vs : List VideoId) :
    Implements [] (sh.connectToParents a vs) (connectToParents a vs) := by
  apply (access_implements (.nil [.availableRoutes]) (by simp) getState).bind
  intro s
  apply Implements.ite
  · exact fun _ ↦ .pure ()
  · intro _
    apply Implements.forM
    intro parent
    apply Implements.ite
    · exact fun _ ↦ .pure ()
    · exact fun _ ↦ (send_implements sh (.nil _) _ parent).attempt

private theorem handleUnresponsiveNode_implements (a : SocketAddr) :
    Implements [] (sh.handleUnresponsiveNode a) (handleUnresponsiveNode a) := by
  apply (Implements.lift getState).bind
  intro s
  apply (visit_implements (.nil [.videoRoutes]) (by simp) _).andThen
  apply (visit_implements (.nil [.interested]) (by simp) _).andThen
  apply Implements.bind
  · exact Implements.forM fun v ↦ (handleStopVideo_implements sh (.nil _) v a).attempt
  intro _
  apply (redirectVideos_implements sh _).bind
  intro remaining
  apply (connectToParents_implements sh a remaining).bind
  exact fun _ ↦ access_implements (.nil [.pendingVideoRequests]) (by simp) _

/-- Marking a node and giving it up. -/
theorem giveUp_implements (a : SocketAddr) :
    Implements [] (do
        access (sh.writeAddr .availableRoutes a) (modifyState fun s ↦ s.markUnresponsive a)
        sh.handleUnresponsiveNode a)
      (do
        modifyState fun s ↦ s.markUnresponsive a
        handleUnresponsiveNode a) :=
  (access_implements (.nil [.availableRoutes]) (by simp) _).bind fun _ ↦
    handleUnresponsiveNode_implements sh a

private theorem handleSendFloodPacketResult_implements (a : SocketAddr)
    (result : Except ReliableUdpSocketError (Except RecvError ReliablePacketResult)) :
    Implements [] (sh.handleSendFloodPacketResult a result)
      (handleSendFloodPacketResult a result) := by
  apply (Implements.lift getState).bind
  intro s
  by_cases hr : floodUnreached result
  · simp only [hr, if_true, true_and]
    apply Implements.ite
    · exact fun _ ↦ giveUp_implements sh a
    · exact fun _ ↦ touch_implements (.nil [.availableRoutes]) (by simp)
  · simp only [hr]
    exact .pure ()

private theorem handleVideoPacket_implements (p : VideoPacket) :
    Implements [] (sh.handleVideoPacket p) (handleVideoPacket p) := by
  apply (access_implements (.nil [.lastVideoSequenceNumber]) (by simp) getState).bind
  intro s
  apply (Implements.lift now).bind
  intro t
  apply (access_implements (.nil [.lastVideoPacketTime]) (by simp) _).bind
  intro _
  apply Implements.ite
  · exact fun _ ↦ .pure ()
  · intro _
    apply Implements.holding
    · exact (Avoids.nil [.interested]).free (by simp)
    · cases s.interested.lookup p.streamId with
      | some subscribers => exact .lift _
      | none => exact .pure ()

private theorem neighbourUnresponsive_implements (a : SocketAddr) :
    Implements [] (sh.neighbourUnresponsive a) (neighbourUnresponsive a) := by
  apply (Implements.lift getState).bind
  intro s
  apply Implements.ite
  · exact fun _ ↦ giveUp_implements sh a
  · exact fun _ ↦ access_implements (.nil [.availableRoutes]) (by simp) _

private theorem checkNeighbours_implements : Implements [] sh.checkNeighbours checkNeighbours := by
  apply (Implements.lift getState).bind
  intro s
  apply (Implements.lift now).bind
  intro t
  apply (visit_implements (.nil [.availableRoutes]) (by simp) _).andThen
  exact Implements.forM fun a ↦ neighbourUnresponsive_implements sh a

private theorem clientHealthCheck_implements :
    Implements [] sh.clientHealthCheck clientHealthCheck := by
  apply (Implements.lift getState).bind
  intro s
  apply (Implements.lift now).bind
  intro t
  apply Implements.forM
  intro ping
  apply Implements.holding
  · exact (Avoids.nil [.lastPings]).free (by simp)
  have h : Avoids [sh.readAddr .lastPings ping.1] [.interested, .videoRoutes, .pendingPackets] :=
    (Avoids.nil _).cons (by simp)
  apply (Implements.lift getState).bind
  intro u
  apply Implements.ite
  · intro _
    apply (visit_implements h (by simp) _).andThen
    exact Implements.forM fun v ↦ (handleStopVideo_implements sh h v ping.1).attempt
  · exact fun _ ↦ .pure ()

private theorem videoHealthCheck_implements :
    Implements [] sh.videoHealthCheck videoHealthCheck := by
  apply (Implements.lift getState).bind
  intro s
  apply (Implements.lift now).bind
  intro t
  apply Implements.forM
  intro packet
  apply Implements.holding
  · exact (Avoids.nil [.lastVideoPacketTime]).free (by simp)
  have h : Avoids [sh.readVideo .lastVideoPacketTime packet.1] [.pendingPackets, .videoRoutes] :=
    (Avoids.nil _).cons (by simp)
  apply (Implements.lift getState).bind
  intro u
  apply Implements.ite
  · intro _
    apply (touch_implements h (by simp)).andThen
    cases u.videoRoutes.lookup packet.1 with
    | some n => exact requestVideoToNode_implements sh h packet.1 n
    | none => exact .pure ()
  · exact fun _ ↦ .pure ()

private theorem requestMissing_implements (a : SocketAddr) (v : VideoId) :
    Implements [] (sh.requestMissing a v) (requestMissing a v) := by
  apply (access_implements (.nil [.videoRoutes]) (by simp) getState).bind
  intro s
  apply Implements.ite
  · exact fun _ ↦ .pure ()
  · exact fun _ ↦ handleRequestVideo_implements sh (.nil _) v a

end Implements

section Ping
open Guarded Locking

variable (sh : Sharding) {requested : List VideoId} {a : SocketAddr}

/-- A turn of the second loop of a ping that has to stop a video waits for the guard of the very
entry it visits. -/
theorem stopUnrequested_turn (video : Sigma fun _ : VideoId ↦ List SocketAddr) (c : Ctx) :
    holding (sh.readVideo .interested video.1) (sh.stopUnrequested requested a video) [] c =
      if video.1 ∉ requested ∧ a ∈ video.2 then none else some (.ok () c) := by
  have hfree : ¬ ∃ h ∈ ([] : List (Guard Shard)),
      (sh.readVideo .interested video.1).Conflicts h := by simp
  rw [holding, if_neg hfree, Sharding.stopUnrequested]
  split
  · have hc : (sh.writeVideo .interested video.1).Conflicts (sh.readVideo .interested video.1) :=
      ⟨rfl, .inl rfl⟩
    have hblock : access (sh.writeVideo .interested video.1)
        (modifyState fun s ↦ s.unsubscribe video.1 a) [sh.readVideo .interested video.1] c =
          none :=
      holding_of_conflict List.mem_cons_self hc c
    rw [Sharding.handleStopVideo, Guarded.bind_apply, hblock]
    rfl
  · rfl

/-- The second loop of a ping waits for itself if the client has to leave a video, and else does
nothing. -/
theorem stopLoop_apply (c : Ctx) :
    iterate (fun video ↦ sh.readVideo .interested video.1) c.state.interested.entries
        (sh.stopUnrequested requested a) [] c =
      if ∃ video ∈ c.state.interested.entries, video.1 ∉ requested ∧ a ∈ video.2 then none
      else some (.ok () c) :=
  Guarded.forM_eq_ite fun video ↦ stopUnrequested_turn sh video c

/-- The entries the loop would have to stop, by their videos. -/
theorem exists_unrequested_iff {s : State} :
    (∃ video ∈ s.interested.entries, video.1 ∉ requested ∧ a ∈ video.2) ↔
      ∃ v, v ∉ requested ∧ a ∈ s.subscribers v := by
  constructor
  · rintro ⟨video, hmem, hv, ha⟩
    exact ⟨video.1, hv, (subscribers_of_mem_entries hmem) ▸ ha⟩
  · rintro ⟨v, hv, ha⟩
    exact ⟨_, mem_entries_of_subscriber ha, hv, ha⟩

/-- A ping up to its first loop, and what the guarded one does after it. -/
theorem handleClientPing_apply (n : UInt64) (c : Ctx) :
    sh.handleClientPing n requested a [] c =
      match requested.forM (requestMissing a) (c.setState (c.state.recordPing a c.env.now)) with
      | .ok _ d =>
        if ∃ video ∈ d.state.interested.entries, video.1 ∉ requested ∧ a ∈ video.2 then
          none
        else
          some (send (pingAnswer n (c.state.getVideos a) c.env.now) a d)
      | .error e d => some (.error e d) := by
  have hloop : Implements [] (requested.forM (sh.requestMissing a))
      (requested.forM (requestMissing a)) :=
    Implements.forM fun v ↦ requestMissing_implements sh a v
  have hping : Implements [] (access (sh.writeAddr .lastPings a)
      (modifyState fun s ↦ s.recordPing a c.env.now))
      (modifyState fun s ↦ s.recordPing a c.env.now) :=
    access_implements (.nil [.lastPings]) (by simp) _
  apply ((getVideos_queries sh (.nil _) a).bind_apply _ c).trans
  apply ((Implements.lift now).bind_apply _ c).trans
  apply (hping.bind_apply _ c).trans
  apply (hloop.bind_apply _ _).trans
  cases requested.forM (requestMissing a) (c.setState (c.state.recordPing a c.env.now)) with
  | error e d => rfl
  | ok u d =>
    apply ((Implements.lift getState).bind_apply _ d).trans
    simp only [getState_apply]
    rw [Guarded.bind_apply, stopLoop_apply]
    split
    · rfl
    · exact send_implements sh (.nil _) _ a d

/-- The requests of a ping can all be sent, and its sender has a video that it leaves out. -/
def MustStop (c : Ctx) (requested : List VideoId) (a : SocketAddr) : Prop :=
  (∀ i < (c.state.askedFor requested).card, c.env.sendResult (c.attempts + i) = .ok ()) ∧
    ∃ v, v ∉ requested ∧ a ∈ c.state.subscribers v

/-- A ping that has to stop a video waits for itself; any other does what it does without
guards. -/
theorem handleClientPing_locks (n : UInt64) (c : Ctx) :
    (MustStop c requested a → sh.handleClientPing n requested a [] c = none) ∧
    (¬ MustStop c requested a →
      sh.handleClientPing n requested a [] c = some (handleClientPing n requested a c)) := by
  have hsends : (∃ d, requested.forM (requestMissing a)
        (c.setState (c.state.recordPing a c.env.now)) = .ok () d) ↔
      ∀ i < (c.state.askedFor requested).card, c.env.sendResult (c.attempts + i) = .ok () :=
    requestLoop_ok_iff a requested _
  have hreq := requestLoop_rule (c.state.recordPing a c.env.now) a requested
    (c.setState (c.state.recordPing a c.env.now)) rfl
  rw [handleClientPing_apply, handleClientPing_eq]
  simp only [Base.bind_apply, getState_apply, now_apply, modifyState_apply]
  cases hloop : requested.forM (requestMissing a)
      (c.setState (c.state.recordPing a c.env.now)) with
  | error e d =>
    -- a request failed, and the ping ends there
    rw [hloop] at hsends
    constructor
    · intro hmust
      obtain ⟨d', hd'⟩ := hsends.mpr hmust.1
      cases hd'
    · exact fun _ ↦ rfl
  | ok u d =>
    rw [hloop] at hsends hreq
    -- the loop has entered the client for requested videos only
    have hsame (v : VideoId) (hv : v ∉ requested) :
        a ∈ d.state.subscribers v ↔ a ∈ c.state.subscribers v := by
      rw [hreq.subscribed v]
      simp [hv]
      exact .rfl
    have hmust : MustStop c requested a ↔
        ∃ video ∈ d.state.interested.entries, video.1 ∉ requested ∧ a ∈ video.2 := by
      rw [exists_unrequested_iff, MustStop, and_iff_right (hsends.mp ⟨d, rfl⟩)]
      exact exists_congr fun v ↦ and_congr_right fun hv ↦ (hsame v hv).symm
    constructor
    · exact fun h ↦ if_pos (hmust.mp h)
    · intro h
      rw [hmust] at h
      have hpass : d.state.interested.entries.forM (stopUnrequested requested a) d = .ok () d := by
        apply forM_eq_ok
        intro video hvideo
        rw [stopUnrequested, if_neg fun hv ↦ h ⟨video, hvideo, hv⟩]
        rfl
      apply (if_neg h).trans
      simp only [hpass]

end Ping

/-- The routines that a packet or a task of a node starts, with their inputs. -/
inductive Routine where
  | clientPing (sequenceNumber : UInt64) (requestedVideos : List VideoId) (addr : SocketAddr)
  | requestVideo (videoId : VideoId) (addr : SocketAddr)
  | stopVideo (videoId : VideoId) (addr : SocketAddr)
  | floodPacket (fromAddr : SocketAddr) (floodPacket : FloodPacket)
  | videoPacket (packet : VideoPacket)
  | unresponsiveNode (addr : SocketAddr)
  | checkPendingVideos (fromAddr : SocketAddr) (receivedVideoList : List (VideoId × String))
  | floodPacketResult (target : SocketAddr)
      (result : Except ReliableUdpSocketError (Except RecvError ReliablePacketResult))
  | checkNeighbours
  | clientHealthCheck
  | videoHealthCheck

namespace Routine

/-- The routine without its guards. -/
def handler : Routine → Handler Unit
  | .clientPing n requestedVideos addr => handleClientPing n requestedVideos addr
  | .requestVideo videoId addr => handleRequestVideo videoId addr
  | .stopVideo videoId addr => handleStopVideo videoId addr
  | .floodPacket fromAddr p => handleFloodPacket fromAddr p
  | .videoPacket packet => handleVideoPacket packet
  | .unresponsiveNode addr => handleUnresponsiveNode addr
  | .checkPendingVideos fromAddr videos => Node.checkPendingVideos fromAddr videos
  | .floodPacketResult target result => handleSendFloodPacketResult target result
  | .checkNeighbours => Node.checkNeighbours
  | .clientHealthCheck => Node.clientHealthCheck
  | .videoHealthCheck => Node.videoHealthCheck

/-- The routine with its guards. -/
def locking (sh : Sharding) : Routine → Locking Unit
  | .clientPing n requestedVideos addr => sh.handleClientPing n requestedVideos addr
  | .requestVideo videoId addr => sh.handleRequestVideo videoId addr
  | .stopVideo videoId addr => sh.handleStopVideo videoId addr
  | .floodPacket fromAddr p => sh.handleFloodPacket fromAddr p
  | .videoPacket packet => sh.handleVideoPacket packet
  | .unresponsiveNode addr => sh.handleUnresponsiveNode addr
  | .checkPendingVideos fromAddr videos => sh.checkPendingVideos fromAddr videos
  | .floodPacketResult target result => sh.handleSendFloodPacketResult target result
  | .checkNeighbours => sh.checkNeighbours
  | .clientHealthCheck => sh.clientHealthCheck
  | .videoHealthCheck => sh.videoHealthCheck

/-- How the routine ends when nothing else runs; `none` where it waits for itself. -/
def outcome (r : Routine) (sh : Sharding) (env : Env) (s : State) :
    Option (EStateM.Result HandlerError Ctx Unit) :=
  r.locking sh [] (.start env s)

/-- It is a ping that has to stop a video. -/
def HasToStop (r : Routine) (env : Env) (s : State) : Prop :=
  match r with
  | .clientPing _ requestedVideos addr => MustStop (.start env s) requestedVideos addr
  | _ => False

/-- Every routine but the ping does what it does without guards. -/
theorem locking_implements (sh : Sharding) {r : Routine}
    (h : ∀ n requestedVideos addr, r ≠ .clientPing n requestedVideos addr) :
    Guarded.Implements [] (r.locking sh) r.handler := by
  cases r with
  | clientPing n requestedVideos addr => exact absurd rfl (h n requestedVideos addr)
  | requestVideo v a => exact handleRequestVideo_implements sh (.nil _) v a
  | stopVideo v a => exact handleStopVideo_implements sh (.nil _) v a
  | floodPacket a p => exact handleFloodPacket_implements sh a p
  | videoPacket p => exact handleVideoPacket_implements sh p
  | unresponsiveNode a => exact handleUnresponsiveNode_implements sh a
  | checkPendingVideos a videos => exact checkPendingVideos_implements sh (.nil _) a videos
  | floodPacketResult a result => exact handleSendFloodPacketResult_implements sh a result
  | checkNeighbours => exact checkNeighbours_implements sh
  | clientHealthCheck => exact clientHealthCheck_implements sh
  | videoHealthCheck => exact videoHealthCheck_implements sh

end Routine

/-- A routine finishes if and only if it is no ping that has to stop a video, and then its guards
change nothing. -/
theorem routine_finishes_iff (r : Routine) (sh : Sharding) (env : Env) (s : State) :
    (r.outcome sh env s ≠ none ↔ ¬ r.HasToStop env s) ∧
    (r.outcome sh env s ≠ none → r.outcome sh env s = some (r.handler (.start env s))) := by
  by_cases hping : ∃ n requestedVideos addr, r = .clientPing n requestedVideos addr
  · obtain ⟨n, requestedVideos, addr, rfl⟩ := hping
    by_cases hmust : MustStop (.start env s) requestedVideos addr
    · have hnone : (Routine.clientPing n requestedVideos addr).outcome sh env s = none :=
        (handleClientPing_locks sh n _).1 hmust
      exact ⟨⟨fun h ↦ absurd hnone h, fun h ↦ absurd hmust h⟩, fun h ↦ absurd hnone h⟩
    · have hsome : (Routine.clientPing n requestedVideos addr).outcome sh env s =
          some (handleClientPing n requestedVideos addr (.start env s)) :=
        (handleClientPing_locks sh n _).2 hmust
      rw [hsome]
      exact ⟨⟨fun _ ↦ hmust, fun _ ↦ Option.some_ne_none _⟩, fun _ ↦ rfl⟩
  · have himp := Routine.locking_implements sh (r := r) fun n requestedVideos addr h ↦
      hping ⟨n, requestedVideos, addr, h⟩
    have hsome : r.outcome sh env s = some (r.handler (.start env s)) := himp _
    have hmust : ¬ r.HasToStop env s := by
      cases r with
      | clientPing n requestedVideos addr => exact absurd ⟨n, requestedVideos, addr, rfl⟩ hping
      | _ => exact id
    rw [hsome]
    exact ⟨⟨fun _ ↦ hmust, fun _ ↦ Option.some_ne_none _⟩, fun _ ↦ rfl⟩

/-- The next ping of a client that gives up its only video never returns. -/
theorem clientPing_waits_for_itself :
    ∃ s, Reachable 1 [] (IpAddr.v4 1).atPort s ∧ ∀ sh : Sharding,
      (Routine.clientPing 1 [] (IpAddr.v4 3).atPort).outcome sh (.calm 1) s = none := by
  apply Exists.intro watchedByOne
  constructor
  · exact reachable_simulate 1 [] _ (by simp [Env.calm_allOk])
  · intro sh
    apply (handleClientPing_locks sh 1 _).1
    constructor
    · exact fun _ _ ↦ rfl
    · exact ⟨5, by decide, by decide⟩

end PessiStreamer.Node
