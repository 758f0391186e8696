import PessiStreamer.Client.Handle

/-!
# Where the videos of a client come from

Over all runs of a client a playing video has a connected node as its source, or waits for a
node while no connected one lists it. A sweep redirects its videos one after the other, so in
the midst of it the invariant holds for all videos but those still to come.
-/

namespace PessiStreamer.Client
open Base Common

/-- The invariant for all playing videos that are not among `todo`. -/
structure SourcedExcept (todo : List VideoId) (s : State) : Prop where
  connected : ∀ v ∉ todo, ∀ p n, s.playingVideos.lookup v = some p → p.source = some n →
    s.IsConnected n
  unoffered : ∀ v ∉ todo, ∀ p, s.playingVideos.lookup v = some p → p.source = none →
    ∀ n, ¬ s.Offers n v

/-- Every playing video comes from a connected node or is listed by none. -/
abbrev Sourced (s : State) : Prop := SourcedExcept [] s

/-- Each of the videos is playing. -/
def Playing (todo : List VideoId) (s : State) : Prop :=
  ∀ v ∈ todo, (s.playingVideos.lookup v).isSome

namespace SourcedExcept

variable {todo : List VideoId} {s t : State} {v : VideoId} {a : SocketAddr}

/-- The invariant is about the nodes and the sources of the playing videos. -/
theorem congr (h : SourcedExcept todo s) (hnodes : ∀ n, t.nodes.lookup n = s.nodes.lookup n)
    (hplaying : ∀ v p, t.playingVideos.lookup v = some p →
      ∃ p', s.playingVideos.lookup v = some p' ∧ p'.source = p.source) :
    SourcedExcept todo t where
  connected := by
    intro v hv p n hp hsource
    obtain ⟨p', hp', hsame⟩ := hplaying v p hp
    simp only [State.IsConnected, hnodes]
    exact h.connected v hv p' n hp' (hsame.trans hsource)
  unoffered := by
    intro v hv p hp hsource
    obtain ⟨p', hp', hsame⟩ := hplaying v p hp
    simp only [State.Offers, hnodes]
    exact h.unoffered v hv p' hp' (hsame.trans hsource)

/-- A video whose source is selected anew meets the invariant. -/
theorem setSource (h : SourcedExcept (v :: todo) s) :
    SourcedExcept todo (s.setSource v (s.selectBestNode v)) where
  connected := by
    intro u hu p n hp hsource
    simp only [State.setSource, Map.lookup_modify] at hp
    by_cases huv : u = v
    · rw [if_pos huv] at hp
      obtain ⟨p', -, rfl⟩ := Option.map_eq_some_iff.mp hp
      exact (State.offers_of_selectBestNode hsource).isConnected
    · rw [if_neg huv] at hp
      exact h.connected u (by simp [huv, hu]) p n hp hsource
  unoffered := by
    intro u hu p hp hsource
    simp only [State.setSource, Map.lookup_modify] at hp
    by_cases huv : u = v
    · rw [if_pos huv] at hp
      obtain ⟨p', -, rfl⟩ := Option.map_eq_some_iff.mp hp
      subst huv
      exact (State.selectBestNode_eq_none_iff (s := s)).mp hsource
    · rw [if_neg huv] at hp
      exact h.unoffered u (by simp [huv, hu]) p hp hsource

/-- A video that starts with a selected source meets the invariant. -/
theorem startPlaying (h : Sourced s) : Sourced (s.startPlaying (s.selectBestNode v) v) where
  connected := by
    intro u _ p n hp hsource
    simp only [State.startPlaying, Map.lookup_insert_ite] at hp
    split at hp
    · cases hp
      exact (State.offers_of_selectBestNode hsource).isConnected
    · exact h.connected u (by simp) p n hp hsource
  unoffered := by
    intro u _ p hp hsource
    simp only [State.startPlaying, Map.lookup_insert_ite] at hp
    split at hp
    · next huv =>
      cases hp
      subst huv
      exact (State.selectBestNode_eq_none_iff (s := s)).mp hsource
    · exact h.unoffered u (by simp) p hp hsource

private theorem stopPlaying (h : Sourced s) (v : VideoId) : Sourced (s.stopPlaying v) := by
  apply h.congr
  · exact fun n ↦ rfl
  · intro u p hp
    exact ⟨p, Map.lookup_of_erase hp, rfl⟩

private theorem recordVideoPacket (h : Sourced s) (packet : VideoPacket) :
    Sourced (s.recordVideoPacket packet) := by
  apply h.congr
  · exact fun n ↦ rfl
  · intro u p hp
    simp only [State.recordVideoPacket, Map.lookup_modify] at hp
    split at hp
    · next hu =>
      obtain ⟨p', hp', rfl⟩ := Option.map_eq_some_iff.mp hp
      exact ⟨p', hu ▸ hp', rfl⟩
    · exact ⟨p, hp, rfl⟩

/-- A node marked unresponsive leaves the videos it is the source of to be redirected. -/
theorem markUnresponsive (h : Sourced s) (a : SocketAddr) :
    SourcedExcept ((s.markUnresponsive a).getVideosPlayingFromNode a) (s.markUnresponsive a) where
  connected := by
    intro v hv p n hp hsource
    have hna : n ≠ a := by
      rintro rfl
      exact hv (State.mem_getVideosPlayingFromNode.mpr ⟨p, hp, hsource⟩)
    obtain ⟨node, hn, hs⟩ := h.connected v (by simp) p n hp hsource
    refine ⟨node, ?_, hs⟩
    simpa [State.markUnresponsive, hna] using hn
  unoffered := by
    rintro v - p hp hsource n ⟨node, hn, hs, hv⟩
    simp only [State.markUnresponsive, Map.lookup_modify] at hn
    split at hn
    · obtain ⟨node', -, rfl⟩ := Option.map_eq_some_iff.mp hn
      cases hs
    · exact h.unoffered v (by simp) p hp hsource n ⟨node, hn, hs, hv⟩

/-- The answer of a node leaves the waiting videos it lists to be redirected. -/
theorem answered {rtt : Duration} {videos : List VideoId} {now : SystemTime} (h : Sourced s)
    (a : SocketAddr) : SourcedExcept ((s.answered a rtt videos now).pendingVideos videos)
      (s.answered a rtt videos now) where
  connected := by
    intro v _ p n hp hsource
    obtain ⟨node, hn, hs⟩ := h.connected v (by simp) p n hp hsource
    simp only [State.IsConnected, State.answered, Map.lookup_modify]
    by_cases hna : n = a
    · subst hna
      rw [if_pos rfl, hn]
      exact ⟨_, rfl, rfl⟩
    · rw [if_neg hna]
      exact ⟨node, hn, hs⟩
  unoffered := by
    rintro v hv p hp hsource n ⟨node, hn, hs, hlisted⟩
    simp only [State.answered, Map.lookup_modify] at hn
    split at hn
    · obtain ⟨node', -, rfl⟩ := Option.map_eq_some_iff.mp hn
      exact hv (State.mem_pendingVideos.mpr ⟨⟨p, hp, hsource⟩, hlisted⟩)
    · exact h.unoffered v (by simp) p hp hsource n ⟨node, hn, hs, hlisted⟩

end SourcedExcept

section Handlers

variable {P Q : State → Prop} {E : ClientError → Ctx → Prop} {todo : List VideoId} {v : VideoId}

/-- A property of the state alone. -/
abbrev OnState (P : State → Prop) : Ctx → Prop := fun c ↦ P c.state

/-- The computation keeps a property of the state, whatever becomes of its sends. -/
def Keeps {α : Type} (P : State → Prop) (m : Handler α) : Prop :=
  Triple (OnState P) m (fun _ ↦ OnState P) fun _ ↦ OnState P

/-- A send leaves the state as it is. -/
theorem keeps_send (p : Packet) (a : SocketAddr) : Keeps P (send p a) := by
  intro c hc
  unfold send
  cases c.env.sendResult c.attempts with
  | ok u => exact hc
  | error e => exact hc

/-- A change of the state. -/
theorem modifyState_rule {f : State → State} (h : ∀ s, P s → Q (f s)) :
    Triple (OnState P) (modifyState f) (fun _ ↦ OnState Q) E :=
  fun c hc ↦ h c.state hc

/-- Reading the state names it for what follows. -/
theorem bind_getState_rule {α : Type} {f : State → Handler α} {S : α → Ctx → Prop}
    (h : ∀ s, Triple (OnState fun t ↦ P t ∧ t = s) (f s) S E) :
    Triple (OnState P) (getState >>= f) S E :=
  fun c hc ↦ h c.state c ⟨hc, rfl⟩

/-- Reading the state, where its name is of no use. -/
theorem bind_getState_keep {α : Type} {f : State → Handler α} {S : α → Ctx → Prop}
    (h : ∀ s, Triple (OnState P) (f s) S E) : Triple (OnState P) (getState >>= f) S E :=
  fun c hc ↦ h c.state c hc

/-- Reading the clock changes nothing. -/
theorem bind_now_rule {α : Type} {f : SystemTime → Handler α} {S : α → Ctx → Prop}
    (h : ∀ t, Triple (OnState P) (f t) S E) : Triple (OnState P) (now >>= f) S E :=
  fun c hc ↦ h c.env.now c hc

/-- The selection changes nothing and returns the best node. -/
theorem selectBestServerAndRequest_rule (v : VideoId) :
    Triple (OnState P) (selectBestServerAndRequest v)
      (fun source ↦ OnState fun s ↦ P s ∧ source = s.selectBestNode v) E := by
  apply bind_getState_rule
  intro s
  cases hb : s.selectBestNode v with
  | none =>
    apply Triple.pure
    rintro c ⟨hP, hs⟩
    exact ⟨hP, by rw [hs, hb]⟩
  | some n =>
    apply Triple.bind (Triple.attempt (S := fun _ ↦ OnState fun t ↦ P t ∧ t = s)
      (keeps_send (.serverPacket (.requestVideo v)) n))
    intro _
    apply Triple.pure
    rintro c ⟨hP, hs⟩
    exact ⟨hP, by rw [hs, hb]⟩

/-- A redirected video is none of those still to come. -/
theorem redirectVideo_rule : Triple (OnState (SourcedExcept (v :: todo))) (redirectVideo v)
    (fun _ ↦ OnState (SourcedExcept todo)) E := by
  apply Triple.bind (selectBestServerAndRequest_rule v)
  intro source
  apply modifyState_rule
  rintro s ⟨hs, rfl⟩
  exact hs.setSource

/-- A waiting video that is still playing is redirected, and the others go on playing. -/
theorem redirectPendingVideo_rule :
    Triple (OnState fun s ↦ SourcedExcept (v :: todo) s ∧ Playing (v :: todo) s)
      (redirectPendingVideo v) (fun _ ↦ OnState fun s ↦ SourcedExcept todo s ∧ Playing todo s)
      E := by
  apply Triple.bind (selectBestServerAndRequest_rule v)
  intro source
  apply bind_getState_rule
  intro s
  apply Triple.ite
  · intro _
    apply modifyState_rule
    rintro t ⟨⟨⟨ht, hplaying⟩, rfl⟩, -⟩
    refine ⟨ht.setSource, fun u hu ↦ ?_⟩
    have hu' := hplaying u (List.mem_cons_of_mem v hu)
    simp only [State.setSource, Map.lookup_modify]
    split
    · next huv =>
      subst huv
      simpa using hu'
    · exact hu'
  · rintro hnone c ⟨⟨⟨-, hplaying⟩, -⟩, hs⟩
    exact (hnone (hs ▸ hplaying v List.mem_cons_self)).elim

/-- After a node was given up all videos meet the invariant again. -/
theorem keeps_nodeUnresponsive (a : SocketAddr) :
    Triple (OnState Sourced) (nodeUnresponsive a) (fun _ ↦ OnState Sourced) E := by
  apply Triple.bind (Q := fun _ ↦ OnState fun s ↦
    SourcedExcept (s.getVideosPlayingFromNode a) s)
  · exact modifyState_rule fun s hs ↦ hs.markUnresponsive a
  · intro _
    apply bind_getState_rule
    intro s
    apply Triple.strengthen (P := OnState (SourcedExcept (s.getVideosPlayingFromNode a)))
    · exact Triple.forM_rest (I := fun todo ↦ OnState (SourcedExcept todo)) _
        fun v rest _ ↦ redirectVideo_rule
    · rintro c ⟨hc, hs⟩
      exact hs ▸ hc

private theorem keeps_handleUnresponsivePingsNodes (now : SocketAddr → SystemTime) :
    Keeps Sourced (handleUnresponsivePingsNodes now) := by
  apply bind_getState_keep
  intro s
  exact Triple.forM fun a _ ↦ keeps_nodeUnresponsive a

private theorem keeps_handlePingAnswer (a : SocketAddr) (p : VideoListPacket) :
    Keeps Sourced (handlePingAnswer a p) := by
  apply Triple.bind (Q := fun _ ↦ OnState Sourced)
  · exact modifyState_rule fun s hs ↦ hs.congr (fun n ↦ rfl) fun v p hp ↦ ⟨p, hp, rfl⟩
  intro _
  apply bind_getState_keep
  intro s
  cases s.pendingPings.lookup p.sequenceNumber with
  | none => exact Triple.pure fun c hc ↦ hc
  | some ping =>
    apply Triple.bind (Q := fun _ ↦ OnState Sourced)
    · exact modifyState_rule fun s hs ↦ hs.congr (fun n ↦ rfl) fun v p hp ↦ ⟨p, hp, rfl⟩
    intro _
    apply bind_now_rule
    intro t
    apply Triple.bind (Q := fun _ ↦ OnState fun s ↦
      SourcedExcept (s.pendingVideos (p.videos.map Prod.fst)) s)
    · exact modifyState_rule fun s hs ↦ hs.answered a
    intro _
    apply bind_getState_rule
    intro s
    apply Triple.consequence (P := OnState fun u ↦
      SourcedExcept (s.pendingVideos (p.videos.map Prod.fst)) u ∧
        Playing (s.pendingVideos (p.videos.map Prod.fst)) u)
      (Triple.forM_rest (I := fun todo ↦ OnState fun u ↦ SourcedExcept todo u ∧ Playing todo u) _
        fun v rest _ ↦ redirectPendingVideo_rule)
    · rintro c ⟨hc, rfl⟩
      refine ⟨hc, fun v hv ↦ ?_⟩
      obtain ⟨⟨p', hp', -⟩, -⟩ := State.mem_pendingVideos.mp hv
      exact Option.isSome_iff_exists.mpr ⟨p', hp'⟩
    · exact fun _ c hc ↦ hc.1
    · exact fun _ c hc ↦ hc

/-- A video packet is noted, or ends its video. -/
theorem handleVideoPacket_frame (hrecord : ∀ s p, P s → P (s.recordVideoPacket p))
    (hstop : ∀ s v, P s → P (s.stopPlaying v)) (source : SocketAddr) (p : VideoPacket) :
    Keeps P (handleVideoPacket source p) := by
  apply bind_getState_keep
  intro s
  apply Triple.ite
  · intro _
    apply Triple.bind (Q := fun _ ↦ OnState P)
    · exact modifyState_rule fun s hs ↦ hrecord s p hs
    intro _
    apply Triple.bind (Q := fun _ ↦ OnState P)
    · exact fun c hc ↦ hc
    intro written
    apply Triple.ite
    · exact fun _ ↦ Triple.pure fun c hc ↦ hc
    · intro _
      apply Triple.bind (Triple.attempt (S := fun _ ↦ OnState P) (keeps_send _ source))
      intro _
      exact modifyState_rule fun s hs ↦ hstop s p.streamId hs
  · exact fun _ ↦ Triple.pure fun c hc ↦ hc

/-- Stopping a video only takes it away. -/
theorem uiStopPlayingId_frame (hstop : ∀ s v, P s → P (s.stopPlaying v)) (v : VideoId) :
    Keeps P (uiStopPlayingId v) := by
  apply bind_getState_keep
  intro s
  cases s.playingVideos.lookup v with
  | none => exact Triple.pure fun c hc ↦ hc
  | some video =>
    apply Triple.bind (Q := fun _ ↦ OnState P)
    · exact modifyState_rule fun s hs ↦ hstop s v hs
    intro _
    cases video.source with
    | none => exact Triple.pure fun c hc ↦ hc
    | some source => exact Triple.attempt (keeps_send _ source)

/-- Pings change their numbers and what is expected. -/
theorem startPingNodes_frame (hnext : ∀ s, P s → P s.nextPing)
    (hrecord : ∀ s n a t, P s → P (s.recordPing n a t)) : Keeps P startPingNodes := by
  apply bind_getState_keep
  intro s
  apply Triple.forM
  intro e _
  apply bind_getState_keep
  intro t
  apply Triple.bind (Q := fun _ ↦ OnState P)
  · exact modifyState_rule hnext
  intro _
  apply bind_now_rule
  intro time
  apply Triple.attempt
  apply Triple.bind (keeps_send _ e.2.addr)
  intro _
  exact modifyState_rule fun s hs ↦ hrecord s t.pingSequenceNumber e.2.addr time hs

private theorem keeps_uiStartPlaying (v : VideoId) : Keeps Sourced (uiStartPlaying v) := by
  apply Triple.bind (selectBestServerAndRequest_rule v)
  intro source
  apply Triple.attempt
  rintro c ⟨hc, rfl⟩
  cases hl : c.env.launches with
  | false => simpa [startVideoProcess, launchVideoPlayer, hl] using hc
  | true =>
    have hstart : Sourced (c.state.startPlaying (c.state.selectBestNode v) v) := hc.startPlaying
    simpa [startVideoProcess, launchVideoPlayer, modifyState, hl, Ctx.setState] using hstart

private theorem keeps_handleInput (input : Input) : Keeps Sourced (handleInput input) := by
  rcases input with v | v | ⟨p, a⟩ | now | _
  · exact keeps_uiStartPlaying v
  · exact uiStopPlayingId_frame (fun _ v hs ↦ hs.stopPlaying v) v
  · rcases p with p | p | p | ⟨⟨p⟩⟩
    · exact handleVideoPacket_frame (fun _ p hs ↦ hs.recordVideoPacket p)
        (fun _ v hs ↦ hs.stopPlaying v) a p
    · exact Triple.pure fun c hc ↦ hc
    · exact Triple.pure fun c hc ↦ hc
    · exact keeps_handlePingAnswer a p
  · exact keeps_handleUnresponsivePingsNodes now
  · exact startPingNodes_frame
      (fun _ hs ↦ hs.congr (fun n ↦ rfl) fun v p hp ↦ ⟨p, hp, rfl⟩)
      fun _ _ _ _ hs ↦ hs.congr (fun n ↦ rfl) fun v p hp ↦ ⟨p, hp, rfl⟩

end Handlers

section Runs

variable {s t : State} {e : Event} {servers : List IpAddr}

private theorem sourced_new (servers : List IpAddr) : Sourced (.new servers) where
  connected := by
    intro v _ p n hp
    cases hp
  unoffered := by
    intro v _ p hp
    cases hp

/-- The iteration order of the maps does not matter. -/
theorem SourcedExcept.reorder (h : Sourced s) (hst : s.Reorder t) : Sourced t := by
  apply h.congr
  · exact fun n ↦ AList.perm_lookup hst.nodes
  · intro v p hp
    exact ⟨p, (AList.perm_lookup hst.playingVideos).symm.trans hp, rfl⟩

private theorem Step.sourced (h : Step s e t) (hs : Sourced s) : Sourced t := by
  obtain ⟨hview, rfl⟩ := h
  exact Triple.finalState (keeps_handleInput e.input) (hs.reorder hview)

/-- In every reachable state a playing video comes from a known node that is connected, or
waits while no connected node lists it. -/
theorem reachable_sources (h : Reachable servers s) {v : VideoId} {p : PlayingVideo}
    (hp : s.playingVideos.lookup v = some p) :
    (∀ n, p.source = some n → s.IsConnected n) ∧ (p.source = none → ∀ n, ¬ s.Offers n v) := by
  obtain ⟨tr, hrun⟩ := h
  have hs : Sourced s := hrun.invariant (fun _ _ _ hs he ↦ he.sourced hs) (sourced_new servers)
  constructor
  · exact fun n ↦ hs.connected v (by simp) p n hp
  · exact hs.unoffered v (by simp) p hp

/-- A simulation reaches a reachable state. -/
theorem reachable_simulate (servers : List IpAddr) (inputs : List (Input × Env)) :
    Reachable servers (simulate (.new servers) inputs) := by
  have hrun (s : State) : ∃ tr, Run Step s tr (simulate s inputs) := by
    induction inputs generalizing s with
    | nil => exact ⟨[], .refl s⟩
    | cons i rest ih =>
      obtain ⟨tr, htr⟩ := ih (Event.after ⟨i.1, i.2, s⟩).state
      exact ⟨_, htr.head (e := ⟨i.1, i.2, s⟩) ⟨.refl s, rfl⟩⟩
  exact hrun _

/-- Everything succeeds, at the given time. -/
def calmEnv (now : SystemTime) : Env := ⟨now, fun _ ↦ .ok (), true, true⟩

/-- Two nodes list a video that is then played, and one sweep finds both of them silent. -/
def silenced : State :=
  let answer (n : UInt64) : Packet := .clientPacket (.videoList ⟨n, [(5, "")], 0⟩)
  simulate (.new [.v4 1, .v4 2])
    [(.pingNodes, calmEnv 0), (.packet (answer 0) (IpAddr.v4 1).atPort, calmEnv 0),
      (.packet (answer 1) (IpAddr.v4 2).atPort, calmEnv 0), (.uiStartPlaying 5, calmEnv 0),
      (.unresponsivePingsNodes fun _ ↦ 4000000000, calmEnv 0)]

/-- The first node does not count as a provider any more. -/
theorem sources_silenced : ¬ silenced.Offers (IpAddr.v4 1).atPort 5 :=
  (reachable_sources (v := 5) (p := ⟨none, 0, 0⟩) (reachable_simulate _ _) (by decide)).2 rfl _

end Runs
end PessiStreamer.Client
