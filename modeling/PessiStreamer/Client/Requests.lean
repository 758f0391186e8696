import PessiStreamer.Base.LastWord
import PessiStreamer.Client.Sources
import PessiStreamer.Common.Packet

/-!
# A source was asked for its video

While the socket takes what a client sends, the client makes a node the source of a video only
together with a request to that node, lists the video in each ping that it sends there, and sends a
stop only when the node is no longer the source. So its last word to the source is for the video.
-/

namespace PessiStreamer.Client
open Base Common

/-- Every send succeeds. -/
def Env.AllOk (env : Env) : Prop := ∀ i, env.sendResult i = .ok ()

/-- What a packet tells a node about the video: a request speaks for it, a stop and a ping that does
not list it speak against it. -/
def wordOf (v : VideoId) : Packet → Option Bool
  | .serverPacket (.requestVideo u) => if u = v then some true else none
  | .serverPacket (.stopVideo u) => if u = v then some false else none
  | .nodePacket (.clientPing _ requestedVideos) =>
    if v ∈ requestedVideos then none else some false
  | _ => none

/-- A request speaks against no video. -/
theorem wordOf_request (u v : VideoId) :
    wordOf v (.serverPacket (.requestVideo u)) ≠ some false := by
  show (if u = v then some true else none) ≠ some false
  split
  · simp
  · simp

/-- Only its request speaks for a video. -/
theorem wordOf_eq_some_true {v : VideoId} {p : Packet} (h : wordOf v p = some true) :
    p = .serverPacket (.requestVideo v) := by
  unfold wordOf at h
  split at h
  · split at h
    · next hu => rw [hu]
    · cases h
  · split at h
    · cases h
    · cases h
  · split at h
    · cases h
    · cases h
  · cases h

/-- Its stop and pings speak against it. -/
theorem wordOf_eq_some_false {v : VideoId} {p : Packet} (h : wordOf v p = some false) :
    p = .serverPacket (.stopVideo v) ∨ ∃ k vs, p = .nodePacket (.clientPing k vs) := by
  unfold wordOf at h
  split at h
  · split at h
    · cases h
    · cases h
  · split at h
    · next hu => exact .inl (by rw [hu])
    · cases h
  · exact .inr ⟨_, _, rfl⟩
  · cases h

/-- The same of a packet among those that a client sends, if it goes to the node `n`. -/
def wordTo (n : SocketAddr) (v : VideoId) (x : SocketAddr × Packet) : Option Bool :=
  if x.1 = n then wordOf v x.2 else none

namespace State

/-- The node that the video comes from. -/
def source (s : State) (v : VideoId) : Option SocketAddr :=
  (s.playingVideos.lookup v).bind PlayingVideo.source

variable {s : State} {u v : VideoId}

private theorem mem_getVideosPlayingFromNode_iff {n : SocketAddr} :
    v ∈ s.getVideosPlayingFromNode n ↔ s.source v = some n :=
  mem_getVideosPlayingFromNode.trans Option.bind_eq_some_iff.symm

private theorem source_setSource (source : Option SocketAddr) : (s.setSource u source).source v =
    if v = u then (s.playingVideos.lookup v).bind fun _ ↦ source else s.source v := by
  simp only [State.source, setSource, Map.lookup_modify]
  split
  · next h =>
    rw [h]
    cases s.playingVideos.lookup u with
    | none => rfl
    | some p => rfl
  · rfl

private theorem source_startPlaying (source : Option SocketAddr) :
    (s.startPlaying source u).source v = if v = u then source else s.source v := by
  simp only [State.source, startPlaying, Map.lookup_insert_ite]
  split
  · rfl
  · rfl

private theorem source_stopPlaying :
    (s.stopPlaying u).source v = if v = u then none else s.source v := by
  simp only [State.source, stopPlaying, Map.lookup_erase_ite]
  split
  · rfl
  · rfl

private theorem source_recordVideoPacket (p : VideoPacket) :
    (s.recordVideoPacket p).source v = s.source v := by
  simp only [State.source, recordVideoPacket, Map.lookup_modify]
  split
  · next h =>
    rw [h]
    cases s.playingVideos.lookup p.streamId with
    | none => rfl
    | some video => rfl
  · rfl

end State

/-- For each of these videos that comes from `n`, the last word to `n` was for it, or `now` holds
of it. -/
structure Backed (n : SocketAddr) (now counts : VideoId → Prop) (c : Ctx) : Prop where
  ok : c.env.AllOk
  settled : ∀ v, counts v → c.state.source v = some n → Settles (wordTo n v) c.sent (now v)

section Handlers

variable {n a : SocketAddr} {now counts : VideoId → Prop} {u v : VideoId}
  {E : ClientError → Ctx → Prop}

/-- A packet that speaks against no video that comes from its target. -/
theorem send_backed (p : Packet) (a : SocketAddr) :
    Triple (fun c ↦ Backed n now counts c ∧ (a = n → ∀ v, counts v → c.state.source v = some n →
      wordOf v p ≠ some false)) (send p a) (fun _ ↦ Backed n now counts) E := by
  rintro c ⟨hc, hp⟩
  unfold send
  rw [hc.ok c.attempts]
  refine ⟨hc.ok, fun v hv hsource ↦ (hc.settled v hv hsource).concat ?_⟩
  unfold wordTo
  split
  · next ha => exact hp ha v hv hsource
  · simp

/-- A change of the state that gives no video this source. -/
theorem modifyState_backed {f : State → State}
    (hf : ∀ s v, counts v → (f s).source v = some n → s.source v = some n) :
    Triple (Backed n now counts) (modifyState f) (fun _ ↦ Backed n now counts) E :=
  fun c hc ↦ ⟨hc.ok, fun v hv hsource ↦ hc.settled v hv (hf c.state v hv hsource)⟩

private theorem getState_backed : Maintains (Backed n now counts) getState := fun _ hc ↦ hc

private theorem now_backed : Maintains (Backed n now counts) Client.now := fun _ hc ↦ hc

/-- The node that is selected was asked for the video. -/
theorem selectBestServerAndRequest_backed :
    Triple (Backed n now counts) (selectBestServerAndRequest v) (fun source c ↦
      Backed n now counts c ∧ (source = some n → Settles (wordTo n v) c.sent (now v))) E := by
  intro c hc
  cases hb : c.state.selectBestNode v with
  | none =>
    simp only [selectBestServerAndRequest, getState, bind_apply, hb, pure_apply]
    exact ⟨hc, by simp⟩
  | some best =>
    simp only [selectBestServerAndRequest, getState, bind_apply, hb, attempt_apply, pure_apply]
    have hsent : finalState (requestStartVideo best v) c = { c with
        attempts := c.attempts + 1
        sent := c.sent ++ [(best, .serverPacket (.requestVideo v))] } := by
      simp only [finalState, requestStartVideo, send, hc.ok c.attempts]
    rw [hsent]
    constructor
    · refine ⟨hc.ok, fun u hu hsource ↦ (hc.settled u hu hsource).concat ?_⟩
      unfold wordTo
      split
      · exact wordOf_request v u
      · simp
    · intro hbest
      have hasked : wordTo n v (best, .serverPacket (.requestVideo v)) = some true := by
        simp [wordTo, wordOf, Option.some.inj hbest]
      exact Settles.append.mpr ((Settles.singleton_of_some hasked).mpr rfl)

/-- A video gets the node that was asked for it as its source. -/
theorem setSource_backed {source : Option SocketAddr} :
    Triple (fun c ↦ Backed n now counts c ∧
        (source = some n → Settles (wordTo n v) c.sent (now v)))
      (modifyState fun s ↦ s.setSource v source) (fun _ ↦ Backed n now counts) E := by
  rintro c ⟨hc, hasked⟩
  refine ⟨hc.ok, fun u hu hsource ↦ ?_⟩
  rw [Ctx.setState, State.source_setSource] at hsource
  split at hsource
  · next huv =>
    subst huv
    obtain ⟨_, -, hn⟩ := Option.bind_eq_some_iff.mp hsource
    exact hasked hn
  · exact hc.settled u hu hsource

private theorem redirectVideo_backed : Maintains (Backed n now counts) (redirectVideo v) :=
  selectBestServerAndRequest_backed.bind fun _ ↦ setSource_backed

private theorem redirectPendingVideo_backed :
    Maintains (Backed n now counts) (redirectPendingVideo v) := by
  apply selectBestServerAndRequest_backed.bind
  intro source
  apply Triple.bind (Q := fun _ c ↦ Backed n now counts c ∧
    (source = some n → Settles (wordTo n v) c.sent (now v)))
  · exact fun c hc ↦ hc
  intro s
  apply Triple.ite
  · exact fun _ ↦ setSource_backed
  · exact fun _ c hc ↦ hc.1

private theorem uiStartPlaying_backed : Maintains (Backed n now counts) (uiStartPlaying v) := by
  apply selectBestServerAndRequest_backed.bind
  intro source
  apply Triple.attempt
  rintro c ⟨hc, hasked⟩
  cases hl : c.env.launches with
  | false => simpa [startVideoProcess, launchVideoPlayer, hl] using hc
  | true =>
    simp only [startVideoProcess, launchVideoPlayer, modifyState, hl, bind_apply, if_true]
    refine ⟨hc.ok, fun u hu hsource ↦ ?_⟩
    rw [Ctx.setState, State.source_startPlaying] at hsource
    split at hsource
    · next huv => exact huv ▸ hasked hsource
    · exact hc.settled u hu hsource

/-- A stop for a video that is played no more. -/
theorem stop_backed {source : SocketAddr} : Triple
    (fun c ↦ Backed n now counts c ∧ (counts v → c.state.source v = none))
    (attempt (requestStopVideo source v)) (fun _ ↦ Backed n now counts) E := by
  apply Triple.attempt
  apply (send_backed _ source).strengthen
  rintro c ⟨hc, hnone⟩
  refine ⟨hc, fun _ u hu hsource ↦ ?_⟩
  have huv : v ≠ u := by
    rintro rfl
    cases (hnone hu).symm.trans hsource
  show (if v = u then some false else none) ≠ some false
  simp [huv]

private theorem uiStopPlayingId_backed : Maintains (Backed n now counts) (uiStopPlayingId v) := by
  apply getState_backed.bind
  intro s
  cases s.playingVideos.lookup v with
  | none => exact Maintains.pure ()
  | some video =>
    apply Triple.bind (Q := fun _ c ↦ Backed n now counts c ∧ (counts v → c.state.source v = none))
    · intro c hc
      have hsource (u : VideoId) : (c.state.stopPlaying v).source u =
          if u = v then none else c.state.source u := State.source_stopPlaying
      refine ⟨⟨hc.ok, fun u hu hu' ↦ ?_⟩, fun _ ↦ ?_⟩
      · rw [Ctx.setState, hsource] at hu'
        split at hu'
        · cases hu'
        · exact hc.settled u hu hu'
      · rw [Ctx.setState, hsource, if_pos rfl]
    intro _
    cases video.source with
    | none => exact fun c hc ↦ hc.1
    | some source => exact stop_backed

/-- A packet that the player does not take ends its video, after the stop. -/
theorem handleVideoPacket_backed (p : VideoPacket) :
    Maintains (Backed n now fun _ ↦ True) (handleVideoPacket a p) := by
  apply getState_backed.bind
  intro s
  apply Maintains.ite
  · intro _
    apply Maintains.bind
    · exact modifyState_backed fun s v _ hsource ↦ (s.source_recordVideoPacket p).symm.trans hsource
    intro _
    apply Maintains.bind
    · exact fun c hc ↦ hc
    intro written
    apply Maintains.ite
    · exact fun _ ↦ Maintains.pure ()
    intro _
    -- meanwhile the other videos count
    apply Triple.strengthen (P := Backed n now (· ≠ p.streamId))
    · apply Triple.bind (Q := fun _ ↦ Backed n now (· ≠ p.streamId))
      · apply stop_backed.strengthen
        exact fun c hc ↦ ⟨hc, fun hne ↦ (hne rfl).elim⟩
      intro _ c hc
      refine ⟨hc.ok, fun u _ hsource ↦ ?_⟩
      rw [Ctx.setState, State.source_stopPlaying] at hsource
      split at hsource
      · cases hsource
      · next hne => exact hc.settled u hne hsource
    · exact fun c hc ↦ ⟨hc.ok, fun u _ ↦ hc.settled u trivial⟩
  · exact fun _ ↦ Maintains.pure ()

/-- A ping lists the videos that come from its target. -/
theorem pingNode_backed : Maintains (Backed n now counts) (pingNode a) := by
  intro c hc
  have hping : Triple (fun d ↦ Backed n now counts d ∧ d.state = c.state.nextPing)
      (attempt do
        send (.nodePacket (.clientPing c.state.pingSequenceNumber
          (c.state.getVideosPlayingFromNode a))) a
        modifyState fun s' ↦ s'.recordPing c.state.pingSequenceNumber a c.env.now)
      (fun _ ↦ Backed n now counts) fun _ ↦ Backed n now counts := by
    apply Triple.attempt
    apply Triple.bind (Q := fun _ ↦ Backed n now counts)
    · apply (send_backed _ a).strengthen
      rintro d ⟨hd, hstate⟩
      refine ⟨hd, fun ha u _ hsource ↦ ?_⟩
      rw [hstate] at hsource
      have hlisted : u ∈ c.state.getVideosPlayingFromNode a :=
        State.mem_getVideosPlayingFromNode_iff.mpr (ha ▸ hsource)
      show (if u ∈ c.state.getVideosPlayingFromNode a then none else some false) ≠ some false
      simp [hlisted]
    · exact fun _ ↦ modifyState_backed fun s u _ ↦ id
  exact hping (c.setState c.state.nextPing) ⟨⟨hc.ok, hc.settled⟩, rfl⟩

private theorem handlePingAnswer_backed (p : VideoListPacket) :
    Maintains (Backed n now counts) (handlePingAnswer a p) := by
  apply Maintains.bind
  · exact modifyState_backed fun s u _ ↦ id
  intro _
  apply getState_backed.bind
  intro s
  cases s.pendingPings.lookup p.sequenceNumber with
  | none => exact Maintains.pure ()
  | some ping =>
    apply Maintains.bind
    · exact modifyState_backed fun s u _ ↦ id
    intro _
    apply now_backed.bind
    intro t
    apply Maintains.bind
    · exact modifyState_backed fun s u _ ↦ id
    intro _
    apply getState_backed.bind
    intro s
    exact Maintains.forM fun u _ ↦ redirectPendingVideo_backed

private theorem handleUnresponsivePingsNodes_backed (times : SocketAddr → SystemTime) :
    Maintains (Backed n now counts) (handleUnresponsivePingsNodes times) := by
  apply getState_backed.bind
  intro s
  apply Maintains.forM
  intro a _
  apply Maintains.bind
  · exact modifyState_backed fun s u _ ↦ id
  intro _
  apply getState_backed.bind
  intro t
  exact Maintains.forM fun u _ ↦ redirectVideo_backed

private theorem startPingNodes_backed : Maintains (Backed n now counts) startPingNodes := by
  apply getState_backed.bind
  intro s
  exact Maintains.forM fun e _ ↦ pingNode_backed

private theorem handleInput_backed (input : Input) :
    Maintains (Backed n now fun _ ↦ True) (handleInput input) := by
  rcases input with v | v | ⟨p, a⟩ | times | _
  · exact uiStartPlaying_backed
  · exact uiStopPlayingId_backed
  · rcases p with p | p | p | ⟨⟨p⟩⟩
    · exact handleVideoPacket_backed p
    · exact Maintains.pure ()
    · exact Maintains.pure ()
    · exact handlePingAnswer_backed p
  · exact handleUnresponsivePingsNodes_backed times
  · exact startPingNodes_backed

/-- After an event whose sends succeed the last word to the source of each video was for it, or it
is the source from before and what held of it still does. -/
theorem Event.settles_after {e : Event} (hok : e.env.AllOk)
    (h : ∀ v, e.view.source v = some n → now v) (v : VideoId)
    (hsource : e.after.state.source v = some n) : Settles (wordTo n v) e.after.sent (now v) := by
  have hstart : Backed n now (fun _ ↦ True) ⟨e.env, e.view, 0, []⟩ := ⟨hok, fun v _ ↦ h v⟩
  exact ((handleInput_backed e.input).finalState hstart).settled v trivial hsource

end Handlers

end PessiStreamer.Client
