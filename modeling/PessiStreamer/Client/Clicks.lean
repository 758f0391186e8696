import PessiStreamer.Client.Sources

/-!
# Clicks while a ping answer is handled

`handle_ping_answer` computes the list of the waiting videos that the answer offers, and then
requests them one after the other. While it waits for the socket, the tasks of
`ui_start_playing` and `ui_stop_playing_id` enter and remove videos; the runtime has several
threads, so they may also go on between two requests. The sweep for silent nodes is left out: it
removes no video.
-/

namespace PessiStreamer.Client
open Base Common

/-- What is left to do of a task the user has spawned. -/
inductive UiTask where
  | startPlaying (videoId : VideoId)
  /-- `ui_start_playing` once it has selected a node and sent its request -/
  | launch (source : Option SocketAddr) (videoId : VideoId)
  | stopPlaying (videoId : VideoId)
  deriving DecidableEq

/-- Where the loop of `handle_ping_answer` stands. -/
inductive AnswerStage where
  /-- before the selection for the next of the videos -/
  | selecting (videos : List VideoId)
  /-- with a node selected for a video, before it looks the video up -/
  | lookingUp (videoId : VideoId) (source : Option SocketAddr) (videos : List VideoId)
  /-- `unwrap` of `None` -/
  | panicked
  deriving DecidableEq

/-- A ping answer in progress: the state, where its loop stands, the tasks of the user and what
was sent. A task that is spawned later is one that takes its first step later. -/
structure Answering where
  state : State
  stage : AnswerStage
  tasks : List UiTask
  sent : List (SocketAddr × Packet)

/-- Who takes the next step. -/
inductive Runner where
  | answer
  /-- the task at this place -/
  | ui (i : Nat)
  deriving DecidableEq

namespace Answering

/-- `handle_ping_answer` up to its loop, for an answer that was asked for;
`client/src/client.rs:189`. -/
def start? (s : State) (addr : SocketAddr) (packet : VideoListPacket) (now : SystemTime)
    (tasks : List UiTask) : Option Answering :=
  match s.pendingPings.lookup packet.sequenceNumber with
  | some (_, startTime) =>
    let videos := packet.videos.map Prod.fst
    let s := ((s.updateVideoNames packet.videos).dropPing packet.sequenceNumber).answered addr
      (durationSince now startTime) videos now
    some ⟨s, .selecting (s.pendingVideos videos), tasks, []⟩
  | none => none

/-- The context in which one part of a task is run. -/
def ctx (r : Answering) (env : Env) : Ctx := ⟨env, r.state, 0, []⟩

/-- The state and the packets that one part of a task leaves. -/
def ran (r : Answering) (c : Ctx) : Answering :=
  { r with state := c.state, sent := r.sent ++ c.sent }

/-- The next step of the loop of `handle_ping_answer`; `client/src/client.rs:227`. -/
def stepAnswer (r : Answering) (env : Env) : Option Answering :=
  match r.stage with
  | .selecting [] => none
  | .selecting (videoId :: videos) =>
    match selectBestServerAndRequest videoId (r.ctx env) with
    | .ok source c => some { r.ran c with stage := .lookingUp videoId source videos }
    | .error _ _ => none
  | .lookingUp videoId source videos =>
    if (r.state.playingVideos.lookup videoId).isSome then
      some { r with state := r.state.setSource videoId source, stage := .selecting videos }
    else some { r with stage := .panicked }
  | .panicked => none

/-- The next step of a task of the user; `client/src/client.rs:159`, `client/src/client.rs:176`.
After a video is removed its source is still told, which no other task observes. -/
def stepUi (r : Answering) (env : Env) (i : Nat) : Option Answering :=
  match r.tasks[i]? with
  | some (.startPlaying videoId) =>
    match selectBestServerAndRequest videoId (r.ctx env) with
    | .ok source c => some { r.ran c with tasks := r.tasks.set i (.launch source videoId) }
    | .error _ _ => none
  | some (.launch source videoId) =>
    let c := finalState (attempt (startVideoProcess source videoId)) (r.ctx env)
    some { r.ran c with tasks := r.tasks.eraseIdx i }
  | some (.stopPlaying videoId) =>
    let c := finalState (uiStopPlayingId videoId) (r.ctx env)
    some { r.ran c with tasks := r.tasks.eraseIdx i }
  | none => none

/-- One step of the answer's task or of a task of the user. -/
def step? (r : Answering) (e : Runner × Env) : Option Answering :=
  match e.1 with
  | .answer => r.stepAnswer e.2
  | .ui i => r.stepUi e.2 i

/-- The interleavings of the handler with the tasks of the user. -/
def Step (r : Answering) (e : Runner × Env) (r' : Answering) : Prop := r.step? e = some r'

/-- The video that the step looks up. -/
def looksUp (p : Answering × Runner × Env) : Option VideoId :=
  match p.2.1, p.1.stage with
  | .answer, .lookingUp videoId _ _ => some videoId
  | _, _ => none

/-- The video that the step enters (`true`) or ends (`false`): one whose player starts, or one
the user stops. -/
def clicked (p : Answering × Runner × Env) : Option (VideoId × Bool) :=
  match p.2.1 with
  | .answer => none
  | .ui i =>
    match p.1.tasks[i]? with
    | some (.launch _ videoId) => if p.2.2.launches then some (videoId, true) else none
    | some (.stopPlaying videoId) => some (videoId, false)
    | _ => none

/-- Whether the last click on a video entered or ended it. -/
def lastClick (v : VideoId) (tr : List (Answering × Runner × Env)) : Option Bool :=
  (tr.filterMap fun p ↦ (clicked p).bind fun c ↦ if c.1 = v then some c.2 else none).getLast?

/-- Each look-up finds an entry, and the packet task does not panic. -/
structure Survives (tr : List (Answering × Runner × Env)) (r : Answering) : Prop where
  found : ∀ p ∈ tr, ∀ v, looksUp p = some v → (p.1.state.playingVideos.lookup v).isSome
  running : r.stage ≠ .panicked

/-- The user has last ended no video at the time it is looked up. -/
def Undisturbed (tr : List (Answering × Runner × Env)) : Prop :=
  ∀ l p rest v, tr = l ++ p :: rest → looksUp p = some v → lastClick v l ≠ some false

/-- The videos that are still to be looked up. -/
def remaining (r : Answering) : List VideoId :=
  match r.stage with
  | .selecting videos => videos
  | .lookingUp videoId _ videos => videoId :: videos
  | .panicked => []

section Parts

variable {u v : VideoId} {c : Ctx}

private theorem send_state (p : Packet) (a : SocketAddr) (c : Ctx) :
    (finalState (send p a) c).state = c.state :=
  (keeps_send (P := fun s ↦ s = c.state) p a).finalState rfl

/-- The selection returns the best node and leaves the state alone. -/
theorem selectBestServerAndRequest_ok (v : VideoId) (c : Ctx) :
    ∃ c', selectBestServerAndRequest v c = .ok (c.state.selectBestNode v) c' ∧
      c'.state = c.state := by
  cases hb : c.state.selectBestNode v with
  | none =>
    refine ⟨c, ?_, rfl⟩
    simp only [selectBestServerAndRequest, bind_apply, getState, hb]
    rfl
  | some n =>
    refine ⟨finalState (requestStartVideo n v) c, ?_, send_state _ n c⟩
    simp only [selectBestServerAndRequest, bind_apply, getState, hb, attempt_apply]
    rfl

/-- The last part of `ui_start_playing` enters the video if its player starts. -/
theorem launch_state (source : Option SocketAddr) (v : VideoId) (c : Ctx) :
    (finalState (attempt (startVideoProcess source v)) c).state =
      if c.env.launches then c.state.startPlaying source v else c.state := by
  rw [finalState_of_ok (attempt_apply _ c)]
  unfold finalState
  simp only [startVideoProcess, bind_apply, launchVideoPlayer]
  cases c.env.launches with
  | true => rfl
  | false => rfl

/-- The task of `ui_stop_playing_id` ends the video. -/
theorem uiStopPlayingId_state (v : VideoId) (c : Ctx) :
    (finalState (uiStopPlayingId v) c).state =
      if (c.state.playingVideos.lookup v).isSome then c.state.stopPlaying v else c.state := by
  cases hv : c.state.playingVideos.lookup v with
  | none =>
    have hrun : uiStopPlayingId v c = .ok () c := by
      simp only [uiStopPlayingId, bind_apply, getState, hv]
      rfl
    rw [finalState_of_ok hrun]
    rfl
  | some video =>
    cases hsource : video.source with
    | none =>
      have hrun : uiStopPlayingId v c = .ok () (c.setState (c.state.stopPlaying v)) := by
        simp only [uiStopPlayingId, bind_apply, getState, modifyState, hv, hsource]
        rfl
      rw [finalState_of_ok hrun]
      rfl
    | some source =>
      have hrun : uiStopPlayingId v c =
          attempt (requestStopVideo source v) (c.setState (c.state.stopPlaying v)) := by
        simp only [uiStopPlayingId, bind_apply, getState, modifyState, hv, hsource]
      rw [attempt_apply] at hrun
      rw [finalState_of_ok hrun]
      exact send_state _ source _

/-- Whether a video is played after the task of `ui_stop_playing_id`. -/
theorem uiStopPlayingId_playing (u v : VideoId) (c : Ctx) :
    ((finalState (uiStopPlayingId v) c).state.playingVideos.lookup u).isSome =
      if v = u then false else (c.state.playingVideos.lookup u).isSome := by
  rw [uiStopPlayingId_state]
  by_cases huv : v = u
  · subst huv
    cases hv : c.state.playingVideos.lookup v with
    | none => simp [hv]
    | some video => simp [State.stopPlaying]
  · have hother : (c.state.stopPlaying v).playingVideos.lookup u =
        c.state.playingVideos.lookup u := AList.lookup_erase_ne (Ne.symm huv)
    rw [if_neg huv]
    split
    · rw [hother]
    · rfl

/-- Whether a video is played after the last part of `ui_start_playing`. -/
theorem launch_playing (source : Option SocketAddr) (u v : VideoId) (c : Ctx) :
    ((finalState (attempt (startVideoProcess source v)) c).state.playingVideos.lookup u).isSome =
      if c.env.launches ∧ v = u then true else (c.state.playingVideos.lookup u).isSome := by
  rw [launch_state]
  cases c.env.launches with
  | false => simp
  | true =>
    show ((c.state.playingVideos.insert v _).lookup u).isSome = _
    rw [Map.lookup_insert_ite]
    by_cases huv : v = u
    · simp [huv]
    · simp [huv, Ne.symm huv]

end Parts

section Runs

variable {r r' t : Answering} {e : Runner × Env} {tr : List (Answering × Runner × Env)}
  {v : VideoId}

/-- A source that is set enters and ends no video. -/
theorem setSource_playing (s : State) (v u : VideoId) (source : Option SocketAddr) :
    ((s.setSource v source).playingVideos.lookup u).isSome =
      (s.playingVideos.lookup u).isSome := by
  simp only [State.setSource, Map.lookup_modify]
  split
  · next h =>
    rw [h]
    exact Option.isSome_map
  · rfl

/-- What a step can do. -/
inductive Turn (r : Answering) : Runner × Env → Answering → Prop
  | select {v : VideoId} {videos : List VideoId} {r' : Answering} (env : Env)
      (hstage : r.stage = .selecting (v :: videos)) (hstate : r'.state = r.state)
      (hnext : r'.stage = .lookingUp v (r.state.selectBestNode v) videos) :
    Turn r (.answer, env) r'
  | found {v : VideoId} {source : Option SocketAddr} {videos : List VideoId} (env : Env)
      (hstage : r.stage = .lookingUp v source videos)
      (hfound : (r.state.playingVideos.lookup v).isSome) :
    Turn r (.answer, env)
      { r with state := r.state.setSource v source, stage := .selecting videos }
  | missed {v : VideoId} {source : Option SocketAddr} {videos : List VideoId} (env : Env)
      (hstage : r.stage = .lookingUp v source videos)
      (hnone : ¬ (r.state.playingVideos.lookup v).isSome) :
    Turn r (.answer, env) { r with stage := .panicked }
  | startPlaying {i : Nat} {v : VideoId} {r' : Answering} (env : Env)
      (htask : r.tasks[i]? = some (.startPlaying v)) (hstate : r'.state = r.state)
      (hstage : r'.stage = r.stage) : Turn r (.ui i, env) r'
  | launch {i : Nat} {source : Option SocketAddr} {v : VideoId} {r' : Answering} (env : Env)
      (htask : r.tasks[i]? = some (.launch source v))
      (hstate : r'.state =
        (finalState (attempt (startVideoProcess source v)) (r.ctx env)).state)
      (hstage : r'.stage = r.stage) : Turn r (.ui i, env) r'
  | stopPlaying {i : Nat} {v : VideoId} {r' : Answering} (env : Env)
      (htask : r.tasks[i]? = some (.stopPlaying v))
      (hstate : r'.state = (finalState (uiStopPlayingId v) (r.ctx env)).state)
      (hstage : r'.stage = r.stage) : Turn r (.ui i, env) r'

private theorem Step.turn (h : Step r e r') : Turn r e r' := by
  obtain ⟨who, env⟩ := e
  cases who with
  | answer =>
    simp only [Step, step?, stepAnswer] at h
    split at h
    · cases h
    · next u videos hstage =>
      obtain ⟨c, hselect, hc⟩ := selectBestServerAndRequest_ok u (r.ctx env)
      rw [hselect] at h
      cases h
      exact .select env hstage hc rfl
    · next u source videos hstage =>
      split at h
      · next hfound =>
        cases h
        exact .found env hstage hfound
      · next hnone =>
        cases h
        exact .missed env hstage hnone
    · cases h
  | ui i =>
    simp only [Step, step?, stepUi] at h
    split at h
    · next u htask =>
      obtain ⟨c, hselect, hc⟩ := selectBestServerAndRequest_ok u (r.ctx env)
      rw [hselect] at h
      cases h
      exact .startPlaying env htask hc rfl
    · next source u htask =>
      cases h
      exact .launch env htask rfl rfl
    · next u htask =>
      cases h
      exact .stopPlaying env htask rfl rfl
    · cases h

/-- A step changes whether a video is played just if it is a click on it. -/
theorem Step.playing (h : Step r e r') (v : VideoId) :
    (r'.state.playingVideos.lookup v).isSome =
      ((clicked (r, e)).bind fun c ↦ if c.1 = v then some c.2 else none).getD
        (r.state.playingVideos.lookup v).isSome := by
  cases Step.turn h with
  | select env hstage hstate hnext =>
    rw [hstate]
    rfl
  | @found u source videos env hstage hfound => exact setSource_playing r.state u v source
  | missed env hstage hnone => rfl
  | startPlaying env htask hstate hstage =>
    simp only [clicked, htask]
    rw [hstate]
    rfl
  | @launch i source u r' env htask hstate hstage =>
    simp only [clicked, htask]
    rw [hstate, launch_playing]
    show (if env.launches ∧ u = v then true else _) = _
    cases env.launches with
    | false => simp [ctx]
    | true => by_cases huv : u = v <;> simp [huv, ctx]
  | @stopPlaying i u r' env htask hstate hstage =>
    simp only [clicked, htask]
    rw [hstate, uiStopPlayingId_playing]
    by_cases huv : u = v <;> simp [huv, ctx]

/-- Whether a video is played at the end of a run is decided by the last click on it. -/
theorem playing_run (h : Run Step r tr t) (v : VideoId) :
    (t.state.playingVideos.lookup v).isSome =
      (lastClick v tr).getD (r.state.playingVideos.lookup v).isSome :=
  Run.last_write (g := fun u : Answering ↦ (u.state.playingVideos.lookup v).isSome)
    (fun _ _ _ hstep ↦ Step.playing hstep v) h

/-- The videos to be looked up only become fewer. -/
theorem Step.remaining_subset (h : Step r e r') : r'.remaining ⊆ r.remaining := by
  cases Step.turn h with
  | select env hstage hstate hnext =>
    simp only [remaining, hstage, hnext]
    exact fun _ ↦ id
  | @found u source videos env hstage hfound =>
    simp only [remaining, hstage]
    exact List.subset_cons_self u videos
  | missed env hstage hnone => exact List.nil_subset _
  | startPlaying env htask hstate hstage =>
    simp only [remaining, hstage]
    exact fun _ ↦ id
  | launch env htask hstate hstage =>
    simp only [remaining, hstage]
    exact fun _ ↦ id
  | stopPlaying env htask hstate hstage =>
    simp only [remaining, hstage]
    exact fun _ ↦ id

private theorem remaining_run (h : Run Step r tr t) : t.remaining ⊆ r.remaining := by
  induction h with
  | refl => exact fun _ ↦ id
  | tail _ he ih => exact fun v hv ↦ ih (Step.remaining_subset he hv)

/-- A look-up is of a video that was still to be looked up. -/
theorem looksUp_remaining {p : Answering × Runner × Env} (h : looksUp p = some v) :
    v ∈ p.1.remaining := by
  obtain ⟨r, who, env⟩ := p
  cases who with
  | answer =>
    unfold looksUp at h
    split at h
    · next u _ _ _ hstage =>
      have hstage : r.stage = .lookingUp u _ _ := hstage
      cases h
      simp [remaining, hstage]
    · cases h
  | ui i => cases h

/-- Only a look-up that finds no entry makes the task panic. -/
theorem Step.panics (h : Step r e r') (hpanics : r'.stage = .panicked) :
    r.stage = .panicked ∨
      ∃ v, looksUp (r, e) = some v ∧ ¬ (r.state.playingVideos.lookup v).isSome := by
  cases Step.turn h with
  | select env hstage hstate hnext =>
    rw [hnext] at hpanics
    cases hpanics
  | found env hstage hfound => cases hpanics
  | @missed u source videos env hstage hnone =>
    have hlooks : looksUp (r, .answer, env) = some u := by
      unfold looksUp
      rw [hstage]
    exact .inr ⟨u, hlooks, hnone⟩
  | startPlaying env htask hstate hstage => exact .inl (hstage.symm.trans hpanics)
  | launch env htask hstate hstage => exact .inl (hstage.symm.trans hpanics)
  | stopPlaying env htask hstate hstage => exact .inl (hstage.symm.trans hpanics)

/-- A run in which every look-up finds an entry does not panic. -/
theorem running_of_found (h : Run Step r tr t) (hr : r.stage ≠ .panicked)
    (hfound : ∀ p ∈ tr, ∀ v, looksUp p = some v → (p.1.state.playingVideos.lookup v).isSome) :
    t.stage ≠ .panicked := by
  induction h with
  | refl => exact hr
  | @tail t u tr e _ he ih =>
    intro hpanics
    rcases Step.panics he hpanics with hbefore | ⟨v, hlooks, hnone⟩
    · exact ih (fun p hp ↦ hfound p (List.mem_append_left _ hp)) hbefore
    · exact hnone (hfound (t, e) (List.mem_append_right _ (List.mem_singleton_self _)) v hlooks)

/-- The loop starts with videos that are played and wait for a node. -/
theorem playing_of_start {s : State} {addr : SocketAddr} {packet : VideoListPacket}
    {now : SystemTime} {tasks : List UiTask} (h : start? s addr packet now tasks = some r)
    (hv : v ∈ r.remaining) : (r.state.playingVideos.lookup v).isSome := by
  unfold start? at h
  split at h
  · cases h
    obtain ⟨⟨p, hp, -⟩, -⟩ := State.mem_pendingVideos.mp hv
    exact Option.isSome_iff_exists.mpr ⟨p, hp⟩
  · cases h

/-- The packet task survives a ping answer just if no video is looked up after the user has
ended it and not entered it again. -/
theorem survives_iff {s : State} {addr : SocketAddr} {packet : VideoListPacket}
    {now : SystemTime} {tasks : List UiTask} (hstart : start? s addr packet now tasks = some r)
    (hrun : Run Step r tr t) : Survives tr t ↔ Undisturbed tr := by
  constructor
  · intro h l p rest v htr hlooks hended
    have hfound := h.found p (htr ▸ List.mem_append_right l List.mem_cons_self) v hlooks
    have hbefore := (htr ▸ hrun : Run Step r (l ++ p :: rest) t).split.1
    rw [playing_run hbefore v, hended] at hfound
    cases hfound
  · intro h
    have hfound : ∀ p ∈ tr, ∀ v, looksUp p = some v →
        (p.1.state.playingVideos.lookup v).isSome := by
      intro p hp v hlooks
      obtain ⟨l, rest, htr, hbefore, -⟩ := hrun.exists_split hp
      have hmem := remaining_run hbefore (looksUp_remaining hlooks)
      rw [playing_run hbefore v, playing_of_start hstart hmem]
      cases hclick : lastClick v l with
      | none => rfl
      | some b =>
        cases b with
        | true => rfl
        | false => exact absurd hclick (h l p rest v htr hlooks)
    constructor
    · exact hfound
    · apply running_of_found hrun _ hfound
      unfold start? at hstart
      split at hstart
      · cases hstart
        exact AnswerStage.noConfusion
      · cases hstart

/-- Undisturbed runs, step by step. -/
theorem undisturbed_of_take (h : ∀ i < tr.length, ∀ p ∈ tr[i]?,
    (looksUp p).all fun v ↦ lastClick v (tr.take i) ≠ some false) : Undisturbed tr := by
  rintro l p rest v rfl hlooks
  have hat := h l.length (by simp) p (by simp)
  rw [hlooks, List.take_left] at hat
  exact of_decide_eq_true hat

/-- A client that waits for a node for video 5, and has pinged its only node. -/
def waiting : State :=
  simulate (.new [.v4 1]) [(.uiStartPlaying 5, calmEnv 0), (.pingNodes, calmEnv 0)]

/-- The answer of that node, which offers the video, while the user has some tasks. -/
def answering (tasks : List UiTask) : Answering :=
  (start? waiting (IpAddr.v4 1).atPort ⟨0, [(5, "")], 0⟩ 1 tasks).getD ⟨waiting, .panicked, [], []⟩

/-- Steps in which everything succeeds. -/
def schedule (whos : List Runner) : List (Runner × Env) := whos.map (·, calmEnv 1)

/-- The user stops the video, starts it again and stops another one in the meantime. -/
def startedMeanwhile : List (Answering × Runner × Env) × Answering :=
  trace step? (answering [.stopPlaying 5, .startPlaying 5, .stopPlaying 7])
    (schedule [.answer, .ui 0, .ui 0, .ui 0, .ui 0, .answer])

/-- The task comes to its end although the user clicked three times in the meantime. -/
theorem survives_startedMeanwhile : Survives startedMeanwhile.1 startedMeanwhile.2 ∧
    startedMeanwhile.1.filterMap clicked = [(5, false), (5, true), (7, false)] ∧
    startedMeanwhile.2.stage = .selecting [] := by
  constructor
  · have hstart : start? waiting (IpAddr.v4 1).atPort ⟨0, [(5, "")], 0⟩ 1
        [.stopPlaying 5, .startPlaying 5, .stopPlaying 7] =
          some (answering [.stopPlaying 5, .startPlaying 5, .stopPlaying 7]) := rfl
    apply (survives_iff hstart (run_trace step? _ _)).mpr
    apply undisturbed_of_take
    decide +kernel
  · decide +kernel

/-- The user stops the video whose request is being sent. -/
def stoppedMeanwhile : List (Answering × Runner × Env) × Answering :=
  trace step? (answering [.stopPlaying 5]) (schedule [.answer, .ui 0, .answer])

/-- A video that is stopped while its request is sent is looked up in vain. -/
theorem stoppedMeanwhile_panics :
    start? waiting (IpAddr.v4 1).atPort ⟨0, [(5, "")], 0⟩ 1 [.stopPlaying 5] =
      some (answering [.stopPlaying 5]) ∧
    Run Step (answering [.stopPlaying 5]) stoppedMeanwhile.1 stoppedMeanwhile.2 ∧
    stoppedMeanwhile.2.stage = .panicked ∧
    ¬ Survives stoppedMeanwhile.1 stoppedMeanwhile.2 := by
  have hpanics : stoppedMeanwhile.2.stage = .panicked := by decide +kernel
  constructor
  · rfl
  constructor
  · exact run_trace step? _ _
  constructor
  · exact hpanics
  · exact fun h ↦ h.running hpanics

end Runs

section Alone

variable {r r' t : Answering} {tr : List (Answering × Runner × Env)}

/-- What the loop of `handle_ping_answer` makes of the state when no one else changes it. -/
def redirected : List VideoId → State → State
  | [], s => s
  | v :: videos, s =>
    if (s.playingVideos.lookup v).isSome then
      redirected videos (s.setSource v (s.selectBestNode v))
    else s

private theorem forM_redirectPendingVideo (videos : List VideoId) (c : Ctx) :
    (finalState (videos.forM redirectPendingVideo) c).state = redirected videos c.state := by
  induction videos generalizing c with
  | nil => rfl
  | cons v videos ih =>
    have hcons : (v :: videos).forM redirectPendingVideo c =
        (redirectPendingVideo v >>= fun _ ↦ videos.forM redirectPendingVideo) c := rfl
    obtain ⟨c', hselect, hc'⟩ := selectBestServerAndRequest_ok v c
    unfold redirected
    split
    · next hsome =>
      have hturn : redirectPendingVideo v c =
          .ok () (c'.setState (c'.state.setSource v (c.state.selectBestNode v))) := by
        simp only [redirectPendingVideo, bind_apply, hselect, getState, hc', if_pos hsome]
        rw [← hc']
        rfl
      rw [finalState_congr (hcons.trans (by rw [bind_apply, hturn])), ih, ← hc']
      rfl
    · next hnone =>
      have hturn : redirectPendingVideo v c = .error .unwrapNone c' := by
        simp only [redirectPendingVideo, bind_apply, hselect, getState, hc', if_neg hnone]
        rfl
      rw [bind_apply, hturn] at hcons
      rw [finalState_of_error hcons, hc']

/-- The state in which the loop ends when no one else changes it. -/
def loopEnd (r : Answering) : State :=
  match r.stage with
  | .selecting videos => redirected videos r.state
  | .lookingUp v source videos =>
    if (r.state.playingVideos.lookup v).isSome then
      redirected videos (r.state.setSource v source)
    else r.state
  | .panicked => r.state

private theorem Step.loopEnd_eq {env : Env} (h : Step r (.answer, env) r') :
    r'.loopEnd = r.loopEnd := by
  cases Step.turn h with
  | select env hstage hstate hnext =>
    simp only [loopEnd, hstage, hnext, redirected, hstate]
  | found env hstage hfound => simp only [loopEnd, hstage, if_pos hfound]
  | missed env hstage hnone => simp only [loopEnd, hstage, if_neg hnone]

/-- Without the tasks of the user, the steps are those of `handle_ping_answer`. -/
theorem alone_eq_handlePingAnswer {s : State} {addr : SocketAddr} {packet : VideoListPacket}
    {env : Env} {tasks : List UiTask} (hstart : start? s addr packet env.now tasks = some r)
    (hrun : Run Step r tr t) (halone : ∀ p ∈ tr, p.2.1 = .answer) (hover : t.remaining = []) :
    t.state = (finalState (handlePingAnswer addr packet) ⟨env, s, 0, []⟩).state := by
  have hloop : t.loopEnd = r.loopEnd := by
    apply hrun.invariant_of_forall (I := fun u ↦ u.loopEnd = r.loopEnd)
      (P := fun _ e ↦ e.1 = .answer) _ halone rfl
    rintro u ⟨who, env⟩ u' hu hanswer hstep
    obtain rfl : who = .answer := hanswer
    exact (Step.loopEnd_eq hstep).trans hu
  have hend : t.loopEnd = t.state := by
    unfold loopEnd
    unfold remaining at hover
    cases hstage : t.stage with
    | selecting videos =>
      rw [hstage] at hover
      obtain rfl : videos = [] := hover
      rfl
    | lookingUp v source videos =>
      rw [hstage] at hover
      cases hover
    | panicked => rfl
  rw [← hend, hloop]
  unfold start? at hstart
  split at hstart
  · next asked startTime hping =>
    cases hstart
    have hnames : (s.updateVideoNames packet.videos).pendingPings.lookup packet.sequenceNumber =
        some (asked, startTime) := hping
    have hloop := forM_redirectPendingVideo
      ((((s.updateVideoNames packet.videos).dropPing packet.sequenceNumber).answered addr
        (durationSince env.now startTime) (packet.videos.map Prod.fst) env.now).pendingVideos
          (packet.videos.map Prod.fst))
      ⟨env, ((s.updateVideoNames packet.videos).dropPing packet.sequenceNumber).answered addr
        (durationSince env.now startTime) (packet.videos.map Prod.fst) env.now, 0, []⟩
    refine hloop.symm.trans (congrArg Ctx.state (finalState_congr ?_))
    simp only [handlePingAnswer, bind_apply, modifyState, getState, Ctx.setState, hnames]
    rfl
  · cases hstart

end Alone
end Answering
end PessiStreamer.Client
