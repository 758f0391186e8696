import PessiStreamer.Base.Channel
import PessiStreamer.Client.Sources

/-!
# What a client plays

Packets of a playing video are written, in the order in which they arrive, into the channel of its
player, from which a task feeds the process that shows it; `client/src/video.rs:46-79`. So at all
times the process got the first of the data that arrived since it was started.
-/

namespace PessiStreamer.Client
open Base Common

/-- A process that plays a video, and the channel to the task that feeds it. -/
structure VideoPlayer where
  channel : Channel 1024 (List UInt8)
  /-- what is left of the data that the task is writing -/
  writing : Option (List UInt8)
  /-- what the process was fed -/
  stdin : List UInt8
  /-- the task writes only while it goes on -/
  goesOn : writing.isSome → channel.listening
  deriving Repr

/-- A turn of the task that feeds the process; `client/src/video.rs:62`. -/
inductive FeedTurn where
  /-- the task takes data out of the channel -/
  | receive
  /-- the process takes so many bytes of what `write_all` has left -/
  | write (count : Nat)
  /-- `write_all` fails, and the task ends -/
  | fail
  deriving DecidableEq, Repr

namespace VideoPlayer

/-- `VideoPlayer::launch`; `client/src/video.rs:48`. -/
def launch : VideoPlayer := ⟨.empty, none, [], fun _ ↦ rfl⟩

/-- `VideoPlayer::write`; `client/src/video.rs:76`. -/
def write (p : VideoPlayer) (data : List UInt8) : VideoPlayer where
  channel := p.channel.send data
  writing := p.writing
  stdin := p.stdin
  goesOn := fun h ↦ (p.channel.listening_send data).trans (p.goesOn h)

/-- The task takes the oldest data out of the channel, unless it is still writing. -/
def receive (p : VideoPlayer) : VideoPlayer :=
  match p.writing with
  | some _ => p
  | none =>
    match h : p.channel.receive? with
    | some (data, channel) =>
      ⟨channel, some data, p.stdin, fun _ ↦ (Channel.receive?_eq_some h).2.2⟩
    | none => p

/-- The process takes so many bytes; once it has all of them the task is done with the data. -/
def writeSome (p : VideoPlayer) (count : Nat) : VideoPlayer :=
  match h : p.writing with
  | some data => ⟨p.channel, if data.length ≤ count then none else some (data.drop count),
      p.stdin ++ data.take count, fun _ ↦ p.goesOn (by rw [h]; rfl)⟩
  | none => p

/-- The task ends in the midst of the data, and takes the channel with it. -/
def breakOff (p : VideoPlayer) : VideoPlayer :=
  match p.writing with
  | some _ => ⟨p.channel.leave, none, p.stdin, fun h ↦ by cases h⟩
  | none => p

/-- One turn of the task. -/
def feed (p : VideoPlayer) : FeedTurn → VideoPlayer
  | .receive => p.receive
  | .write count => p.writeSome count
  | .fail => p.breakOff

/-- What the process was fed, and what waits for it with the task and in the channel. -/
def taken (p : VideoPlayer) : List UInt8 :=
  p.stdin ++ p.writing.getD [] ++ p.channel.queue.flatten

/-- Data that is written waits behind all other. -/
theorem taken_write {p : VideoPlayer} (hready : p.channel.Ready)
    (hl : p.channel.listening = true) (data : List UInt8) :
    (p.write data).taken = p.taken ++ data := by
  rw [taken, write, Channel.queue_send hready hl, List.flatten_append, ← List.append_assoc]
  simp [taken]

/-- Data that leaves the channel is with the task. -/
theorem taken_receive (p : VideoPlayer) : p.receive.taken = p.taken ∧
    p.receive.channel.listening = p.channel.listening ∧ p.receive.stdin = p.stdin := by
  unfold receive
  split
  · exact ⟨rfl, rfl, rfl⟩
  · next hidle =>
    split
    · next data channel hreceive =>
      obtain ⟨hqueue, hl, hlistens⟩ := Channel.receive?_eq_some hreceive
      refine ⟨?_, hlistens.trans hl.symm, rfl⟩
      simp [taken, hqueue, hidle]
    · exact ⟨rfl, rfl, rfl⟩

/-- What the process has not taken is left with the task. -/
theorem taken_writeSome (p : VideoPlayer) (count : Nat) : (p.writeSome count).taken = p.taken ∧
    (p.writeSome count).channel = p.channel ∧
    ((p.writeSome count).stdin ≠ p.stdin → p.channel.listening) := by
  unfold writeSome
  split
  · next data hwriting =>
    have hleft : (if data.length ≤ count then none else some (data.drop count)).getD [] =
        data.drop count := by
      split
      · next hle => exact (List.drop_eq_nil_of_le hle).symm
      · rfl
    refine ⟨?_, rfl, fun _ ↦ p.goesOn (by rw [hwriting]; rfl)⟩
    simp only [taken, hwriting, hleft, Option.getD_some, List.append_assoc p.stdin,
      List.take_append_drop]
  · exact ⟨rfl, rfl, fun h ↦ (h rfl).elim⟩

/-- A turn that does not fail loses nothing, and the task goes on. -/
theorem feed_of_ne_fail (p : VideoPlayer) {turn : FeedTurn} (hturn : turn ≠ .fail) :
    (p.feed turn).taken = p.taken ∧
      (p.feed turn).channel.listening = p.channel.listening := by
  cases turn with
  | receive => exact ⟨p.taken_receive.1, p.taken_receive.2.1⟩
  | write count =>
    obtain ⟨htaken, hchannel, -⟩ := p.taken_writeSome count
    exact ⟨htaken, congrArg Channel.listening hchannel⟩
  | fail => exact (hturn rfl).elim

/-- The process gets this data, in order, and while its task goes on the rest is with the task or
in the channel. -/
structure Plays (p : VideoPlayer) (data : List UInt8) : Prop where
  fed : p.stdin <+: data
  waiting : p.channel.listening → p.taken = data

private theorem plays_launch : launch.Plays [] := ⟨List.prefix_rfl, fun _ ↦ rfl⟩

private theorem Plays.write {p : VideoPlayer} {data more : List UInt8} (h : p.Plays data)
    (hready : p.channel.Ready) (hl : p.channel.listening) :
    (p.write more).Plays (data ++ more) := by
  refine ⟨h.fed.trans (List.prefix_append _ _), fun _ ↦ ?_⟩
  rw [taken_write hready hl, h.waiting hl]

private theorem Plays.feed {p : VideoPlayer} {data : List UInt8} (h : p.Plays data)
    (turn : FeedTurn) : (p.feed turn).Plays data := by
  cases turn with
  | receive =>
    obtain ⟨htaken, hlistens, hstdin⟩ := p.taken_receive
    refine ⟨hstdin.symm ▸ h.fed, fun hl ↦ htaken.trans (h.waiting ?_)⟩
    exact hlistens.symm.trans hl
  | write count =>
    obtain ⟨htaken, hchannel, hfed⟩ := p.taken_writeSome count
    refine ⟨?_, fun hl ↦ htaken.trans (h.waiting (hchannel ▸ hl))⟩
    by_cases hsame : (p.writeSome count).stdin = p.stdin
    · exact hsame.symm ▸ h.fed
    · -- a task that writes goes on
      have hdata : (p.writeSome count).taken = data := htaken.trans (h.waiting (hfed hsame))
      rw [taken, List.append_assoc] at hdata
      exact ⟨_, hdata⟩
  | fail =>
    unfold VideoPlayer.feed breakOff
    dsimp only
    split
    · exact ⟨h.fed, fun hl ↦ by cases hl⟩
    · exact h

end VideoPlayer

/-- The packets of the video that the client has been playing, oldest first, after an event. -/
def Event.watch (v : VideoId) (packets : Option (List VideoPacket)) (e : Event) :
    Option (List VideoPacket) :=
  match e.input with
  | .uiStartPlaying u => if u = v ∧ e.env.launches then some [] else packets
  | .uiStopPlayingId u => if u = v then none else packets
  | .packet (.videoPacket p) _ =>
    if p.streamId = v then
      if e.env.writes then packets.map (· ++ [p]) else none
    else packets
  | _ => packets

/-- The packets that a run brought since it last started the video, if it is still playing. -/
def watched (v : VideoId) (tr : List (State × Event)) : Option (List VideoPacket) :=
  tr.foldl (fun packets p ↦ p.2.watch v packets) none

/-- The number of the last packet, and the number of bytes modulo 2^64. -/
def PlayingVideo.progress (p : PlayingVideo) : UInt64 × UInt64 :=
  (p.lastSequenceNumber, p.bytesWritten)

/-- The same of packets that were played. -/
def progressOf (packets : List VideoPacket) : UInt64 × UInt64 :=
  ((packets.getLast?.map VideoPacket.sequenceNumber).getD 0,
    .ofNat (packets.map fun p ↦ p.streamData.length).sum)

namespace State

/-- How far the client played the video. -/
def progress (s : State) (v : VideoId) : Option (UInt64 × UInt64) :=
  (s.playingVideos.lookup v).map PlayingVideo.progress

variable {s : State} {v u : VideoId}

/-- The source of a video plays no part in how far it was played. -/
@[simp] theorem progress_setSource (source : Option SocketAddr) :
    (s.setSource u source).progress v = s.progress v := by
  simp only [progress, setSource, Map.lookup_modify]
  split
  · next h =>
    rw [h, Option.map_map]
    rfl
  · rfl

private theorem progress_startPlaying (source : Option SocketAddr) :
    (s.startPlaying source u).progress v = if v = u then some (0, 0) else s.progress v := by
  simp only [progress, startPlaying, Map.lookup_insert_ite]
  split
  · rfl
  · rfl

private theorem progress_stopPlaying :
    (s.stopPlaying u).progress v = if v = u then none else s.progress v := by
  simp only [progress, stopPlaying, Map.lookup_erase_ite]
  split
  · rfl
  · rfl

private theorem progress_recordVideoPacket {p : VideoPacket} : (s.recordVideoPacket p).progress v =
    if v = p.streamId then
      (s.progress v).map fun x ↦ (p.sequenceNumber, x.2 + .ofNat p.streamData.length)
    else s.progress v := by
  simp only [progress, recordVideoPacket, Map.lookup_modify]
  split
  · next h =>
    rw [h, Option.map_map, Option.map_map]
    rfl
  · rfl

end State

section Handlers

variable {v u : VideoId} {a : SocketAddr} {x : Option (UInt64 × UInt64)}
  {E : ClientError → Ctx → Prop}

/-- How far the video was played. -/
abbrev At (v : VideoId) (x : Option (UInt64 × UInt64)) : State → Prop := fun s ↦ s.progress v = x

private theorem selectBestServerAndRequest_progress :
    Triple (OnState (At v x)) (selectBestServerAndRequest u) (fun _ ↦ OnState (At v x)) E :=
  (selectBestServerAndRequest_rule u).weaken fun _ _ hc ↦ hc.1

private theorem redirectVideo_progress :
    Triple (OnState (At v x)) (redirectVideo u) (fun _ ↦ OnState (At v x)) E := by
  apply selectBestServerAndRequest_progress.bind
  intro source
  exact modifyState_rule fun s hs ↦ (State.progress_setSource source).trans hs

private theorem redirectPendingVideo_progress : Keeps (At v x) (redirectPendingVideo u) := by
  apply selectBestServerAndRequest_progress.bind
  intro source
  apply bind_getState_keep
  intro s
  apply Triple.ite
  · exact fun _ ↦ modifyState_rule fun s hs ↦ (State.progress_setSource source).trans hs
  · exact fun _ _ hc ↦ hc

private theorem handlePingAnswer_progress (p : VideoListPacket) :
    Keeps (At v x) (handlePingAnswer a p) := by
  apply Triple.bind (Q := fun _ ↦ OnState (At v x))
  · exact modifyState_rule fun _ ↦ id
  intro _
  apply bind_getState_keep
  intro s
  cases s.pendingPings.lookup p.sequenceNumber with
  | none => exact Triple.pure fun c hc ↦ hc
  | some ping =>
    apply Triple.bind (Q := fun _ ↦ OnState (At v x))
    · exact modifyState_rule fun _ ↦ id
    intro _
    apply bind_now_rule
    intro t
    apply Triple.bind (Q := fun _ ↦ OnState (At v x))
    · exact modifyState_rule fun _ ↦ id
    intro _
    apply bind_getState_keep
    intro s
    exact Triple.forM fun u _ ↦ redirectPendingVideo_progress

private theorem handleUnresponsivePingsNodes_progress (now : SocketAddr → SystemTime) :
    Keeps (At v x) (handleUnresponsivePingsNodes now) := by
  apply bind_getState_keep
  intro s
  apply Triple.forM
  intro a _
  apply Triple.bind (Q := fun _ ↦ OnState (At v x))
  · exact modifyState_rule fun _ ↦ id
  intro _
  apply bind_getState_keep
  intro t
  exact Triple.forM fun u _ ↦ redirectVideo_progress

/-- The selection returns, and changes neither the state nor the surroundings. -/
theorem selectBestServerAndRequest_ok (u : VideoId) (c : Ctx) : ∃ source c',
    selectBestServerAndRequest u c = .ok source c' ∧ c'.state = c.state ∧ c'.env = c.env := by
  cases hb : c.state.selectBestNode u with
  | none => exact ⟨none, c, by simp [selectBestServerAndRequest, getState, hb], rfl, rfl⟩
  | some n =>
    have hsend : (finalState (requestStartVideo n u) c).state = c.state ∧
        (finalState (requestStartVideo n u) c).env = c.env := by
      unfold finalState requestStartVideo send
      cases c.env.sendResult c.attempts with
      | ok r => exact ⟨rfl, rfl⟩
      | error e => exact ⟨rfl, rfl⟩
    refine ⟨some n, finalState (requestStartVideo n u) c, ?_, hsend⟩
    simp only [selectBestServerAndRequest, getState, hb, bind_apply, attempt_apply, pure_apply]

/-- A video starts from nothing, if its player does. -/
theorem uiStartPlaying_progress (u : VideoId) (c : Ctx) :
    (finalState (uiStartPlaying u) c).state.progress v =
      if u = v ∧ c.env.launches then some (0, 0) else c.state.progress v := by
  obtain ⟨source, c', hselect, hstate, henv⟩ := selectBestServerAndRequest_ok u c
  have hrun : uiStartPlaying u c = attempt (startVideoProcess source u) c' := by
    rw [uiStartPlaying, bind_apply, hselect]
  rw [finalState_congr hrun, ← hstate, ← henv]
  cases hl : c'.env.launches with
  | false =>
    simp [finalState, attempt, startVideoProcess, launchVideoPlayer, hl]
  | true =>
    simp only [finalState, attempt, startVideoProcess, launchVideoPlayer, hl, bind_apply,
      if_true, modifyState, Ctx.setState, State.progress_startPlaying, and_true, eq_comm]

/-- A video that is stopped is played no more. -/
theorem uiStopPlayingId_progress (u : VideoId) (c : Ctx) :
    (finalState (uiStopPlayingId u) c).state.progress v =
      if u = v then none else c.state.progress v := by
  cases hv : c.state.playingVideos.lookup u with
  | none =>
    have hrun : uiStopPlayingId u c = .ok () c := by
      simp [uiStopPlayingId, getState, hv]
    rw [finalState_of_ok hrun]
    split
    · next h =>
      subst h
      simp [State.progress, hv]
    · rfl
  | some video =>
    have hstopped : At v (if u = v then none else c.state.progress v)
        (c.state.stopPlaying u) := by
      simp only [At, State.progress_stopPlaying, eq_comm]
    cases hsource : video.source with
    | none =>
      have hrun : uiStopPlayingId u c = .ok () (c.setState (c.state.stopPlaying u)) := by
        simp only [uiStopPlayingId, getState, modifyState, hv, hsource, bind_apply, pure_apply]
      rw [finalState_of_ok hrun]
      exact hstopped
    | some source =>
      have hrun : uiStopPlayingId u c =
          attempt (requestStopVideo source u) (c.setState (c.state.stopPlaying u)) := by
        simp only [uiStopPlayingId, getState, modifyState, hv, hsource, bind_apply]
      have hkeep : Keeps (At v (if u = v then none else c.state.progress v))
          (attempt (requestStopVideo source u)) := Triple.attempt (keeps_send _ source)
      rw [finalState_congr hrun]
      exact hkeep.finalState hstopped

/-- A packet of a playing video is counted, or ends the video. -/
theorem handleVideoPacket_progress (p : VideoPacket) (c : Ctx) :
    (finalState (handleVideoPacket a p) c).state.progress v =
      if p.streamId = v then
        if c.env.writes then
          (c.state.progress v).map fun x ↦ (p.sequenceNumber, x.2 + .ofNat p.streamData.length)
        else none
      else c.state.progress v := by
  cases hv : c.state.playingVideos.lookup p.streamId with
  | none =>
    have hrun : handleVideoPacket a p c = .ok () c := by
      simp [handleVideoPacket, getState, hv]
    rw [finalState_of_ok hrun]
    split
    · next h =>
      subst h
      simp [State.progress, hv]
    · rfl
  | some video =>
    cases hw : c.env.writes with
    | true =>
      have hrun : handleVideoPacket a p c = .ok () (c.setState (c.state.recordVideoPacket p)) := by
        simp [handleVideoPacket, getState, modifyState, writeVideoPlayer, Ctx.setState, hv, hw]
      rw [finalState_of_ok hrun]
      simp only [Ctx.setState, State.progress_recordVideoPacket, if_true, eq_comm]
    | false =>
      let rest : Handler Unit := attempt (requestStopVideo a p.streamId) >>= fun _ ↦
        modifyState fun s ↦ s.stopPlaying p.streamId
      have hrest : Triple
          (OnState fun s ↦ p.streamId ≠ v → s.progress v = c.state.progress v) rest
          (fun _ ↦ OnState (At v (if p.streamId = v then none else c.state.progress v)))
          fun _ ↦ OnState (At v (if p.streamId = v then none else c.state.progress v)) := by
        apply Triple.bind (Triple.attempt (S := fun _ ↦ OnState _) (keeps_send _ a))
        intro _
        apply modifyState_rule
        intro s hs
        simp only [At, State.progress_stopPlaying, eq_comm (a := v)]
        split
        · rfl
        · next h => exact hs h
      have hrun : handleVideoPacket a p c = rest (c.setState (c.state.recordVideoPacket p)) := by
        simp [handleVideoPacket, getState, modifyState, writeVideoPlayer, Ctx.setState, hv, hw,
          rest]
      rw [finalState_congr hrun]
      simp only [Bool.false_eq_true, if_false]
      apply hrest.finalState
      intro h
      rw [Ctx.setState, State.progress_recordVideoPacket, if_neg (Ne.symm h)]

end Handlers

namespace Event

variable {v : VideoId} {packets : Option (List VideoPacket)}

/-- An event counts the packet that it plays. -/
theorem progress_after (e : Event) (h : e.view.progress v = packets.map progressOf) :
    e.after.state.progress v = (e.watch v packets).map progressOf := by
  obtain ⟨input, env, view⟩ := e
  rcases input with u | u | ⟨p, a⟩ | now | _
  · refine (uiStartPlaying_progress u _).trans ?_
    simp only [watch]
    split
    · rfl
    · exact h
  · refine (uiStopPlayingId_progress u _).trans ?_
    simp only [watch]
    split
    · rfl
    · exact h
  · rcases p with p | p | p | ⟨⟨p⟩⟩
    · refine (handleVideoPacket_progress p _).trans ?_
      simp only [watch]
      split
      · split
        · rw [show view.progress v = _ from h, Option.map_map, Option.map_map]
          congr 1
          funext l
          simp [progressOf]
        · rfl
      · exact h
    · exact h
    · exact h
    · exact (handlePingAnswer_progress p).finalState h
  · exact (handleUnresponsivePingsNodes_progress now).finalState h
  · exact (startPingNodes_frame (P := At v (packets.map progressOf)) (fun _ ↦ id)
      fun _ _ _ _ ↦ id).finalState h

end Event

/-- What was watched, one event later. -/
theorem watched_concat (v : VideoId) (tr : List (State × Event)) (p : State × Event) :
    watched v (tr ++ [p]) = p.2.watch v (watched v tr) := by
  simp [watched]

/-- At the end of a run the client has counted the packets that it played. -/
theorem progress_of_run {servers : List IpAddr} {s : State} {tr : List (State × Event)}
    (hrun : Run Step (.new servers) tr s) (v : VideoId) :
    s.progress v = (watched v tr).map progressOf := by
  induction hrun with
  | refl => rfl
  | tail _ he ih =>
    obtain ⟨hview, rfl⟩ := he
    rw [watched_concat]
    apply Event.progress_after
    rw [← ih, State.progress, AList.perm_lookup hview.playingVideos, State.progress]

/-- A client and the players of its videos. -/
structure Viewer where
  client : State
  players : Map VideoId VideoPlayer

/-- An event of the client, or a turn of the task of a player. -/
inductive ViewerEvent where
  | client (e : Event)
  /-- the task of a player takes its turn -/
  | feed (videoId : VideoId) (turn : FeedTurn)

namespace Viewer

/-- What becomes of the players in an event of the client. -/
def play (players : Map VideoId VideoPlayer) (e : Event) : Map VideoId VideoPlayer :=
  match e.input with
  | .uiStartPlaying v => if e.env.launches then players.insert v .launch else players
  | .uiStopPlayingId v => players.erase v
  | .packet (.videoPacket p) _ =>
    if e.env.writes then players.modify p.streamId fun player ↦ player.write p.streamData
    else players.erase p.streamId
  | _ => players

/-- The player of the video takes the data, or the write fails as its task has ended. -/
def Takes (players : Map VideoId VideoPlayer) (e : Event) : Prop :=
  ∀ p a, e.input = .packet (.videoPacket p) a → ∀ player, players.lookup p.streamId = some player →
    player.channel.Ready ∧ e.env.writes = player.channel.listening

/-- One atomic step. -/
inductive Step : Viewer → ViewerEvent → Viewer → Prop
  | client {s : Viewer} {e : Event} {t : State} : Client.Step s.client e t → Takes s.players e →
      Step s (.client e) ⟨t, play s.players e⟩
  | feed {s : Viewer} {v : VideoId} {turn : FeedTurn} :
      Step s (.feed v turn)
        { s with players := s.players.modify v fun player ↦ player.feed turn }

/-- The event of the client that a step is. -/
def clientStep (p : Viewer × ViewerEvent) : Option (State × Event) :=
  match p.2 with
  | .client e => some (p.1.client, e)
  | .feed _ _ => none

/-- The steps of the client in a run. -/
def clientSteps (tr : List (Viewer × ViewerEvent)) : List (State × Event) :=
  tr.filterMap clientStep

/-- The data of packets. -/
def dataOf (packets : List VideoPacket) : List UInt8 := packets.flatMap VideoPacket.streamData

/-- There is a player for each video that is played, and it plays the packets of the video. -/
def Shows (players : Map VideoId VideoPlayer) (v : VideoId)
    (packets : Option (List VideoPacket)) : Prop :=
  match packets with
  | none => players.lookup v = none
  | some l => ∃ player, players.lookup v = some player ∧ player.Plays (dataOf l)

/-- What is neither about the video nor brings a packet of it leaves its player alone. -/
theorem lookup_play_of_other (players : Map VideoId VideoPlayer) {v : VideoId} {e : Event}
    (hstart : e.input = .uiStartPlaying v → e.env.launches = false)
    (hstop : e.input ≠ .uiStopPlayingId v)
    (hpacket : ∀ p a, e.input = .packet (.videoPacket p) a → p.streamId ≠ v) :
    (play players e).lookup v = players.lookup v := by
  unfold Viewer.play
  split
  · next u hin =>
    split
    · next hl =>
      rw [Map.lookup_insert_ite, if_neg]
      rintro rfl
      rw [hstart hin] at hl
      cases hl
    · rfl
  · next u hin =>
    rw [Map.lookup_erase_ite, if_neg]
    rintro rfl
    exact hstop hin
  · next p a hin =>
    have hne := Ne.symm (hpacket p a hin)
    split
    · rw [Map.lookup_modify, if_neg hne]
    · rw [Map.lookup_erase_ite, if_neg hne]
  · rfl

/-- The player takes the data of a packet of its video. -/
theorem lookup_play_of_packet (players : Map VideoId VideoPlayer) {e : Event} {p : VideoPacket}
    {a : SocketAddr} (hin : e.input = .packet (.videoPacket p) a) (hwrites : e.env.writes = true) :
    (play players e).lookup p.streamId =
      (players.lookup p.streamId).map fun player ↦ player.write p.streamData := by
  simp only [Viewer.play, hin, hwrites, if_true, Map.lookup_modify]

/-- The players go along with the client. -/
theorem Shows.play {players : Map VideoId VideoPlayer} {v : VideoId}
    {packets : Option (List VideoPacket)} {e : Event} (h : Shows players v packets)
    (htakes : Takes players e) : Shows (play players e) v (e.watch v packets) := by
  have hother (hstart : e.input = .uiStartPlaying v → e.env.launches = false)
      (hstop : e.input ≠ .uiStopPlayingId v)
      (hpacket : ∀ p a, e.input = .packet (.videoPacket p) a → p.streamId ≠ v) :
      Shows (Viewer.play players e) v packets := by
    unfold Shows
    rw [lookup_play_of_other players hstart hstop hpacket]
    exact h
  unfold Event.watch
  split
  · next u hin =>
    split
    · next hu =>
      obtain ⟨rfl, hl⟩ := hu
      simp only [Viewer.play, hin, hl, if_true]
      exact ⟨.launch, AList.lookup_insert _, VideoPlayer.plays_launch⟩
    · next hu =>
      apply hother
      · intro hv
        cases hin.symm.trans hv
        simpa using hu
      · simp [hin]
      · simp [hin]
  · next u hin =>
    split
    · next hu =>
      subst hu
      simp only [Viewer.play, hin]
      exact AList.lookup_erase _ _
    · next hu => exact hother (by simp [hin]) (by simpa [hin] using hu) (by simp [hin])
  · next p a hin =>
    split
    · next hp =>
      subst hp
      split
      · next hwrites =>
        have hplay := lookup_play_of_packet players hin hwrites
        cases packets with
        | none =>
          have hnone : players.lookup p.streamId = none := h
          rw [hnone] at hplay
          exact hplay
        | some l =>
          obtain ⟨player, hplayer, hplays⟩ := h
          obtain ⟨hready, hlistens⟩ := htakes p a hin player hplayer
          rw [hplayer] at hplay
          refine ⟨player.write p.streamData, hplay, ?_⟩
          rw [dataOf, List.flatMap_append, List.flatMap_singleton]
          exact hplays.write hready (hlistens ▸ hwrites)
      · next hfails =>
        simp only [Viewer.play, hin, hfails]
        exact AList.lookup_erase _ _
    · next hp =>
      refine hother (by simp [hin]) (by simp [hin]) fun q b hq ↦ ?_
      cases hin.symm.trans hq
      exact hp
  · next hstart hstop hpacket =>
    exact hother (fun hv ↦ (hstart v hv).elim) (fun hv ↦ hstop v hv)
      fun p a hp ↦ (hpacket p a hp).elim

/-- So they do when a task takes its turn. -/
theorem Shows.feed {players : Map VideoId VideoPlayer} {v : VideoId}
    {packets : Option (List VideoPacket)} (h : Shows players v packets) (u : VideoId)
    (turn : FeedTurn) :
    Shows (players.modify u fun player ↦ player.feed turn) v packets := by
  cases packets with
  | none =>
    have hnone : players.lookup v = none := h
    simp only [Shows, Map.lookup_modify]
    split
    · next huv => rw [← huv, hnone, Option.map_none]
    · exact hnone
  | some l =>
    obtain ⟨player, hplayer, hplays⟩ := h
    simp only [Shows, Map.lookup_modify]
    split
    · next huv => exact ⟨_, by rw [← huv, hplayer, Option.map_some], hplays.feed turn⟩
    · exact ⟨player, hplayer, hplays⟩

variable {servers : List IpAddr} {tr : List (Viewer × ViewerEvent)} {s : Viewer}

private theorem clientSteps_client (tr : List (Viewer × ViewerEvent)) (s : Viewer) (e : Event) :
    clientSteps (tr ++ [(s, .client e)]) = clientSteps tr ++ [(s.client, e)] :=
  List.filterMap_append

private theorem clientSteps_feed (tr : List (Viewer × ViewerEvent)) (s : Viewer) (v : VideoId)
    (turn : FeedTurn) : clientSteps (tr ++ [(s, .feed v turn)]) = clientSteps tr := by
  simp [clientSteps, clientStep]

private theorem run_clientSteps {s₀ : Viewer} (hrun : Run Viewer.Step s₀ tr s) :
    Run Client.Step s₀.client (clientSteps tr) s.client := by
  induction hrun with
  | refl => exact .refl _
  | tail _ he ih =>
    cases he with
    | client he _ =>
      rw [clientSteps_client]
      exact ih.tail he
    | feed =>
      rw [clientSteps_feed]
      exact ih

/-- In every state of every run the client counts the packets that came since it started a video,
and the process that shows the video was fed the first of their data, in order; while its task
goes on the rest is waiting with the task or in the channel. -/
theorem shows_of_run (hrun : Run Viewer.Step ⟨.new servers, ∅⟩ tr s) (v : VideoId) :
    s.client.progress v = (watched v (clientSteps tr)).map progressOf ∧
      Shows s.players v (watched v (clientSteps tr)) := by
  refine ⟨progress_of_run (run_clientSteps hrun) v, ?_⟩
  induction hrun with
  | refl => rfl
  | tail _ he ih =>
    cases he with
    | client _ htakes =>
      rw [clientSteps_client, watched_concat]
      exact ih.play htakes
    | feed =>
      rw [clientSteps_feed]
      exact ih.feed _ _

/-- A client starts a video. -/
def started : Event := ⟨.uiStartPlaying 5, calmEnv 0, .new [.v4 1]⟩

/-- A packet of the video comes. -/
def shown : Event :=
  ⟨.packet (.videoPacket ⟨5, 1, [7, 8]⟩) (IpAddr.v4 1).atPort, calmEnv 0, started.after.state⟩

/-- The client after the packet, when the task has the data and the process took the first byte. -/
def fedPlayers : Map VideoId VideoPlayer :=
  ((play (play ∅ started) shown).modify 5 fun player ↦ player.feed .receive).modify 5
    fun player ↦ player.feed (.write 1)

/-- The process got the first of the two bytes, and the task still has the other one. -/
theorem shows_of_run_fed : (fedPlayers.lookup 5).map VideoPlayer.stdin = some [7] ∧
    Shows fedPlayers 5 (some [⟨5, 1, [7, 8]⟩]) := by
  have hstarted : Viewer.Step ⟨.new [.v4 1], ∅⟩ (.client started)
      ⟨started.after.state, Viewer.play ∅ started⟩ :=
    .client ⟨.refl _, rfl⟩ fun p a hin ↦ by simp [started] at hin
  have hshown : Viewer.Step ⟨started.after.state, Viewer.play ∅ started⟩ (.client shown)
      ⟨shown.after.state, Viewer.play (Viewer.play ∅ started) shown⟩ := by
    refine .client ⟨.refl _, rfl⟩ fun p a hin player hplayer ↦ ?_
    cases hin
    cases hplayer
    exact ⟨by decide, rfl⟩
  have hfed : Viewer.Step ⟨shown.after.state, Viewer.play (Viewer.play ∅ started) shown⟩
      (.feed 5 .receive) ⟨shown.after.state,
        (Viewer.play (Viewer.play ∅ started) shown).modify 5 fun player ↦ player.feed .receive⟩ :=
    .feed
  have hwritten : Viewer.Step ⟨shown.after.state,
      (Viewer.play (Viewer.play ∅ started) shown).modify 5 fun player ↦ player.feed .receive⟩
      (.feed 5 (.write 1)) ⟨shown.after.state, fedPlayers⟩ :=
    .feed
  refine ⟨by decide +kernel, ?_⟩
  exact (shows_of_run ((((Run.single hstarted).tail hshown).tail hfed).tail hwritten) 5).2

end Viewer
end PessiStreamer.Client
