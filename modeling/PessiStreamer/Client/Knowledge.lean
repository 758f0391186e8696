import PessiStreamer.Client.Averages

/-!
# What a client knows of its nodes

The names and the nodes change when an answer to a ping arrives, and a silent node is marked. So
what is true of all answers is true of all that the client knows.
-/

namespace PessiStreamer.Client
open Base Common

/-- Enter what an answer tells, and the time it took if it is expected;
`client/src/client.rs:189`. -/
def State.receiveAnswer (s : State) (addr : SocketAddr) (p : VideoListPacket)
    (now : SystemTime) : State :=
  match s.pendingPings.lookup p.sequenceNumber with
  | some (_, startTime) =>
    ((s.updateVideoNames p.videos).dropPing p.sequenceNumber).answered addr
      (durationSince now startTime) (p.videos.map Prod.fst) now
  | none => s.updateVideoNames p.videos

/-- The state of the client with the answer that an event brings. -/
def Event.received (e : Event) : State :=
  match e.input with
  | .packet (.clientPacket (.videoList p)) addr => e.view.receiveAnswer addr p e.env.now
  | _ => e.view

/-- The property does not depend on the videos that are played. -/
structure Unconcerned (P : State → Prop) : Prop where
  startPlaying : ∀ s source v, P s → P (s.startPlaying source v)
  stopPlaying : ∀ s v, P s → P (s.stopPlaying v)
  setSource : ∀ s v source, P s → P (s.setSource v source)
  recordVideoPacket : ∀ s p, P s → P (s.recordVideoPacket p)

namespace Unconcerned

variable {P : State → Prop} {v : VideoId} {a : SocketAddr} {E : ClientError → Ctx → Prop}

private theorem selectBestServerAndRequest :
    Triple (OnState P) (selectBestServerAndRequest v) (fun _ ↦ OnState P) E :=
  (selectBestServerAndRequest_rule v).weaken fun _ _ hc ↦ hc.1

private theorem redirectVideo (h : Unconcerned P) :
    Triple (OnState P) (redirectVideo v) (fun _ ↦ OnState P) E := by
  apply selectBestServerAndRequest.bind
  intro source
  exact modifyState_rule fun s hs ↦ h.setSource s v source hs

private theorem redirectPendingVideo (h : Unconcerned P) : Keeps P (redirectPendingVideo v) := by
  apply selectBestServerAndRequest.bind
  intro source
  apply bind_getState_keep
  intro s
  apply Triple.ite
  · exact fun _ ↦ modifyState_rule fun s hs ↦ h.setSource s v source hs
  · exact fun _ _ hc ↦ hc

private theorem uiStartPlaying (h : Unconcerned P) : Keeps P (uiStartPlaying v) := by
  apply selectBestServerAndRequest.bind
  intro source
  apply Triple.attempt
  apply Triple.bind (Q := fun _ ↦ OnState P)
  · intro c hc
    cases hl : c.env.launches with
    | false => simpa [launchVideoPlayer, hl] using hc
    | true => simpa [launchVideoPlayer, hl] using hc
  · intro _
    exact modifyState_rule fun s hs ↦ h.startPlaying s source v hs

private theorem handleUnresponsivePingsNodes (h : Unconcerned P)
    (hmark : ∀ s a, P s → P (s.markUnresponsive a)) (now : SocketAddr → SystemTime) :
    Keeps P (handleUnresponsivePingsNodes now) := by
  apply bind_getState_keep
  intro s
  apply Triple.forM
  intro a _
  apply Triple.bind (Q := fun _ ↦ OnState P)
  · exact modifyState_rule fun s hs ↦ hmark s a hs
  intro _
  apply bind_getState_keep
  intro t
  exact Triple.forM fun v _ ↦ h.redirectVideo

/-- What holds once the answer was entered holds in the end. -/
theorem handlePingAnswer (h : Unconcerned P) {p : VideoListPacket} {c : Ctx}
    (hc : P (c.state.receiveAnswer a p c.env.now)) :
    P (finalState (handlePingAnswer a p) c).state := by
  unfold State.receiveAnswer at hc
  cases hping : c.state.pendingPings.lookup p.sequenceNumber with
  | none =>
    rw [hping] at hc
    have hrun : Client.handlePingAnswer a p c =
        .ok () (c.setState (c.state.updateVideoNames p.videos)) := by
      simp [Client.handlePingAnswer, modifyState, getState, Ctx.setState, State.updateVideoNames,
        hping]
    rw [finalState_of_ok hrun]
    exact hc
  | some ping =>
    rw [hping] at hc
    let t := ((c.state.updateVideoNames p.videos).dropPing p.sequenceNumber).answered a
      (durationSince c.env.now ping.2) (p.videos.map Prod.fst) c.env.now
    have hrun : Client.handlePingAnswer a p c =
        (t.pendingVideos (p.videos.map Prod.fst)).forM Client.redirectPendingVideo
          (c.setState t) := by
      simp [Client.handlePingAnswer, modifyState, getState, now, Ctx.setState,
        State.updateVideoNames, hping, t]
    rw [finalState_congr hrun]
    have hkeep : Keeps P
        ((t.pendingVideos (p.videos.map Prod.fst)).forM Client.redirectPendingVideo) :=
      Triple.forM fun v _ ↦ h.redirectPendingVideo
    exact hkeep.finalState hc

/-- The handler of an event, where the property survives the marks and the pings of the client. -/
theorem after (h : Unconcerned P) {e : Event} (hmark : ∀ s a, P s → P (s.markUnresponsive a))
    (hpings : e.input = .pingNodes → P e.after.state) (he : P e.received) : P e.after.state := by
  obtain ⟨input, env, view⟩ := e
  rcases input with v | v | ⟨p, a⟩ | now | _
  · exact h.uiStartPlaying.finalState he
  · exact (uiStopPlayingId_frame h.stopPlaying v).finalState he
  · rcases p with p | p | p | ⟨⟨p⟩⟩
    · exact (handleVideoPacket_frame h.recordVideoPacket h.stopPlaying a p).finalState he
    · exact he
    · exact he
    · exact h.handlePingAnswer he
  · exact (h.handleUnresponsivePingsNodes hmark now).finalState he
  · exact hpings rfl

end Unconcerned

/-- The names come from such lists, and so do the videos of each node that ever answered. -/
structure Informed (T : SocketAddr → List VideoId → Prop) (L : VideoId × String → Prop)
    (s : State) : Prop where
  names : ∀ v name, s.videoNames.lookup v = some name → L (v, name)
  nodes : ∀ n node, s.nodes.lookup n = some node →
    (node.status ≠ .connected ∧ node.availableVideos = []) ∨ T n node.availableVideos

namespace Informed

variable {T T' : SocketAddr → List VideoId → Prop} {L L' : VideoId × String → Prop} {s t : State}

/-- Where it comes from may be said more generously. -/
theorem mono (h : Informed T L s) (hT : ∀ n vs, T n vs → T' n vs) (hL : ∀ x, L x → L' x) :
    Informed T' L' s := by
  refine ⟨fun v name hv ↦ hL _ (h.names v name hv), fun n node hn ↦ ?_⟩
  rcases h.nodes n node hn with hnew | htold
  · exact .inl hnew
  · exact .inr (hT n _ htold)

/-- The order of the maps plays no part. -/
theorem reorder (h : Informed T L s) (hview : s.Reorder t) : Informed T L t := by
  constructor
  · intro v name hv
    rw [AList.perm_lookup hview.videoNames] at hv
    exact h.names v name hv
  · intro n node hn
    rw [AList.perm_lookup hview.nodes] at hn
    exact h.nodes n node hn

private theorem unconcerned : Unconcerned (Informed T L) where
  startPlaying _ _ _ h := ⟨h.names, h.nodes⟩
  stopPlaying _ _ h := ⟨h.names, h.nodes⟩
  setSource _ _ _ h := ⟨h.names, h.nodes⟩
  recordVideoPacket _ _ h := ⟨h.names, h.nodes⟩

private theorem markUnresponsive (h : Informed T L s) (a : SocketAddr) :
    Informed T L (s.markUnresponsive a) := by
  refine ⟨h.names, fun n node hn ↦ ?_⟩
  simp only [State.markUnresponsive, Map.lookup_modify] at hn
  split at hn
  · next hna =>
    obtain ⟨node', hn', rfl⟩ := Option.map_eq_some_iff.mp hn
    rcases h.nodes n node' (hna ▸ hn') with hnew | htold
    · exact .inl ⟨by simp, hnew.2⟩
    · exact .inr htold
  · exact h.nodes n node hn

private theorem updateVideoNames (h : Informed T L s) {videos : List (VideoId × String)}
    (hvideos : ∀ x ∈ videos, L x) : Informed T L (s.updateVideoNames videos) := by
  refine ⟨fun v name hv ↦ ?_, h.nodes⟩
  simp only [State.updateVideoNames, Map.lookup_foldl_insert_last] at hv
  rcases Option.or_eq_some_iff.mp hv with hlast | ⟨-, hv⟩
  · obtain ⟨x, hx, hname⟩ := List.mem_filterMap.mp (List.mem_of_getLast? hlast)
    split at hname
    · next hxv =>
      cases hname
      exact hxv ▸ hvideos x hx
    · cases hname
  · exact h.names v name hv

private theorem answered (h : Informed T L s) {a : SocketAddr} {videos : List VideoId}
    (hvideos : T a videos) (rtt : Duration) (now : SystemTime) :
    Informed T L (s.answered a rtt videos now) := by
  refine ⟨h.names, fun n node hn ↦ ?_⟩
  simp only [State.answered, Map.lookup_modify] at hn
  split at hn
  · next hna =>
    obtain ⟨node', -, rfl⟩ := Option.map_eq_some_iff.mp hn
    exact .inr (hna ▸ hvideos)
  · exact h.nodes n node hn

/-- An answer that brings such lists. -/
theorem receiveAnswer (h : Informed T L s) {a : SocketAddr} {p : VideoListPacket}
    (htold : T a (p.videos.map Prod.fst)) (hlists : ∀ x ∈ p.videos, L x) (now : SystemTime) :
    Informed T L (s.receiveAnswer a p now) := by
  have hnames := h.updateVideoNames hlists
  unfold State.receiveAnswer
  cases s.pendingPings.lookup p.sequenceNumber with
  | none => exact hnames
  | some ping =>
    have hdrop : Informed T L ((s.updateVideoNames p.videos).dropPing p.sequenceNumber) :=
      ⟨hnames.names, hnames.nodes⟩
    exact hdrop.answered htold _ now

/-- One run of a handler. -/
theorem after {e : Event} (h : Informed T L e.view)
    (hanswer : ∀ p a, e.input = .packet (.clientPacket (.videoList p)) a →
      T a (p.videos.map Prod.fst) ∧ ∀ x ∈ p.videos, L x) : Informed T L e.after.state := by
  apply unconcerned.after (fun _ a hs ↦ hs.markUnresponsive a)
  · intro hin
    have hkeep : Keeps (Informed T L) (handleInput e.input) := by
      rw [hin]
      exact startPingNodes_frame (fun _ hs ↦ ⟨hs.names, hs.nodes⟩)
        fun _ _ _ _ hs ↦ ⟨hs.names, hs.nodes⟩
    exact hkeep.finalState h
  · unfold Event.received
    split
    · next p a hin =>
      obtain ⟨htold, hlists⟩ := hanswer p a hin
      exact h.receiveAnswer htold hlists e.env.now
    · exact h

end Informed

/-- A fresh client was told nothing. -/
theorem informed_new {T : SocketAddr → List VideoId → Prop} {L : VideoId × String → Prop}
    (servers : List IpAddr) : Informed T L (.new servers) where
  names _ _ h := by cases h
  nodes n node hn := by
    obtain ⟨a, rfl⟩ := lookup_new hn
    exact .inl ⟨by simp [Node.new], rfl⟩

/-- The packets that clients send. -/
def sends : Packet → Bool
  | .nodePacket (.clientPing _ _) | .serverPacket _ => true
  | _ => false

/-- The input is a packet that arrives. -/
def Input.isPacket : Input → Bool
  | .packet _ _ => true
  | _ => false

section Sends

/-- Only such packets were sent so far. -/
def SentOnly (R : Packet → Prop) (c : Ctx) : Prop := ∀ x ∈ c.sent, R x.2

variable {R : Packet → Prop} {v : VideoId} {a : SocketAddr}

private theorem send_sent {p : Packet} (hp : R p) : Maintains (SentOnly R) (send p a) := by
  intro c hc
  unfold send
  cases c.env.sendResult c.attempts with
  | ok u =>
    intro x hx
    rcases List.mem_append.mp hx with hx | hx
    · exact hc x hx
    · rw [List.mem_singleton.mp hx]
      exact hp
  | error e => exact hc

private theorem modifyState_sent (f : State → State) : Maintains (SentOnly R) (modifyState f) :=
  fun _ hc ↦ hc

private theorem getState_sent : Maintains (SentOnly R) getState := fun _ hc ↦ hc

variable (hserver : ∀ p, R (.serverPacket p))
include hserver

private theorem selectBestServerAndRequest_sent :
    Maintains (SentOnly R) (selectBestServerAndRequest v) := by
  apply getState_sent.bind
  intro s
  cases s.selectBestNode v with
  | some n =>
    apply Maintains.bind
    · exact Maintains.attempt (send_sent (hserver _))
    · exact fun _ ↦ Maintains.pure _
  | none => exact Maintains.pure _

private theorem redirectVideo_sent : Maintains (SentOnly R) (redirectVideo v) :=
  (selectBestServerAndRequest_sent hserver).bind fun _ ↦ modifyState_sent _

private theorem redirectPendingVideo_sent : Maintains (SentOnly R) (redirectPendingVideo v) := by
  apply (selectBestServerAndRequest_sent hserver).bind
  intro source
  apply getState_sent.bind
  intro s
  exact Maintains.ite (fun _ ↦ modifyState_sent _) fun _ _ hc ↦ hc

private theorem uiStartPlaying_sent : Maintains (SentOnly R) (uiStartPlaying v) := by
  apply (selectBestServerAndRequest_sent hserver).bind
  intro source
  apply Maintains.attempt
  apply Maintains.bind
  · intro c hc
    cases hl : c.env.launches with
    | false => simpa [launchVideoPlayer, hl] using hc
    | true => simpa [launchVideoPlayer, hl] using hc
  · exact fun _ ↦ modifyState_sent _

private theorem uiStopPlayingId_sent : Maintains (SentOnly R) (uiStopPlayingId v) := by
  apply getState_sent.bind
  intro s
  cases s.playingVideos.lookup v with
  | none => exact Maintains.pure ()
  | some video =>
    apply (modifyState_sent _).bind
    intro _
    cases video.source with
    | none => exact Maintains.pure ()
    | some source => exact Maintains.attempt (send_sent (hserver _))

private theorem handleVideoPacket_sent (p : VideoPacket) :
    Maintains (SentOnly R) (handleVideoPacket a p) := by
  apply getState_sent.bind
  intro s
  apply Maintains.ite
  · intro _
    apply (modifyState_sent _).bind
    intro _
    apply Maintains.bind
    · exact fun _ hc ↦ hc
    intro written
    apply Maintains.ite
    · exact fun _ ↦ Maintains.pure ()
    · intro _
      apply Maintains.bind
      · exact Maintains.attempt (send_sent (hserver _))
      · exact fun _ ↦ modifyState_sent _
  · exact fun _ ↦ Maintains.pure ()

private theorem handlePingAnswer_sent (p : VideoListPacket) :
    Maintains (SentOnly R) (handlePingAnswer a p) := by
  apply (modifyState_sent _).bind
  intro _
  apply getState_sent.bind
  intro s
  cases s.pendingPings.lookup p.sequenceNumber with
  | none => exact Maintains.pure ()
  | some ping =>
    apply (modifyState_sent _).bind
    intro _
    apply Maintains.bind
    · exact fun _ hc ↦ hc
    intro t
    apply (modifyState_sent _).bind
    intro _
    apply getState_sent.bind
    intro s
    exact Maintains.forM fun v _ ↦ redirectPendingVideo_sent hserver

private theorem handleUnresponsivePingsNodes_sent (now : SocketAddr → SystemTime) :
    Maintains (SentOnly R) (handleUnresponsivePingsNodes now) := by
  apply getState_sent.bind
  intro s
  apply Maintains.forM
  intro a _
  apply (modifyState_sent _).bind
  intro _
  apply getState_sent.bind
  intro t
  exact Maintains.forM fun v _ ↦ redirectVideo_sent hserver

omit hserver in
private theorem startPingNodes_sent (hping : ∀ n vs, R (.nodePacket (.clientPing n vs))) :
    Maintains (SentOnly R) startPingNodes := by
  apply getState_sent.bind
  intro s
  apply Maintains.forM
  intro e _
  apply getState_sent.bind
  intro t
  apply (modifyState_sent _).bind
  intro _
  apply Maintains.bind
  · exact fun _ hc ↦ hc
  intro time
  apply Maintains.attempt
  apply Maintains.bind
  · exact send_sent (hping _ _)
  · exact fun _ ↦ modifyState_sent _

/-- Whatever a client handles, it sends nothing but requests, stops and, in a sweep, pings. -/
theorem Event.of_sent (e : Event)
    (hping : e.input = .pingNodes → ∀ n vs, R (.nodePacket (.clientPing n vs))) :
    ∀ x ∈ e.after.sent, R x.2 := by
  have hrun : Maintains (SentOnly R) (handleInput e.input) := by
    cases hin : e.input with
    | uiStartPlaying v => exact uiStartPlaying_sent hserver
    | uiStopPlayingId v => exact uiStopPlayingId_sent hserver
    | packet p a =>
      rcases p with p | p | p | ⟨⟨p⟩⟩
      · exact handleVideoPacket_sent hserver p
      · exact fun _ hc ↦ hc
      · exact fun _ hc ↦ hc
      · exact handlePingAnswer_sent hserver p
    | unresponsivePingsNodes now => exact handleUnresponsivePingsNodes_sent hserver now
    | pingNodes => exact startPingNodes_sent (hping hin)
  exact hrun.finalState (by simp [SentOnly])

omit hserver in

/-- A client sends only what clients send. -/
theorem Event.sends_of_sent (e : Event) : ∀ x ∈ e.after.sent, sends x.2 :=
  e.of_sent (R := fun p ↦ sends p) (fun _ ↦ rfl) fun _ _ _ ↦ rfl

end Sends
end PessiStreamer.Client
