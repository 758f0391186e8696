import PessiStreamer.Base.Panic
import PessiStreamer.Client.Sources

/-!
# The round-trip times a client averages and the names it looks up

`Node::average_rtt` divides by the number of samples and panics where there are none. The handlers
that select a node are given once more with this panic. Over all runs each connected node has a
sample and each listed video a name, since an answer enters both along with the status and the
list; and no name is removed.
-/

namespace PessiStreamer.Client
open Base Common

/-- A handler that may panic. -/
abbrev PanickingHandler := Panicking ClientError Ctx

/-- `Node::average_rtt` with its panic; `client/src/client.rs:49`. -/
def Node.averageRtt? (n : Node) : Option Duration :=
  div? n.latestRtts.toList.sum n.latestRtts.toList.length

/-- `State::select_best_node` with its panics; `client/src/client.rs:272`. -/
def State.selectBestNode? (s : State) (videoId : VideoId) : Option (Option SocketAddr) := do
  let best ← selectNear? (fun e ↦ e.2.averageRtt?)
    (fun d ↦ d + d / 100 * State.DELAY_THRESHOLD_PERCENTAGE) s.selectKey (s.nodesListing videoId)
  return best.map fun e ↦ e.1

section Handlers

/-- `State::select_best_server_and_request`; `client/src/client.rs:147`. -/
def selectBestServerAndRequest? (videoId : VideoId) :
    PanickingHandler (Option SocketAddr) := do
  let s ← getState
  match ← s.selectBestNode? videoId with
  | some bestNodeAddr => do
    attempt (requestStartVideo bestNodeAddr videoId)
    return some bestNodeAddr
  | none => return none

/-- The task of `State::ui_start_playing`; `client/src/client.rs:159`. -/
def uiStartPlaying? (videoId : VideoId) : PanickingHandler Unit := do
  let bestNodeAddr ← selectBestServerAndRequest? videoId
  attempt (startVideoProcess bestNodeAddr videoId)

/-- One turn of the loop of `handle_ping_answer`; `client/src/client.rs:227`. -/
def redirectPendingVideo? (videoId : VideoId) : PanickingHandler Unit := do
  let source ← selectBestServerAndRequest? videoId
  let s ← getState
  if (s.playingVideos.lookup videoId).isSome then modifyState fun s ↦ s.setSource videoId source
  else (throw .unwrapNone : Handler Unit)

/-- `State::handle_ping_answer`; `client/src/client.rs:189`. -/
def handlePingAnswer? (addr : SocketAddr) (videoListPacket : VideoListPacket) :
    PanickingHandler Unit := do
  modifyState fun s ↦ s.updateVideoNames videoListPacket.videos
  let s ← getState
  match s.pendingPings.lookup videoListPacket.sequenceNumber with
  | some (_, startTime) => do
    modifyState fun s ↦ s.dropPing videoListPacket.sequenceNumber
    let t ← now
    let videos := videoListPacket.videos.map Prod.fst
    modifyState fun s ↦ s.answered addr (durationSince t startTime) videos t
    let s ← getState
    (s.pendingVideos videos).forM redirectPendingVideo?
  | none => pure ()

/-- One turn of the inner loop of `handle_unresponsive_pings_nodes_task`;
`client/src/client.rs:357`. -/
def redirectVideo? (videoId : VideoId) : PanickingHandler Unit := do
  let source ← selectBestServerAndRequest? videoId
  modifyState fun s ↦ s.setSource videoId source

/-- One turn of the loop over the nodes found silent; `client/src/client.rs:345`. -/
def nodeUnresponsive? (addr : SocketAddr) : PanickingHandler Unit := do
  modifyState fun s ↦ s.markUnresponsive addr
  let s ← getState
  (s.getVideosPlayingFromNode addr).forM redirectVideo?

/-- One sweep of `handle_unresponsive_pings_nodes_task`; `client/src/client.rs:325`. -/
def handleUnresponsivePingsNodes? (now : SocketAddr → SystemTime) : PanickingHandler Unit := do
  let s ← getState
  (s.unresponsiveNodes now).forM nodeUnresponsive?

/-- The handler of an input; those that select no node cannot panic. -/
def handleInput? : Input → PanickingHandler Unit
  | .uiStartPlaying videoId => uiStartPlaying? videoId
  | .packet (.clientPacket (.videoList packet)) addr => handlePingAnswer? addr packet
  | .unresponsivePingsNodes now => handleUnresponsivePingsNodes? now
  | input => liftM (handleInput input)

end Handlers

/-- Connected nodes have samples, listed videos have names, and so have the videos that are known
already. -/
structure Ready (known : VideoId → Prop) (s : State) : Prop where
  sampled : ∀ n node, s.nodes.lookup n = some node → node.status = .connected →
    node.latestRtts.toList ≠ []
  named : ∀ n node, s.nodes.lookup n = some node → ∀ v ∈ node.availableVideos,
    (s.videoNames.lookup v).isSome
  known : ∀ v, known v → (s.videoNames.lookup v).isSome

namespace Ready

variable {known : VideoId → Prop} {s t : State} {a : SocketAddr}

/-- The invariant is about the nodes and which videos have a name. -/
theorem congr (h : Ready known s) (hnodes : ∀ n, t.nodes.lookup n = s.nodes.lookup n)
    (hnames : ∀ v, (s.videoNames.lookup v).isSome → (t.videoNames.lookup v).isSome) :
    Ready known t where
  sampled := by
    intro n node hn
    exact h.sampled n node ((hnodes n).symm.trans hn)
  named := by
    intro n node hn v hv
    exact hnames v (h.named n node ((hnodes n).symm.trans hn) v hv)
  known := fun v hv ↦ hnames v (h.known v hv)

private theorem of_eq (h : Ready known s) (hnodes : t.nodes = s.nodes)
    (hnames : t.videoNames = s.videoNames) : Ready known t :=
  h.congr (fun _ ↦ hnodes ▸ rfl) fun _ hv ↦ hnames ▸ hv

private theorem reorder (h : Ready known s) (hview : s.Reorder t) : Ready known t := by
  apply h.congr
  · exact fun n ↦ AList.perm_lookup hview.nodes
  · intro v hv
    rw [AList.perm_lookup hview.videoNames]
    exact hv

private theorem markUnresponsive (h : Ready known s) (a : SocketAddr) :
    Ready known (s.markUnresponsive a) where
  sampled := by
    intro n node hn hstatus
    simp only [State.markUnresponsive, Map.lookup_modify] at hn
    split at hn
    · obtain ⟨node', -, rfl⟩ := Option.map_eq_some_iff.mp hn
      cases hstatus
    · exact h.sampled n node hn hstatus
  named := by
    intro n node hn v hv
    simp only [State.markUnresponsive, Map.lookup_modify] at hn
    split at hn
    · obtain ⟨node', hn', rfl⟩ := Option.map_eq_some_iff.mp hn
      exact h.named a node' hn' v hv
    · exact h.named n node hn v hv
  known := h.known

private theorem updateVideoNames (h : Ready known s) (videos : List (VideoId × String)) :
    Ready (fun v ↦ known v ∨ v ∈ videos.map Prod.fst) (s.updateVideoNames videos) where
  sampled := h.sampled
  named n node hn v hv := Map.lookup_foldl_insert_isSome.mpr (.inr (h.named n node hn v hv))
  known := by
    rintro v (hv | hv)
    · exact Map.lookup_foldl_insert_isSome.mpr (.inr (h.known v hv))
    · exact Map.lookup_foldl_insert_isSome.mpr (.inl hv)

/-- What is known may be forgotten. -/
theorem mono {known' : VideoId → Prop} (h : Ready known s) (hknown : ∀ v, known' v → known v) :
    Ready known' s :=
  ⟨h.sampled, h.named, fun v hv ↦ h.known v (hknown v hv)⟩

/-- An answer enters a sample along with the status, and lists videos with a name. -/
theorem answered {videos : List VideoId} {rtt : Duration} {now : SystemTime} (h : Ready known s)
    (hvideos : ∀ v ∈ videos, known v) : Ready known (s.answered a rtt videos now) where
  sampled := by
    intro n node hn hstatus
    simp only [State.answered, Map.lookup_modify] at hn
    split at hn
    · obtain ⟨node', -, rfl⟩ := Option.map_eq_some_iff.mp hn
      exact CircularBuffer.pushBack_ne_nil (by decide) _ _
    · exact h.sampled n node hn hstatus
  named := by
    intro n node hn v hv
    simp only [State.answered, Map.lookup_modify] at hn
    split at hn
    · obtain ⟨node', -, rfl⟩ := Option.map_eq_some_iff.mp hn
      exact h.known v (hvideos v hv)
    · exact h.named n node hn v hv
  known := h.known

/-- The selection among connected nodes does not panic. -/
theorem selectBestNode? (h : Ready known s) (v : VideoId) :
    s.selectBestNode? v = some (s.selectBestNode v) := by
  have hrtt : ∀ e ∈ s.nodesListing v, e.2.averageRtt? = some e.2.averageRtt := by
    intro e he
    obtain ⟨hn, hstatus, -⟩ := State.mem_nodesListing.mp he
    have hne := h.sampled e.1 e.2 hn hstatus
    exact div?_eq (Nat.pos_iff_ne_zero.mp (List.length_pos_of_ne_nil hne))
  rw [State.selectBestNode?, selectNear?_eq hrtt]
  rfl

end Ready

/-- While the client is ready, `g` does not panic and does what `m` does. -/
abbrev Safe {α : Type} (known : VideoId → Prop) (g : PanickingHandler α) (m : Handler α) : Prop :=
  NoPanic (OnState (Ready known)) g m (fun _ ↦ OnState (Ready known))
    fun _ ↦ OnState (Ready known)

namespace Safe

variable {α : Type} {known : VideoId → Prop} {v : VideoId} {a : SocketAddr}

private theorem lift {m : Handler α} (h : Keeps (Ready known) m) : Safe known (liftM m) m :=
  NoPanic.lift h

/-- The state that is read is ready. -/
theorem bind_getState {g : State → PanickingHandler α} {f : State → Handler α}
    (h : ∀ s, Ready known s → Safe known (g s) (f s)) :
    Safe known (liftM getState >>= g) (getState >>= f) where
  eq_some := fun c hc ↦ (h c.state hc).eq_some c hc
  triple := fun c hc ↦ (h c.state hc).triple c hc

private theorem modifyState {f : State → State} (hf : ∀ s, Ready known s → Ready known (f s)) :
    Safe known (liftM (modifyState f)) (modifyState f) :=
  lift (modifyState_rule hf)

/-- A change that leaves nodes and names as they are. -/
theorem modifyOther {f : State → State} (hnodes : ∀ s, (f s).nodes = s.nodes)
    (hnames : ∀ s, (f s).videoNames = s.videoNames) :
    Safe known (liftM (Client.modifyState f)) (Client.modifyState f) :=
  modifyState fun s hs ↦ hs.of_eq (hnodes s) (hnames s)

private theorem selectBestServerAndRequest :
    Safe known (selectBestServerAndRequest? v) (selectBestServerAndRequest v) := by
  apply bind_getState
  intro s hs
  apply NoPanic.bind_value (hs.selectBestNode? v)
  cases s.selectBestNode v with
  | some n =>
    apply NoPanic.bind (lift (Triple.attempt (keeps_send _ n)))
    exact fun _ ↦ NoPanic.pure fun _ hc ↦ hc
  | none => exact NoPanic.pure fun _ hc ↦ hc

private theorem uiStartPlaying : Safe known (uiStartPlaying? v) (uiStartPlaying v) := by
  apply selectBestServerAndRequest.bind
  intro source
  apply lift
  apply Triple.attempt
  apply Triple.bind (Q := fun _ ↦ OnState (Ready known))
  · intro c hc
    cases hl : c.env.launches with
    | false => simpa [launchVideoPlayer, hl] using hc
    | true => simpa [launchVideoPlayer, hl] using hc
  · intro _
    exact modifyState_rule fun s hs ↦ hs.of_eq rfl rfl

private theorem redirectPendingVideo :
    Safe known (redirectPendingVideo? v) (redirectPendingVideo v) := by
  apply selectBestServerAndRequest.bind
  intro source
  apply bind_getState
  intro s _
  apply NoPanic.ite
  · exact fun _ ↦ modifyOther (fun _ ↦ rfl) fun _ ↦ rfl
  · exact fun _ ↦ lift fun _ hc ↦ hc

private theorem redirectVideo : Safe known (redirectVideo? v) (redirectVideo v) := by
  apply selectBestServerAndRequest.bind
  exact fun source ↦ modifyOther (fun _ ↦ rfl) fun _ ↦ rfl

private theorem handlePingAnswer (p : VideoListPacket) :
    Safe known (handlePingAnswer? a p) (handlePingAnswer a p) := by
  apply NoPanic.bind
  · exact NoPanic.lift (modifyState_rule fun s hs ↦ hs.updateVideoNames p.videos)
  intro _
  suffices h : Safe (fun v ↦ known v ∨ v ∈ p.videos.map Prod.fst) _ _ by
    exact h.consequence (fun _ hc ↦ hc) (fun _ c hc ↦ hc.mono fun _ ↦ .inl)
      fun _ c hc ↦ hc.mono fun _ ↦ .inl
  apply bind_getState
  intro s _
  cases s.pendingPings.lookup p.sequenceNumber with
  | none => exact NoPanic.pure fun _ hc ↦ hc
  | some ping =>
    apply NoPanic.bind
    · exact modifyOther (fun _ ↦ rfl) fun _ ↦ rfl
    intro _
    apply NoPanic.bind (lift fun _ hc ↦ hc)
    intro t
    apply NoPanic.bind
    · exact modifyState fun s hs ↦ hs.answered fun _ ↦ .inr
    intro _
    apply bind_getState
    intro u _
    exact NoPanic.forM fun v _ ↦ redirectPendingVideo

private theorem nodeUnresponsive : Safe known (nodeUnresponsive? a) (nodeUnresponsive a) := by
  apply NoPanic.bind
  · exact modifyState fun s hs ↦ hs.markUnresponsive a
  intro _
  apply bind_getState
  intro s _
  exact NoPanic.forM fun v _ ↦ redirectVideo

private theorem handleUnresponsivePingsNodes (now : SocketAddr → SystemTime) :
    Safe known (handleUnresponsivePingsNodes? now) (handleUnresponsivePingsNodes now) := by
  apply bind_getState
  intro s _
  exact NoPanic.forM fun a _ ↦ nodeUnresponsive

/-- While the client is ready, no handler panics. -/
theorem handleInput (input : Input) : Safe known (handleInput? input) (handleInput input) := by
  rcases input with v | v | ⟨p, a⟩ | now | _
  · exact uiStartPlaying
  · exact lift (uiStopPlayingId_frame (P := Ready known) (fun _ _ hs ↦ hs.of_eq rfl rfl) v)
  · rcases p with p | p | p | ⟨⟨p⟩⟩
    · exact lift (handleVideoPacket_frame (P := Ready known) (fun _ _ hs ↦ hs.of_eq rfl rfl)
        (fun _ _ hs ↦ hs.of_eq rfl rfl) a p)
    · exact lift fun _ hc ↦ hc
    · exact lift fun _ hc ↦ hc
    · exact handlePingAnswer p
  · exact handleUnresponsivePingsNodes now
  · exact lift (startPingNodes_frame (P := Ready known) (fun _ hs ↦ hs.of_eq rfl rfl)
      fun _ _ _ _ hs ↦ hs.of_eq rfl rfl)

end Safe

section Runs

variable {servers : List IpAddr} {s t : State} {tr : List (State × Event)}
  {known : VideoId → Prop}

/-- The nodes of a fresh client were never heard of. -/
theorem lookup_new {n : SocketAddr} {node : Node}
    (h : (State.new servers).nodes.lookup n = some node) : ∃ a, node = .new a := by
  rcases Map.lookup_foldl_insert h with ⟨ip, -, rfl⟩ | hnone
  · exact ⟨ip.atPort, rfl⟩
  · cases hnone

/-- A new client knows no videos, and no node is connected. -/
theorem ready_new (servers : List IpAddr) : Ready (fun _ ↦ False) (.new servers) where
  sampled := by
    intro n node hn hstatus
    obtain ⟨a, rfl⟩ := lookup_new hn
    cases hstatus
  named := by
    intro n node hn v hv
    obtain ⟨a, rfl⟩ := lookup_new hn
    cases hv
  known := fun _ ↦ False.elim

/-- A run keeps the client ready. -/
theorem Ready.run (h : Ready known s) (hrun : Run Step s tr t) : Ready known t := by
  apply hrun.invariant (I := Ready known) _ h
  rintro s e t hs ⟨hview, rfl⟩
  exact Triple.finalState (Safe.handleInput e.input).triple (hs.reorder hview)

/-- Whatever a client meets after a run, its handler does not panic. -/
theorem not_panics (hrun : Run Step (.new servers) tr s) {e : Event} (hview : s.Reorder e.view) :
    handleInput? e.input ⟨e.env, e.view, 0, []⟩ =
      some (handleInput e.input ⟨e.env, e.view, 0, []⟩) :=
  (Safe.handleInput e.input).eq_some _ (((ready_new servers).run hrun).reorder hview)

end Runs
end PessiStreamer.Client
