import PessiStreamer.Node.Tasks

/-!
# What each operation of a node can do

One lemma for each primitive and each handler without a loop, with all of its outcomes;
the proofs about whole steps use these and unfold no handler.
-/

namespace PessiStreamer.Node
open Base Common

namespace Ctx

/-- The state is the new one. -/
@[simp] theorem setState_state (c : Ctx) (s : State) : (c.setState s).state = s := rfl

/-- Of two states the second one counts. -/
@[simp] theorem setState_setState (c : Ctx) (s t : State) :
    (c.setState s).setState t = c.setState t := rfl

/-- The surroundings stay. -/
@[simp] theorem setState_env (c : Ctx) (s : State) : (c.setState s).env = c.env := rfl

/-- A change of the state sends nothing. -/
@[simp] theorem setState_sent (c : Ctx) (s : State) : (c.setState s).sent = c.sent := rfl

/-- A change of the state tries no send. -/
@[simp] theorem setState_attempts (c : Ctx) (s : State) :
    (c.setState s).attempts = c.attempts := rfl

/-- A packet that is sent was tried. -/
@[simp] theorem push_attempts (c : Ctx) (p : Packet) (a : SocketAddr) :
    (c.push p a).attempts = c.attempts + 1 := rfl

/-- A send that fails was tried. -/
@[simp] theorem fail_attempts (c : Ctx) : c.fail.attempts = c.attempts + 1 := rfl

/-- A send leaves the state as it is. -/
@[simp] theorem push_state (c : Ctx) (p : Packet) (a : SocketAddr) :
    (c.push p a).state = c.state := rfl

/-- The surroundings stay. -/
@[simp] theorem push_env (c : Ctx) (p : Packet) (a : SocketAddr) : (c.push p a).env = c.env := rfl

/-- The packet joins those sent before. -/
@[simp] theorem push_sent (c : Ctx) (p : Packet) (a : SocketAddr) :
    (c.push p a).sent = c.sent ++ [(a, p)] := rfl

/-- A send that fails leaves the state as it is. -/
@[simp] theorem fail_state (c : Ctx) : c.fail.state = c.state := rfl

/-- The surroundings stay. -/
@[simp] theorem fail_env (c : Ctx) : c.fail.env = c.env := rfl

/-- A send that fails sends nothing. -/
@[simp] theorem fail_sent (c : Ctx) : c.fail.sent = c.sent := rfl

end Ctx

/-- The state is read as it is. -/
@[simp] theorem getState_apply (c : Ctx) : getState c = .ok c.state c := rfl

/-- The clock is read once. -/
@[simp] theorem now_apply (c : Ctx) : now c = .ok c.env.now c := rfl

/-- A change of the state cannot fail. -/
@[simp] theorem modifyState_apply (f : State → State) (c : Ctx) :
    modifyState f c = .ok () (c.setState (f c.state)) := rfl

/-- Reading the state names it for what follows. -/
theorem triple_bind_getState {α : Type} {P : Ctx → Prop} {f : State → Handler α}
    {Q : α → Ctx → Prop} {E : HandlerError → Ctx → Prop}
    (h : ∀ s, Triple (fun c ↦ P c ∧ c.state = s) (f s) Q E) :
    Triple P (getState >>= f) Q E :=
  fun c hc ↦ h c.state c ⟨hc, rfl⟩

/-- A send is counted, and either handed to the network or failed. -/
theorem send_cases (p : Packet) (a : SocketAddr) (c : Ctx) :
    send p a c = .ok () (c.push p a) ∨
      ∃ e, c.env.sendResult c.attempts = .error e ∧ send p a c = .error (.socket e) c.fail := by
  unfold send
  cases h : c.env.sendResult c.attempts with
  | ok u => exact .inl rfl
  | error e => exact .inr ⟨e, rfl, rfl⟩

/-- Where all sends succeed this one does. -/
theorem send_of_allOk {p : Packet} {a : SocketAddr} {c : Ctx} (h : c.env.AllOk) :
    send p a c = .ok () (c.push p a) := by
  simp [send, h c.attempts]

/-- A request goes out and the route is installed, or the send fails and nothing changes. -/
theorem requestVideoToNode_cases (v : VideoId) (n : SocketAddr) (c : Ctx) :
    requestVideoToNode v n c =
        .ok () ((c.push (.serverPacket (.requestVideo v)) n).setState (c.state.setRoute v n)) ∨
      ∃ e, c.env.sendResult c.attempts = .error e ∧
        requestVideoToNode v n c = .error (.socket e) c.fail := by
  rcases send_cases (.serverPacket (.requestVideo v)) n c with h | ⟨e, he, h⟩
  · exact .inl (by simp [requestVideoToNode, h])
  · exact .inr ⟨e, he, by simp [requestVideoToNode, h]⟩

/-- A request enters the subscriber; unless the video is already routed, it is then asked
for at the best node, or queued where there is none. -/
theorem handleRequestVideo_cases (v : VideoId) (a : SocketAddr) (c : Ctx) :
    ((c.state.videoRoutes.lookup v).isSome ∧
        handleRequestVideo v a c = .ok () (c.setState (c.state.subscribe v a))) ∨
    (c.state.videoRoutes.lookup v = none ∧ ∃ n, c.state.getBestNodeToRedirect v = some n ∧
        handleRequestVideo v a c = requestVideoToNode v n (c.setState (c.state.subscribe v a))) ∨
    (c.state.videoRoutes.lookup v = none ∧ c.state.getBestNodeToRedirect v = none ∧
        handleRequestVideo v a c =
          .ok () (c.setState ((c.state.subscribe v a).enqueue [v]))) := by
  cases hr : c.state.videoRoutes.lookup v with
  | some n => exact .inl ⟨rfl, by simp [handleRequestVideo, hr]⟩
  | none =>
    have hbest : (c.state.subscribe v a).getBestNodeToRedirect v =
        c.state.getBestNodeToRedirect v := rfl
    cases hb : c.state.getBestNodeToRedirect v with
    | some n =>
      exact .inr (.inl ⟨rfl, n, rfl, by simp [handleRequestVideo, hr, hbest, hb]⟩)
    | none => exact .inr (.inr ⟨rfl, rfl, by simp [handleRequestVideo, hr, hbest, hb]⟩)

/-- A stop removes the subscriber; when it was the last one of a routed video, the route is
removed and the node told to stop. -/
theorem handleStopVideo_cases (v : VideoId) (a : SocketAddr) (c : Ctx) :
    (((c.state.unsubscribe v a).subscribers v ≠ [] ∨ c.state.videoRoutes.lookup v = none) ∧
        handleStopVideo v a c = .ok () (c.setState (c.state.unsubscribe v a))) ∨
    ((c.state.unsubscribe v a).subscribers v = [] ∧
        ∃ n, c.state.videoRoutes.lookup v = some n ∧
          handleStopVideo v a c = send (.serverPacket (.stopVideo v)) n
            (c.setState ((c.state.unsubscribe v a).dropRoute v))) := by
  by_cases hs : (c.state.unsubscribe v a).subscribers v = []
  · cases hr : c.state.videoRoutes.lookup v with
    | none => exact .inl ⟨.inr rfl, by simp [handleStopVideo, hr]⟩
    | some n => exact .inr ⟨hs, n, rfl, by simp [handleStopVideo, hr, hs]⟩
  · refine .inl ⟨.inl hs, ?_⟩
    have hl : ((c.state.unsubscribe v a).subscribers v).length ≠ 0 := by
      simpa using hs
    simp only [handleStopVideo, bind_apply, modifyState_apply, getState_apply,
      Ctx.setState_state]
    rw [if_neg hl]
    rfl

/-- The subscriber that entered is one for the video. -/
theorem mem_subscribe (s : State) (v : VideoId) (a : SocketAddr) :
    a ∈ (s.subscribe v a).subscribers v := by
  rw [State.subscribe_subscribers, if_pos rfl]
  by_cases ha : a ∈ s.subscribers v
  · simp [ha]
  · simp [ha]

/-- An entry lists the subscribers of its video. -/
theorem subscribers_of_mem_entries {s : State} {e : Sigma fun _ : VideoId ↦ List SocketAddr}
    (h : e ∈ s.interested.entries) : s.subscribers e.1 = e.2 := by
  rw [State.subscribers, Map.mem_entries_iff.mp h]
  rfl

/-- A video with a subscriber has an entry. -/
theorem mem_entries_of_subscriber {s : State} {v : VideoId} {a : SocketAddr}
    (h : a ∈ s.subscribers v) : ⟨v, s.subscribers v⟩ ∈ s.interested.entries := by
  unfold State.subscribers at h
  cases hl : s.interested.lookup v with
  | none =>
    rw [hl] at h
    cases h
  | some l =>
    rw [State.subscribers, hl]
    exact Map.mem_entries_iff.mpr hl

/-- A video is received from the node that it is routed over. -/
theorem mem_videosReceiving {s : State} {a : SocketAddr} {v : VideoId} :
    v ∈ s.videosReceiving a ↔ s.videoRoutes.lookup v = some a := by
  simp only [State.videosReceiving, List.mem_map, List.mem_filter, decide_eq_true_eq]
  constructor
  · rintro ⟨e, ⟨he, rfl⟩, rfl⟩
    exact Map.mem_entries_iff.mp he
  · intro h
    exact ⟨⟨v, a⟩, ⟨Map.mem_entries_iff.mpr h, rfl⟩, rfl⟩

/-- The videos to ask for are queued and listed. -/
theorem mem_pendingListed {s : State} {videos : List (VideoId × String)} {v : VideoId} :
    v ∈ s.pendingListed videos ↔ v ∈ s.pendingVideoRequests ∧ v ∈ videos.map Prod.fst := by
  simp [State.pendingListed]

/-- The rule for the redirecting loop: an invariant about the videos still to come and
those left without a node, kept by each request and by each video that is left. -/
theorem redirectVideos_rule {I : List VideoId → List VideoId → Ctx → Prop}
    {E : HandlerError → Ctx → Prop}
    (hsome : ∀ v rest left n,
      Triple (fun c ↦ I (v :: rest) left c ∧ c.state.getBestNodeToRedirect v = some n)
        (requestVideoToNode v n) (fun _ ↦ I rest left) fun _ ↦ I rest left)
    (hnone : ∀ v rest left c, c.state.getBestNodeToRedirect v = none →
      I (v :: rest) left c → I rest (left ++ [v]) c)
    (vs left : List VideoId) :
    Triple (I vs left) (redirectVideos vs) (fun remaining ↦ I [] (left ++ remaining)) E := by
  induction vs generalizing left with
  | nil => exact Triple.pure fun c hc ↦ by simpa using hc
  | cons v vs ih =>
    refine triple_bind_getState fun s ↦ ?_
    cases hb : s.getBestNodeToRedirect v with
    | some n =>
      refine Triple.bind (Triple.attempt (S := fun _ ↦ I vs left)
        ((hsome v vs left n).strengthen ?_)) fun _ ↦ ih left
      rintro c ⟨hc, rfl⟩
      exact ⟨hc, hb⟩
    | none =>
      refine Triple.bind ((ih (left ++ [v])).strengthen ?_) fun remaining ↦ Triple.pure ?_
      · rintro c ⟨hc, rfl⟩
        exact hnone v vs left c hb hc
      · intro c hc
        simpa using hc

end PessiStreamer.Node
