import PessiStreamer.Node.Change
import PessiStreamer.Node.Ping

/-!
# Which packets a node sends

Whatever becomes of its sends, a node answers every input with requests, stops and greetings,
except that it answers pings and passes on flood packets and video packets.
-/

namespace PessiStreamer.Node
open Base Common

/-- The packets sent so far are of a certain kind. -/
abbrev SentOnly (R : SocketAddr → Packet → Prop) (c : Ctx) : Prop := ∀ x ∈ c.sent, R x.1 x.2

/-- Requests, stops and greetings are of that kind. -/
structure Admits (R : SocketAddr → Packet → Prop) : Prop where
  command : ∀ a p, R a (.serverPacket p)
  greeting : ∀ a, R a (.nodePacket .newNeighbour)

section Handlers

variable {R : SocketAddr → Packet → Prop} {v : VideoId} {a n : SocketAddr}

private theorem send_sent {p : Packet} (hp : R a p) : Maintains (SentOnly R) (send p a) := by
  intro c hc
  rcases send_cases p a c with h | ⟨e, -, h⟩
  · rw [h]
    intro x hx
    rcases List.mem_append.mp hx with hx | hx
    · exact hc x hx
    · rw [List.mem_singleton.mp hx]
      exact hp
  · rw [h]
    exact hc

/-- A change of the state sends nothing. -/
theorem modifyState_sent (f : State → State) : Maintains (SentOnly R) (modifyState f) :=
  fun _ hc ↦ hc

/-- Reading the state sends nothing. -/
theorem getState_sent : Maintains (SentOnly R) getState := fun _ hc ↦ hc

/-- Reading the clock sends nothing. -/
theorem now_sent : Maintains (SentOnly R) now := fun _ hc ↦ hc

namespace Admits

/-- A request to a node sends one request at most. -/
theorem requestVideoToNode (h : Admits R) : Maintains (SentOnly R) (requestVideoToNode v n) :=
  (send_sent (h.command _ _)).bind fun _ ↦ modifyState_sent _

private theorem handleRequestVideo (h : Admits R) :
    Maintains (SentOnly R) (handleRequestVideo v a) := by
  apply (modifyState_sent _).bind
  intro _
  apply getState_sent.bind
  intro t
  apply Maintains.ite
  · exact fun _ ↦ Maintains.pure ()
  · intro _
    cases t.getBestNodeToRedirect v with
    | some n => exact h.requestVideoToNode
    | none => exact modifyState_sent _

private theorem handleStopVideo (h : Admits R) : Maintains (SentOnly R) (handleStopVideo v a) := by
  apply (modifyState_sent _).bind
  intro _
  apply getState_sent.bind
  intro t
  apply Maintains.ite
  · intro _
    cases t.videoRoutes.lookup v with
    | some n =>
      apply (modifyState_sent _).bind
      exact fun _ ↦ send_sent (h.command _ _)
    | none => exact Maintains.pure ()
  · exact fun _ ↦ Maintains.pure ()

/-- The answer lists what the node offered before it handled the ping. -/
theorem handleClientPing (h : Admits R) {n : UInt64} {requested : List VideoId} {c : Ctx}
    (hanswer : R a (pingAnswer n (c.state.getVideos a) c.env.now)) :
    Triple (fun d ↦ d = c ∧ SentOnly R d) (handleClientPing n requested a)
      (fun _ ↦ SentOnly R) (fun _ ↦ SentOnly R) := by
  rw [handleClientPing_eq]
  apply triple_bind_getState
  intro s
  apply Triple.bind (Q := fun t d ↦ R a (pingAnswer n (s.getVideos a) t) ∧ SentOnly R d)
  · rintro d ⟨⟨rfl, hd⟩, rfl⟩
    exact ⟨hanswer, hd⟩
  intro t
  apply Triple.of_forall
  intro hanswer
  apply (modifyState_sent _).bind
  intro _
  apply Maintains.bind
  · apply Maintains.forM
    intro v _
    apply getState_sent.bind
    intro t
    exact Maintains.ite (fun _ ↦ Maintains.pure ()) fun _ ↦ h.handleRequestVideo
  intro _
  apply getState_sent.bind
  intro t
  apply Maintains.bind
  · apply Maintains.forM
    intro video _
    exact Maintains.ite (fun _ ↦ h.handleStopVideo) fun _ ↦ Maintains.pure ()
  · exact fun _ ↦ send_sent hanswer

private theorem redirectVideos (h : Admits R) (vs : List VideoId) :
    Maintains (SentOnly R) (redirectVideos vs) := by
  apply redirectVideos_rule (I := fun _ _ ↦ SentOnly R)
  · intro v rest left n
    exact h.requestVideoToNode.strengthen fun c hc ↦ hc.1
  · exact fun _ _ _ c _ hc ↦ hc
  · exact []

private theorem connectToParents (h : Admits R) (vs : List VideoId) :
    Maintains (SentOnly R) (connectToParents a vs) := by
  apply getState_sent.bind
  intro t
  apply Maintains.ite
  · exact fun _ ↦ Maintains.pure ()
  · intro _
    apply Maintains.forM
    intro parent _
    apply Maintains.ite
    · exact fun _ ↦ Maintains.pure ()
    · exact fun _ ↦ (send_sent (h.greeting _)).attempt

/-- Marking a node and giving it up. -/
theorem giveUp (h : Admits R) : Maintains (SentOnly R) (do
    modifyState fun s ↦ s.markUnresponsive a
    handleUnresponsiveNode a) := by
  apply (modifyState_sent _).bind
  intro _
  apply getState_sent.bind
  intro t
  apply Maintains.bind
  · exact Maintains.forM fun v _ ↦ h.handleStopVideo.attempt
  intro _
  apply (h.redirectVideos _).bind
  intro remaining
  apply (h.connectToParents remaining).bind
  exact fun _ ↦ modifyState_sent _

private theorem handleFloodPacket (h : Admits R)
    (hflood : ∀ a q, R a (.nodePacket (.floodPacket q)))
    (p : FloodPacket) : Maintains (SentOnly R) (handleFloodPacket a p) := by
  apply getState_sent.bind
  intro t
  apply Maintains.ite
  · exact fun _ ↦ Maintains.pure ()
  intro _
  apply now_sent.bind
  intro time
  apply (modifyState_sent _).bind
  intro _
  apply (modifyState_sent _).bind
  intro _
  apply Maintains.bind
  · apply getState_sent.bind
    intro t
    apply Maintains.bind
    · exact Maintains.forM fun v _ ↦ h.requestVideoToNode.attempt
    · exact fun _ ↦ modifyState_sent _
  intro _
  apply getState_sent.bind
  intro t
  apply Maintains.forM
  intro addr _
  apply Maintains.attempt
  apply getState_sent.bind
  exact fun t ↦ send_sent (hflood _ _)

private theorem handleVideoPacket {packet : VideoPacket} (hvideo : ∀ a, R a (.videoPacket packet)) :
    Maintains (SentOnly R) (handleVideoPacket packet) := by
  apply getState_sent.bind
  intro t
  apply now_sent.bind
  intro time
  apply (modifyState_sent _).bind
  intro _
  apply Maintains.ite
  · exact fun _ ↦ Maintains.pure ()
  · intro _
    cases t.interested.lookup packet.streamId with
    | some subscribers => exact Maintains.forM fun addr _ ↦ send_sent (hvideo addr)
    | none => exact Maintains.pure ()

private theorem clientHealthCheck (h : Admits R) : Maintains (SentOnly R) clientHealthCheck := by
  apply getState_sent.bind
  intro t
  apply now_sent.bind
  intro time
  apply Maintains.forM
  intro ping _
  apply getState_sent.bind
  intro t
  apply Maintains.ite
  · exact fun _ ↦ Maintains.forM fun v _ ↦ h.handleStopVideo.attempt
  · exact fun _ ↦ Maintains.pure ()

private theorem videoHealthCheck (h : Admits R) : Maintains (SentOnly R) videoHealthCheck := by
  apply getState_sent.bind
  intro t
  apply now_sent.bind
  intro time
  apply Maintains.forM
  intro packet _
  apply getState_sent.bind
  intro t
  apply Maintains.ite
  · intro _
    cases t.videoRoutes.lookup packet.1 with
    | some n => exact h.requestVideoToNode
    | none => exact Maintains.pure ()
  · exact fun _ ↦ Maintains.pure ()

/-- Every event, where what it makes the node answer or pass on is of the kind, too. -/
theorem after (h : Admits R) {e : Event}
    (hping : ∀ n requested addr, e.input = .packet (.nodePacket (.clientPing n requested)) addr →
      R addr (pingAnswer n (e.view.getVideos addr) e.env.now))
    (hflood : ∀ p addr, e.input = .packet (.nodePacket (.floodPacket p)) addr →
      ∀ a q, R a (.nodePacket (.floodPacket q)))
    (hvideo : ∀ p addr, e.input = .packet (.videoPacket p) addr → ∀ a, R a (.videoPacket p)) :
    SentOnly R e.after := by
  obtain ⟨input, env, view⟩ := e
  have hstart : SentOnly R (.start env view) := by simp [Ctx.start]
  have hrun {m : Handler Unit} (hm : Maintains (SentOnly R) m) :
      SentOnly R (finalState m (.start env view)) := hm.finalState hstart
  cases input with
  | packet p addr =>
    rcases p with p | (⟨n, requested⟩ | _ | p) | (v | v) | p
    · exact hrun (Admits.handleVideoPacket (hvideo p addr rfl))
    · exact (h.handleClientPing (hping n requested addr rfl)).finalState ⟨rfl, hstart⟩
    · exact hrun (modifyState_sent fun s ↦ s.registerNewNeighbour addr.ip)
    · exact hrun (h.handleFloodPacket (hflood p addr rfl) p)
    · exact hrun h.handleRequestVideo
    · exact hrun h.handleStopVideo
    · exact hstart
  | neighbourUnresponsive addr =>
    refine hrun (getState_sent.bind fun t ↦ ?_)
    exact Maintains.ite (fun _ ↦ h.giveUp) fun _ _ hc ↦ hc
  | clientHealthCheck => exact hrun h.clientHealthCheck
  | videoHealthCheck => exact hrun h.videoHealthCheck
  | floodPacketResult target result =>
    refine hrun (getState_sent.bind fun t ↦ ?_)
    exact Maintains.ite (fun _ ↦ h.giveUp) fun _ ↦ Maintains.pure ()
  | parentAnswer addr result =>
    rcases result with e | _ | _
    · exact hstart
    · exact hrun (modifyState_sent fun s ↦ s.registerNewNeighbour addr.ip)
    · exact hstart

end Admits
end Handlers

namespace Event

variable {e : Event} {a : SocketAddr}

/-- The video packet that an event brings is the only one its handler sends. -/
theorem videoPacket_of_sent {q : VideoPacket} (h : (a, .videoPacket q) ∈ e.after.sent) :
    ∃ addr, e.input = .packet (.videoPacket q) addr := by
  let R : SocketAddr → Packet → Prop := fun _ x ↦
    ∀ q, x = .videoPacket q → ∃ addr, e.input = .packet (.videoPacket q) addr
  have hadmits : Admits R := ⟨by simp [R], by simp [R]⟩
  apply hadmits.after _ _ _ _ h q rfl
  · simp [R, pingAnswer]
  · simp [R]
  · intro p addr hin a q hq
    cases hq
    exact ⟨addr, hin⟩

/-- A node sends video lists only to answer a ping. -/
theorem answer_of_sent {p : VideoListPacket}
    (h : (a, .clientPacket (.videoList p)) ∈ e.after.sent) : ∃ n requested,
      e.input = .packet (.nodePacket (.clientPing n requested)) a ∧
        p = ⟨n, e.view.getVideos a, e.env.now⟩ := by
  let R : SocketAddr → Packet → Prop := fun a x ↦ ∀ p, x = .clientPacket (.videoList p) →
    ∃ n requested, e.input = .packet (.nodePacket (.clientPing n requested)) a ∧
      p = ⟨n, e.view.getVideos a, e.env.now⟩
  have hadmits : Admits R := ⟨by simp [R], by simp [R]⟩
  apply hadmits.after _ _ _ _ h p rfl
  · intro n requested addr hin p hp
    cases hp
    exact ⟨n, requested, hin, rfl⟩
  · simp [R]
  · simp [R]

end Event
end PessiStreamer.Node
