import PessiStreamer.Node.Delivery
import PessiStreamer.Node.Frames

/-!
# What a node remembers of the video packets it received

The last number and the last time of each stream are written by `handle_video_packet` alone, for
every packet it handles, also for those it drops.
-/

namespace PessiStreamer.Node
open Base Common

/-- The last numbers and times are those of `s`. -/
def State.Unheard (s t : State) : Prop :=
  t.lastVideoSequenceNumber = s.lastVideoSequenceNumber ∧
    t.lastVideoPacketTime = s.lastVideoPacketTime

section Handlers

variable {s : State} {a : SocketAddr} {v : VideoId}

private theorem indifferent_unheard (s : State) : Indifferent s.Unheard where
  subscribe _ _ _ := id
  unsubscribe _ _ _ := id
  setRoute _ _ _ := id
  dropRoute _ _ := id

private theorem handleRequestVideo_unheard :
    Maintains (OnState s.Unheard) (handleRequestVideo v a) := by
  apply Maintains.bind
  · exact modifyState_frame fun t ↦ (indifferent_unheard s).subscribe t v a
  intro _
  apply getState_frame.bind
  intro t
  apply Maintains.ite
  · exact fun _ ↦ Maintains.pure ()
  · intro _
    cases t.getBestNodeToRedirect v with
    | some n => exact (indifferent_unheard s).requestVideoToNode
    | none => exact modifyState_frame fun _ ↦ id

private theorem redirectVideos_unheard (vs : List VideoId) :
    Maintains (OnState s.Unheard) (redirectVideos vs) := by
  apply redirectVideos_rule (I := fun _ _ ↦ OnState s.Unheard)
  · intro v rest left n
    exact (indifferent_unheard s).requestVideoToNode.strengthen fun c hc ↦ hc.1
  · exact fun _ _ _ c _ hc ↦ hc
  · exact []

private theorem giveUp_unheard : Maintains (OnState s.Unheard) (do
    modifyState fun t ↦ t.markUnresponsive a
    handleUnresponsiveNode a) := by
  apply Maintains.bind
  · exact modifyState_frame fun _ ↦ id
  intro _
  apply getState_frame.bind
  intro t
  apply Maintains.bind
  · exact Maintains.forM fun v _ ↦ (indifferent_unheard s).handleStopVideo.attempt
  intro _
  apply (redirectVideos_unheard _).bind
  intro remaining
  apply (connectToParents_frame remaining).bind
  exact fun _ ↦ modifyState_frame fun _ ↦ id

private theorem handleClientPing_unheard (n : UInt64) (requested : List VideoId) :
    Maintains (OnState s.Unheard) (handleClientPing n requested a) := by
  apply getState_frame.bind
  intro t
  apply now_frame.bind
  intro time
  apply Maintains.bind
  · exact modifyState_frame fun _ ↦ id
  intro _
  apply Maintains.bind
  · apply Maintains.forM
    intro v _
    apply getState_frame.bind
    intro t
    exact Maintains.ite (fun _ ↦ Maintains.pure ()) fun _ ↦ handleRequestVideo_unheard
  intro _
  apply getState_frame.bind
  intro t
  apply Maintains.bind
  · exact (indifferent_unheard s).stopUnrequested requested t
  · exact fun _ ↦ send_frame _ a

end Handlers

/-- The video packet that an input brings. -/
def Input.videoPacket? : Input → Option VideoPacket
  | .packet (.videoPacket p) _ => some p
  | _ => none

/-- Inputs without a video packet. -/
theorem handleInput_unheard {s : State} {input : Input} (h : input.videoPacket? = none) :
    Maintains (OnState s.Unheard) (handleInput input) := by
  cases input with
  | packet p addr =>
    rcases p with p | (⟨n, requested⟩ | _ | p) | (v | v) | p
    · cases h
    · exact handleClientPing_unheard n requested
    · exact modifyState_frame fun _ ↦ id
    · exact (indifferent_unheard s).handleFloodPacket (fun _ _ ↦ id) (fun _ _ ↦ id) fun _ _ ↦ id
    · exact handleRequestVideo_unheard
    · exact (indifferent_unheard s).handleStopVideo
    · exact fun _ hc ↦ hc
  | neighbourUnresponsive addr =>
    apply getState_frame.bind
    intro t
    exact Maintains.ite (fun _ ↦ giveUp_unheard) fun _ _ hc ↦ hc
  | clientHealthCheck => exact (indifferent_unheard s).clientHealthCheck
  | videoHealthCheck => exact (indifferent_unheard s).videoHealthCheck
  | floodPacketResult target result =>
    apply getState_frame.bind
    intro t
    exact Maintains.ite (fun _ ↦ giveUp_unheard) fun _ ↦ Maintains.pure ()
  | parentAnswer addr result => exact handleParentAnswer_frame (fun _ _ ↦ id) result

namespace Event

/-- The number under which the event brings a packet of the stream. -/
def received (v : VideoId) (e : Event) : Option UInt64 :=
  (e.input.videoPacket?.filter fun packet ↦ packet.streamId = v).map VideoPacket.sequenceNumber

/-- The handler of a video packet notes it and leaves the rest of the state alone. -/
theorem after_of_videoPacket {e : Event} {packet : VideoPacket}
    (h : e.input.videoPacket? = some packet) :
    Broadcasted (.videoPacket packet) (e.view.recipients packet)
      (.start e.env (e.view.recordVideoPacket packet e.env.now)) e.after := by
  obtain ⟨input, env, view⟩ := e
  unfold Input.videoPacket? at h
  split at h
  · next p addr hin =>
    obtain rfl := Option.some.inj h
    have hinput : input = .packet (.videoPacket p) addr := hin
    rw [hinput]
    exact handleVideoPacket_broadcasted p env view
  · cases h

/-- Only a video packet changes the stream data. -/
theorem after_of_no_videoPacket {e : Event} (h : e.input.videoPacket? = none) :
    e.view.Unheard e.after.state :=
  (handleInput_unheard h).finalState ⟨rfl, rfl⟩

/-- The event brings a packet of the video with this number. -/
theorem received_eq_some {e : Event} {v : VideoId} {n : UInt64} : e.received v = some n ↔
    ∃ packet, e.input.videoPacket? = some packet ∧ packet.streamId = v ∧
      packet.sequenceNumber = n := by
  simp only [received, Option.map_eq_some_iff, Option.filter_eq_some_iff, decide_eq_true_eq,
    and_assoc]

/-- A video packet brings its number to its own video. -/
theorem received_of_videoPacket {e : Event} {v : VideoId} {packet : VideoPacket}
    (h : e.input.videoPacket? = some packet) :
    e.received v = if packet.streamId = v then some packet.sequenceNumber else none := by
  rw [received, h, Option.filter_some]
  by_cases hv : packet.streamId = v
  · simp [hv]
  · simp [hv]

/-- The last number of a stream is that of the packet in hand, or the one from before. -/
theorem lastSequenceNumber_after (e : Event) (v : VideoId) :
    e.after.state.lastVideoSequenceNumber.lookup v =
      (e.received v).or (e.view.lastVideoSequenceNumber.lookup v) := by
  cases h : e.input.videoPacket? with
  | none =>
    rw [received, h, (after_of_no_videoPacket h).1]
    rfl
  | some packet =>
    rw [received_of_videoPacket h, (after_of_videoPacket h).state]
    show (e.view.lastVideoSequenceNumber.insert _ _).lookup v = _
    rw [Map.lookup_insert_ite]
    by_cases hv : packet.streamId = v
    · simp [hv]
    · simp [hv, Ne.symm hv]

/-- The last time of a stream is that of the packet in hand, or the one from before. -/
theorem lastPacketTime_after (e : Event) (v : VideoId) :
    e.after.state.lastVideoPacketTime.lookup v =
      ((e.received v).map fun _ ↦ e.env.now).or (e.view.lastVideoPacketTime.lookup v) := by
  cases h : e.input.videoPacket? with
  | none =>
    rw [received, h, (after_of_no_videoPacket h).2]
    rfl
  | some packet =>
    rw [received_of_videoPacket h, (after_of_videoPacket h).state]
    show (e.view.lastVideoPacketTime.insert _ _).lookup v = _
    rw [Map.lookup_insert_ite]
    by_cases hv : packet.streamId = v
    · simp [hv]
    · simp [hv, Ne.symm hv]

end Event

section Runs

variable {s t : State} {tr : List (State × Event)} {v : VideoId}

/-- The numbers under which a run brings packets of the stream, oldest first. -/
def numbers (v : VideoId) (tr : List (State × Event)) : List UInt64 :=
  tr.filterMap fun p ↦ p.2.received v

/-- The times at which a run brings packets of the stream, oldest first. -/
def arrivals (v : VideoId) (tr : List (State × Event)) : List SystemTime :=
  tr.filterMap fun p ↦ (p.2.received v).map fun _ ↦ p.2.env.now

/-- A node remembers the number of the last packet. -/
theorem lastSequenceNumber_run (h : Run Step s tr t)
    (hs : s.lastVideoSequenceNumber.lookup v = none) :
    t.lastVideoSequenceNumber.lookup v = (numbers v tr).getLast? := by
  apply Run.last_write_of_none (g := fun u : State ↦ u.lastVideoSequenceNumber.lookup v) _ h hs
  rintro u e w ⟨hview, rfl⟩
  rw [Event.lastSequenceNumber_after, AList.perm_lookup hview.lastVideoSequenceNumber]

/-- A node remembers the time of the last packet. -/
theorem lastPacketTime_run (h : Run Step s tr t)
    (hs : s.lastVideoPacketTime.lookup v = none) :
    t.lastVideoPacketTime.lookup v = (arrivals v tr).getLast? := by
  apply Run.last_write_of_none (g := fun u : State ↦ u.lastVideoPacketTime.lookup v) _ h hs
  rintro u e w ⟨hview, rfl⟩
  rw [Event.lastPacketTime_after, AList.perm_lookup hview.lastVideoPacketTime]

end Runs
end PessiStreamer.Node
