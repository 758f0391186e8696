import PessiStreamer.Node.Calm
import PessiStreamer.Node.Reception

/-!
# Videos that no longer arrive

`run_video_health_check_task` goes through the times at which packets arrived, not through the
routes: a video of which no packet ever arrived is not among them.
-/

namespace PessiStreamer.Node
open Base Common

section Sweep

/-- The request that one turn of the sweep sends, where all sends succeed. -/
def State.askedAgain (s : State) (t : SystemTime) (packet : Sigma fun _ : VideoId ↦ SystemTime) :
    Option (SocketAddr × Packet) :=
  if VIDEO_PACKET_MAX_DELAY < durationSince t packet.2 then
    (s.videoRoutes.lookup packet.1).map (·, .serverPacket (.requestVideo packet.1))
  else none

variable {t : SystemTime} {c : Ctx} {s : State}

/-- A request along a route that is there changes no later turn. -/
theorem askedAgain_setRoute {v : VideoId} {n : SocketAddr} (h : s.videoRoutes.lookup v = some n) :
    (s.setRoute v n).askedAgain t = s.askedAgain t := by
  funext packet
  rw [State.askedAgain, State.askedAgain, State.setRoute_lookup]
  by_cases hv : packet.1 = v
  · rw [if_pos hv, hv, h]
  · rw [if_neg hv]

/-- One turn of the sweep, while all sends succeed. -/
theorem checkVideo_apply (hok : c.env.AllOk) (packet : Sigma fun _ : VideoId ↦ SystemTime) :
    ∃ d, checkVideo t packet c = .ok () d ∧ d.env = c.env ∧
      d.state.askedAgain t = c.state.askedAgain t ∧
      d.sent = c.sent ++ (c.state.askedAgain t packet).toList := by
  by_cases hlate : VIDEO_PACKET_MAX_DELAY < durationSince t packet.2
  · cases hn : c.state.videoRoutes.lookup packet.1 with
    | some n =>
      have hturn : checkVideo t packet c = .ok () ((c.push (.serverPacket (.requestVideo
          packet.1)) n).setState (c.state.setRoute packet.1 n)) := by
        simp only [checkVideo, bind_apply, getState_apply, if_pos hlate, hn]
        rw [requestVideoToNode, bind_apply, send_of_allOk hok]
        rfl
      have hasked : c.state.askedAgain t packet =
          some (n, .serverPacket (.requestVideo packet.1)) := by
        rw [State.askedAgain, if_pos hlate, hn]
        rfl
      exact ⟨_, hturn, rfl, askedAgain_setRoute hn, by rw [hasked]; rfl⟩
    | none =>
      have hturn : checkVideo t packet c = .ok () c := by
        simp only [checkVideo, bind_apply, getState_apply, if_pos hlate, hn]
        rfl
      have hasked : c.state.askedAgain t packet = none := by
        rw [State.askedAgain, if_pos hlate, hn]
        rfl
      exact ⟨c, hturn, rfl, rfl, by rw [hasked]; exact (List.append_nil _).symm⟩
  · have hturn : checkVideo t packet c = .ok () c := by
      simp only [checkVideo, bind_apply, getState_apply, if_neg hlate]
      rfl
    have hasked : c.state.askedAgain t packet = none := by
      rw [State.askedAgain, if_neg hlate]
    exact ⟨c, hturn, rfl, rfl, by rw [hasked]; exact (List.append_nil _).symm⟩

/-- The requests of the sweep, while all sends succeed. -/
theorem checkVideos_sent (packets : List (Sigma fun _ : VideoId ↦ SystemTime)) (c : Ctx)
    (hok : c.env.AllOk) : (finalState (packets.forM (checkVideo t)) c).sent =
      c.sent ++ packets.filterMap (c.state.askedAgain t) := by
  induction packets generalizing c with
  | nil => exact (List.append_nil _).symm
  | cons packet packets ih =>
    obtain ⟨d, hturn, henv, hsame, hsent⟩ := checkVideo_apply (t := t) hok packet
    have hcons : (packet :: packets).forM (checkVideo t) c = packets.forM (checkVideo t) d := by
      show (checkVideo t packet >>= fun _ ↦ packets.forM (checkVideo t)) c = _
      rw [bind_apply, hturn]
    rw [finalState_congr hcons, ih d (henv ▸ hok), hsame, hsent, List.append_assoc,
      List.filterMap_cons]
    cases c.state.askedAgain t packet with
    | none => rfl
    | some message => rfl

/-- The sweep asks again for the routed videos whose last packet is too old. -/
theorem mem_sent_videoHealthCheck {env : Env} {v : VideoId} {n : SocketAddr} (hok : env.AllOk) :
    (n, .serverPacket (.requestVideo v)) ∈
        (finalState videoHealthCheck (.start env s)).sent ↔
      s.videoRoutes.lookup v = some n ∧ ∃ a, s.lastVideoPacketTime.lookup v = some a ∧
        VIDEO_PACKET_MAX_DELAY < durationSince env.now a := by
  have hrun : finalState videoHealthCheck (.start env s) =
      finalState (s.lastVideoPacketTime.entries.forM (checkVideo env.now)) (.start env s) := by
    rw [videoHealthCheck]
    rfl
  rw [hrun, checkVideos_sent _ _ hok]
  show _ ∈ [] ++ _ ↔ _
  rw [List.nil_append, List.mem_filterMap]
  constructor
  · rintro ⟨packet, hpacket, hasked⟩
    unfold State.askedAgain at hasked
    split at hasked
    · next hlate =>
      obtain ⟨m, hm, heq⟩ := Option.map_eq_some_iff.mp hasked
      cases heq
      exact ⟨hm, packet.2, Map.mem_entries_iff.mp hpacket, hlate⟩
    · cases hasked
  · rintro ⟨hn, a, ha, hlate⟩
    refine ⟨⟨v, a⟩, Map.mem_entries_iff.mpr ha, ?_⟩
    rw [State.askedAgain, if_pos hlate]
    show ((Ctx.start env s).state.videoRoutes.lookup v).map _ = _
    rw [show (Ctx.start env s).state.videoRoutes.lookup v = some n from hn]
    rfl

end Sweep

/-- The event makes `n` the route of a video that had another one, or none. -/
def Event.Installs (e : Event) (v : VideoId) (n : SocketAddr) : Prop :=
  e.view.videoRoutes.lookup v ≠ some n ∧ e.after.state.videoRoutes.lookup v = some n

/-- No packet of the video arrived during the last `VIDEO_PACKET_MAX_DELAY`. -/
def Quiet (now : SystemTime) (v : VideoId) (tr : List (State × Event)) : Prop :=
  ∀ a ∈ arrivals v tr, VIDEO_PACKET_MAX_DELAY < durationSince now a

/-- The route was installed longer than `VIDEO_PACKET_MAX_DELAY` ago. -/
def Settled (now : SystemTime) (v : VideoId) (n : SocketAddr) (tr : List (State × Event)) : Prop :=
  ∀ p ∈ tr, p.2.Installs v n → VIDEO_PACKET_MAX_DELAY < durationSince now p.2.env.now

/-- The videos whose node the sweep `e` has to ask again after the run `tr`. -/
structure Stalled (tr : List (State × Event)) (e : Event) (v : VideoId) (n : SocketAddr) :
    Prop where
  routed : e.view.videoRoutes.lookup v = some n
  quiet : Quiet e.env.now v tr
  settled : Settled e.env.now v n tr

/-- After the run `tr`, the sweep `e` asks for each silent video again. -/
def AsksAgain (tr : List (State × Event)) (e : Event) : Prop :=
  ∀ v n, Stalled tr e v n → (n, .serverPacket (.requestVideo v)) ∈ e.after.sent

section Runs

variable {id : NodeId} {neighbours : List IpAddr} {localAddr : SocketAddr}
  {tr : List (State × Event)} {s : State} {e : Event} {v : VideoId} {n : SocketAddr}

/-- A silent video is asked for again just if some packet of it ever arrived. -/
theorem asked_iff_arrived (hrun : Run Step (.new id neighbours localAddr) tr s)
    (hview : s.Reorder e.view) (hsweep : e.input = .videoHealthCheck) (hok : e.env.AllOk)
    (hstalled : Stalled tr e v n) :
    (n, .serverPacket (.requestVideo v)) ∈ e.after.sent ↔ arrivals v tr ≠ [] := by
  have hlast : e.view.lastVideoPacketTime.lookup v = (arrivals v tr).getLast? := by
    rw [AList.perm_lookup hview.lastVideoPacketTime]
    exact lastPacketTime_run hrun rfl
  rw [Event.after, hsweep]
  show _ ∈ (finalState videoHealthCheck _).sent ↔ _
  rw [mem_sent_videoHealthCheck hok, hlast]
  constructor
  · intro hasked hempty
    obtain ⟨-, a, ha, -⟩ := hasked
    rw [hempty] at ha
    cases ha
  · intro harrived
    have ha := List.getLast?_eq_some_getLast harrived
    exact ⟨hstalled.routed, _, ha, hstalled.quiet _ (List.getLast_mem harrived)⟩

/-- A sweep asks for every silent video again just if each of them arrived at some time. -/
theorem asksAgain_iff (hrun : Run Step (.new id neighbours localAddr) tr s)
    (hview : s.Reorder e.view) (hsweep : e.input = .videoHealthCheck) (hok : e.env.AllOk) :
    AsksAgain tr e ↔ ∀ v n, Stalled tr e v n → arrivals v tr ≠ [] := by
  constructor
  · intro h v n hstalled
    exact (asked_iff_arrived hrun hview hsweep hok hstalled).mp (h v n hstalled)
  · intro h v n hstalled
    exact (asked_iff_arrived hrun hview hsweep hok hstalled).mpr (h v n hstalled)

end Runs

/-- Node 1 offers video 5 at time 0, and a client requests it. -/
def offeredAndRequested : List (Input × Env) :=
  [(.packet (.nodePacket (.floodPacket ⟨0, [(5, "")], [], []⟩)) (IpAddr.v4 1).atPort, .calm 0),
    (.packet (.serverPacket (.requestVideo 5)) ⟨.v4 3, 4000⟩, .calm 0)]

/-- One packet of video 5, at time 0. -/
def delivered : List (Input × Env) :=
  offeredAndRequested ++ [(.packet (.videoPacket ⟨5, 1, []⟩) (IpAddr.v4 1).atPort, .calm 0)]

/-- The sweep of a node started afresh, a second after these inputs. -/
def sweepAfter (inputs : List (Input × Env)) : Event :=
  ⟨.videoHealthCheck, .calm 1000000000, simulate (.new 9 [] (IpAddr.v4 9).atPort) inputs⟩

/-- The sweep asks for the video that was silent for too long. -/
theorem sweepAfter_delivered :
    AsksAgain (record (.new 9 [] (IpAddr.v4 9).atPort) delivered) (sweepAfter delivered) ∧
    ((IpAddr.v4 1).atPort, .serverPacket (.requestVideo 5)) ∈
      (sweepAfter delivered).after.sent := by
  constructor
  · have hrun : Run Step (.new 9 [] (IpAddr.v4 9).atPort)
        (record (.new 9 [] (IpAddr.v4 9).atPort) delivered) (sweepAfter delivered).view :=
      run_record _ delivered
    have hok : (sweepAfter delivered).env.AllOk := Env.calm_allOk _
    apply (asksAgain_iff hrun (.refl _) rfl hok).mpr
    intro v n hstalled
    have hroute : (sweepAfter delivered).view.videoRoutes.entries =
        [⟨5, (IpAddr.v4 1).atPort⟩] := by
      decide +kernel
    have hentry := Map.mem_entries_iff.mpr hstalled.routed
    rw [hroute] at hentry
    cases List.mem_singleton.mp hentry
    decide +kernel
  · decide +kernel

/-- A node that never sends a packet of the video requested from it is never asked again. -/
theorem silent_not_asked :
    Run Step (.new 9 [] (IpAddr.v4 9).atPort) (record (.new 9 [] (IpAddr.v4 9).atPort)
      offeredAndRequested) (sweepAfter offeredAndRequested).view ∧
    ¬ AsksAgain (record (.new 9 [] (IpAddr.v4 9).atPort) offeredAndRequested)
      (sweepAfter offeredAndRequested) := by
  constructor
  · exact run_record _ offeredAndRequested
  · intro h
    have hasked := h 5 (IpAddr.v4 1).atPort {
      routed := by decide +kernel
      quiet := by
        have hnone : arrivals 5 (record (.new 9 [] (IpAddr.v4 9).atPort)
            offeredAndRequested) = [] := by
          decide +kernel
        intro a ha
        rw [hnone] at ha
        cases ha
      settled := by
        intro p hp _
        have htime : (record (.new 9 [] (IpAddr.v4 9).atPort) offeredAndRequested).all fun p ↦
            p.2.env.now = 0 := by decide +kernel
        have hnow := List.all_eq_true.mp htime p hp
        rw [of_decide_eq_true hnow]
        decide }
    have hsent : (sweepAfter offeredAndRequested).after.sent = [] := by decide +kernel
    rw [hsent] at hasked
    cases hasked

end PessiStreamer.Node
