import PessiStreamer.Client.Player
import PessiStreamer.System.Outsider

/-!
# From the server to the screen

The network, a client and the players of its videos. While nobody changes the subscriptions on the
way and no packet of the stream is lost, what the child process of the server writes is fed to the
process that shows the video at the client.
-/

namespace PessiStreamer.System
open Base Common Node Server

/-- The network, the client and its players. -/
structure Theatre where
  audience : Audience
  players : Map VideoId Client.VideoPlayer

/-- An event of the network or the client, or a turn of the task of a player. -/
inductive TheatreEvent where
  | audience (e : AudienceEvent)
  /-- the task of a player takes its turn -/
  | feed (videoId : VideoId) (turn : Client.FeedTurn)

namespace Theatre

/-- One atomic step. -/
inductive Step (c : SocketAddr) : Theatre → TheatreEvent → Theatre → Prop
  | network {s : Theatre} {e : AudienceEvent} {t : Audience} : s.audience.Step c e t →
      clientStep (s.audience, e) = none → Step c s (.audience e) { s with audience := t }
  | client {s : Theatre} {e : AudienceEvent} {t : Audience} {p : Client.State × Client.Event} :
      s.audience.Step c e t → clientStep (s.audience, e) = some p →
      Client.Viewer.Takes s.players p.2 →
      Step c s (.audience e) ⟨t, Client.Viewer.play s.players p.2⟩
  | feed {s : Theatre} {v : VideoId} {turn : Client.FeedTurn} :
      Step c s (.feed v turn)
        { s with players := s.players.modify v fun player ↦ player.feed turn }

/-- The step of the network and the client that a step is. -/
def audienceStep (p : Theatre × TheatreEvent) : Option (Audience × AudienceEvent) :=
  match p.2 with
  | .audience e => some (p.1.audience, e)
  | .feed _ _ => none

/-- The steps of the network and the client in a run. -/
def audienceSteps (tr : List (Theatre × TheatreEvent)) : List (Audience × AudienceEvent) :=
  tr.filterMap audienceStep

/-- A step in which the subscriptions to the video stay as they are, none of its packets is lost,
repeated or overtaken, and the client goes on watching. -/
def Steady (v : VideoId) (r : SocketAddr) (s : Theatre) : TheatreEvent → Prop
  | .audience (.network e) => s.audience.overlay.Steady v r e
  | .audience (.receive index _ _) =>
    ∀ m, s.audience.overlay.inFlight[index]? = some m → (ofStream v m.packet).isSome →
      ∀ m' ∈ s.audience.overlay.inFlight.take index, m'.source = m.source → m'.target = m.target →
        ofStream v m'.packet = none
  | .audience (.client e) => e.input ≠ .uiStartPlaying v ∧ e.input ≠ .uiStopPlayingId v
  | .feed u turn => u = v → turn ≠ .fail

end Theatre

section Steps

variable {c r : SocketAddr} {v : VideoId} {s : Theatre} {e : AudienceEvent}

/-- The packet of the video that the client receives in an event. -/
def played (v : VideoId) (e : Client.Event) : Option VideoPacket :=
  match e.input with
  | .packet p _ => ofStream v p
  | _ => none

/-- What comes from outside changes no subscriptions and brings no packets of the stream. -/
theorem steady_sends {o : Overlay} {l : List Message}
    (hl : ∀ m ∈ l, ofStream v m.packet = none) : ∀ p ∈ sends o l, p.1.Steady v r p.2 := by
  induction l generalizing o with
  | nil =>
    intro p hp
    cases hp
  | cons m l ih =>
    intro p hp
    rcases List.mem_cons.mp hp with rfl | hp
    · exact ⟨fun _ ↦ rfl, hl m List.mem_cons_self⟩
    · exact ih (fun m' hm' ↦ hl m' (List.mem_cons_of_mem m hm')) p hp

/-- A client sends no packets of a stream. -/
theorem ofStream_of_client (a : Client.Event) :
    ∀ m ∈ outgoing c a.after.sent, ofStream v m.packet = none := by
  intro m hm
  obtain ⟨x, hx, rfl⟩ := List.mem_map.mp hm
  have hsends := a.sends_of_sent x hx
  unfold ofStream
  split
  · next q heq =>
    rw [show x.2 = _ from heq] at hsends
    cases hsends
  · rfl

private theorem steady_overlayStep (hsteady : s.Steady v r (.audience e))
    (habsent : s.audience.overlay.hosts.lookup c = none)
    (henabled : s.audience.Enabled c e) :
    ∀ p ∈ overlayStep c (s.audience, e), p.1.Steady v r p.2 := by
  cases e with
  | network e =>
    intro p hp
    rw [List.mem_singleton.mp hp]
    exact hsteady
  | receive index env view =>
    obtain ⟨⟨m, hm, rfl⟩, -⟩ := henabled
    intro p hp
    simp only [overlayStep, hm] at hp
    rcases List.mem_cons.mp hp with rfl | hp
    · refine ⟨fun a ↦ ?_, fun m' hm' hstream ↦ ⟨Env.calm_allOk 0, ?_⟩⟩
      · simp only [Overlay.next, hm, Overlay.receive, habsent]
        rfl
      · exact hsteady m' hm' hstream
    · exact steady_sends (ofStream_of_client _) p hp
  | client e => exact steady_sends (ofStream_of_client _)

private theorem received_sends {o : Overlay} {l : List Message} :
    received v c (sends o l) = [] := by
  induction l generalizing o with
  | nil => rfl
  | cons m l ih => exact ih

private theorem serverTurns_sends {o : Overlay} {l : List Message} :
    serverTurns r (sends o l) = [] := by
  induction l generalizing o with
  | nil => rfl
  | cons m l ih => exact ih

/-- What comes to the address of the client is what the client receives. -/
theorem received_overlayStep {s : Audience} (henabled : s.Enabled c e) :
    received v c (overlayStep c (s, e)) =
      (clientStep (s, e)).toList.filterMap fun p ↦ played v p.2 := by
  cases e with
  | network e =>
    have hnone : receivedIn v c (s.overlay, e) = none := by
      cases e with
      | deliver index env view =>
        have hforeign := henabled.2
        cases hm : s.overlay.inFlight[index]? with
        | none => simp [receivedIn, hm]
        | some m => simp [receivedIn, hm, hforeign m hm]
      | _ => rfl
    simp [overlayStep, clientStep, received, hnone]
  | receive index env view =>
    obtain ⟨⟨m, hm, rfl⟩, -⟩ := henabled
    have hfirst : receivedIn v m.target (s.overlay, .deliver index (.calm 0) noNode) =
        ofStream v m.packet := by
      simp [receivedIn, hm]
    have hrest (o : Overlay) (l : List Message) :
        (sends o l).filterMap (receivedIn v m.target) = [] := received_sends
    simp only [overlayStep, clientStep, hm, received, List.filterMap_cons, hfirst, hrest]
    cases hq : ofStream v m.packet with
    | none => simp [played, hq]
    | some q => simp [played, hq]
  | client e =>
    have hnone : played v e = none := by
      unfold played
      split
      · next p a hin =>
        have hpacket := henabled.1
        rw [hin] at hpacket
        cases hpacket
      · rfl
    simp only [clientStep, Option.toList_some, List.filterMap_cons, List.filterMap_nil, hnone]
    exact received_sends

private theorem serverTurns_overlayStep {s : Audience} (e : AudienceEvent) :
    serverTurns r (overlayStep c (s, e)) = serverTurns r (networkSteps [(s, e)]) := by
  cases e with
  | network e => rfl
  | receive index env view =>
    simp only [overlayStep]
    split
    · exact serverTurns_sends
    · rfl
  | client e => exact serverTurns_sends

end Steps

section Runs

variable {c r : SocketAddr} {v : VideoId} {k : UInt64} {s₀ s t : Theatre} {e : TheatreEvent}
  {tr : List (Theatre × TheatreEvent)} {p₀ : Client.VideoPlayer}

/-- The packets of the video that the client received in a run, oldest first. -/
def receivedBy (v : VideoId) (tr : List (Audience × AudienceEvent)) : List VideoPacket :=
  (clientSteps tr).filterMap fun p ↦ played v p.2

/-- The player of the video is fed, after what it had, the data that the client received. -/
def Fed (v : VideoId) (p₀ : Client.VideoPlayer) (tr : List (Theatre × TheatreEvent))
    (s : Theatre) : Prop :=
  ∃ p, s.players.lookup v = some p ∧ p.channel.listening ∧
    p.taken = p₀.taken ++ Client.Viewer.dataOf (receivedBy v (Theatre.audienceSteps tr))

private theorem receivedBy_append (tr tr' : List (Audience × AudienceEvent)) :
    receivedBy v (tr ++ tr') = receivedBy v tr ++ receivedBy v tr' := by
  rw [receivedBy, clientSteps_append, List.filterMap_append]
  rfl

private theorem receivedBy_singleton (p : Audience × AudienceEvent) :
    receivedBy v [p] = (clientStep p).toList.filterMap fun q ↦ played v q.2 := by
  unfold receivedBy clientSteps
  cases hq : clientStep p with
  | none => simp [hq]
  | some q => simp [hq]

private theorem audienceSteps_audience (tr : List (Theatre × TheatreEvent)) (s : Theatre)
    (e : AudienceEvent) : Theatre.audienceSteps (tr ++ [(s, .audience e)]) =
      Theatre.audienceSteps tr ++ [(s.audience, e)] := List.filterMap_append

private theorem audienceSteps_feed (tr : List (Theatre × TheatreEvent)) (s : Theatre) (u : VideoId)
    (turn : Client.FeedTurn) :
    Theatre.audienceSteps (tr ++ [(s, .feed u turn)]) = Theatre.audienceSteps tr := by
  simp [Theatre.audienceSteps, Theatre.audienceStep]

/-- Who goes on watching neither starts nor stops the video. -/
theorem Theatre.Steady.goes_on {e : AudienceEvent} (h : s.Steady v r (.audience e))
    {q : Client.State × Client.Event} (hq : clientStep (s.audience, e) = some q) :
    q.2.input ≠ .uiStartPlaying v ∧ q.2.input ≠ .uiStopPlayingId v := by
  cases e with
  | network e => cases hq
  | receive index env view =>
    obtain ⟨m, -, rfl⟩ := Option.map_eq_some_iff.mp hq
    exact ⟨by simp, by simp⟩
  | client e =>
    cases hq
    exact h

private theorem played_eq_some {e : Client.Event} {p : VideoPacket} :
    played v e = some p ↔ ∃ a, e.input = .packet (.videoPacket p) a ∧ p.streamId = v := by
  unfold played
  split
  · next packet a hin => simp [hin, ofStream_eq_some]
  · next hother =>
    constructor
    · intro h
      cases h
    · rintro ⟨a, hin, -⟩
      exact (hother _ a hin).elim

/-- The player takes what the client receives. -/
theorem Fed.play {e : AudienceEvent} (h : Fed v p₀ tr s) (hsteady : s.Steady v r (.audience e))
    {q : Client.State × Client.Event} (hq : clientStep (s.audience, e) = some q)
    (htakes : Client.Viewer.Takes s.players q.2) (t : Audience) :
    Fed v p₀ (tr ++ [(s, .audience e)]) ⟨t, Client.Viewer.play s.players q.2⟩ := by
  obtain ⟨p, hp, hlistens, hfed⟩ := h
  have hreceived : receivedBy v (Theatre.audienceSteps (tr ++ [(s, .audience e)])) =
      receivedBy v (Theatre.audienceSteps tr) ++ (played v q.2).toList := by
    rw [audienceSteps_audience, receivedBy_append, receivedBy_singleton, hq]
    simp only [Option.toList_some, List.filterMap_cons, List.filterMap_nil]
    cases played v q.2 with
    | none => rfl
    | some packet => rfl
  obtain ⟨hstart, hstop⟩ := hsteady.goes_on hq
  cases hpacket : played v q.2 with
  | none =>
    have hsame := Client.Viewer.lookup_play_of_other s.players
      (fun hin ↦ (hstart hin).elim) hstop fun packet a hin hv ↦ by
        rw [played_eq_some.mpr ⟨a, hin, hv⟩] at hpacket
        cases hpacket
    refine ⟨p, hsame.trans hp, hlistens, ?_⟩
    rw [hreceived, hpacket, Option.toList_none, List.append_nil, hfed]
  | some packet =>
    obtain ⟨a, hin, rfl⟩ := played_eq_some.mp hpacket
    obtain ⟨hready, hwrites⟩ := htakes packet a hin p hp
    have hplay := Client.Viewer.lookup_play_of_packet s.players hin
      (hwrites.trans hlistens)
    rw [hp] at hplay
    refine ⟨p.write packet.streamData, hplay, ?_, ?_⟩
    · rw [Client.VideoPlayer.write, Channel.listening_send]
      exact hlistens
    · rw [Client.VideoPlayer.taken_write hready hlistens, hfed, hreceived, hpacket,
        Client.Viewer.dataOf, Client.Viewer.dataOf, List.flatMap_append, List.append_assoc]
      simp

private theorem Fed.step (h : Fed v p₀ tr s) (hstep : s.Step c e t) (hsteady : s.Steady v r e) :
    Fed v p₀ (tr ++ [(s, e)]) t := by
  cases hstep with
  | network _ hnone =>
    obtain ⟨p, hp, hlistens, hfed⟩ := h
    refine ⟨p, hp, hlistens, ?_⟩
    rw [audienceSteps_audience, receivedBy_append, receivedBy_singleton, hnone, hfed]
    simp
  | client _ hq htakes => exact h.play hsteady hq htakes _
  | @feed u turn =>
    obtain ⟨p, hp, hlistens, hfed⟩ := h
    rw [Fed, audienceSteps_feed]
    by_cases hu : v = u
    · subst hu
      obtain ⟨htaken, hlistening⟩ := p.feed_of_ne_fail (hsteady rfl)
      refine ⟨p.feed turn, ?_, hlistening.trans hlistens, htaken.trans hfed⟩
      rw [Map.lookup_modify, if_pos rfl, hp, Option.map_some]
    · refine ⟨p, ?_, hlistens, hfed⟩
      rw [Map.lookup_modify, if_neg hu, hp]

private theorem Theatre.Step.audience {e : AudienceEvent} (h : s.Step c (.audience e) t) :
    s.audience.Step c e t.audience := by
  cases h with
  | network hstep _ => exact hstep
  | client hstep _ _ => exact hstep

/-- The run of the network and the client that a run is. -/
theorem Theatre.run_audienceSteps (hrun : Run (Theatre.Step c) s₀ tr s) :
    Run (Audience.Step c) s₀.audience (Theatre.audienceSteps tr) s.audience := by
  induction hrun with
  | refl => exact .refl _
  | @tail s t tr e _ he ih =>
    cases e with
    | audience e =>
      rw [audienceSteps_audience]
      exact ih.tail he.audience
    | feed u turn =>
      rw [audienceSteps_feed]
      cases he
      exact ih

/-- A step of the network and the client is the same in the run of the whole. -/
theorem Theatre.mem_audienceSteps {p : Audience × AudienceEvent}
    (hp : p ∈ Theatre.audienceSteps tr) : ∃ s : Theatre, s.audience = p.1 ∧
      (s, .audience p.2) ∈ tr := by
  obtain ⟨⟨s, e⟩, hs, hstep⟩ := List.mem_filterMap.mp hp
  cases e with
  | feed u turn => cases hstep
  | audience e =>
    cases hstep
    exact ⟨s, rfl, hs⟩

/-- What comes to the address of the client in a run is what the client receives. -/
theorem received_overlaySteps {a₀ a : Audience} {tr : List (Audience × AudienceEvent)}
    (hrun : Run (Audience.Step c) a₀ tr a) :
    received v c (overlaySteps c tr) = receivedBy v tr := by
  induction hrun with
  | refl => rfl
  | @tail a a' tr e _ he ih =>
    have hlast : overlaySteps c [(a, e)] = overlayStep c (a, e) := List.append_nil _
    rw [overlaySteps_append, hlast, System.received, List.filterMap_append, receivedBy_append,
      receivedBy_singleton, ← received_overlayStep he.1, ← ih]
    rfl

/-- The client takes no turns of the server. -/
theorem serverTurns_overlaySteps (tr : List (Audience × AudienceEvent)) :
    serverTurns r (overlaySteps c tr) = serverTurns r (networkSteps tr) := by
  induction tr with
  | nil => rfl
  | cons p tr ih =>
    have hcons : overlaySteps c (p :: tr) = overlayStep c p ++ overlaySteps c tr := rfl
    have hnetwork : networkSteps (p :: tr) = networkSteps [p] ++ networkSteps tr :=
      networkSteps_append [p] tr
    rw [hcons, hnetwork, serverTurns, List.filterMap_append, serverTurns, List.filterMap_append]
    exact congrArg₂ _ (serverTurns_overlayStep p.2) ih

private theorem steady_overlaySteps (habsent : s₀.audience.overlay.hosts.lookup c = none)
    (hrun : Run (Theatre.Step c) s₀ tr s) (hsteady : ∀ p ∈ tr, p.1.Steady v r p.2) :
    ∀ p ∈ overlaySteps c (Theatre.audienceSteps tr), p.1.Steady v r p.2 := by
  apply forall_overlaySteps (P := fun p ↦ p.1.Steady v r p.2) (Theatre.run_audienceSteps hrun)
    habsent
  rintro ⟨a, e⟩ hp hc henabled
  obtain ⟨s, rfl, hs⟩ := Theatre.mem_audienceSteps hp
  exact steady_overlayStep (hsteady _ hs) hc henabled

/-- What the client received since it started the video is the last part of what it received. -/
theorem watched_isSuffix {tr : List (Client.State × Client.Event)} {packets : List VideoPacket}
    (h : Client.watched v tr = some packets) :
    packets <:+ tr.filterMap fun p ↦ played v p.2 := by
  induction tr using List.reverseRecOn generalizing packets with
  | nil => cases h
  | append_singleton tr p ih =>
    rw [Client.watched_concat] at h
    rw [List.filterMap_append]
    -- an event that starts, stops and plays nothing
    have hsame (hwatched : Client.watched v tr = some packets) (hnone : played v p.2 = none) :
        packets <:+ tr.filterMap (fun p ↦ played v p.2) ++ [p].filterMap fun p ↦ played v p.2 := by
      simpa [hnone] using ih hwatched
    unfold Client.Event.watch at h
    split at h
    · next u hin =>
      split at h
      · cases h
        exact List.nil_suffix
      · exact hsame h (by simp [played, hin])
    · next u hin =>
      split at h
      · cases h
      · exact hsame h (by simp [played, hin])
    · next q a hin =>
      split at h
      · next hq =>
        split at h
        · obtain ⟨l, hl, rfl⟩ := Option.map_eq_some_iff.mp h
          have hplayed : played v p.2 = some q := played_eq_some.mpr ⟨a, hin, hq⟩
          obtain ⟨before, hbefore⟩ := ih hl
          refine ⟨before, ?_⟩
          rw [← hbefore]
          simp [hplayed]
        · cases h
      · next hq =>
        apply hsame h
        by_contra hsome
        obtain ⟨q', hq'⟩ := Option.ne_none_iff_exists'.mp hsome
        obtain ⟨b, hb, hv⟩ := played_eq_some.mp hq'
        cases hin.symm.trans hb
        exact hq hv
    · next hstart hstop hpacket =>
      apply hsame h
      by_contra hsome
      obtain ⟨q', hq'⟩ := Option.ne_none_iff_exists'.mp hsome
      obtain ⟨b, hb, -⟩ := played_eq_some.mp hq'
      exact hpacket q' b hb

/-- At the end of every run the players of a video play what the client received since it started
the video. -/
theorem shows_of_theatre (hplayer : s₀.players.lookup v = none)
    (hrun : Run (Theatre.Step c) s₀ tr s) :
    Client.Viewer.Shows s.players v
      (Client.watched v (clientSteps (Theatre.audienceSteps tr))) := by
  induction hrun with
  | refl => exact hplayer
  | @tail s t tr e _ he ih =>
    cases he with
    | @network e t _ hnone =>
      have hstay : clientSteps [(s.audience, e)] = [] := by
        simp [clientSteps, hnone]
      rw [audienceSteps_audience, clientSteps_append, hstay, List.append_nil]
      exact ih
    | @client e t q _ hq htakes =>
      have hlast : clientSteps [(s.audience, e)] = [q] := by
        simp [clientSteps, hq]
      rw [audienceSteps_audience, clientSteps_append, hlast, Client.watched_concat]
      exact ih.play htakes
    | feed =>
      rw [audienceSteps_feed]
      exact ih.feed _ _

/-- A player plays the last part of what the client received of its video. -/
theorem plays_received (hplayer : s₀.players.lookup v = none) (hrun : Run (Theatre.Step c) s₀ tr s)
    {p : Client.VideoPlayer} (hp : s.players.lookup v = some p) : ∃ packets : List VideoPacket,
      packets <:+ receivedBy v (Theatre.audienceSteps tr) ∧
        p.Plays (Client.Viewer.dataOf packets) := by
  have hshows := shows_of_theatre hplayer hrun
  cases hwatched : Client.watched v (clientSteps (Theatre.audienceSteps tr)) with
  | none =>
    rw [hwatched] at hshows
    cases hp.symm.trans hshows
  | some packets =>
    rw [hwatched] at hshows
    obtain ⟨p', hp', hplays⟩ := hshows
    obtain rfl : p = p' := Option.some.inj (hp.symm.trans hp')
    exact ⟨packets, watched_isSuffix hwatched, hplays⟩

/-- While nobody changes the subscriptions, no packet of the stream is lost, repeated or overtaken
and the client goes on watching, the player of the video at the client takes the first of the data
that the child process of the server writes, in order, and once no packet is in flight all of it. -/
theorem screened (hs : s₀.audience.overlay.Settled v r k) (ha : s₀.audience.overlay.Reached v r c)
    (habsent : s₀.audience.overlay.hosts.lookup c = none)
    (hplayer : s₀.players.lookup v = some p₀) (hlistens : p₀.channel.listening)
    (hrun : Run (Theatre.Step c) s₀ tr s) (hsteady : ∀ p ∈ tr, p.1.Steady v r p.2) :
    ∃ p data, s.players.lookup v = some p ∧ p.taken = p₀.taken ++ data ∧
      data <+: ((serverTurns r (networkSteps (Theatre.audienceSteps tr))).filterMap fun p ↦
        p.2.chunk v).flatten ∧
      ((∀ m ∈ s.audience.overlay.inFlight, ofStream v m.packet = none) →
        data = ((serverTurns r (networkSteps (Theatre.audienceSteps tr))).filterMap fun p ↦
          p.2.chunk v).flatten) := by
  have haudience := Theatre.run_audienceSteps hrun
  have hnetwork := (run_overlaySteps haudience habsent).1
  have hquiet := steady_overlaySteps habsent hrun hsteady
  have hfed : Fed v p₀ tr s := by
    clear haudience hnetwork hquiet
    induction hrun with
    | refl => exact ⟨p₀, hplayer, hlistens, (List.append_nil _).symm⟩
    | tail _ he ih =>
      rw [List.forall_mem_append, List.forall_mem_singleton] at hsteady
      exact (ih hsteady.1).step he hsteady.2
  have hne : c ≠ r := by
    rintro rfl
    obtain ⟨server, video, hserver, -⟩ := hs.server
    cases habsent.symm.trans hserver
  obtain ⟨p, hp, -, htaken⟩ := hfed
  have hfirst := received_isPrefix hs ha hne hnetwork hquiet
  have hchunks := broadcast_chunks hs ha hne hnetwork hquiet
  have hidle := received_of_idle hs ha hne hnetwork hquiet
  rw [received_overlaySteps haudience] at hfirst hidle
  rw [serverTurns_overlaySteps] at hfirst hchunks hidle
  have hdata (l : List VideoPacket) :
      Client.Viewer.dataOf l = (l.map VideoPacket.streamData).flatten := rfl
  refine ⟨p, _, hp, htaken, ?_, fun h ↦ ?_⟩
  · rw [← hchunks, hdata]
    obtain ⟨rest, hrest⟩ := hfirst
    rw [← hrest, List.map_append, List.flatten_append]
    exact List.prefix_append _ _
  · rw [← hchunks, hdata, hidle h]

end Runs

namespace Theatre

/-- The event in which the players take the data of a packet, and whether they do so at once. -/
def takes (players : Map VideoId Client.VideoPlayer) (e : Client.Event) : Bool :=
  match e.input with
  | .packet (.videoPacket p) _ => (players.lookup p.streamId).all fun player ↦
      player.channel.Ready && e.env.writes == player.channel.listening
  | _ => true

private theorem takes_of_takes {players : Map VideoId Client.VideoPlayer} {e : Client.Event}
    (h : takes players e) : Client.Viewer.Takes players e := by
  intro p a hin player hplayer
  simpa [takes, hin, hplayer] using h

/-- The event in which whoever handles it iterates its maps in the order they have. -/
def settle (s : Theatre) : TheatreEvent → TheatreEvent
  | .audience e => .audience (s.audience.settle e)
  | .feed v turn => .feed v turn

/-- What an event does. -/
def next (c : SocketAddr) (s : Theatre) : TheatreEvent → Theatre
  | .audience e =>
    match clientStep (s.audience, e) with
    | none => { s with audience := s.audience.next c e }
    | some p => ⟨s.audience.next c e, Client.Viewer.play s.players p.2⟩
  | .feed v turn =>
    { s with players := s.players.modify v fun player ↦ player.feed turn }

/-- Whether an event can happen, apart from the order in which maps are iterated. -/
def possible (c : SocketAddr) (s : Theatre) : TheatreEvent → Bool
  | .audience e => s.audience.possible c e &&
      (clientStep (s.audience, s.audience.settle e)).all fun p ↦ takes s.players p.2
  | .feed _ _ => true

/-- The step that follows from an event that can happen. -/
def next? (c : SocketAddr) (s : Theatre) (e : TheatreEvent) : Option (TheatreEvent × Theatre) :=
  if s.possible c e then some (s.settle e, s.next c (s.settle e)) else none

/-- What is computed is a step. -/
theorem step_of_next? {c : SocketAddr} {s t : Theatre} {e e' : TheatreEvent}
    (h : s.next? c e = some (e', t)) : s.Step c e' t := by
  unfold next? at h
  split at h
  · next hpossible =>
    cases h
    cases e with
    | feed v turn => exact .feed
    | audience e =>
      rw [possible, Bool.and_eq_true] at hpossible
      have hstep : s.audience.Step c (s.audience.settle e)
          (s.audience.next c (s.audience.settle e)) :=
        ⟨Audience.enabled_settle c hpossible.1, rfl⟩
      simp only [settle, next]
      cases hp : clientStep (s.audience, s.audience.settle e) with
      | none => exact .network hstep hp
      | some p =>
        rw [hp] at hpossible
        exact .client hstep hp (takes_of_takes hpossible.2)
  · cases h

/-- What happens is the event with the orders of the maps settled. -/
theorem settle_of_next? {c : SocketAddr} {s t : Theatre} {e e' : TheatreEvent}
    (h : s.next? c e = some (e', t)) : e' = s.settle e := by
  unfold next? at h
  split at h
  · exact (Prod.mk.inj (Option.some.inj h)).1.symm
  · cases h

/-- The event of the network that an event is. -/
def network? : TheatreEvent → Option OverlayEvent
  | .audience (.network e) => some e
  | _ => none

/-- Packets that arrive one after the other, data of the child process, and players that take their
turns are steady. -/
theorem steady_play {c r : SocketAddr} {v : VideoId} {s : Theatre} {es : List TheatreEvent}
    (hes : ∀ e ∈ es, e = .audience (.network deliverNext) ∨
      (∃ data, e = .audience (.network (.server r (.streamVideo v data) fun _ ↦ .ok ()))) ∨
      (∃ env view, e = .audience (.receive 0 env view)) ∨ ∃ u turn, turn ≠ .fail ∧ e = .feed u turn)
    (hsame : ∀ p ∈ (Run.play (next? c) s es).1, ∀ e ∈ network? p.2,
      ∀ q ∈ p.1.audience.overlay.hosts.entries,
        (p.1.audience.overlay.next e).subscribersAt v q.1 =
          p.1.audience.overlay.subscribersAt v q.1) :
    ∀ p ∈ (Run.play (next? c) s es).1, p.1.Steady v r p.2 := by
  rintro ⟨s', e'⟩ hp
  obtain ⟨e, he, t, hnext⟩ := Run.mem_play hp
  have hstep := step_of_next? hnext
  obtain rfl : e' = s'.settle e := settle_of_next? hnext
  have hsame := hsame _ hp
  rcases hes e he with rfl | ⟨data, rfl⟩ | ⟨env, view, rfl⟩ | ⟨u, turn, hturn, rfl⟩
  · obtain ⟨henabled, -⟩ := hstep.audience
    exact Overlay.steady_of_entries (r := r) ⟨henabled.1, rfl⟩ (.inl ⟨_, rfl⟩) (hsame _ rfl)
  · obtain ⟨henabled, -⟩ := hstep.audience
    exact Overlay.steady_of_entries ⟨henabled.1, rfl⟩ (.inr ⟨data, rfl⟩) (hsame _ rfl)
  · intro m _ _ m' hm'
    cases hm'
  · exact fun _ ↦ hturn

end Theatre

/-- The chain while its client at the second node watches the video. -/
def watchingChain : Theatre where
  audience := ⟨watchedChain, (Client.State.new [.v4 2]).startPlaying (some (hostAddr 2)) 5⟩
  players := AList.insert 5 .launch ∅

/-- A chunk of the video on its way through the chain to the process that shows it. -/
def screening : List (Theatre × TheatreEvent) × Theatre :=
  Run.play (Theatre.next? (hostAddr 7)) watchingChain
    ([.audience (.network (.server (hostAddr 9) (.streamVideo 5 [10, 11]) fun _ ↦ .ok ()))] ++
    List.replicate 3 (.audience (.network deliverNext)) ++
    [.audience (.receive 0 (Client.calmEnv 0) (.new [])), .feed 5 .receive, .feed 5 (.write 1)])

/-- The player has taken both chunks. -/
theorem screened_chain : ∃ p, screening.2.players.lookup 5 = some p ∧ p.taken = [10, 11] := by
  have hrun : Run (Theatre.Step (hostAddr 7)) watchingChain screening.1 screening.2 := by
    apply Run.run_play
    exact fun _ _ _ _ ↦ Theatre.step_of_next?
  have hsteady : ∀ p ∈ screening.1, p.1.Steady 5 (hostAddr 9) p.2 := by
    apply Theatre.steady_play
    · simp
    · decide +kernel
  have hoverlay : watchingChain.audience.overlay = watchedChain := by
    simp only [watchingChain]
  have hsettled : watchingChain.audience.overlay.Settled 5 (hostAddr 9) 0 := by
    rw [hoverlay]
    exact watchedChain_settled
  have hreached : watchingChain.audience.overlay.Reached 5 (hostAddr 9) (hostAddr 7) := by
    rw [hoverlay]
    exact watchedChain_reached
  obtain ⟨p, data, hp, htaken, -, hall⟩ := screened hsettled hreached (by decide +kernel)
    (AList.lookup_insert _) rfl hrun hsteady
  refine ⟨p, hp, ?_⟩
  rw [htaken, hall (by decide +kernel)]
  decide +kernel

end PessiStreamer.System
