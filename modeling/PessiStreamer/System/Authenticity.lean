import PessiStreamer.System.Losses

/-!
# Nothing but the streams is shown

Packets of a stream may be lost, repeated and reordered on their way, and hosts may subscribe, fail
to send and stop as they like: no node changes a packet or makes one up, so each that a client plays
was broadcast by a server, with data that the child process of the server wrote.
-/

namespace PessiStreamer.System
open Base Common Node Server

/-- A server broadcast the packet, in a turn in which its child process wrote the data. -/
def Streamed (tr : List (Overlay × OverlayEvent)) (q : VideoPacket) : Prop :=
  ∃ r, ∃ turn ∈ serverTurns r tr, Server.broadcasted q.streamId turn = some q ∧
    turn.2.chunk q.streamId = some q.streamData

section Network

variable {o₀ o o' : Overlay} {e : OverlayEvent} {tr tr' : List (Overlay × OverlayEvent)}
  {v : VideoId} {q : VideoPacket}

private theorem Streamed.append (h : Streamed tr q) : Streamed (tr ++ tr') q := by
  obtain ⟨r, turn, hturn, hq⟩ := h
  refine ⟨r, turn, ?_, hq⟩
  rw [serverTurns, List.filterMap_append]
  exact List.mem_append_left _ hturn

/-- A step in which no packet of the stream comes from outside. -/
def Unforged (v : VideoId) (p : Overlay × OverlayEvent) : Prop :=
  ∀ m, p.2 = .client m → ofStream v m.packet = none

/-- A server sends packets of a stream by broadcasts. -/
theorem broadcasted_of_sent {s : Server.State} (turn : Server.Input) {x : SocketAddr × Packet}
    (hx : x ∈ turn.sent s) (hq : ofStream v x.2 = some q) :
    Server.broadcasted v (s, turn) = some q := by
  cases hfirst : Server.broadcasted v (s, turn) with
  | none =>
    have hnone := List.findSome?_eq_none_iff.mp hfirst x hx
    cases hnone.symm.trans hq
  | some q' =>
    -- all that is sent in a turn are copies of one packet
    obtain ⟨x', hx', hq'⟩ := List.exists_of_findSome?_eq_some hfirst
    obtain ⟨hpacket, rfl⟩ := ofStream_eq_some.mp hq
    obtain ⟨hpacket', hv⟩ := ofStream_eq_some.mp hq'
    obtain ⟨video, data, sendResult, rfl, hvideo, heq⟩ := stream_of_sent hx hpacket
    obtain ⟨video', data', sendResult', hturn, hvideo', heq'⟩ := stream_of_sent hx' hpacket'
    rw [hv] at hvideo' hturn heq'
    cases hturn
    cases hvideo.symm.trans hvideo'
    rw [heq, heq']

/-- The packets of the stream in flight were broadcast. -/
theorem streamed_of_flight (hrun : Run Overlay.Step o₀ tr o)
    (hidle : ∀ m ∈ o₀.inFlight, ofStream v m.packet = none) (hunforged : ∀ p ∈ tr, Unforged v p) :
    ∀ m ∈ o.inFlight, ∀ q, ofStream v m.packet = some q → Streamed tr q := by
  induction hrun with
  | refl =>
    intro m hm q hq
    cases (hidle m hm).symm.trans hq
  | @tail o o' tr e _ he ih =>
    rw [List.forall_mem_append, List.forall_mem_singleton] at hunforged
    intro m hm q hq
    cases he.origin hm with
    | before hm => exact (ih hunforged.1 m hm q hq).append
    | node hs hview hflight hsent _ =>
      obtain ⟨b, hin⟩ := input_of_sent hsent hq
      exact (ih hunforged.1 _ (hflight _ _ hin) q hq).append
    | @server s a sendResult hs heq hsent =>
      subst heq
      have hturn : turnIn m.source (o, .server m.source a sendResult) =
          some (s, .event a sendResult) := by
        simp [turnIn, hs]
      have hbroadcasted := broadcasted_of_sent (.event a sendResult) hsent hq
      obtain rfl : q.streamId = v := (ofStream_eq_some.mp hq).2
      refine ⟨m.source, (s, .event a sendResult), ?_, hbroadcasted,
        broadcasted_chunk hbroadcasted⟩
      rw [serverTurns_concat, hturn]
      simp
    | client heq => cases (hunforged.2 m heq).symm.trans hq

/-- So were those that arrive. -/
theorem streamed_of_received {a : SocketAddr} (hrun : Run Overlay.Step o₀ tr o)
    (hidle : ∀ m ∈ o₀.inFlight, ofStream v m.packet = none) (hunforged : ∀ p ∈ tr, Unforged v p)
    (hq : q ∈ received v a tr) : q.streamId = v ∧ Streamed tr q := by
  obtain ⟨p, hp, hreceived⟩ := List.mem_filterMap.mp hq
  obtain ⟨l, rest, rfl, hl, -⟩ := hrun.exists_split hp
  rw [List.forall_mem_append] at hunforged
  unfold receivedIn at hreceived
  split at hreceived
  · obtain ⟨m, hm, hreceived⟩ := Option.bind_eq_some_iff.mp hreceived
    split at hreceived
    · have hstreamed := streamed_of_flight hl hidle hunforged.1 m (List.mem_of_getElem? hm) q
      exact ⟨(ofStream_eq_some.mp hreceived).2, (hstreamed hreceived).append⟩
    · cases hreceived
  · cases hreceived

end Network

section Clients

variable {c : SocketAddr} {v : VideoId} {s₀ s : Theatre} {tr : List (Theatre × TheatreEvent)}

/-- Clients send no packets of streams. -/
theorem unforged_overlayStep {p : Audience × AudienceEvent} (henabled : p.1.Enabled c p.2) :
    ∀ q ∈ overlayStep c p, Unforged v q := by
  have hsends {o : Overlay} {l : List Message} (hl : ∀ m ∈ l, ofStream v m.packet = none) :
      ∀ q ∈ sends o l, Unforged v q := by
    intro q hq m hm
    have horderly := orderly_sends hl q hq
    rwa [hm] at horderly
  obtain ⟨a, e⟩ := p
  intro q hq
  cases e with
  | network e =>
    rw [List.mem_singleton.mp hq]
    rintro m rfl
    have hforeign : Client.sends m.packet := henabled.2.2
    unfold ofStream
    split
    · next heq =>
      rw [heq] at hforeign
      cases hforeign
    · rfl
  | receive index env view =>
    simp only [overlayStep] at hq
    split at hq
    · rcases List.mem_cons.mp hq with rfl | hq
      · rintro m ⟨⟩
      · exact hsends (ofStream_of_client _) q hq
    · cases hq
  | client e => exact hsends (ofStream_of_client _) q hq

/-- Whatever is lost, repeated and reordered on the way: each packet of a video that a client
receives was broadcast by a server, with data that its child process wrote, and the process that
shows the video is fed the data of such packets, in the order in which they arrived. -/
theorem shown_was_streamed (habsent : s₀.audience.overlay.hosts.lookup c = none)
    (hidle : ∀ m ∈ s₀.audience.overlay.inFlight, ofStream v m.packet = none)
    (hplayer : s₀.players.lookup v = none) (hrun : Run (Theatre.Step c) s₀ tr s) :
    (∀ q ∈ receivedBy v (Theatre.audienceSteps tr), q.streamId = v ∧
      Streamed (networkSteps (Theatre.audienceSteps tr)) q) ∧
    ∀ p, s.players.lookup v = some p → ∃ packets : List VideoPacket,
      packets <:+ receivedBy v (Theatre.audienceSteps tr) ∧
        p.Plays (Client.Viewer.dataOf packets) := by
  have haudience := Theatre.run_audienceSteps hrun
  have hnetwork := (run_overlaySteps haudience habsent).1
  have hunforged : ∀ p ∈ overlaySteps c (Theatre.audienceSteps tr), Unforged v p :=
    forall_overlaySteps haudience habsent fun _ _ _ henabled ↦ unforged_overlayStep henabled
  refine ⟨fun q hq ↦ ?_, fun p hp ↦ plays_received hplayer hrun hp⟩
  rw [← received_overlaySteps haudience] at hq
  obtain ⟨hv, r, turn, hturn, hbroadcast⟩ := streamed_of_received hnetwork hidle hunforged hq
  rw [serverTurns_overlaySteps] at hturn
  exact ⟨hv, r, turn, hturn, hbroadcast⟩

end Clients

/-- The packet with a chunk of the video is repeated on its way to the first node, and the client
gets the chunk twice. -/
def repeatedScreening : List (Theatre × TheatreEvent) × Theatre :=
  let arrives : TheatreEvent := .audience (.network deliverNext)
  let comes : TheatreEvent := .audience (.receive 0 (Client.calmEnv 0) (.new []))
  Run.play (Theatre.next? (hostAddr 7)) startingChain
    [.audience (.client ⟨.uiStartPlaying 5, Client.calmEnv 0, .new []⟩),
      writes [10], .audience (.network (.duplicate 0)), arrives, arrives, arrives, arrives, arrives,
      arrives, comes, comes, .feed 5 .receive, .feed 5 (.write 1), .feed 5 .receive,
      .feed 5 (.write 1)]

/-- What the client gets twice was streamed once. -/
theorem shown_was_streamed_repeated :
    Streamed (networkSteps (Theatre.audienceSteps repeatedScreening.1)) ⟨5, 1, [10]⟩ ∧
      ∃ p, repeatedScreening.2.players.lookup 5 = some p ∧ p.stdin = [10, 10] ∧
        ∃ packets : List VideoPacket, p.Plays (Client.Viewer.dataOf packets) := by
  have hrun : Run (Theatre.Step (hostAddr 7)) startingChain repeatedScreening.1
      repeatedScreening.2 := by
    apply Run.run_play
    exact fun _ _ _ _ ↦ Theatre.step_of_next?
  have habsent : startingChain.audience.overlay.hosts.lookup (hostAddr 7) = none := by
    decide +kernel
  have h := shown_was_streamed (v := 5) habsent watchedChain_settled.idle rfl hrun
  have hreceived : ⟨5, 1, [10]⟩ ∈ receivedBy 5 (Theatre.audienceSteps repeatedScreening.1) := by
    decide +kernel
  have hplayer : (repeatedScreening.2.players.lookup 5).map Client.VideoPlayer.stdin =
      some [10, 10] := by
    decide +kernel
  obtain ⟨p, hp, hstdin⟩ := Option.map_eq_some_iff.mp hplayer
  obtain ⟨packets, -, hplays⟩ := h.2 p hp
  exact ⟨(h.1 _ hreceived).2, p, hp, hstdin, packets, hplays⟩

end PessiStreamer.System
