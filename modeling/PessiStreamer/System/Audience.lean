import PessiStreamer.Client.Knowledge
import PessiStreamer.System.Advertisement
import PessiStreamer.System.Streams

/-!
# The network and a client

One client of the network, at an address where no host is. What it knows of the nodes and of the
videos came over the network: from an answer of a node, which lists what the node offered then,
and in the end from the announcement of a server.
-/

namespace PessiStreamer.System
open Base Common Node

/-- The network and the client. -/
structure Audience where
  overlay : Overlay
  client : Client.State
  deriving DecidableEq

/-- An event of the network, a message that comes to the client, or another event of the client. -/
inductive AudienceEvent where
  | network (e : OverlayEvent)
  /-- a message reaches the client -/
  | receive (index : Nat) (env : Client.Env) (view : Client.State)
  /-- an event of the client other than a packet -/
  | client (e : Client.Event)

namespace Audience

variable (c : SocketAddr)

/-- The client changes its state and sends. -/
def act (s : Audience) (r : Client.Ctx) : Audience where
  overlay := { s.overlay with inFlight := s.overlay.inFlight ++ outgoing c r.sent }
  client := r.state

/-- What an event does. -/
def next (s : Audience) : AudienceEvent → Audience
  | .network e => { s with overlay := s.overlay.next e }
  | .receive index env view =>
    match s.overlay.inFlight[index]? with
    | some m =>
      act c { s with overlay := { s.overlay with inFlight := s.overlay.inFlight.eraseIdx index } }
        (Client.Event.after ⟨.packet m.packet m.source, env, view⟩)
    | none => s
  | .client e => s.act c e.after

/-- An event of the network that is none of the client's: no message for the client arrives, and
who else sends is a client at another address. -/
def Foreign (s : Audience) : OverlayEvent → Prop
  | .deliver index _ _ => ∀ m, s.overlay.inFlight[index]? = some m → m.target ≠ c
  | .client m => m.source ≠ c ∧ Client.sends m.packet
  | _ => True

/-- When an event can happen. -/
def Enabled (s : Audience) : AudienceEvent → Prop
  | .network e => s.overlay.Enabled e ∧ s.Foreign c e
  | .receive index _ view => (∃ m, s.overlay.inFlight[index]? = some m ∧ m.target = c) ∧
      s.client.Reorder view
  | .client e => e.input.isPacket = false ∧ s.client.Reorder e.view

/-- One atomic step. -/
def Step (s : Audience) (e : AudienceEvent) (s' : Audience) : Prop :=
  s.Enabled c e ∧ s' = s.next c e

/-- The event in which whoever handles it iterates its maps in the order they have. -/
def settle (s : Audience) : AudienceEvent → AudienceEvent
  | .network e => .network (s.overlay.settle e)
  | .receive index env _ => .receive index env s.client
  | .client e => .client { e with view := s.client }

/-- Whether an event can happen, apart from the order in which maps are iterated. -/
def possible (s : Audience) : AudienceEvent → Bool
  | .network (.client m) =>
    s.overlay.possible (.client m) && (m.source ≠ c && Client.sends m.packet)
  | .network (.deliver index env view) => s.overlay.possible (.deliver index env view) &&
      (s.overlay.inFlight[index]?).all fun m ↦ m.target ≠ c
  | .network e => s.overlay.possible e
  | .receive index _ _ => (s.overlay.inFlight[index]?).any fun m ↦ m.target = c
  | .client e => !e.input.isPacket

/-- An event that is possible is enabled once the orders of the maps are settled. -/
theorem enabled_settle {s : Audience} {e : AudienceEvent} (h : s.possible c e) :
    s.Enabled c (s.settle e) := by
  rcases e with e | ⟨index, env, view⟩ | e
  · cases e with
    | client m =>
      simp only [possible, Bool.and_eq_true, decide_eq_true_eq] at h
      exact ⟨Overlay.enabled_settle h.1, h.2⟩
    | deliver index env view =>
      simp only [possible, Bool.and_eq_true] at h
      refine ⟨Overlay.enabled_settle h.1, fun m hm ↦ ?_⟩
      have hall := h.2
      rw [hm] at hall
      exact of_decide_eq_true hall
    | _ => exact ⟨Overlay.enabled_settle h, trivial⟩
  · obtain ⟨m, hm, hc⟩ := Option.any_eq_true .. |>.mp h
    exact ⟨⟨m, hm, of_decide_eq_true hc⟩, .refl _⟩
  · exact ⟨by simpa [possible] using h, .refl _⟩

/-- The step that follows from an event that can happen. -/
def next? (s : Audience) (e : AudienceEvent) : Option (AudienceEvent × Audience) :=
  if s.possible c e then some (s.settle e, s.next c (s.settle e)) else none

/-- What is computed is a step. -/
theorem step_of_next? {s t : Audience} {e e' : AudienceEvent} (h : s.next? c e = some (e', t)) :
    s.Step c e' t := by
  unfold next? at h
  split at h
  · next hpossible =>
    cases h
    exact ⟨enabled_settle c hpossible, rfl⟩
  · cases h

end Audience

/-- The steps of the network in a run. -/
def networkSteps (tr : List (Audience × AudienceEvent)) : List (Overlay × OverlayEvent) :=
  tr.filterMap fun p ↦
    match p.2 with
    | .network e => some (p.1.overlay, e)
    | _ => none

/-- In the step the node at `n` answers a ping of the client with these videos, those that it has to
offer to the client. -/
def Overlay.Answers (o : Overlay) (e : OverlayEvent) (c n : SocketAddr) (vs : List VideoId) :
    Prop :=
  ∃ index env view number requested, e = .deliver index env view ∧
    o.inFlight[index]? = some ⟨c, n, .nodePacket (.clientPing number requested)⟩ ∧
    ⟨n, c, .clientPacket (.videoList ⟨number, view.getVideos c, env.now⟩)⟩ ∈ o.sent e ∧
    vs = (view.getVideos c).map Prod.fst

/-- In some step the node at `n` answered the client with these videos. -/
def Told (c : SocketAddr) (tr : List (Audience × AudienceEvent)) (n : SocketAddr)
    (vs : List VideoId) : Prop :=
  ∃ p ∈ networkSteps tr, p.1.Answers p.2 c n vs

/-- The node told the client of these videos, and each of them was announced. -/
def Heard (c : SocketAddr) (tr : List (Audience × AudienceEvent)) (n : SocketAddr)
    (vs : List VideoId) : Prop :=
  Told c tr n vs ∧ ∀ v ∈ vs, ∃ name, Announced (networkSteps tr) (v, name)

section Histories

variable {c n : SocketAddr} {tr tr' : List (Audience × AudienceEvent)}

/-- The steps of the network in two runs. -/
theorem networkSteps_append (tr tr' : List (Audience × AudienceEvent)) :
    networkSteps (tr ++ tr') = networkSteps tr ++ networkSteps tr' := List.filterMap_append

private theorem Told.append {vs : List VideoId} (h : Told c tr n vs) : Told c (tr ++ tr') n vs := by
  obtain ⟨p, hp, htold⟩ := h
  refine ⟨p, ?_, htold⟩
  rw [networkSteps_append]
  exact List.mem_append_left _ hp

private theorem Heard.append {vs : List VideoId} (h : Heard c tr n vs) :
    Heard c (tr ++ tr') n vs := by
  refine ⟨h.1.append, fun v hv ↦ ?_⟩
  obtain ⟨name, hname⟩ := h.2 v hv
  rw [networkSteps_append]
  exact ⟨name, hname.append⟩

/-- A list of announced videos that the node told. -/
theorem Told.heard {videos : List (VideoId × String)} (h : Told c tr n (videos.map Prod.fst))
    (hvideos : ∀ x ∈ videos, Announced (networkSteps tr) x) :
    Heard c tr n (videos.map Prod.fst) := by
  refine ⟨h, fun v hv ↦ ?_⟩
  obtain ⟨x, hx, rfl⟩ := List.mem_map.mp hv
  exact ⟨x.2, hvideos x hx⟩

end Histories

/-- No host appears where there is none. -/
theorem Overlay.Step.absent {o o' : Overlay} {e : OverlayEvent} (hstep : o.Step e o')
    {c : SocketAddr} (hc : o.hosts.lookup c = none) : o'.hosts.lookup c = none := by
  by_contra hsome
  obtain ⟨k, hk⟩ := Option.ne_none_iff_exists'.mp hsome
  obtain ⟨k₀, hk₀, -⟩ := hstep.kind hk
  cases hc.symm.trans hk₀

/-- A message in flight after a step was so before, or a host or someone else has sent it. -/
inductive Overlay.Origin (o : Overlay) (e : OverlayEvent) (m : Message) : Prop
  | before : m ∈ o.inFlight → Origin o e m
  | node {s : Node.State} {a : Node.Event} : o.hosts.lookup m.source = some (.node s) →
      s.Reorder a.view → (∀ p b, a.input = .packet p b → ⟨b, m.source, p⟩ ∈ o.inFlight) →
      (m.target, m.packet) ∈ a.after.sent → o.handled e = some (m.source, a) → Origin o e m
  | server {s : Server.State} {a : Server.Event}
      {sendResult : Nat → Except ReliableUdpSocketError Unit} :
      o.hosts.lookup m.source = some (.server s) → e = .server m.source a sendResult →
      (m.target, m.packet) ∈ (a.run sendResult s).2 → Origin o e m
  | client : e = .client m → Origin o e m

/-- Where a message comes from. -/
theorem Overlay.Step.origin {o o' : Overlay} {e : OverlayEvent} (hstep : o.Step e o') {m : Message}
    (hm : m ∈ o'.inFlight) : o.Origin e m := by
  cases hstep.transition with
  | deliverNode hlr hs hview =>
    rcases List.mem_append.mp hm with hm | hm
    · exact .before (Overlay.mem_of_mem_rest hlr hm)
    · obtain ⟨x, hx, rfl⟩ := List.mem_map.mp hm
      refine .node hs hview (fun p b hin ↦ ?_) hx (by simp [Overlay.handled, hlr])
      obtain ⟨rfl, rfl⟩ := Node.Input.packet.inj hin
      rw [hlr]
      exact List.mem_append_right _ List.mem_cons_self
  | deliverServer hlr hs =>
    rcases List.mem_append.mp hm with hm | hm
    · exact .before (Overlay.mem_of_mem_rest hlr hm)
    · cases hm
  | deliverNone hlr _ => exact .before (Overlay.mem_of_mem_rest hlr hm)
  | lose hlr => exact .before (Overlay.mem_of_mem_rest hlr hm)
  | duplicate hlr =>
    rcases List.mem_append.mp hm with hm | hm
    · exact .before hm
    · rw [List.mem_singleton.mp hm]
      exact .before (by simp [hlr])
  | node hs hview hpacket =>
    rcases List.mem_append.mp hm with hm | hm
    · exact .before hm
    · obtain ⟨x, hx, rfl⟩ := List.mem_map.mp hm
      refine .node hs hview (fun p b hin ↦ ?_) hx rfl
      rw [hin] at hpacket
      cases hpacket
  | server hk =>
    rcases List.mem_append.mp hm with hm | hm
    · exact .before hm
    · obtain ⟨x, hx, rfl⟩ := List.mem_map.mp hm
      exact .server hk rfl hx
  | client _ =>
    rcases List.mem_append.mp hm with hm | hm
    · exact .before hm
    · rw [List.mem_singleton.mp hm]
      exact .client rfl
  | stop => exact .before hm

/-- A node that sends a video list answers a ping. -/
theorem Overlay.Step.answers {o o' : Overlay} {e : OverlayEvent} (hstep : o.Step e o')
    {c n : SocketAddr} {t : Node.State} {a : Node.Event} {p : VideoListPacket}
    (hhost : o.hosts.lookup n = some (.node t)) (hhandled : o.handled e = some (n, a))
    (hsent : (c, .clientPacket (.videoList p)) ∈ a.after.sent) :
    o.Answers e c n (p.videos.map Prod.fst) := by
  obtain ⟨number, requested, hin, hvideos⟩ := Event.answer_of_sent hsent
  obtain ⟨index, env, view, rfl, rfl, hm⟩ := hstep.delivered hhandled hin
  rw [hvideos] at hsent ⊢
  refine ⟨index, env, view, number, requested, rfl, hm, ?_, rfl⟩
  simp only [Overlay.sent, hm, hhost]
  exact List.mem_map.mpr ⟨_, hsent, rfl⟩

/-- What holds in every state of every run: the answers to the client in flight are those of nodes,
and what the client knows came with such answers. -/
structure Attends (c : SocketAddr) (o₀ : Overlay) (tr : List (Audience × AudienceEvent))
    (s : Audience) : Prop where
  network : Advertises o₀ (networkSteps tr) s.overlay
  absent : s.overlay.hosts.lookup c = none
  answers : ∀ m ∈ s.overlay.inFlight, m.target = c → ∀ p,
    m.packet = .clientPacket (.videoList p) →
      Told c tr m.source (p.videos.map Prod.fst) ∧
        ∀ x ∈ p.videos, Announced (networkSteps tr) x
  client : Client.Informed (Heard c tr) (Announced (networkSteps tr)) s.client

namespace Attends

variable {c : SocketAddr} {o₀ : Overlay} {tr : List (Audience × AudienceEvent)}
  {s s' : Audience} {e : AudienceEvent}

/-- The history grows. -/
theorem append (h : Attends c o₀ tr s) (tr' : List (Audience × AudienceEvent)) :
    Attends c o₀ (tr ++ tr') s where
  network := by
    rw [networkSteps_append]
    exact h.network.append _
  absent := h.absent
  answers := by
    intro m hm hc p hp
    obtain ⟨htold, hlists⟩ := h.answers m hm hc p hp
    rw [networkSteps_append]
    exact ⟨htold.append, fun x hx ↦ (hlists x hx).append⟩
  client := by
    rw [networkSteps_append]
    exact h.client.mono (fun _ _ hheard ↦ hheard.append) fun _ hx ↦ hx.append

/-- A host of the network answers, or something else is sent. -/
theorem networkStep (h : Attends c o₀ tr s) {e : OverlayEvent} {o' : Overlay}
    (hstep : s.overlay.Step e o')
    (hforeign : s.Foreign c e) :
    Attends c o₀ (tr ++ [(s, .network e)]) { s with overlay := o' } := by
  have hafter := h.append [(s, .network e)]
  have hsteps : networkSteps (tr ++ [(s, .network e)]) = networkSteps tr ++ [(s.overlay, e)] :=
    networkSteps_append _ _
  refine ⟨?_, ?_, fun m hm hc p hp ↦ ?_, hafter.client⟩
  · rw [hsteps]
    exact h.network.step hstep
  · exact hstep.absent h.absent
  · cases hstep.origin hm with
    | before hm => exact hafter.answers m hm hc p hp
    | @node t a hs hview _ hsent hhandled =>
      rw [hp, hc] at hsent
      have hanswers := hstep.answers hs hhandled hsent
      obtain ⟨n, requested, -, rfl⟩ := Event.answer_of_sent hsent
      have hinformed := ((h.network.nodes m.source t hs).reorder hview).getVideos c
      refine ⟨⟨(s.overlay, e), ?_, hanswers⟩, fun x hx ↦ ?_⟩
      · rw [hsteps]
        simp
      · rw [hsteps]
        exact (hinformed x hx).append
    | server _ _ hsent => simpa [hp] using Server.Event.sent_cases hsent
    | client heq =>
      rw [heq] at hforeign
      have hsends := hforeign.2
      rw [hp] at hsends
      cases hsends

/-- A message leaves the network. -/
theorem drop (h : Attends c o₀ tr s) {l : List Message}
    (hl : ∀ m ∈ l, m ∈ s.overlay.inFlight) :
    Attends c o₀ tr { s with overlay := { s.overlay with inFlight := l } } where
  network := h.network.drop hl fun _ _ hs ↦ hs
  absent := h.absent
  answers m hm := h.answers m (hl m hm)
  client := h.client

/-- The client handles an event. -/
theorem act (h : Attends c o₀ tr s) {e : Client.Event} (hview : s.client.Reorder e.view)
    (hanswer : ∀ p a, e.input = .packet (.clientPacket (.videoList p)) a →
      Told c tr a (p.videos.map Prod.fst) ∧ ∀ x ∈ p.videos, Announced (networkSteps tr) x) :
    Attends c o₀ tr (s.act c e.after) := by
  have hsends {m : Message} (hm : m ∈ outgoing c e.after.sent) : Client.sends m.packet := by
    obtain ⟨x, hx, rfl⟩ := List.mem_map.mp hm
    exact e.sends_of_sent x hx
  refine ⟨⟨fun m hm q hq ↦ ?_, h.network.nodes, h.network.ids⟩, h.absent, fun m hm hc p hp ↦ ?_,
    (h.client.reorder hview).after fun p a hin ↦ ?_⟩
  · rcases List.mem_append.mp hm with hm | hm
    · exact h.network.flight m hm q hq
    · have hpacket := hsends hm
      rw [hq] at hpacket
      cases hpacket
  · rcases List.mem_append.mp hm with hm | hm
    · exact h.answers m hm hc p hp
    · have hpacket := hsends hm
      rw [hp] at hpacket
      cases hpacket
  · obtain ⟨htold, hlists⟩ := hanswer p a hin
    exact ⟨htold.heard hlists, hlists⟩

private theorem step (h : Attends c o₀ tr s) (hstep : s.Step c e s') :
    Attends c o₀ (tr ++ [(s, e)]) s' := by
  obtain ⟨henabled, rfl⟩ := hstep
  cases e with
  | network e => exact h.networkStep ⟨henabled.1, rfl⟩ henabled.2
  | receive index env view =>
    obtain ⟨⟨m, hm, hc⟩, hview⟩ := henabled
    obtain ⟨l, r, hlr, rfl, herase⟩ := Overlay.split_inFlight hm
    simp only [Audience.next, hm, herase]
    have h := h.append [(s, .receive l.length env view)]
    have hrest := h.drop (l := l ++ r) fun m' hm' ↦ Overlay.mem_of_mem_rest hlr hm'
    apply hrest.act (e := ⟨.packet m.packet m.source, env, view⟩) hview
    intro p a hin
    obtain ⟨hpacket, rfl⟩ := Client.Input.packet.inj hin
    exact h.answers m (by simp [hlr]) hc p hpacket
  | client e =>
    apply (h.append [(s, .client e)]).act henabled.2
    intro p a hin
    have hpacket := henabled.1
    rw [hin] at hpacket
    cases hpacket

end Attends

/-- The network has just started, and so has the client. -/
theorem attends_new {c : SocketAddr} {o₀ : Overlay} (hstart : o₀.Started)
    (habsent : o₀.hosts.lookup c = none) (servers : List IpAddr) :
    Attends c o₀ [] ⟨o₀, .new servers⟩ where
  network := hstart.advertises
  absent := habsent
  answers m hm := by
    rw [hstart.1] at hm
    cases hm
  client := Client.informed_new servers

/-- Whatever is lost, duplicated, reordered or fails, the client knows a video only under a name
that a server announced, and a connected node only with a list of videos with which this node
answered a ping of the client at some time. -/
theorem audience_informed {c : SocketAddr} {o₀ : Overlay} {servers : List IpAddr}
    {tr : List (Audience × AudienceEvent)} {s : Audience} (hstart : o₀.Started)
    (habsent : o₀.hosts.lookup c = none)
    (hrun : Run (Audience.Step c) ⟨o₀, .new servers⟩ tr s) :
    (∀ v name, s.client.videoNames.lookup v = some name →
      Announced (networkSteps tr) (v, name)) ∧
    ∀ n node, s.client.nodes.lookup n = some node → node.status = .connected →
      Told c tr n node.availableVideos ∧
        ∀ v ∈ node.availableVideos, ∃ name, Announced (networkSteps tr) (v, name) := by
  have h : Attends c o₀ tr s := by
    induction hrun with
    | refl => exact attends_new hstart habsent servers
    | tail _ he ih => exact ih.step he
  refine ⟨h.client.names, fun n node hn hconnected ↦ ?_⟩
  rcases h.client.nodes n node hn with ⟨hnew, -⟩ | hheard
  · exact (hnew hconnected).elim
  · exact hheard

/-- The client of the triangle pings the second node, which got the announcement of the server, and
gets its answer. -/
def answeredInTriangle : List (Audience × AudienceEvent) × Audience :=
  Run.play (Audience.next? (hostAddr 7)) ⟨triangle, .new [.v4 2]⟩
    ([.network (.server (hostAddr 9) (.addVideo 5 "film") fun _ ↦ .ok ()),
      .network (.server (hostAddr 9) (.flood 0) fun _ ↦ .ok ())] ++
    List.replicate 4 (.network deliverNext) ++
    [.client ⟨.pingNodes, Client.calmEnv 0, .new []⟩, .network deliverNext,
      .receive 0 (Client.calmEnv 3) (.new [])])

/-- The events of the triangle are a run. -/
theorem answeredInTriangle_run : Run (Audience.Step (hostAddr 7)) ⟨triangle, .new [.v4 2]⟩
    answeredInTriangle.1 answeredInTriangle.2 := by
  apply Run.run_play
  exact fun _ _ _ _ ↦ Audience.step_of_next? _

/-- The client knows the node, its video and its round-trip time. -/
theorem answeredInTriangle_node : answeredInTriangle.2.client.nodes.lookup (hostAddr 2) =
    some ⟨hostAddr 2, ⟨[3], by decide⟩, some 3, .connected, [5]⟩ := by
  decide +kernel

/-- The name was announced, and the node answered the client with this video. -/
theorem audience_informed_triangle : Announced (networkSteps answeredInTriangle.1) (5, "film") ∧
    Told (hostAddr 7) answeredInTriangle.1 (hostAddr 2) [5] := by
  obtain ⟨hnames, hnodes⟩ :=
    audience_informed triangle_started (by decide) answeredInTriangle_run
  exact ⟨hnames 5 "film" (by decide +kernel), (hnodes _ _ answeredInTriangle_node rfl).1⟩

end PessiStreamer.System
