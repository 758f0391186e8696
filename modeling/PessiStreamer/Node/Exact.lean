import PessiStreamer.Node.Calm

/-!
# Handlers without a choice

While all sends succeed, the handling of a flood packet is a function of the node's state:
the state it ends in and the packets it sends, exactly.
-/

namespace PessiStreamer.Node
open Base Common

/-- A context with this state and these packets sent. -/
def At (s : State) (sent : List (SocketAddr × Packet)) : Ctx → Prop :=
  fun c ↦ c.state = s ∧ c.sent = sent

/-- Route several videos over one node. -/
def State.routeAll (s : State) (vs : List VideoId) (n : SocketAddr) : State :=
  vs.foldl (fun s v ↦ s.setRoute v n) s

namespace State

/-- With no video to route nothing changes. -/
@[simp] theorem routeAll_nil (s : State) (n : SocketAddr) : s.routeAll [] n = s := rfl

/-- The videos are routed one after the other. -/
@[simp] theorem routeAll_cons (s : State) (v : VideoId) (vs : List VideoId) (n : SocketAddr) :
    s.routeAll (v :: vs) n = (s.setRoute v n).routeAll vs n := rfl

/-- The videos are routed over the node, and no others. -/
@[simp] theorem routeAll_lookup (s : State) (vs : List VideoId) (n : SocketAddr) (v : VideoId) :
    (s.routeAll vs n).videoRoutes.lookup v = if v ∈ vs then some n else s.videoRoutes.lookup v := by
  induction vs generalizing s with
  | nil => simp
  | cons u vs ih =>
    rw [routeAll_cons, ih, setRoute_lookup]
    by_cases hv : v ∈ vs
    · simp [hv]
    · by_cases hu : v = u
      · simp [hu]
      · simp [hv, hu]

/-- Routing changes nothing but the route table. -/
theorem routeAll_eq (s : State) (vs : List VideoId) (n : SocketAddr) :
    s.routeAll vs n = { s with videoRoutes := (s.routeAll vs n).videoRoutes } := by
  induction vs generalizing s with
  | nil => rfl
  | cons v vs ih => exact ih (s.setRoute v n)

end State

/-- The node after a flood packet that is no loop, up to passing the packet on. -/
def State.learn (s : State) (fromAddr : SocketAddr) (p : FloodPacket) (now : SystemTime) : State :=
  (s.updateVideoNames p.videosAvailable).updateRoute fromAddr p now

/-- The node after the queued videos that a flood packet offers were asked for. -/
def State.drain (s : State) (fromAddr : SocketAddr) (videos : List (VideoId × String)) : State :=
  (s.routeAll (s.pendingListed videos) fromAddr).dequeue (s.pendingListed videos)

/-- The packet a node passes on to a neighbour. -/
def State.forwarded (s : State) (p : FloodPacket) (addr : SocketAddr) : FloodPacket :=
  { p with
    myParents := s.getParents
    visitedNodes := p.visitedNodes ++ [s.id]
    videosAvailable := s.getVideos addr }

/-- The packets that pass a flood packet on. -/
def State.forwards (s : State) (fromAddr : SocketAddr) (p : FloodPacket) :
    List (SocketAddr × Packet) :=
  (s.broadcastTo fromAddr).map fun addr ↦
    (addr, .nodePacket (.floodPacket (s.forwarded p addr)))

section Loops

variable {s : State} {l : List (SocketAddr × Packet)} {E : HandlerError → Ctx → Prop}

/-- A loop that sends to each address. -/
theorem exact_forM_send (f : State → SocketAddr → Packet) (addrs : List SocketAddr) :
    Triple (Calm (At s l)) (addrs.forM fun addr ↦ attempt do
      let s ← getState
      send (f s addr) addr)
      (fun _ ↦ Calm (At s (l ++ addrs.map fun addr ↦ (addr, f s addr)))) E := by
  induction addrs generalizing l with
  | nil => exact Triple.pure fun c hc ↦ by simpa using hc
  | cons addr addrs ih =>
    refine Triple.bind (Q := fun _ ↦ Calm (At s (l ++ [(addr, f s addr)]))) ?_ fun _ ↦ ?_
    · refine Triple.attempt (calm_bind_getState fun t ↦ calm_send fun c hc ↦ ?_)
      obtain ⟨⟨hs, hl⟩, ht⟩ := hc
      exact ⟨hs, by rw [Ctx.push_sent, hl, ← ht, hs]⟩
    · simpa using ih (l := l ++ [(addr, f s addr)])

/-- The loop that asks one node for several videos. -/
theorem exact_requestAll (n : SocketAddr) (vs : List VideoId) :
    Triple (Calm (At s l)) (vs.forM fun v ↦ attempt (requestVideoToNode v n))
      (fun _ ↦ Calm (At (s.routeAll vs n)
        (l ++ vs.map fun v ↦ (n, .serverPacket (.requestVideo v))))) E := by
  induction vs generalizing s l with
  | nil => exact Triple.pure fun c hc ↦ by simpa using hc
  | cons v vs ih =>
    refine Triple.bind (Q := fun _ ↦ Calm (At (s.setRoute v n)
      (l ++ [(n, .serverPacket (.requestVideo v))]))) ?_ fun _ ↦ ?_
    · refine Triple.attempt (calm_requestVideoToNode fun c hc ↦ ?_)
      exact ⟨by rw [Ctx.setState_state, hc.1], by rw [Ctx.setState_sent, Ctx.push_sent, hc.2]⟩
    · have h := ih (s := s.setRoute v n) (l := l ++ [(n, .serverPacket (.requestVideo v))])
      rw [List.append_assoc, List.singleton_append] at h
      exact h

private theorem exact_checkPendingVideos (fromAddr : SocketAddr)
    (videos : List (VideoId × String)) :
    Triple (Calm (At s l)) (checkPendingVideos fromAddr videos)
      (fun _ ↦ Calm (At (s.drain fromAddr videos)
        (l ++ (s.pendingListed videos).map fun v ↦
          (fromAddr, .serverPacket (.requestVideo v))))) E := by
  refine calm_bind_getState fun t ↦ Triple.strengthen (P := fun c ↦ t = s ∧ Calm (At s l) c)
    (Triple.of_forall fun ht ↦ ?_) fun c hc ↦ ⟨hc.2.2.symm.trans hc.2.1.1, hc.1, hc.2.1⟩
  subst ht
  refine Triple.bind (exact_requestAll fromAddr (t.pendingListed videos)) fun _ ↦
    calm_modifyState fun c hc ↦ ⟨?_, hc.2⟩
  rw [Ctx.setState_state, hc.1]
  rfl

/-- A flood packet that has not visited the node. -/
theorem exact_handleFloodPacket (fromAddr : SocketAddr) (p : FloodPacket) (now : SystemTime)
    (hid : s.id ∉ p.visitedNodes) :
    Triple (Calm fun c ↦ At s l c ∧ c.env.now = now) (handleFloodPacket fromAddr p)
      (fun _ ↦ Calm (At ((s.learn fromAddr p now).drain fromAddr p.videosAvailable)
        (l ++ (s.pendingListed p.videosAvailable).map
            (fun v ↦ (fromAddr, .serverPacket (.requestVideo v))) ++
          ((s.learn fromAddr p now).drain fromAddr p.videosAvailable).forwards fromAddr p))) E := by
  refine calm_bind_getState fun t ↦ Triple.strengthen (P := fun c ↦ t = s ∧
    Calm (fun c ↦ At s l c ∧ c.env.now = now) c) (Triple.of_forall fun ht ↦ ?_)
    fun c hc ↦ ⟨hc.2.2.symm.trans hc.2.1.1.1, hc.1, hc.2.1⟩
  subst ht
  rw [if_neg hid]
  refine Triple.bind (Q := fun t' ↦ fun c ↦ t' = now ∧ Calm (At t l) c)
    (fun c hc ↦ ⟨hc.2.2, hc.1, hc.2.1⟩) fun t' ↦ Triple.of_forall fun ht' ↦ ?_
  subst ht'
  refine Triple.bind (Q := fun _ ↦ Calm (At (t.updateVideoNames p.videosAvailable) l))
    (calm_modifyState fun c hc ↦ ⟨by rw [Ctx.setState_state, hc.1], hc.2⟩) fun _ ↦ ?_
  refine Triple.bind (Q := fun _ ↦ Calm (At (t.learn fromAddr p t') l))
    (calm_modifyState fun c hc ↦ ⟨by rw [Ctx.setState_state, hc.1, State.learn], hc.2⟩) fun _ ↦ ?_
  refine Triple.bind (exact_checkPendingVideos fromAddr p.videosAvailable) fun _ ↦ ?_
  refine calm_bind_getState fun u ↦ Triple.strengthen (P := fun c ↦
    u = (t.learn fromAddr p t').drain fromAddr p.videosAvailable ∧ Calm (At _ _) c)
    (Triple.of_forall fun hu ↦ ?_) fun c hc ↦ ⟨hc.2.2.symm.trans hc.2.1.1, hc.1, hc.2.1⟩
  subst hu
  exact exact_forM_send (fun s addr ↦ .nodePacket (.floodPacket { p with
    myParents := s.getParents
    visitedNodes := p.visitedNodes ++ [((t.learn fromAddr p t').drain fromAddr
      p.videosAvailable).id]
    videosAvailable := s.getVideos addr })) _

end Loops

section Runs

variable {s : State} {env : Env} {fromAddr : SocketAddr} {p : FloodPacket}

/-- One run of the handler for a flood packet that has not visited the node. -/
theorem floodPacket_after (fromAddr : SocketAddr) (hok : env.AllOk) (hid : s.id ∉ p.visitedNodes) :
    (finalState (handleFloodPacket fromAddr p) (.start env s)).state =
      (s.learn fromAddr p env.now).drain fromAddr p.videosAvailable ∧
    (finalState (handleFloodPacket fromAddr p) (.start env s)).sent =
      (s.pendingListed p.videosAvailable).map
          (fun v ↦ (fromAddr, .serverPacket (.requestVideo v))) ++
        ((s.learn fromAddr p env.now).drain fromAddr p.videosAvailable).forwards fromAddr p := by
  have h := Triple.finalState (exact_handleFloodPacket (s := s) (l := []) fromAddr p env.now hid)
    (s := .start env s) ⟨hok, ⟨rfl, rfl⟩, rfl⟩
  simpa [At] using h.2

/-- A flood packet that was here before is ignored. -/
theorem floodPacket_loop (hid : s.id ∈ p.visitedNodes) :
    finalState (handleFloodPacket fromAddr p) (.start env s) = .start env s := by
  have hmem : (Ctx.start env s).state.id ∈ p.visitedNodes := hid
  simp [finalState, handleFloodPacket, hmem]

end Runs

namespace State

variable {s : State} {fromAddr : SocketAddr} {p : FloodPacket} {now : SystemTime}
  {videos : List (VideoId × String)}

/-- Draining the queue changes the queue and the route table. -/
theorem drain_eq : s.drain fromAddr videos = { s with
    videoRoutes := (s.drain fromAddr videos).videoRoutes
    pendingVideoRequests := (s.drain fromAddr videos).pendingVideoRequests } := by
  simp only [drain]
  rw [routeAll_eq]
  rfl

/-- The queued videos that are listed are routed over the sender. -/
theorem drain_route {v : VideoId} : (s.drain fromAddr videos).videoRoutes.lookup v =
    if v ∈ s.pendingListed videos then some fromAddr else s.videoRoutes.lookup v := by
  simp [drain]

/-- What is listed is queued no longer. -/
theorem mem_drain_pending {v : VideoId} : v ∈ (s.drain fromAddr videos).pendingVideoRequests ↔
    v ∈ s.pendingVideoRequests ∧ v ∉ videos.map Prod.fst := by
  have hpend : (s.routeAll (s.pendingListed videos) fromAddr).pendingVideoRequests =
      s.pendingVideoRequests := by rw [routeAll_eq]
  rw [drain, dequeue_pending, hpend, mem_pendingListed]
  tauto

end State
end PessiStreamer.Node
