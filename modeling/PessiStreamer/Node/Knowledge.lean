import PessiStreamer.Node.FailedRequests
import PessiStreamer.Node.Frames
import PessiStreamer.Node.Queue

/-!
# What a node knows of its neighbours

The routes and the names are written in two places: a flood packet enters the route over its sender
and the names it lists, and a node that is given up is marked. Every other input, and whatever
becomes of its sends, leaves both alone.
-/

namespace PessiStreamer.Node
open Base Common

/-- The property depends only on the routes to the servers and the names of the videos. -/
structure Unconcerned (P : State → Prop) : Prop extends Indifferent P where
  enqueue : ∀ s vs, P s → P (s.enqueue vs)
  dequeue : ∀ s vs, P s → P (s.dequeue vs)
  registerNewNeighbour : ∀ s ip, P s → P (s.registerNewNeighbour ip)
  recordPing : ∀ s a t, P s → P (s.recordPing a t)
  recordVideoPacket : ∀ s p t, P s → P (s.recordVideoPacket p t)

namespace Unconcerned

variable {P : State → Prop} {v : VideoId} {a : SocketAddr}

private theorem handleRequestVideo (h : Unconcerned P) :
    Maintains (OnState P) (handleRequestVideo v a) := by
  apply Maintains.bind
  · exact modifyState_frame fun s ↦ h.subscribe s v a
  intro _
  apply getState_frame.bind
  intro t
  apply Maintains.ite
  · exact fun _ ↦ Maintains.pure ()
  · intro _
    cases t.getBestNodeToRedirect v with
    | some n => exact h.requestVideoToNode
    | none => exact modifyState_frame fun s ↦ h.enqueue s [v]

private theorem handleClientPing (h : Unconcerned P) (n : UInt64) (requested : List VideoId) :
    Maintains (OnState P) (handleClientPing n requested a) := by
  apply getState_frame.bind
  intro t
  apply now_frame.bind
  intro time
  apply Maintains.bind
  · exact modifyState_frame fun s ↦ h.recordPing s a time
  intro _
  apply Maintains.bind
  · apply Maintains.forM
    intro v _
    apply getState_frame.bind
    intro t
    exact Maintains.ite (fun _ ↦ Maintains.pure ()) fun _ ↦ h.handleRequestVideo
  intro _
  apply getState_frame.bind
  intro t
  apply Maintains.bind
  · exact h.stopUnrequested requested t
  · exact fun _ ↦ send_frame _ a

private theorem handleUnresponsiveNode (h : Unconcerned P) :
    Maintains (OnState P) (handleUnresponsiveNode a) := by
  apply getState_frame.bind
  intro t
  apply Maintains.bind
  · exact Maintains.forM fun v _ ↦ h.handleStopVideo.attempt
  intro _
  apply Maintains.bind
  · apply redirectVideos_rule (I := fun _ _ ↦ OnState P)
    · intro v rest left n
      exact h.requestVideoToNode.strengthen fun c hc ↦ hc.1
    · exact fun _ _ _ c _ hc ↦ hc
    · exact []
  intro remaining
  apply (connectToParents_frame remaining).bind
  exact fun _ ↦ modifyState_frame fun s ↦ h.enqueue s remaining

private theorem handleVideoPacket (h : Unconcerned P) (packet : VideoPacket) :
    Maintains (OnState P) (handleVideoPacket packet) := by
  apply getState_frame.bind
  intro t
  apply now_frame.bind
  intro time
  apply Maintains.bind
  · exact modifyState_frame fun s ↦ h.recordVideoPacket s packet time
  intro _
  apply Maintains.ite
  · exact fun _ ↦ Maintains.pure ()
  · intro _
    cases t.interested.lookup packet.streamId with
    | some subscribers => exact Maintains.forM fun addr _ ↦ send_frame _ addr
    | none => exact Maintains.pure ()

/-- A run of a handler that neither is for a flood packet nor gives up a node. -/
theorem after (h : Unconcerned P) {e : Event} (hflood : ∀ n p, ¬ e.Floods n p)
    (hgive : e.givesUp = none) (hP : P e.view) : P e.after.state := by
  obtain ⟨input, env, view⟩ := e
  have hrun {m : Handler Unit} (hm : Maintains (OnState P) m)
      (hafter : Event.after ⟨input, env, view⟩ = finalState m (.start env view)) :
      P (Event.after ⟨input, env, view⟩).state := by
    rw [hafter]
    exact hm.finalState hP
  cases input with
  | packet p addr =>
    rcases p with p | (⟨n, requested⟩ | _ | p) | (v | v) | p
    · exact hrun (h.handleVideoPacket p) rfl
    · exact hrun (h.handleClientPing n requested) rfl
    · exact hrun (modifyState_frame fun s ↦ h.registerNewNeighbour s addr.ip) rfl
    · have hloop : view.id ∈ p.visitedNodes := by
        by_contra hid
        exact hflood addr p ⟨rfl, hid⟩
      have hafter : Event.after ⟨.packet (.nodePacket (.floodPacket p)) addr, env, view⟩ =
          .start env view := floodPacket_loop hloop
      rw [hafter]
      exact hP
    · exact hrun h.handleRequestVideo rfl
    · exact hrun h.handleStopVideo rfl
    · exact hP
  | neighbourUnresponsive addr =>
    rw [Event.after_givesUp (.inl ⟨addr, rfl⟩), hgive]
    exact hP
  | clientHealthCheck => exact hrun h.clientHealthCheck rfl
  | videoHealthCheck => exact hrun h.videoHealthCheck rfl
  | floodPacketResult target result =>
    rw [Event.after_givesUp (.inr ⟨target, result, rfl⟩), hgive]
    exact hP
  | parentAnswer addr result =>
    exact hrun (handleParentAnswer_frame (fun s ip ↦ h.registerNewNeighbour s ip) result) rfl

end Unconcerned

/-- The routes and the names are those of `s`. -/
structure State.Recalls (s t : State) : Prop where
  routes : t.availableRoutes = s.availableRoutes
  names : t.videoNames = s.videoNames

private theorem State.recalls_refl (s : State) : s.Recalls s := ⟨rfl, rfl⟩

private theorem unconcerned_recalls (s : State) : Unconcerned s.Recalls where
  subscribe _ _ _ h := ⟨h.routes, h.names⟩
  unsubscribe _ _ _ h := ⟨h.routes, h.names⟩
  setRoute _ _ _ h := ⟨h.routes, h.names⟩
  dropRoute _ _ h := ⟨h.routes, h.names⟩
  enqueue _ _ h := ⟨h.routes, h.names⟩
  dequeue _ _ h := ⟨h.routes, h.names⟩
  registerNewNeighbour _ _ h := ⟨h.routes, h.names⟩
  recordPing _ _ _ h := ⟨h.routes, h.names⟩
  recordVideoPacket _ _ _ h := ⟨h.routes, h.names⟩

namespace Event

variable {e : Event} {a : SocketAddr} {p : FloodPacket}

/-- A flood packet that is no loop is learned. -/
theorem recalls_of_floods (h : e.Floods a p) :
    (e.view.learn a p e.env.now).Recalls e.after.state := by
  have hafter : e.after.state = (Reaction.handleFloodPacket a p).after e.env e.view := by
    rw [Event.after, h.1]
    rfl
  rw [hafter, handleFloodPacket_state h.2, State.routeAll_eq]
  exact ⟨rfl, rfl⟩

/-- A node that is given up is marked. -/
theorem recalls_of_givesUp (h : e.givesUp = some a) :
    (e.view.markUnresponsive a).Recalls e.after.state := by
  have hinput : (∃ addr, e.input = .neighbourUnresponsive addr) ∨
      ∃ target result, e.input = .floodPacketResult target result := by
    unfold givesUp at h
    split at h
    · next addr hin => exact .inl ⟨addr, hin⟩
    · next target result hin => exact .inr ⟨target, result, hin⟩
    · cases h
  have hrun : Maintains (OnState (e.view.markUnresponsive a).Recalls) (handleUnresponsiveNode a) :=
    (unconcerned_recalls _).handleUnresponsiveNode
  rw [after_givesUp hinput, h]
  exact hrun.finalState (s := (Ctx.start e.env e.view).setState (e.view.markUnresponsive a))
    (State.recalls_refl _)

/-- Nothing else changes what a node knows. -/
theorem recalls_of_other (hflood : ∀ n p, ¬ e.Floods n p) (hgive : e.givesUp = none) :
    e.view.Recalls e.after.state :=
  (unconcerned_recalls e.view).after hflood hgive (State.recalls_refl _)

/-- The flood packet of `n` that the event brings, with the time at which it is learned. -/
def learned? (n : SocketAddr) (e : Event) : Option (FloodPacket × SystemTime) :=
  match e.input with
  | .packet (.nodePacket (.floodPacket p)) addr =>
    if addr = n ∧ e.view.id ∉ p.visitedNodes then some (p, e.env.now) else none
  | _ => none

/-- The status that the event gives the route over `n`. -/
def status? (n : SocketAddr) (e : Event) : Option RouteStatus :=
  if (e.learned? n).isSome then some .active
  else if e.givesUp = some n then some .unresponsive
  else none

/-- The names that the event brings for a video. -/
def names (v : VideoId) (e : Event) : List String :=
  match e.input with
  | .packet (.nodePacket (.floodPacket p)) _ =>
    if e.view.id ∈ p.visitedNodes then []
    else p.videosAvailable.filterMap fun video ↦ if video.1 = v then some video.2 else none
  | _ => []

variable {n : SocketAddr} {x : FloodPacket × SystemTime}

/-- A flood packet is learned from its sender when it arrives. -/
theorem learned?_eq_some : e.learned? n = some x ↔ e.Floods n x.1 ∧ x.2 = e.env.now := by
  obtain ⟨p, t⟩ := x
  constructor
  · intro h
    unfold learned? at h
    split at h
    · next q addr hin =>
      split at h
      · next hq =>
        cases h
        exact ⟨⟨hq.1 ▸ hin, hq.2⟩, rfl⟩
      · cases h
    · cases h
  · rintro ⟨⟨hin, hid⟩, rfl⟩
    simp [learned?, hin, hid]

private theorem learned?_eq_none (h : ∀ p, ¬ e.Floods n p) : e.learned? n = none := by
  cases hx : e.learned? n with
  | none => rfl
  | some x => exact (h x.1 (learned?_eq_some.mp hx).1).elim

private theorem names_eq_nil {v : VideoId} (h : ∀ a p, ¬ e.Floods a p) : e.names v = [] := by
  unfold names
  split
  · next p addr hin =>
    rw [if_pos]
    by_contra hid
    exact h addr p ⟨hin, hid⟩
  · rfl

/-- A name that the event brings stands in the list of its flood packet. -/
theorem mem_names {v : VideoId} {name : String} (h : name ∈ e.names v) :
    ∃ a p, e.Floods a p ∧ (v, name) ∈ p.videosAvailable := by
  unfold names at h
  split at h
  · next p addr hin =>
    split at h
    · cases h
    · next hid =>
      obtain ⟨video, hvideo, hname⟩ := List.mem_filterMap.mp h
      split at hname
      · next hv =>
        cases hname
        exact ⟨addr, p, ⟨hin, hid⟩, hv ▸ hvideo⟩
      · cases hname
  · cases h

/-- What the handler of an event leaves in the route over `n`. -/
theorem availableRoute_after (e : Event) (n : SocketAddr) : e.after.state.availableRoutes.lookup n =
    match e.learned? n with
    | some x =>
      some (((e.view.availableRoutes.lookup n).getD {}).updateFromFloodPacket x.1 x.2)
    | none => (e.view.availableRoutes.lookup n).map fun r ↦
      { r with status := (e.status? n).getD r.status } := by
  by_cases hflood : ∃ a p, e.Floods a p
  · obtain ⟨a, p, hp⟩ := hflood
    rw [(recalls_of_floods hp).routes]
    have hlookup : (e.view.learn a p e.env.now).availableRoutes.lookup n = if n = a then
        some (((e.view.availableRoutes.lookup a).getD {}).updateFromFloodPacket p e.env.now)
        else e.view.availableRoutes.lookup n :=
      Map.lookup_upsert _ _ _ _ _
    rw [hlookup]
    by_cases hn : n = a
    · subst hn
      rw [if_pos rfl, learned?_eq_some (x := (p, e.env.now)) |>.mpr ⟨hp, rfl⟩]
    · have hnone : e.learned? n = none := by
        apply learned?_eq_none
        intro q hq
        exact hn (Input.packet.inj (hq.1.symm.trans hp.1)).2
      rw [if_neg hn, hnone, status?, hnone, hp.givesUp_eq]
      simp
  · simp only [not_exists] at hflood
    have hnone : e.learned? n = none := learned?_eq_none (hflood n)
    rw [hnone, status?, hnone]
    cases hgive : e.givesUp with
    | none =>
      rw [(recalls_of_other hflood hgive).routes]
      simp
    | some a =>
      rw [(recalls_of_givesUp hgive).routes, State.markUnresponsive, Map.lookup_modify]
      by_cases hn : n = a
      · subst hn
        simp
      · simp [hn, Ne.symm hn]

/-- What the handler of an event leaves as the name of a video. -/
theorem videoName_after (e : Event) (v : VideoId) : e.after.state.videoNames.lookup v =
    (e.names v).getLast?.or (e.view.videoNames.lookup v) := by
  by_cases hflood : ∃ a p, e.Floods a p
  · obtain ⟨a, p, hp⟩ := hflood
    rw [(recalls_of_floods hp).names, names, hp.1]
    simp only [hp.2, if_false]
    exact Map.lookup_foldl_insert_last _ _ _
  · simp only [not_exists] at hflood
    rw [names_eq_nil hflood, List.getLast?_nil, Option.none_or]
    cases hgive : e.givesUp with
    | none => rw [(recalls_of_other hflood hgive).names]
    | some a =>
      rw [(recalls_of_givesUp hgive).names]
      rfl

end Event

section Runs

variable {id : NodeId} {neighbours : List IpAddr} {localAddr : SocketAddr} {s : State}
  {tr : List (State × Event)}

/-- The flood packets of `n` that a run learned, oldest first. -/
def learned (n : SocketAddr) (tr : List (State × Event)) : List (FloodPacket × SystemTime) :=
  tr.filterMap fun p ↦ p.2.learned? n

private theorem learned_concat (n : SocketAddr) (tr : List (State × Event)) (p : State × Event) :
    learned n (tr ++ [p]) = learned n tr ++ (p.2.learned? n).toList := by
  rw [learned, List.filterMap_append, learned]
  cases hx : p.2.learned? n with
  | none => simp [hx]
  | some x => simp [hx]

/-- The names that the flood packets of a run brought for a video, oldest first. -/
def namesIn (v : VideoId) (tr : List (State × Event)) : List String :=
  tr.flatMap fun p ↦ p.2.names v

/-- The route over a node that has sent these flood packets. -/
def RouteInfo.ofHistory (history : List (FloodPacket × SystemTime)) (status : RouteStatus)
    (last : FloodPacket × SystemTime) : RouteInfo where
  hops := last.1.hops
  lastDelaysToServer :=
    .newest 10 (history.map fun x ↦ durationSince x.2 x.1.createdAtServerTime)
  availableVideos := last.1.videosAvailable.map Prod.fst
  status := status
  nodeType := .parent ⟨last.1.myParents, last.2⟩

private theorem RouteInfo.updateFromFloodPacket_eq {r : RouteInfo}
    {history : List (FloodPacket × SystemTime)} (x : FloodPacket × SystemTime)
    (h : r.lastDelaysToServer =
      .newest 10 (history.map fun x ↦ durationSince x.2 x.1.createdAtServerTime)) :
    r.updateFromFloodPacket x.1 x.2 = .ofHistory (history ++ [x]) .active x := by
  simp only [updateFromFloodPacket, ofHistory, h, CircularBuffer.newest_pushBack, List.map_append,
    List.map_cons, List.map_nil]

/-- The status that the last event about a node gave the route over it. -/
def statusIn (n : SocketAddr) (tr : List (State × Event)) : RouteStatus :=
  (tr.filterMap fun p ↦ p.2.status? n).getLast?.getD .active

private theorem statusIn_concat (n : SocketAddr) (tr : List (State × Event)) (p : State × Event) :
    statusIn n (tr ++ [p]) = (p.2.status? n).getD (statusIn n tr) := by
  rw [statusIn, List.filterMap_append, statusIn]
  cases hx : p.2.status? n with
  | none => simp [hx]
  | some x => simp [hx]

/-- The route over a neighbour is that of its last flood packet. -/
theorem availableRoute_of_run (hrun : Run Step (.new id neighbours localAddr) tr s)
    (n : SocketAddr) : s.availableRoutes.lookup n =
      (learned n tr).getLast?.map (.ofHistory (learned n tr) (statusIn n tr)) := by
  induction hrun with
  | refl => rfl
  | @tail t u tr e _ he ih =>
    obtain ⟨hview, rfl⟩ := he
    rw [e.availableRoute_after, hview.availableRoute, ih, learned_concat, statusIn_concat]
    cases hx : e.learned? n with
    | some x =>
      have hstatus : e.status? n = some .active := by
        rw [Event.status?, hx]
        rfl
      simp only [hstatus, Option.toList_some, List.getLast?_concat, Option.map_some,
        Option.getD_some]
      congr 1
      apply RouteInfo.updateFromFloodPacket_eq
      cases hlast : (learned n tr).getLast? with
      | none =>
        rw [List.getLast?_eq_none_iff.mp hlast]
        rfl
      | some y => rfl
    | none =>
      simp only [Option.toList_none, List.append_nil, Option.map_map]
      rfl

/-- A video has the name that a flood packet brought last. -/
theorem videoName_of_run (hrun : Run Step (.new id neighbours localAddr) tr s) (v : VideoId) :
    s.videoNames.lookup v = (namesIn v tr).getLast? := by
  induction hrun with
  | refl => rfl
  | @tail t u tr e _ he ih =>
    obtain ⟨hview, rfl⟩ := he
    rw [e.videoName_after, AList.perm_lookup hview.videoNames, ih, namesIn, namesIn,
      List.flatMap_append, List.getLast?_append]
    simp

/-- The stale parents are the active routes whose last flood packet is too old. -/
theorem mem_staleParents {now : SystemTime} {n : SocketAddr} : n ∈ s.staleParents now ↔
    ∃ r d, s.availableRoutes.lookup n = some r ∧ r.status = .active ∧ r.nodeType = .parent d ∧
      FLOOD_PACKET_INTERVAL * 3 < durationSince now d.dateLastFloodPacketReceived := by
  simp only [State.staleParents, List.mem_map, List.mem_filter]
  constructor
  · rintro ⟨⟨n, r⟩, ⟨hr, hstale⟩, rfl⟩
    split at hstale
    · cases hstale
    · cases hstale
    · next d hs ht => exact ⟨r, d, Map.mem_entries_iff.mp hr, hs, ht, of_decide_eq_true hstale⟩
  · rintro ⟨r, d, hr, hs, ht, hstale⟩
    refine ⟨⟨n, r⟩, ⟨Map.mem_entries_iff.mpr hr, ?_⟩, rfl⟩
    simp only [hs, ht, hstale, decide_true]

/-- What a node knows at the end of a run is what its history says. The route over a neighbour is
that of its last flood packet, with the delays of its last ten, and active just if it was not given
up since; the name of a video is the last one that a flood packet brought. A sweep finds just those
neighbours silent whose last flood packet is too old and that were not given up since. -/
theorem knowledge_of_run (hrun : Run Step (.new id neighbours localAddr) tr s) :
    (∀ n, s.availableRoutes.lookup n =
      (learned n tr).getLast?.map (.ofHistory (learned n tr) (statusIn n tr))) ∧
    (∀ v, s.videoNames.lookup v = (namesIn v tr).getLast?) ∧
    ∀ n now, n ∈ s.staleParents now ↔ statusIn n tr = .active ∧
      ∃ x, (learned n tr).getLast? = some x ∧
        FLOOD_PACKET_INTERVAL * 3 < durationSince now x.2 := by
  refine ⟨availableRoute_of_run hrun, videoName_of_run hrun, fun n now ↦ ?_⟩
  rw [mem_staleParents, availableRoute_of_run hrun n]
  constructor
  · rintro ⟨r, d, hr, hs, ht, hstale⟩
    obtain ⟨x, hx, rfl⟩ := Option.map_eq_some_iff.mp hr
    cases ht
    exact ⟨hs, x, hx, hstale⟩
  · rintro ⟨hs, x, hx, hstale⟩
    exact ⟨_, _, by rw [hx]; rfl, hs, rfl, hstale⟩

/-- A neighbour lists two videos, then one of them, and is given up; then it lists both again. -/
def relisted : List (Input × Env) :=
  [(.packet (offer [5, 6]) (IpAddr.v4 1).atPort, .calm 3),
    (.packet (offer [6]) (IpAddr.v4 1).atPort, .calm 7),
    (.neighbourUnresponsive (IpAddr.v4 1).atPort, .calm 8),
    (.packet (offer [5, 6]) (IpAddr.v4 1).atPort, .calm 9)]

/-- The node knows what the last packet listed and the delays of all three, and the route is active
again. -/
theorem knowledge_of_run_relisted :
    ((simulate (.new 9 [] (IpAddr.v4 9).atPort) relisted).availableRoutes.lookup
      (IpAddr.v4 1).atPort).map
        (fun r ↦ (r.availableVideos, r.lastDelaysToServer.toList, r.status)) =
          some ([5, 6], [3, 7, 9], .active) := by
  rw [(knowledge_of_run (run_record _ relisted)).1 (IpAddr.v4 1).atPort]
  decide +kernel

end Runs
end PessiStreamer.Node
