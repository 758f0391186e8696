import PessiStreamer.Node.Change

/-!
# The routes a handler may set

A handler keeps the routes of the videos, drops some of them, or sets them to nodes that can be
read off the state it starts in.
-/

namespace PessiStreamer.Node
open Base Common

namespace State

/-- The entries that the second pass of `get_best_node_to_redirect` ranks. -/
def routesWithinDelay (s : State) (videoId : VideoId) :
    List (Sigma fun _ : SocketAddr ↦ RouteInfo) :=
  match ((s.routesListing videoId).map fun e ↦ e.2.averageDelayToServer).min? with
  | some minAverageDelay => (s.routesListing videoId).filter fun e ↦ e.2.averageDelayToServer ≤
      minAverageDelay + minAverageDelay / 100 * DELAY_THRESHOLD_PERCENTAGE
  | none => []

/-- The nodes with the fewest hops among them. How many videos are already requested over them
decides which one of these is the best. -/
def candidates (s : State) (videoId : VideoId) : List SocketAddr :=
  ((s.routesWithinDelay videoId).filter fun e ↦
    ∀ e' ∈ s.routesWithinDelay videoId, e.2.hops ≤ e'.2.hops).map fun e ↦ e.1

variable {s t : State} {v : VideoId} {n : SocketAddr}

private theorem mem_candidates_of_best (h : s.getBestNodeToRedirect v = some n) :
    n ∈ s.candidates v := by
  simp only [getBestNodeToRedirect, Option.bind_eq_bind, Option.bind_eq_some_iff] at h
  obtain ⟨d, hd, best, hbest, hn⟩ := h
  obtain rfl : best.1 = n := Option.some.inj hn
  have hwithin : s.routesWithinDelay v = (s.routesListing v).filter fun e ↦
      e.2.averageDelayToServer ≤ d + d / 100 * DELAY_THRESHOLD_PERCENTAGE := by
    simp only [routesWithinDelay, hd]
  rw [← hwithin] at hbest
  refine List.mem_map_of_mem (List.mem_filter.mpr ⟨List.argmin_mem hbest, ?_⟩)
  refine decide_eq_true fun e he ↦ ?_
  have hkey : s.redirectKey best ≤ s.redirectKey e := List.le_of_mem_argmin he hbest
  exact Prod.Lex.monotone_fst _ _ hkey

private theorem candidates_congr (h : t.availableRoutes = s.availableRoutes) (v : VideoId) :
    t.candidates v = s.candidates v := by
  have hlisting : t.routesListing v = s.routesListing v := by rw [routesListing, h, routesListing]
  have hwithin : t.routesWithinDelay v = s.routesWithinDelay v := by
    rw [routesWithinDelay, hlisting, routesWithinDelay]
  rw [candidates, hwithin, candidates]

/-- The candidates of several videos. -/
def alternatives (s : State) (videos : List VideoId) : List (VideoId × SocketAddr) :=
  videos.flatMap fun v ↦ (s.candidates v).map fun n ↦ (v, n)

private theorem mem_alternatives {vs : List VideoId} :
    (v, n) ∈ s.alternatives vs ↔ v ∈ vs ∧ n ∈ s.candidates v := by
  simp [alternatives]

/-- All nodes that the state has an entry for or routes a video over are in `K`. -/
structure Knows (K : SocketAddr → Prop) (s : State) : Prop where
  entries : ∀ n r, s.availableRoutes.lookup n = some r → K n
  routes : ∀ v n, s.videoRoutes.lookup v = some n → K n

namespace Knows

variable {K : SocketAddr → Prop}

/-- The order of the maps plays no part. -/
theorem reorder (h : s.Knows K) (hview : s.Reorder t) : t.Knows K where
  entries := by
    intro n r hr
    rw [hview.availableRoute] at hr
    exact h.entries n r hr
  routes := by
    intro v n hn
    rw [hview.route] at hn
    exact h.routes v n hn

private theorem of_offers (h : s.Knows K) (hn : s.Offers n v) : K n := by
  obtain ⟨r, hr, -⟩ := hn
  exact h.entries n r hr

private theorem setRoute (h : s.Knows K) (hn : K n) : (s.setRoute v n).Knows K where
  entries := h.entries
  routes := by
    intro u m hm
    rw [setRoute_lookup] at hm
    split at hm
    · exact Option.some.inj hm ▸ hn
    · exact h.routes u m hm

private theorem dropRoute (h : s.Knows K) : (s.dropRoute v).Knows K where
  entries := h.entries
  routes := by
    intro u m hm
    rw [dropRoute_lookup] at hm
    split at hm
    · cases hm
    · exact h.routes u m hm

private theorem markUnresponsive (h : s.Knows K) : (s.markUnresponsive n).Knows K where
  entries := by
    intro m r hr
    rw [State.markUnresponsive, Map.lookup_modify] at hr
    split at hr
    · next hmn =>
      obtain ⟨r', hr', -⟩ := Option.map_eq_some_iff.mp hr
      exact hmn ▸ h.entries n r' hr'
    · exact h.entries m r hr
  routes := h.routes

private theorem updateRoute (h : s.Knows K) (hn : K n) (p : FloodPacket) (now : SystemTime) :
    (s.updateRoute n p now).Knows K where
  entries := by
    intro m r hr
    rw [State.updateRoute, Map.lookup_upsert] at hr
    split at hr
    · next hmn => exact hmn ▸ hn
    · exact h.entries m r hr
  routes := h.routes

end Knows
end State

namespace Event

/-- The routes that the handler of the event may set: for a video it is asked for and has no
route of, for a queued video that a flood packet lists, and for one that it received from the node
it gives up. -/
def choices (e : Event) : List (VideoId × SocketAddr) :=
  match e.input with
  | .packet (.serverPacket (.requestVideo videoId)) _ =>
    e.view.alternatives ([videoId].filter fun v ↦ e.view.videoRoutes.lookup v = none)
  | .packet (.nodePacket (.clientPing _ requestedVideos)) _ =>
    e.view.alternatives (requestedVideos.filter fun v ↦ e.view.videoRoutes.lookup v = none)
  | .packet (.nodePacket (.floodPacket p)) fromAddr =>
    if e.view.id ∈ p.visitedNodes then []
    else (e.view.pendingListed p.videosAvailable).map fun v ↦ (v, fromAddr)
  | _ =>
    match e.givesUp with
    | some addr => (e.view.markUnresponsive addr).alternatives (e.view.videosReceiving addr)
    | none => []

variable {e : Event} {v : VideoId} {n : SocketAddr}

private theorem Asks.mem_choices {a : SocketAddr} (h : e.Asks v a)
    (hroute : e.view.videoRoutes.lookup v = none) (hn : n ∈ e.view.candidates v) :
    (v, n) ∈ e.choices := by
  unfold Asks at h
  split at h
  · next hin =>
    rw [choices, hin]
    refine State.mem_alternatives.mpr ⟨List.mem_filter.mpr ⟨?_, decide_eq_true hroute⟩, hn⟩
    rw [h.1]
    exact List.mem_singleton_self _
  · next hin =>
    rw [choices, hin]
    exact State.mem_alternatives.mpr ⟨List.mem_filter.mpr ⟨h.1, decide_eq_true hroute⟩, hn⟩
  · exact h.elim

private theorem Lists.mem_choices (h : e.Lists n v) (hpending : v ∈ e.view.pendingVideoRequests) :
    (v, n) ∈ e.choices := by
  obtain ⟨p, ⟨hin, hid⟩, hv⟩ := h
  rw [choices, hin]
  simp only [if_neg hid]
  exact List.mem_map_of_mem (mem_pendingListed.mpr ⟨hpending, hv⟩)

private theorem mem_choices_of_givesUp {a : SocketAddr} (h : e.givesUp = some a)
    (hroute : e.view.videoRoutes.lookup v = some a)
    (hn : n ∈ (e.view.markUnresponsive a).candidates v) : (v, n) ∈ e.choices := by
  have hmem : (v, n) ∈ (e.view.markUnresponsive a).alternatives (e.view.videosReceiving a) :=
    State.mem_alternatives.mpr ⟨mem_videosReceiving.mpr hroute, hn⟩
  unfold choices
  split
  · next hin => exact nomatch (givesUp_of_packet hin).symm.trans h
  · next hin => exact nomatch (givesUp_of_packet hin).symm.trans h
  · next hin => exact nomatch (givesUp_of_packet hin).symm.trans h
  · rw [h]
    exact hmem

/-- What holds while a handler runs: a route is an old one or a choice. What the handler reads to
choose is as it was at the start. -/
structure Chosen (e : Event) (c : Ctx) : Prop where
  route : ∀ v n, c.state.videoRoutes.lookup v = some n →
    e.view.videoRoutes.lookup v = some n ∨ (v, n) ∈ e.choices
  kept : ∀ v a, e.Asks v a → c.state.videoRoutes.lookup v = none →
    e.view.videoRoutes.lookup v = none
  table : ∀ v a, e.Asks v a → c.state.availableRoutes = e.view.availableRoutes
  pending : ∀ v n, e.Lists n v → ∀ u ∈ c.state.pendingVideoRequests,
    u ∈ e.view.pendingVideoRequests

namespace Chosen

variable {c d : Ctx}

/-- Changes that leave routes and queue alone. -/
theorem congr (h : Chosen e c) (hroute : d.state.videoRoutes = c.state.videoRoutes)
    (htable : ∀ v a, e.Asks v a → d.state.availableRoutes = c.state.availableRoutes)
    (hpending : d.state.pendingVideoRequests = c.state.pendingVideoRequests) : Chosen e d where
  route := by
    intro v n hn
    rw [hroute] at hn
    exact h.route v n hn
  kept := by
    intro v a hask hn
    rw [hroute] at hn
    exact h.kept v a hask hn
  table := fun v a hask ↦ (htable v a hask).trans (h.table v a hask)
  pending := by
    intro v n hlists u hu
    rw [hpending] at hu
    exact h.pending v n hlists u hu

/-- The node drops the route of a video that it is not asked for. -/
theorem drop (h : Chosen e c) (hasks : ∀ a, ¬ e.Asks v a) :
    Chosen e (c.setState (c.state.dropRoute v)) where
  route := by
    intro u n hn
    rw [Ctx.setState_state, State.dropRoute_lookup] at hn
    split at hn
    · cases hn
    · exact h.route u n hn
  kept := by
    intro u a hask hn
    rw [Ctx.setState_state, State.dropRoute_lookup] at hn
    split at hn
    · next huv => exact (hasks a (huv ▸ hask)).elim
    · exact h.kept u a hask hn
  table := h.table
  pending := h.pending

/-- Whom a handler asks for a video is a choice. -/
theorem selects (h : Chosen e c) (hsel : e.Selects c.state v n) :
    e.view.videoRoutes.lookup v = some n ∨ (v, n) ∈ e.choices := by
  cases hsel with
  | @requested a hask hnone hbest =>
    right
    apply hask.mem_choices (h.kept v a hask hnone)
    rw [← State.candidates_congr (h.table v a hask)]
    exact State.mem_candidates_of_best hbest
  | redirected hg hroute hmarked _ _ hbest =>
    right
    apply mem_choices_of_givesUp hg hroute
    rw [← State.candidates_congr hmarked]
    exact State.mem_candidates_of_best hbest
  | queued hlists hpending _ => exact .inr (hlists.mem_choices (h.pending v n hlists v hpending))
  | again hagain => exact h.route v n hagain

private theorem request (h : Chosen e c) (hsel : e.Selects c.state v n) :
    Chosen e ((c.push (.serverPacket (.requestVideo v)) n).setState (c.state.setRoute v n)) where
  route := by
    intro u m hm
    rw [Ctx.setState_state, State.setRoute_lookup] at hm
    split at hm
    · next huv =>
      obtain rfl := Option.some.inj hm
      rw [huv]
      exact h.selects hsel
    · exact h.route u m hm
  kept := by
    intro u a hask hm
    rw [Ctx.setState_state, State.setRoute_lookup] at hm
    split at hm
    · cases hm
    · exact h.kept u a hask hm
  table := h.table
  pending := h.pending

private theorem change (h : Chosen e c) (hd : e.Change c d) : Chosen e d := by
  cases hd with
  | stop hrem _ =>
    have hdrop := h.drop fun a hask ↦ hask.not_removes hrem
    exact hdrop.congr rfl (fun _ _ _ ↦ rfl) rfl
  | stopFails hrem _ =>
    have hdrop := h.drop fun a hask ↦ hask.not_removes hrem
    exact hdrop.congr rfl (fun _ _ _ ↦ rfl) rfl
  | request hsel => exact h.request hsel
  | enqueue hfloods _ =>
    refine ⟨h.route, h.kept, h.table, fun v n ⟨p, hf, _⟩ ↦ ?_⟩
    exact (hfloods n p hf).elim
  | dequeue =>
    refine ⟨h.route, h.kept, h.table, fun v n hlists u hu ↦ ?_⟩
    exact h.pending v n hlists u ((State.dequeue_pending _ _ _).mp hu).1
  | mark hg =>
    refine h.congr rfl (fun v a hask ↦ ?_) rfl
    exact nomatch hask.givesUp_eq.symm.trans hg
  | learn hf => exact h.congr rfl (fun v a hask ↦ (hask.not_floods hf).elim) rfl
  | _ => exact h.congr rfl (fun _ _ _ ↦ rfl) rfl

end Chosen

/-- Every route after a handler is an old one or a choice. -/
theorem route_after (h : e.after.state.videoRoutes.lookup v = some n) :
    e.view.videoRoutes.lookup v = some n ∨ (v, n) ∈ e.choices := by
  have hchosen : Chosen e e.after :=
    e.reaches_after.invariant (fun _ _ hc hd ↦ hc.change hd)
      ⟨fun _ _ ↦ .inl, fun _ _ _ ↦ id, fun _ _ _ ↦ rfl, fun _ _ _ _ ↦ id⟩
  exact hchosen.route v n h

/-- A handler only comes to know the senders of flood packets. -/
theorem knows_after {K : SocketAddr → Prop} (hview : e.view.Knows K)
    (hflood : ∀ fromAddr p, e.Floods fromAddr p → K fromAddr) : e.after.state.Knows K := by
  refine e.reaches_after.invariant (I := fun c ↦ c.state.Knows K) (fun c d hc hd ↦ ?_) hview
  cases hd with
  | stop _ _ => exact hc.dropRoute
  | stopFails _ _ => exact hc.dropRoute
  | @request v n hsel =>
    apply hc.setRoute
    cases hsel with
    | requested _ _ hbest => exact hc.of_offers (State.offers_of_best hbest)
    | redirected _ _ _ _ _ hbest => exact hc.of_offers (State.offers_of_best hbest)
    | queued _ _ hoffers => exact hc.of_offers hoffers
    | again hagain => exact hc.routes v n hagain
  | mark _ => exact hc.markUnresponsive
  | @learn fromAddr p t hf => exact hc.updateRoute (hflood fromAddr p hf) p t
  | _ => exact ⟨hc.entries, hc.routes⟩

end Event
end PessiStreamer.Node
