import PessiStreamer.Node.Change

/-!
# What a neighbour listed

A node learns from the flood packets of a neighbour which videos that one has, and it asks the
neighbour for no others. So what is true of the videos in the flood packets that come in is true
of all that the node knows of its neighbours and of all its routes.
-/

namespace PessiStreamer.Node
open Base Common

namespace State

variable {K : SocketAddr → VideoId → Prop} {s t : State} {v : VideoId} {n : SocketAddr}

/-- Every video that the node knows a neighbour to list, or that it routes over one, is one that
the neighbour has in the sense of `K`. -/
structure Credits (K : SocketAddr → VideoId → Prop) (s : State) : Prop where
  listed : ∀ n r, s.availableRoutes.lookup n = some r → ∀ v ∈ r.availableVideos, K n v
  routed : ∀ v n, s.videoRoutes.lookup v = some n → K n v

/-- A node that was just started knows nothing. -/
theorem credits_new (id : NodeId) (neighbours : List IpAddr) (localAddr : SocketAddr) :
    (State.new id neighbours localAddr).Credits K where
  listed n r hr := by cases hr
  routed v n hn := by cases hn

namespace Credits

/-- What neighbours have may be said more generously. -/
theorem mono {L : SocketAddr → VideoId → Prop} (h : s.Credits K) (hKL : ∀ n v, K n v → L n v) :
    s.Credits L where
  listed n r hr v hv := hKL n v (h.listed n r hr v hv)
  routed v n hn := hKL n v (h.routed v n hn)

/-- The order of the maps plays no part. -/
theorem reorder (h : s.Credits K) (hview : s.Reorder t) : t.Credits K where
  listed := by
    intro n r hr
    rw [hview.availableRoute] at hr
    exact h.listed n r hr
  routed := by
    intro v n hn
    rw [hview.route] at hn
    exact h.routed v n hn

private theorem of_offers (h : s.Credits K) (hn : s.Offers n v) : K n v := by
  obtain ⟨r, hr, -, hv⟩ := hn
  exact h.listed n r hr v hv

private theorem setRoute (h : s.Credits K) (hn : K n v) : (s.setRoute v n).Credits K where
  listed := h.listed
  routed := by
    intro u m hm
    rw [setRoute_lookup] at hm
    split at hm
    · next huv =>
      obtain rfl : n = m := Option.some.inj hm
      exact huv ▸ hn
    · exact h.routed u m hm

private theorem dropRoute (h : s.Credits K) : (s.dropRoute v).Credits K where
  listed := h.listed
  routed := by
    intro u m hm
    rw [dropRoute_lookup] at hm
    split at hm
    · cases hm
    · exact h.routed u m hm

private theorem markUnresponsive (h : s.Credits K) : (s.markUnresponsive n).Credits K where
  listed := by
    intro m r hr
    rw [State.markUnresponsive, Map.lookup_modify] at hr
    split at hr
    · next hmn =>
      obtain ⟨r', hr', rfl⟩ := Option.map_eq_some_iff.mp hr
      exact hmn ▸ h.listed n r' hr'
    · exact h.listed m r hr
  routed := h.routed

private theorem updateRoute (h : s.Credits K) (p : FloodPacket)
    (hlist : ∀ v ∈ p.videosAvailable.map Prod.fst, K n v) (now : SystemTime) :
    (s.updateRoute n p now).Credits K where
  listed := by
    intro m r hr
    rw [State.updateRoute, Map.lookup_upsert] at hr
    split at hr
    · next hmn =>
      obtain rfl := Option.some.inj hr
      exact hmn ▸ hlist
    · exact h.listed m r hr
  routed := h.routed

end Credits
end State

/-- A node that asks for a video asks someone who listed it. -/
theorem Event.Selects.credited {K : SocketAddr → VideoId → Prop} {e : Event} {s : State}
    {v : VideoId} {n : SocketAddr} (h : e.Selects s v n) (hs : s.Credits K) : K n v := by
  cases h with
  | requested _ _ hbest => exact hs.of_offers (State.offers_of_best hbest)
  | redirected _ _ _ _ _ hbest => exact hs.of_offers (State.offers_of_best hbest)
  | queued _ _ hoffers => exact hs.of_offers hoffers
  | again hroute => exact hs.routed v n hroute

/-- Flood packets that list what their senders have leave a node with nothing else. -/
theorem State.Credits.after {K : SocketAddr → VideoId → Prop} {e : Event} (h : e.view.Credits K)
    (hlist : ∀ n p, e.Floods n p → ∀ v ∈ p.videosAvailable.map Prod.fst, K n v) :
    e.after.state.Credits K := by
  refine e.reaches_after.invariant (I := fun c ↦ c.state.Credits K) (fun c d hc hd ↦ ?_) h
  cases hd with
  | stop _ _ => exact hc.dropRoute
  | stopFails _ _ => exact hc.dropRoute
  | request hsel => exact hc.setRoute (hsel.credited hc)
  | mark _ => exact hc.markUnresponsive
  | learn hflood => exact hc.updateRoute _ (hlist _ _ hflood) _
  | _ => exact ⟨hc.listed, hc.routed⟩

end PessiStreamer.Node
