import PessiStreamer.Node.FailedRequests

/-!
# The videos a node advertises

`get_videos` goes through the names of the videos and not through the routes. Over all runs each
video that some neighbour lists has a name, since a flood packet enters the names it brings before
its list, and no name is removed; so a node advertises exactly the videos that it can serve.
-/

namespace PessiStreamer.Node
open Base Common

/-- Every video that a neighbour lists, active or not, has a name. -/
def Named (s : State) : Prop :=
  ∀ n r, s.availableRoutes.lookup n = some r → ∀ v ∈ r.availableVideos,
    (s.videoNames.lookup v).isSome

namespace Named

variable {s t : State} {a : SocketAddr}

/-- No video is listed that was not, and no name is forgotten. -/
theorem congr (h : Named s)
    (hroutes : ∀ n r, t.availableRoutes.lookup n = some r →
      ∃ r', s.availableRoutes.lookup n = some r' ∧ r'.availableVideos = r.availableVideos)
    (hnames : ∀ v, (s.videoNames.lookup v).isSome → (t.videoNames.lookup v).isSome) : Named t := by
  intro n r hr v hv
  obtain ⟨r', hr', hvideos⟩ := hroutes n r hr
  exact hnames v (h n r' hr' v (hvideos ▸ hv))

private theorem updateVideoNames (h : Named s) (videos : List (VideoId × String)) :
    Named (s.updateVideoNames videos) := by
  apply h.congr
  · exact fun n r hr ↦ ⟨r, hr, rfl⟩
  · exact fun v hv ↦ Map.lookup_foldl_insert_isSome.mpr (.inr hv)

private theorem markUnresponsive (h : Named s) : Named (s.markUnresponsive a) := by
  apply h.congr
  · intro n r hr
    simp only [State.markUnresponsive, Map.lookup_modify] at hr
    split at hr
    · next hn =>
      obtain ⟨r', hr', rfl⟩ := Option.map_eq_some_iff.mp hr
      exact ⟨r', hn ▸ hr', rfl⟩
    · exact ⟨r, hr, rfl⟩
  · exact fun v hv ↦ hv

/-- A flood packet brings the names of the videos it lists. -/
theorem learn (h : Named s) (p : FloodPacket) (now : SystemTime) : Named (s.learn a p now) := by
  intro n r hr v hv
  simp only [State.learn, State.updateRoute, Map.lookup_upsert] at hr
  split at hr
  · cases hr
    exact Map.lookup_foldl_insert_isSome.mpr (.inl hv)
  · exact Map.lookup_foldl_insert_isSome.mpr (.inr (h n r hr v hv))

private theorem reorder (h : Named s) (hview : s.Reorder t) : Named t := by
  intro n r hr v hv
  rw [hview.availableRoute] at hr
  rw [AList.perm_lookup hview.videoNames]
  exact h n r hr v hv

/-- One run of a handler. -/
theorem after {e : Event} (h : Named e.view) : Named e.after.state := by
  by_cases hflood : ∃ fromAddr p, e.Floods fromAddr p
  · obtain ⟨fromAddr, p, hinput, hid⟩ := hflood
    have hafter : e.after.state = (Reaction.handleFloodPacket fromAddr p).after e.env e.view := by
      rw [Event.after, hinput]
      rfl
    rw [hafter, handleFloodPacket_state hid, State.routeAll_eq]
    exact h.learn p e.env.now
  · apply e.reaches_after.invariant (I := fun c ↦ Named c.state) _ h
    intro c d hc hd
    cases hd with
    | mark => exact hc.markUnresponsive
    | name => exact hc.updateVideoNames _
    | learn hlearn => exact absurd ⟨_, _, hlearn⟩ hflood
    | _ => exact hc

end Named

section Runs

variable {id : NodeId} {neighbours : List IpAddr} {localAddr : SocketAddr} {s : State}
  {tr : List (State × Event)}

/-- In every state of every run each listed video has a name. -/
theorem named_of_run (hrun : Run Step (.new id neighbours localAddr) tr s) : Named s := by
  apply hrun.invariant (I := Named)
  · rintro s e t hs ⟨hview, rfl⟩
    exact (hs.reorder hview).after
  · intro n r hr
    cases hr

/-- No video is advertised twice. -/
theorem nodup_getVideos (s : State) (a : SocketAddr) : ((s.getVideos a).map Prod.fst).Nodup := by
  have hkeys : (s.videoNames.entries.map fun e ↦ (e.1, e.2)).map Prod.fst =
      s.videoNames.entries.keys := by
    rw [List.map_map]
    rfl
  have hnodup : s.videoNames.entries.keys.Nodup := s.videoNames.nodupKeys
  rw [← hkeys] at hnodup
  exact (List.filter_sublist.map Prod.fst).nodup hnodup

/-- In every state of every run a node advertises to an address each video once that some other
active node lists, and no other video. -/
theorem getVideos_exact (hrun : Run Step (.new id neighbours localAddr) tr s) (a : SocketAddr) :
    ((s.getVideos a).map Prod.fst).Nodup ∧
      ∀ v, v ∈ (s.getVideos a).map Prod.fst ↔ ∃ n, n ≠ a ∧ s.Offers n v := by
  constructor
  · exact nodup_getVideos s a
  · intro v
    rw [State.mem_getVideos]
    constructor
    · exact fun h ↦ h.2
    · rintro ⟨n, hn, r, hr, hs, hv⟩
      exact ⟨named_of_run hrun n r hr v hv, n, hn, r, hr, hs, hv⟩

/-- Two nodes list video 6, and the one that also lists video 5 is given up. -/
def listedTwice : List (Input × Env) :=
  [(.packet (offer [5, 6]) (IpAddr.v4 1).atPort, .calm 0),
    (.packet (offer [6]) (IpAddr.v4 2).atPort, .calm 0),
    (.neighbourUnresponsive (IpAddr.v4 1).atPort, .calm 0)]

/-- The video that the other node lists is offered to the one that was given up. -/
theorem getVideos_exact_listedTwice :
    6 ∈ ((simulate (.new 9 [] (IpAddr.v4 9).atPort) listedTwice).getVideos
      (IpAddr.v4 1).atPort).map Prod.fst := by
  apply ((getVideos_exact (run_record _ listedTwice) (IpAddr.v4 1).atPort).2 6).mpr
  exact ⟨(IpAddr.v4 2).atPort, by decide, ⟨0, ⟨[0], by decide⟩, [6], .active, .parent ⟨[], 0⟩⟩,
    by decide +kernel, rfl, by decide⟩

end Runs
end PessiStreamer.Node
