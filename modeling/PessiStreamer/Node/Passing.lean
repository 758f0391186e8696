import PessiStreamer.Node.Knowledge
import PessiStreamer.Node.Sent

/-!
# What a node passes on

A node sends flood packets when it handles one that is no loop, and each of them lists what the
node offers then. So what is true of all flood packets and names that come in, and survives being
passed on, is true of all that the node knows and of all that goes out.
-/

namespace PessiStreamer.Node
open Base Common

section Loop

variable {s : State} {fromAddr : SocketAddr} {p : FloodPacket}

/-- The flood packets sent so far pass `p` on as the state is now. -/
def Passes (fromAddr : SocketAddr) (p : FloodPacket) (c : Ctx) : Prop :=
  ∀ a q, (a, .nodePacket (.floodPacket q)) ∈ c.sent →
    a ∈ c.state.broadcastTo fromAddr ∧ q = c.state.forwarded p a

/-- No flood packet was sent so far. -/
abbrev NoFloods : Ctx → Prop := SentOnly fun _ x ↦ ∀ q, x ≠ .nodePacket (.floodPacket q)

private theorem NoFloods.passes {c : Ctx} (h : NoFloods c) : Passes fromAddr p c :=
  fun _ q hq ↦ (h _ hq q rfl).elim

private theorem checkPendingVideos_noFloods (videos : List (VideoId × String)) :
    Maintains NoFloods (checkPendingVideos fromAddr videos) := by
  have hadmits : Admits fun _ x ↦ ∀ q, x ≠ .nodePacket (.floodPacket q) :=
    ⟨by simp, by simp⟩
  apply getState_sent.bind
  intro t
  apply Maintains.bind
  · exact Maintains.forM fun v _ ↦ hadmits.requestVideoToNode.attempt
  · exact fun _ ↦ modifyState_sent _

/-- The loop that passes a flood packet on. -/
theorem forwardAll_passes {u : State} :
    Maintains (fun c ↦ c.state = u ∧ Passes fromAddr p c)
      ((u.broadcastTo fromAddr).forM fun addr ↦ attempt do
        let s ← getState
        send (.nodePacket (.floodPacket { p with
          myParents := s.getParents
          visitedNodes := p.visitedNodes ++ [u.id]
          videosAvailable := s.getVideos addr })) addr) := by
  apply Maintains.forM
  intro addr haddr
  apply Maintains.attempt
  apply triple_bind_getState
  rintro t c ⟨⟨rfl, hc⟩, rfl⟩
  rcases send_cases (.nodePacket (.floodPacket (c.state.forwarded p addr))) addr c with
    h | ⟨e, -, h⟩
  · have hpush : send (.nodePacket (.floodPacket { p with
        myParents := c.state.getParents
        visitedNodes := p.visitedNodes ++ [c.state.id]
        videosAvailable := c.state.getVideos addr })) addr c =
          .ok () (c.push (.nodePacket (.floodPacket (c.state.forwarded p addr))) addr) := h
    rw [hpush]
    refine ⟨rfl, fun a q hq ↦ ?_⟩
    rcases List.mem_append.mp hq with hq | hq
    · exact hc a q hq
    · obtain ⟨rfl, hq⟩ := Prod.mk.inj (List.mem_singleton.mp hq)
      cases hq
      exact ⟨haddr, rfl⟩
  · have hfail : send (.nodePacket (.floodPacket { p with
        myParents := c.state.getParents
        visitedNodes := p.visitedNodes ++ [c.state.id]
        videosAvailable := c.state.getVideos addr })) addr c = .error (.socket e) c.fail := h
    rw [hfail]
    exact ⟨rfl, hc⟩

private theorem handleFloodPacket_passes :
    Triple NoFloods (handleFloodPacket fromAddr p) (fun _ ↦ Passes fromAddr p)
      (fun _ ↦ Passes fromAddr p) := by
  have hstart {α : Type} {m : Handler α} (h : Maintains NoFloods m) :
      Triple NoFloods m (fun _ ↦ NoFloods) (fun _ ↦ Passes fromAddr p) :=
    h.consequence (fun _ ↦ id) (fun _ _ ↦ id) fun _ _ hc ↦ NoFloods.passes hc
  apply (hstart getState_sent).bind
  intro t
  apply Triple.ite
  · exact fun _ c hc ↦ NoFloods.passes hc
  intro _
  apply (hstart now_sent).bind
  intro time
  apply (hstart (modifyState_sent _)).bind
  intro _
  apply (hstart (modifyState_sent _)).bind
  intro _
  apply (hstart (checkPendingVideos_noFloods _)).bind
  intro _
  apply triple_bind_getState
  intro u
  exact forwardAll_passes.consequence (fun c hc ↦ ⟨hc.2, NoFloods.passes hc.1⟩)
    (fun _ c hc ↦ hc.2) fun _ c hc ↦ hc.2

end Loop

namespace Event

variable {e : Event} {a : SocketAddr} {q : FloodPacket}

/-- Whatever becomes of its sends, a node sends flood packets only to pass one on. -/
theorem forwarded_of_sent (h : (a, .nodePacket (.floodPacket q)) ∈ e.after.sent) :
    ∃ fromAddr p, e.Floods fromAddr p ∧ a ∈ e.after.state.broadcastTo fromAddr ∧
      q = e.after.state.forwarded p a := by
  by_cases hflood : ∃ fromAddr p, e.Floods fromAddr p
  · obtain ⟨fromAddr, p, hp⟩ := hflood
    have hafter : e.after = finalState (handleFloodPacket fromAddr p) (.start e.env e.view) := by
      rw [Event.after, hp.1]
      rfl
    have hpasses : Passes fromAddr p e.after := by
      rw [hafter]
      exact handleFloodPacket_passes.finalState (by simp [Ctx.start])
    exact ⟨fromAddr, p, hp, hpasses a q h⟩
  · simp only [not_exists] at hflood
    exact (no_flood_sent hflood h).elim

end Event

/-- What holds of flood packets and of the names they list, and is kept when a node passes a packet
on with at least the same videos. -/
structure Handed (D : FloodPacket → Prop) (L : VideoId × String → Prop) (id : NodeId) : Prop where
  lists : ∀ p, D p → ∀ x ∈ p.videosAvailable, L x
  passed : ∀ p parents videos, D p → id ∉ p.visitedNodes →
    p.videosAvailable.map Prod.fst ⊆ videos.map Prod.fst → (∀ x ∈ videos, L x) →
      D { p with
        myParents := parents
        visitedNodes := p.visitedNodes ++ [id]
        videosAvailable := videos }

/-- Every name and every route that a node knows comes from such packets. -/
structure Informed (D : FloodPacket → Prop) (L : VideoId × String → Prop) (s : State) : Prop where
  names : ∀ v name, s.videoNames.lookup v = some name → L (v, name)
  routes : ∀ n r, s.availableRoutes.lookup n = some r →
    ∃ p, D p ∧ r.availableVideos = p.videosAvailable.map Prod.fst ∧ r.hops = p.hops

section Knowledge

variable {D : FloodPacket → Prop} {L : VideoId × String → Prop} {s t : State}

/-- A node that was just started knows nothing. -/
theorem informed_new (id : NodeId) (neighbours : List IpAddr) (localAddr : SocketAddr) :
    Informed D L (.new id neighbours localAddr) where
  names _ _ h := by cases h
  routes _ _ h := by cases h

namespace Informed

/-- Where it comes from may be said more generously. -/
theorem mono {D' : FloodPacket → Prop} {L' : VideoId × String → Prop} (h : Informed D L s)
    (hD : ∀ p, D p → D' p) (hL : ∀ x, L x → L' x) : Informed D' L' s := by
  refine ⟨fun v name hv ↦ hL _ (h.names v name hv), fun n r hr ↦ ?_⟩
  obtain ⟨p, hp, hvideos⟩ := h.routes n r hr
  exact ⟨p, hD p hp, hvideos⟩

/-- The order of the maps plays no part. -/
theorem reorder (h : Informed D L s) (hview : s.Reorder t) : Informed D L t := by
  constructor
  · intro v name hv
    rw [AList.perm_lookup hview.videoNames] at hv
    exact h.names v name hv
  · intro n r hr
    rw [hview.availableRoute] at hr
    exact h.routes n r hr

/-- What a node offers has a name it knows. -/
theorem getVideos (h : Informed D L s) (a : SocketAddr) : ∀ x ∈ s.getVideos a, L x := by
  intro x hx
  obtain ⟨e, he, rfl⟩ := List.mem_map.mp (List.mem_filter.mp hx).1
  exact h.names e.1 e.2 (Map.mem_entries_iff.mp he)

variable {e : Event} {a : SocketAddr}

/-- One run of a handler. -/
theorem after (h : Informed D L e.view) (hflood : ∀ fromAddr p, e.Floods fromAddr p → D p)
    (hlists : ∀ p, D p → ∀ x ∈ p.videosAvailable, L x) : Informed D L e.after.state := by
  constructor
  · intro v name hv
    rw [Event.videoName_after] at hv
    cases hlast : (e.names v).getLast? with
    | none =>
      rw [hlast] at hv
      exact h.names v name hv
    | some last =>
      rw [hlast] at hv
      obtain rfl : last = name := Option.some.inj hv
      obtain ⟨fromAddr, p, hp, hlisted⟩ := Event.mem_names (List.mem_of_getLast? hlast)
      exact hlists p (hflood fromAddr p hp) _ hlisted
  · intro n r hr
    rw [Event.availableRoute_after] at hr
    cases hx : e.learned? n with
    | some x =>
      rw [hx] at hr
      cases hr
      exact ⟨x.1, hflood n x.1 (Event.learned?_eq_some.mp hx).1, rfl, rfl⟩
    | none =>
      rw [hx] at hr
      obtain ⟨r', hr', rfl⟩ := Option.map_eq_some_iff.mp hr
      exact h.routes n r' hr'

/-- The flood packets that a node sends list what the one it passes on lists, and what it knows
otherwise. -/
theorem sent (h : Informed D L e.view) (hhanded : Handed D L e.view.id)
    (hflood : ∀ fromAddr p, e.Floods fromAddr p → D p) {q : FloodPacket}
    (hq : (a, .nodePacket (.floodPacket q)) ∈ e.after.sent) : D q := by
  obtain ⟨fromAddr, p, hp, ha, rfl⟩ := Event.forwarded_of_sent hq
  have hne : fromAddr ≠ a := Ne.symm (by simpa using (List.mem_filter.mp ha).2)
  have hrecalls := Event.recalls_of_floods hp
  rw [State.forwarded, e.after_id]
  apply hhanded.passed p _ _ (hflood fromAddr p hp) hp.2
  · intro v hv
    rw [State.mem_getVideos]
    refine ⟨?_, fromAddr, hne, ?_⟩
    · rw [hrecalls.names]
      exact Map.lookup_foldl_insert_isSome.mpr (.inl hv)
    · rw [State.offers_congr hrecalls.routes]
      exact State.offers_updateRoute.mpr (by rwa [if_pos rfl])
  · exact (h.after hflood hhanded.lists).getVideos a

end Informed
end Knowledge

namespace Event

variable {e : Event} {n : SocketAddr} {v : VideoId}

/-- A node that offers a video is left offering it, unless it is given up or stops listing it. -/
theorem offers_after (h : e.view.Offers n v) (hgive : e.givesUp ≠ some n)
    (hlist : ∀ p, e.Floods n p → v ∈ p.videosAvailable.map Prod.fst) :
    e.after.state.Offers n v := by
  obtain ⟨r, hr, hs, hv⟩ := h
  rw [State.Offers, e.availableRoute_after]
  cases hx : e.learned? n with
  | some x => exact ⟨_, rfl, rfl, hlist x.1 (Event.learned?_eq_some.mp hx).1⟩
  | none =>
    have hstatus : e.status? n = none := by
      rw [Event.status?, hx, if_neg hgive]
      rfl
    exact ⟨r, by simp [hr, hstatus], hs, hv⟩

/-- A name is not forgotten. -/
theorem named_after (h : (e.view.videoNames.lookup v).isSome) :
    (e.after.state.videoNames.lookup v).isSome := by
  rw [e.videoName_after, Option.isSome_or, h, Bool.or_true]

end Event

/-- Two nodes of the group list the video. -/
def State.TwiceListed (W : List SocketAddr) (v : VideoId) (s : State) : Prop :=
  (s.videoNames.lookup v).isSome ∧
    ∃ n₁ ∈ W, ∃ n₂ ∈ W, n₁ ≠ n₂ ∧ s.Offers n₁ v ∧ s.Offers n₂ v

instance (s : State) (n : SocketAddr) (v : VideoId) : Decidable (s.Offers n v) :=
  decidable_of_iff ((s.availableRoutes.lookup n).any fun r ↦
    r.status = .active ∧ v ∈ r.availableVideos) (by
      rw [Option.any_eq_true, State.Offers]
      simp)

instance (W : List SocketAddr) (v : VideoId) (s : State) : Decidable (s.TwiceListed W v) :=
  inferInstanceAs (Decidable (_ ∧ _))

section OneNode

variable {W : List SocketAddr} {v : VideoId} {s t : State} {e : Event}

/-- The order of the maps plays no part. -/
theorem State.TwiceListed.reorder (h : s.TwiceListed W v) (hview : s.Reorder t) :
    t.TwiceListed W v := by
  obtain ⟨hname, n₁, h₁, n₂, h₂, hne, ho₁, ho₂⟩ := h
  rw [← AList.perm_lookup hview.videoNames] at hname
  exact ⟨hname, n₁, h₁, n₂, h₂, hne, (hview.offers n₁ v).mpr ho₁, (hview.offers n₂ v).mpr ho₂⟩

/-- A video that two nodes list is told to every address. -/
theorem State.TwiceListed.getVideos (h : s.TwiceListed W v) (a : SocketAddr) :
    v ∈ (s.getVideos a).map Prod.fst := by
  obtain ⟨hname, n₁, -, n₂, -, hne, ho₁, ho₂⟩ := h
  rw [State.mem_getVideos]
  refine ⟨hname, ?_⟩
  by_cases ha : n₁ = a
  · exact ⟨n₂, fun h₂ ↦ hne (ha.trans h₂.symm), ho₂⟩
  · exact ⟨n₁, ha, ho₁⟩

/-- Two nodes list the video until one of them is given up or lists it no more. -/
theorem State.TwiceListed.after (h : e.view.TwiceListed W v)
    (hgive : ∀ n ∈ W, e.givesUp ≠ some n)
    (hlist : ∀ n ∈ W, ∀ p, e.Floods n p → v ∈ p.videosAvailable.map Prod.fst) :
    e.after.state.TwiceListed W v := by
  obtain ⟨hname, n₁, h₁, n₂, h₂, hne, ho₁, ho₂⟩ := h
  exact ⟨Event.named_after hname, n₁, h₁, n₂, h₂, hne,
    Event.offers_after ho₁ (hgive n₁ h₁) (hlist n₁ h₁),
    Event.offers_after ho₂ (hgive n₂ h₂) (hlist n₂ h₂)⟩

end OneNode

end PessiStreamer.Node
