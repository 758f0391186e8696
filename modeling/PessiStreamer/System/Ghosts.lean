import PessiStreamer.System.Advertisement

/-!
# Videos that nobody streams any more

A node does not tell a neighbour of a video that it knows from this neighbour alone, so two nodes
cannot keep a video alive between them. Three can: where each node of a group has two others of it
listing a video, each flood packet that they pass on, of whatever server, lists the video again.
-/

namespace PessiStreamer.System
open Base Common Node

namespace Overlay

/-- The nodes of a group keep a video alive: each has two others that list it, and so does each
flood packet that one of them has sent. -/
structure Haunted (W : List SocketAddr) (v : VideoId) (o : Overlay) : Prop where
  nodes : ∀ a ∈ W, ∃ s, o.hosts.lookup a = some (.node s) ∧ s.TwiceListed W v
  flight : ∀ m ∈ o.inFlight, m.source ∈ W → ∀ q, m.packet = .nodePacket (.floodPacket q) →
    v ∈ q.videosAvailable.map Prod.fst

/-- A step in which no node of a group stops, and none gives up another one. -/
def Spares (W : List SocketAddr) : OverlayEvent → Prop
  | .node a e => a ∈ W → ∀ n ∈ W, e.givesUp ≠ some n
  | .stop a => a ∉ W
  | _ => True

end Overlay

namespace Overlay.Haunted

variable {W : List SocketAddr} {v : VideoId} {o o' : Overlay}

/-- Hosts outside the group change, and none of the group sends. -/
theorem other (h : o.Haunted W v)
    (hhosts : ∀ a ∈ W, o'.hosts.lookup a = o.hosts.lookup a)
    (hflight : ∀ m ∈ o'.inFlight, m ∈ o.inFlight ∨ m.source ∉ W) : o'.Haunted W v := by
  constructor
  · intro a ha
    rw [hhosts a ha]
    exact h.nodes a ha
  · intro m hm hsource
    rcases hflight m hm with hm | hm
    · exact h.flight m hm hsource
    · exact (hm hsource).elim

/-- A host outside the group acts. -/
theorem update_other (h : o.Haunted W v) {a : SocketAddr} {k : Host}
    {sent : List (SocketAddr × Packet)} (ha : a ∉ W) : (o.update a k sent).Haunted W v := by
  apply h.other
  · intro b hb
    rw [update_lookup, if_neg (ne_of_mem_of_not_mem hb ha)]
  · intro m hm
    rw [update_inFlight] at hm
    rcases List.mem_append.mp hm with hm | hm
    · exact .inl hm
    · obtain ⟨x, -, rfl⟩ := List.mem_map.mp hm
      exact .inr ha

/-- A node handles an event. -/
theorem node (h : o.Haunted W v) {a : SocketAddr} {s : Node.State} {e : Node.Event}
    (hs : o.hosts.lookup a = some (.node s)) (hview : s.Reorder e.view)
    (hgive : a ∈ W → ∀ n ∈ W, e.givesUp ≠ some n)
    (hlist : ∀ n ∈ W, ∀ p, e.Floods n p → v ∈ p.videosAvailable.map Prod.fst) :
    (o.update a (.node e.after.state) e.after.sent).Haunted W v := by
  by_cases ha : a ∈ W
  · have hafter : e.after.state.TwiceListed W v := by
      obtain ⟨s', hs', htwice⟩ := h.nodes a ha
      obtain rfl : s = s' := Host.node.inj (Option.some.inj (hs.symm.trans hs'))
      exact (htwice.reorder hview).after (hgive ha) hlist
    constructor
    · intro b hb
      rw [update_lookup]
      split
      · rw [hs]
        exact ⟨_, rfl, hafter⟩
      · exact h.nodes b hb
    · intro m hm hsource q hq
      rw [update_inFlight] at hm
      rcases List.mem_append.mp hm with hm | hm
      · exact h.flight m hm hsource q hq
      · obtain ⟨⟨b, p⟩, hx, rfl⟩ := List.mem_map.mp hm
        obtain rfl : p = .nodePacket (.floodPacket q) := hq
        obtain ⟨fromAddr, p, -, -, rfl⟩ := Event.forwarded_of_sent hx
        exact hafter.getVideos b
  · exact h.update_other ha

private theorem step (h : o.Haunted W v) {e : OverlayEvent} (he : o.Step e o')
    (hspares : Spares W e) : o'.Haunted W v := by
  have hserver {a : SocketAddr} {k : Server.State} (hk : o.hosts.lookup a = some (.server k)) :
      a ∉ W := by
    intro ha
    obtain ⟨s, hs, -⟩ := h.nodes a ha
    cases hk.symm.trans hs
  cases he.transition with
  | @deliverNode l r m env s view hlr hs hview =>
    have hrest : Overlay.Haunted W v { o with inFlight := l ++ r } :=
      h.other (fun _ _ ↦ rfl) fun m' hm' ↦ .inl (mem_of_mem_rest hlr hm')
    apply hrest.node hs hview
    · intro _ n _
      rw [Event.givesUp_of_packet rfl]
      simp
    · intro n hn p hp
      obtain ⟨hpacket, rfl⟩ := Node.Input.packet.inj hp.1
      exact h.flight m (by simp [hlr]) hn p hpacket
  | @deliverServer l r m env s view hlr hk =>
    have hrest : Overlay.Haunted W v { o with inFlight := l ++ r } :=
      h.other (fun _ _ ↦ rfl) fun m' hm' ↦ .inl (mem_of_mem_rest hlr hm')
    exact hrest.update_other (hserver hk)
  | deliverNone hlr hnone =>
    exact h.other (fun _ _ ↦ rfl) fun m' hm' ↦ .inl (mem_of_mem_rest hlr hm')
  | lose hlr => exact h.other (fun _ _ ↦ rfl) fun m' hm' ↦ .inl (mem_of_mem_rest hlr hm')
  | @duplicate l r m hlr =>
    refine h.other (fun _ _ ↦ rfl) fun m' hm' ↦ ?_
    rcases List.mem_append.mp hm' with hm' | hm'
    · exact .inl hm'
    · rw [List.mem_singleton.mp hm', hlr]
      simp
  | node hs hview hpacket =>
    apply h.node hs hview hspares
    intro n _ p hp
    exact (Event.not_floods_of_isPacket hpacket n p hp).elim
  | server hk => exact h.update_other (hserver hk)
  | @client m hm =>
    refine h.other (fun _ _ ↦ rfl) fun m' hm' ↦ ?_
    rcases List.mem_append.mp hm' with hm' | hm'
    · exact .inl hm'
    · rw [List.mem_singleton.mp hm']
      refine .inr fun hsource ↦ ?_
      obtain ⟨s, hs, -⟩ := h.nodes m.source hsource
      cases hm.symm.trans hs
  | @stop addr =>
    refine h.other (fun a ha ↦ ?_) fun m' hm' ↦ .inl hm'
    rw [Map.lookup_erase_ite, if_neg (ne_of_mem_of_not_mem ha hspares)]

end Overlay.Haunted

/-- Once each node of a group has two others of it that list a video, all of them advertise the
video to everyone for ever, whatever becomes of its server and of all other hosts, as long as none
of them stops or gives up another one. -/
theorem ghosts_persist {W : List SocketAddr} {v : VideoId} {o o' : Overlay}
    {tr : List (Overlay × OverlayEvent)} (h : o.Haunted W v) (hrun : Run Overlay.Step o tr o')
    (hspares : ∀ p ∈ tr, Overlay.Spares W p.2) : ∀ a ∈ W,
      ∃ s, o'.hosts.lookup a = some (.node s) ∧ ∀ b, v ∈ (s.getVideos b).map Prod.fst := by
  have hend : o'.Haunted W v :=
    hrun.invariant_of_forall (P := fun _ e ↦ Overlay.Spares W e)
      (fun o e o' ho hspares he ↦ ho.step he hspares) hspares h
  intro a ha
  obtain ⟨s, hs, htwice⟩ := hend.nodes a ha
  exact ⟨s, hs, htwice.getVideos⟩

/-- Three nodes that are neighbours of each other, next to two servers, of which one streams a
video. -/
def trio : Overlay where
  hosts :=
    AList.insert (hostAddr 9)
      (.server ((Server.State.new 9 [hostAddr 1, hostAddr 2, hostAddr 3]).addVideo 5 "film")) <|
    AList.insert (hostAddr 8) (.server (.new 8 [hostAddr 1])) <|
    AList.insert (hostAddr 1) (.node (.new 1 [.v4 2, .v4 3] (hostAddr 1))) <|
    AList.insert (hostAddr 2) (.node (.new 2 [.v4 1, .v4 3] (hostAddr 2))) <|
    AList.insert (hostAddr 3) (.node (.new 3 [.v4 1, .v4 2] (hostAddr 3))) ∅
  inFlight := []

/-- The server of the video announces it and stops, and the nodes give it up. -/
def hauntedTrio : Overlay :=
  (trio.play ([.server (hostAddr 9) (.flood 0) fun _ ↦ .ok ()] ++ List.replicate 21 deliverNext ++
    [.stop (hostAddr 9), giveUp 1 9, giveUp 2 9, giveUp 3 9])).2

/-- The other server announces that it streams nothing. -/
def ghostRun : List (Overlay × OverlayEvent) × Overlay :=
  hauntedTrio.play ([.server (hostAddr 8) (.flood 0) fun _ ↦ .ok ()] ++
    List.replicate 7 deliverNext)

/-- A group of nodes while nothing is in flight. -/
theorem haunted_of_idle {W : List SocketAddr} {v : VideoId} {o : Overlay} (hidle : o.inFlight = [])
    (h : ∀ a ∈ W, (o.hosts.lookup a).any Host.isNode ∧ (o.nodeAt a noNode).TwiceListed W v) :
    o.Haunted W v where
  nodes a ha := ⟨o.nodeAt a noNode, Overlay.nodeAt_eq (h a ha).1 noNode, (h a ha).2⟩
  flight m hm := by
    rw [hidle] at hm
    cases hm

/-- After the server has stopped the second node still offers its video to everyone. -/
theorem ghosts_persist_trio : ∃ s, ghostRun.2.hosts.lookup (hostAddr 2) = some (.node s) ∧
    ∀ b, 5 ∈ (s.getVideos b).map Prod.fst := by
  have hhaunted : hauntedTrio.Haunted [hostAddr 1, hostAddr 2, hostAddr 3] 5 :=
    haunted_of_idle (by decide +kernel) (by decide +kernel)
  have hrun : Run Overlay.Step hauntedTrio ghostRun.1 ghostRun.2 := Overlay.run_play _ _
  apply ghosts_persist hhaunted hrun
  · intro p hp
    obtain ⟨e, he, hsettle⟩ := Overlay.mem_play hp
    rw [hsettle]
    rcases List.mem_append.mp he with he | he
    · obtain rfl := List.mem_singleton.mp he
      trivial
    · obtain rfl := List.eq_of_mem_replicate he
      trivial
  · simp

end PessiStreamer.System
