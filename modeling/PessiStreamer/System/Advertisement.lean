import PessiStreamer.Node.Passing
import PessiStreamer.System.Loops

/-!
# Advertised videos over the whole network

Servers announce their videos in flood packets, and the nodes pass the packets on with the videos
they know themselves. Whatever is lost, duplicated, reordered or fails, no video and no name is
invented on the way, and none of those that the server announced drops out.
-/

namespace PessiStreamer.System
open Base Common Node

/-- The flood packet that a server announces its videos with, or that someone who is no host
sends. -/
def announcement? (p : Overlay × OverlayEvent) : Option FloodPacket :=
  match p.2 with
  | .server addr (.flood now) _ =>
    match p.1.hosts.lookup addr with
    | some (.server s) => some (s.floodPacket now)
    | _ => none
  | .client m =>
    match m.packet with
    | .nodePacket (.floodPacket q) => some q
    | _ => none
  | _ => none

/-- The flood packets that were announced in a run, oldest first. -/
def announcements (tr : List (Overlay × OverlayEvent)) : List FloodPacket :=
  tr.filterMap announcement?

/-- The video stands in an announced list under this name. -/
def Announced (tr : List (Overlay × OverlayEvent)) (x : VideoId × String) : Prop :=
  ∃ q ∈ announcements tr, x ∈ q.videosAvailable

/-- The packet was passed on from an announced one, over nodes of the network none of which it had
visited before: it tells the time of the announcement and lists what that one listed, and all
else that it lists was announced, too. -/
structure Relayed (o₀ : Overlay) (tr : List (Overlay × OverlayEvent)) (q : FloodPacket) :
    Prop where
  origin : ∃ q₀ ∈ announcements tr, ∃ path : List NodeId,
    q.createdAtServerTime = q₀.createdAtServerTime ∧
    q.visitedNodes = q₀.visitedNodes ++ path ∧ path.Nodup ∧ path.Disjoint q₀.visitedNodes ∧
    (∀ i ∈ path, ∃ a s, o₀.hosts.lookup a = some (.node s) ∧ s.id = i) ∧
    q₀.videosAvailable.map Prod.fst ⊆ q.videosAvailable.map Prod.fst
  lists : ∀ x ∈ q.videosAvailable, Announced tr x

section Packets

variable {o₀ : Overlay} {tr tr' : List (Overlay × OverlayEvent)} {q : FloodPacket}

private theorem announcements_append (tr tr' : List (Overlay × OverlayEvent)) :
    announcements (tr ++ tr') = announcements tr ++ announcements tr' := List.filterMap_append

/-- What was announced stays so. -/
theorem Announced.append {x : VideoId × String} (h : Announced tr x) :
    Announced (tr ++ tr') x := by
  obtain ⟨q, hq, hx⟩ := h
  refine ⟨q, ?_, hx⟩
  rw [announcements_append]
  exact List.mem_append_left _ hq

private theorem Relayed.append (h : Relayed o₀ tr q) : Relayed o₀ (tr ++ tr') q := by
  obtain ⟨q₀, hq₀, horigin⟩ := h.origin
  refine ⟨⟨q₀, ?_, horigin⟩, fun x hx ↦ (h.lists x hx).append⟩
  rw [announcements_append]
  exact List.mem_append_left _ hq₀

/-- An announced packet was passed on over no node yet. -/
theorem relayed_of_announced (h : q ∈ announcements tr) : Relayed o₀ tr q where
  origin := ⟨q, h, [], rfl, (List.append_nil _).symm, .nil, List.disjoint_nil_left _, by simp,
    fun _ ↦ id⟩
  lists x hx := ⟨q, h, hx⟩

/-- A node passes packets on to which this applies. -/
theorem handed {i : NodeId} (hi : ∃ a s, o₀.hosts.lookup a = some (.node s) ∧ s.id = i) :
    Handed (Relayed o₀ tr) (Announced tr) i := by
  refine ⟨fun p hp ↦ hp.lists, fun p parents videos hp hid hsub hlists ↦ ⟨?_, hlists⟩⟩
  obtain ⟨q₀, hq₀, path, htime, hvisited, hnodup, hdisjoint, hpath, hkept⟩ := hp.origin
  rw [hvisited, List.mem_append, not_or] at hid
  refine ⟨q₀, hq₀, path ++ [i], htime, ?_, ?_, ?_, ?_, fun v hv ↦ hsub (hkept hv)⟩
  · simp only [hvisited, List.append_assoc]
  · rw [← List.concat_eq_append, List.nodup_concat]
    exact ⟨hid.2, hnodup⟩
  · rw [List.disjoint_append_left, List.singleton_disjoint]
    exact ⟨hdisjoint, hid.1⟩
  · intro j hj
    rcases List.mem_append.mp hj with hj | hj
    · exact hpath j hj
    · rwa [List.mem_singleton.mp hj]

end Packets

/-- What holds in every state of every run: the flood packets in flight were passed on from
announced ones, and so was what the nodes know. -/
structure Advertises (o₀ : Overlay) (tr : List (Overlay × OverlayEvent)) (o : Overlay) : Prop where
  flight : ∀ m ∈ o.inFlight, ∀ q, m.packet = .nodePacket (.floodPacket q) → Relayed o₀ tr q
  nodes : ∀ a s, o.hosts.lookup a = some (.node s) → Informed (Relayed o₀ tr) (Announced tr) s
  ids : ∀ a s, o.hosts.lookup a = some (.node s) →
    ∃ a s₀, o₀.hosts.lookup a = some (.node s₀) ∧ s₀.id = s.id

namespace Advertises

variable {o₀ o : Overlay} {tr : List (Overlay × OverlayEvent)}

/-- The history grows. -/
theorem append (h : Advertises o₀ tr o) (tr' : List (Overlay × OverlayEvent)) :
    Advertises o₀ (tr ++ tr') o where
  flight m hm q hq := (h.flight m hm q hq).append
  nodes a s hs := (h.nodes a s hs).mono (fun _ hp ↦ hp.append) fun _ hx ↦ hx.append
  ids := h.ids

/-- Messages leave, and hosts stop. -/
theorem drop (h : Advertises o₀ tr o) {o' : Overlay} (hflight : ∀ m ∈ o'.inFlight, m ∈ o.inFlight)
    (hhosts : ∀ a s, o'.hosts.lookup a = some (.node s) → o.hosts.lookup a = some (.node s)) :
    Advertises o₀ tr o' where
  flight m hm := h.flight m (hflight m hm)
  nodes a s hs := h.nodes a s (hhosts a s hs)
  ids a s hs := h.ids a s (hhosts a s hs)

/-- A node handles an event. -/
theorem node (h : Advertises o₀ tr o) {a : SocketAddr} {s : Node.State} {e : Node.Event}
    (hs : o.hosts.lookup a = some (.node s)) (hview : s.Reorder e.view)
    (hflood : ∀ fromAddr p, e.Floods fromAddr p → Relayed o₀ tr p) :
    Advertises o₀ tr (o.update a (.node e.after.state) e.after.sent) := by
  have hbefore := (h.nodes a s hs).reorder hview
  have hhanded : Handed (Relayed o₀ tr) (Announced tr) e.view.id := by
    rw [hview.id]
    exact handed (h.ids a s hs)
  have hnode {b : SocketAddr} {t : Node.State}
      (ht : (o.update a (.node e.after.state) e.after.sent).hosts.lookup b = some (.node t)) :
      t = e.after.state ∨ o.hosts.lookup b = some (.node t) := by
    rw [Overlay.update_lookup, hs] at ht
    split at ht
    · cases ht
      exact .inl rfl
    · exact .inr ht
  constructor
  · intro m hm q hq
    rw [Overlay.update_inFlight] at hm
    rcases List.mem_append.mp hm with hm | hm
    · exact h.flight m hm q hq
    · obtain ⟨⟨b, p⟩, hx, rfl⟩ := List.mem_map.mp hm
      obtain rfl : p = .nodePacket (.floodPacket q) := hq
      exact hbefore.sent hhanded hflood hx
  · intro b t ht
    rcases hnode ht with rfl | ht
    · exact hbefore.after hflood hhanded.lists
    · exact h.nodes b t ht
  · intro b t ht
    rcases hnode ht with rfl | ht
    · rw [e.after_id, hview.id]
      exact h.ids a s hs
    · exact h.ids b t ht

/-- A server acts; the floods it sends are announced. -/
theorem server (h : Advertises o₀ tr o) {a : SocketAddr} {k : Server.State}
    {sent : List (SocketAddr × Packet)}
    (hsent : ∀ b q, (b, .nodePacket (.floodPacket q)) ∈ sent → q ∈ announcements tr) :
    Advertises o₀ tr (o.update a (.server k) sent) := by
  constructor
  · intro m hm q hq
    rw [Overlay.update_inFlight] at hm
    rcases List.mem_append.mp hm with hm | hm
    · exact h.flight m hm q hq
    · obtain ⟨⟨b, p⟩, hx, rfl⟩ := List.mem_map.mp hm
      obtain rfl : p = .nodePacket (.floodPacket q) := hq
      exact relayed_of_announced (hsent b q hx)
  · exact fun b t ht ↦ h.nodes b t (Overlay.node_of_update_server ht)
  · exact fun b t ht ↦ h.ids b t (Overlay.node_of_update_server ht)

/-- A step keeps the flood packets those that were passed on. -/
theorem step (h : Advertises o₀ tr o) {e : OverlayEvent} {o' : Overlay} (he : o.Step e o') :
    Advertises o₀ (tr ++ [(o, e)]) o' := by
  have h := h.append [(o, e)]
  have hnew {q : FloodPacket} (hq : announcement? (o, e) = some q) :
      q ∈ announcements (tr ++ [(o, e)]) := by
    rw [announcements_append]
    exact List.mem_append_right _ (List.mem_filterMap.mpr ⟨_, List.mem_singleton_self _, hq⟩)
  cases he.transition with
  | @deliverNode l r m env s view hlr hs hview =>
    have hrest : Advertises o₀ _ { o with inFlight := l ++ r } :=
      h.drop (fun m' hm' ↦ Overlay.mem_of_mem_rest hlr hm') fun _ _ hs ↦ hs
    apply hrest.node hs hview
    intro fromAddr p hp
    apply h.flight m (by simp [hlr]) p
    exact (Node.Input.packet.inj hp.1).1
  | @deliverServer l r m env s view hlr hs =>
    have hrest : Advertises o₀ _ { o with inFlight := l ++ r } :=
      h.drop (fun m' hm' ↦ Overlay.mem_of_mem_rest hlr hm') fun _ _ hs ↦ hs
    exact hrest.server (by simp)
  | deliverNone hlr hnone =>
    exact h.drop (fun m' hm' ↦ Overlay.mem_of_mem_rest hlr hm') fun _ _ hs ↦ hs
  | lose hlr =>
    exact h.drop (fun m' hm' ↦ Overlay.mem_of_mem_rest hlr hm') fun _ _ hs ↦ hs
  | @duplicate l r m hlr =>
    refine h.drop (fun m' hm' ↦ ?_) fun _ _ hs ↦ hs
    rcases List.mem_append.mp hm' with hm' | hm'
    · exact hm'
    · rw [List.mem_singleton.mp hm', hlr]
      simp
  | node hs hview hpacket =>
    apply h.node hs hview
    intro fromAddr p hp
    exact (Event.not_floods_of_isPacket hpacket fromAddr p hp).elim
  | @server addr e k sendResult hk =>
    apply h.server
    intro b q hq
    rcases Server.Event.sent_cases hq with ⟨packet, hp⟩ | ⟨now, rfl, hp⟩
    · cases hp
    · cases hp
      apply hnew
      simp only [announcement?, hk]
  | @client m hm =>
    refine ⟨fun m' hm' q hq ↦ ?_, h.nodes, h.ids⟩
    rcases List.mem_append.mp hm' with hm' | hm'
    · exact h.flight m' hm' q hq
    · obtain rfl := List.mem_singleton.mp hm'
      apply relayed_of_announced
      apply hnew
      simp only [announcement?, hq]
  | @stop addr =>
    refine h.drop (fun _ hm ↦ hm) fun a s hs ↦ ?_
    rw [Map.lookup_erase_ite] at hs
    split at hs
    · cases hs
    · exact hs

end Advertises

namespace Overlay

variable {o₀ o : Overlay} {tr : List (Overlay × OverlayEvent)}

/-- Hosts that were just started know nothing. -/
theorem Started.advertises (h : o₀.Started) : Advertises o₀ [] o₀ where
  flight m hm := by
    rw [h.1] at hm
    cases hm
  nodes a s hs := by
    obtain ⟨id, neighbours, localAddr, rfl⟩ := h.node hs
    exact informed_new id neighbours localAddr
  ids a s hs := ⟨a, s, hs, rfl⟩

/-- In every state of every run each flood packet was passed on from an announced one, whose time
and videos it still tells, and each name and each route that a node knows was announced: nothing is
invented, and nothing that was announced drops out. -/
theorem run_advertises (hstart : o₀.Started) (hrun : Run Step o₀ tr o) :
    (∀ m ∈ o.inFlight, ∀ q, m.packet = .nodePacket (.floodPacket q) → Relayed o₀ tr q) ∧
    ∀ a s, o.hosts.lookup a = some (.node s) →
      (∀ v name, s.videoNames.lookup v = some name → Announced tr (v, name)) ∧
      ∀ n r, s.availableRoutes.lookup n = some r →
        ∃ q, Relayed o₀ tr q ∧ r.availableVideos = q.videosAvailable.map Prod.fst ∧
          r.hops = q.hops := by
  have h : Advertises o₀ tr o := by
    induction hrun with
    | refl => exact hstart.advertises
    | tail _ he ih => exact ih.step he
  exact ⟨h.flight, fun a s hs ↦ ⟨(h.nodes a s hs).names, (h.nodes a s hs).routes⟩⟩

end Overlay

/-- The server of the triangle starts a video and announces it to its nodes, and the second node
gets the packet from the first one, too. -/
def announcedInTriangle : List (Overlay × OverlayEvent) × Overlay :=
  triangle.play ([.server (hostAddr 9) (.addVideo 5 "film") fun _ ↦ .ok (),
    .server (hostAddr 9) (.flood 0) fun _ ↦ .ok ()] ++ List.replicate 3 deliverNext)

/-- The second node's route over the first one comes from the packet of the server. -/
theorem run_advertises_triangle :
    ∃ q, Relayed triangle announcedInTriangle.1 q ∧ [5] = q.videosAvailable.map Prod.fst ∧
      2 = q.hops := by
  have hnode := Overlay.nodeAt_eq (o := announcedInTriangle.2) (a := hostAddr 2)
    (by decide +kernel) noNode
  have hroute : (announcedInTriangle.2.nodeAt (hostAddr 2) noNode).availableRoutes.lookup
      (hostAddr 1) = some ⟨2, ⟨[0], by decide⟩, [5], .active, .parent ⟨[hostAddr 9], 0⟩⟩ := by
    decide +kernel
  have hrun : Run Overlay.Step triangle announcedInTriangle.1 announcedInTriangle.2 :=
    Overlay.run_play _ _
  exact ((Overlay.run_advertises triangle_started hrun).2 _ _ hnode).2 _ _ hroute

end PessiStreamer.System
