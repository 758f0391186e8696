import PessiStreamer.Base.Flooding
import PessiStreamer.Node.Exact
import PessiStreamer.System.Overlay

/-!
# One flood over the network

The flood packets of one server, delivered once each in any order, while everything else in
the network goes on. The network simulates the abstract flooding of its neighbour graph, so the
nodes accept the flood along the simple paths from the server.
-/

namespace PessiStreamer.System
open Base Common Node

/-- The flood packet of a message. -/
def Message.token? (m : Message) : Option (Token SocketAddr NodeId) :=
  match m.packet with
  | .nodePacket (.floodPacket p) => some ⟨p.visitedNodes, m.source, m.target⟩
  | _ => none

namespace Overlay

/-- Who passes flood packets on to whom. -/
def graph (o : Overlay) : RelayGraph SocketAddr NodeId where
  out a := (o.hosts.lookup a).elim [] Host.neighbours
  label a := (o.hosts.lookup a).elim 0 Host.id
  relays := (o.hosts.keys.filter fun a ↦ (o.hosts.lookup a).any Host.isNode).toFinset

/-- The flood packets in flight. -/
def floods (o : Overlay) : List (Token SocketAddr NodeId) := o.inFlight.filterMap Message.token?

/-- No two hosts have the same id. -/
def DistinctIds (o : Overlay) : Prop :=
  ∀ a b h k, o.hosts.lookup a = some h → o.hosts.lookup b = some k → h.id = k.id → a = b

/-- An event that neither loses nor duplicates nor adds a flood packet, stops no host and changes
no neighbour list, and in which the sends of flood packets succeed. -/
def Undisturbed (o : Overlay) : OverlayEvent → Prop
  | .deliver index env _ => ∀ m, o.inFlight[index]? = some m →
      m.packet ≠ .nodePacket .newNeighbour ∧ ((m.token?).isSome → env.AllOk)
  | .lose index | .duplicate index => ∀ m, o.inFlight[index]? = some m → m.token? = none
  | .node _ e => ∀ ip, ¬ e.Registers ip
  | .server _ e _ => ∀ now, e ≠ .flood now
  | .client m => m.token? = none
  | .stop _ => False

/-- The node and the visited nodes of a flood packet that a step does not drop as a loop. -/
def acceptedIn (p : Overlay × OverlayEvent) : Option (SocketAddr × List NodeId) :=
  match p.2 with
  | .deliver index _ _ =>
    match p.1.inFlight[index]? with
    | some m =>
      match m.packet, p.1.hosts.lookup m.target with
      | .nodePacket (.floodPacket q), some (.node s) =>
        if s.id ∈ q.visitedNodes then none else some (m.target, q.visitedNodes)
      | _, _ => none
    | none => none
  | _ => none

/-- The flood packets that hosts and clients send in a step. -/
def floodsSent (p : Overlay × OverlayEvent) : Nat :=
  ((p.1.sent p.2).filterMap Message.token?).length

/-- The state of the abstract flood after the acceptances and sends of a run. -/
def flooding (o : Overlay) (accepted : List (SocketAddr × List NodeId)) (sent : Nat) :
    Flooding SocketAddr NodeId := ⟨accepted, o.floods, sent⟩

private theorem mem_relays {o : Overlay} {a : SocketAddr} :
    a ∈ o.graph.relays ↔ ∃ s, o.hosts.lookup a = some (.node s) := by
  simp only [graph, List.mem_toFinset, List.mem_filter, Option.any_eq_true]
  constructor
  · rintro ⟨-, h, hh, hnode⟩
    cases h with
    | node s => exact ⟨s, hh⟩
    | server s => cases hnode
  · rintro ⟨s, hs⟩
    exact ⟨AList.mem_keys.mp (AList.lookup_isSome.mp (by simp [hs])), _, hs, rfl⟩

/-- The graph depends on the kinds, ids and neighbours of the hosts. -/
theorem graph_congr {o o' : Overlay} (h : ∀ a,
    (o'.hosts.lookup a).map (fun h ↦ (h.isNode, h.id, h.neighbours)) =
      (o.hosts.lookup a).map fun h ↦ (h.isNode, h.id, h.neighbours)) : o'.graph = o.graph := by
  have hhost (a : SocketAddr) : (o'.hosts.lookup a).elim [] Host.neighbours =
      (o.hosts.lookup a).elim [] Host.neighbours ∧
      (o'.hosts.lookup a).elim 0 Host.id = (o.hosts.lookup a).elim 0 Host.id ∧
      (a ∈ o'.graph.relays ↔ a ∈ o.graph.relays) := by
    have ha := h a
    rw [mem_relays, mem_relays]
    cases hl : o.hosts.lookup a with
    | none =>
      cases hl' : o'.hosts.lookup a with
      | none => simp
      | some k => simp [hl, hl'] at ha
    | some k =>
      cases hl' : o'.hosts.lookup a with
      | none => simp [hl, hl'] at ha
      | some k' =>
        simp only [hl, hl', Option.map_some, Option.some.injEq, Prod.mk.injEq] at ha
        obtain ⟨hkind, hid, hnb⟩ := ha
        refine ⟨hnb, hid, ?_⟩
        cases k
        all_goals cases k'
        all_goals simp_all [Host.isNode]
  simp only [graph, RelayGraph.mk.injEq] at hhost ⊢
  exact ⟨funext fun a ↦ (hhost a).1, funext fun a ↦ (hhost a).2.1,
    Finset.ext fun a ↦ (hhost a).2.2⟩

private theorem update_graph {o : Overlay} {a : SocketAddr} {h k : Host}
    {sent : List (SocketAddr × Packet)} (hh : o.hosts.lookup a = some h)
    (hkind : k.isNode = h.isNode) (hid : k.id = h.id) (hnb : k.neighbours = h.neighbours) :
    (o.update a k sent).graph = o.graph := by
  refine graph_congr fun b ↦ ?_
  rw [update_lookup]
  by_cases hb : b = a
  · subst hb
    rw [if_pos rfl, hh]
    simp [hkind, hid, hnb]
  · simp [hb]

/-- A host that acts adds the flood packets that it sends. -/
@[simp] theorem update_floods (o : Overlay) (a : SocketAddr) (h : Host)
    (sent : List (SocketAddr × Packet)) :
    (o.update a h sent).floods = o.floods ++ (outgoing a sent).filterMap Message.token? := by
  simp [floods]

/-- A host that sends no flood packet adds none. -/
theorem tokens_eq_nil {a : SocketAddr} {sent : List (SocketAddr × Packet)}
    (h : ∀ b q, (b, .nodePacket (.floodPacket q)) ∉ sent) :
    (outgoing a sent).filterMap Message.token? = [] := by
  simp only [outgoing, List.filterMap_eq_nil_iff, List.mem_map]
  rintro _ ⟨⟨b, p⟩, hx, rfl⟩
  rcases p with p | (_ | _ | q) | p | p
  · rfl
  · rfl
  · rfl
  · exact (h b q hx).elim
  · rfl
  · rfl

/-- Only a flood packet is a token of the flood. -/
theorem token_eq_some {m : Message} {t : Token SocketAddr NodeId} (h : m.token? = some t) :
    ∃ p, m.packet = .nodePacket (.floodPacket p) ∧ t = ⟨p.visitedNodes, m.source, m.target⟩ := by
  unfold Message.token? at h
  split at h
  · next p hp => exact ⟨p, hp, (Option.some.inj h).symm⟩
  · cases h

/-- A message without a flood packet is handled as something else. -/
theorem not_floods_of_token {m : Message} {env : Env} {view : Node.State} (h : m.token? = none)
    (fromAddr : SocketAddr) (p : FloodPacket) :
    ¬ (Event.mk (.packet m.packet m.source) env view).Floods fromAddr p := by
  intro hf
  simp [Message.token?, (Node.Input.packet.inj hf.1).1] at h

/-- The handler of a flood packet accepts and passes on what the abstract relay does. -/
theorem node_flood {o : Overlay} {m : Message} {p : FloodPacket} {env : Env}
    {s view : Node.State} (hp : m.packet = .nodePacket (.floodPacket p))
    (hhost : o.hosts.lookup m.target = some (.node s)) (hview : s.Reorder view)
    (hok : env.AllOk) :
    (outgoing m.target (Event.after ⟨.packet m.packet m.source, env, view⟩).sent).filterMap
        Message.token? = o.graph.forward ⟨p.visitedNodes, m.source, m.target⟩ ∧
      (if s.id ∈ p.visitedNodes then [] else [(m.target, p.visitedNodes)]) =
        o.graph.accept ⟨p.visitedNodes, m.source, m.target⟩ := by
  have hlabel : o.graph.label m.target = s.id := by simp [graph, hhost, Host.id]
  have hout : o.graph.out m.target = s.neighbours.map IpAddr.atPort := by
    simp [graph, hhost, Host.neighbours]
  have hrelay : m.target ∈ o.graph.relays := mem_relays.mpr ⟨s, hhost⟩
  have hafter : Event.after ⟨.packet m.packet m.source, env, view⟩ =
      finalState (handleFloodPacket m.source p) (.start env view) := by
    rw [hp]
    rfl
  rw [hafter, RelayGraph.forward, RelayGraph.accept]
  by_cases hid : s.id ∈ p.visitedNodes
  · have hloop : ¬ o.graph.Accepts ⟨p.visitedNodes, m.source, m.target⟩ := by
      rw [RelayGraph.Accepts, hlabel]
      tauto
    rw [floodPacket_loop (hview.id ▸ hid), if_neg hloop, if_pos hid, if_neg hloop]
    exact ⟨rfl, rfl⟩
  · have haccepts : o.graph.Accepts ⟨p.visitedNodes, m.source, m.target⟩ := by
      rw [RelayGraph.Accepts, hlabel]
      exact ⟨hrelay, hid⟩
    rw [(floodPacket_after _ hok (hview.id ▸ hid)).2, if_pos haccepts, if_neg hid, if_pos haccepts]
    refine ⟨?_, rfl⟩
    have hstate : ((view.learn m.source p env.now).drain m.source p.videosAvailable).id = s.id ∧
        ((view.learn m.source p env.now).drain m.source p.videosAvailable).neighbours =
          s.neighbours := by
      rw [State.drain_eq]
      exact ⟨hview.id, hview.neighbours⟩
    have hrequests : ((((view.pendingListed p.videosAvailable).map fun v ↦
        (m.source, Packet.serverPacket (.requestVideo v))).map fun x ↦
          (⟨m.target, x.1, x.2⟩ : Message)).filterMap Message.token?) = [] := by
      simp [Message.token?]
    rw [outgoing, List.map_append, List.filterMap_append, hrequests, List.nil_append, hout, hlabel,
      State.forwards, State.broadcastTo, hstate.2, List.map_map, List.filterMap_map]
    have htoken : Message.token? ∘ ((fun x ↦ ⟨m.target, x.1, x.2⟩) ∘ fun addr ↦
        (addr, .nodePacket (.floodPacket
          (((view.learn m.source p env.now).drain m.source p.videosAvailable).forwarded p addr)))) =
        some ∘ fun b ↦ ⟨p.visitedNodes ++ [s.id], m.target, b⟩ := by
      funext addr
      simp [Message.token?, State.forwarded, hstate.1]
    rw [htoken, List.filterMap_eq_map]

/-- A packet in flight whose target accepts and passes on what the abstract relay does. -/
theorem flooding_deliver {o o' : Overlay} {l r : List Message} {m : Message}
    {t : Token SocketAddr NodeId} {e : OverlayEvent} (hflight : o.inFlight = l ++ m :: r)
    (ht : m.token? = some t)
    (hfloods : o'.floods = l.filterMap Message.token? ++ r.filterMap Message.token? ++
      o.graph.forward t)
    (hsent : floodsSent (o, e) = (o.graph.forward t).length)
    (haccept : (acceptedIn (o, e)).toList = o.graph.accept t)
    (acc : List (SocketAddr × List NodeId)) (k : Nat) :
    Flooding.Step o.graph (o.flooding acc k)
      (o'.flooding (acc ++ (acceptedIn (o, e)).toList) (k + floodsSent (o, e))) := by
  have hbefore : o.floods = l.filterMap Message.token? ++ t :: r.filterMap Message.token? := by
    rw [floods, hflight, List.filterMap_append, List.filterMap_cons_some ht]
  rw [flooding, flooding, hbefore, hfloods, hsent, haccept]
  exact .deliver

/-- A packet that its target does not accept only leaves the network. -/
theorem forward_eq_nil {o : Overlay} {t : Token SocketAddr NodeId}
    (h : t.target ∉ o.graph.relays) : o.graph.forward t = [] ∧ o.graph.accept t = [] := by
  have hnot : ¬ o.graph.Accepts t := fun hacc ↦ h hacc.1
  exact ⟨if_neg hnot, if_neg hnot⟩

private theorem acceptedIn_deliver {o : Overlay} {l r : List Message} {m : Message} {env : Env}
    {view : Node.State} (hflight : o.inFlight = l ++ m :: r) :
    acceptedIn (o, .deliver l.length env view) =
      match m.packet, o.hosts.lookup m.target with
      | .nodePacket (.floodPacket q), some (.node s) =>
        if s.id ∈ q.visitedNodes then none else some (m.target, q.visitedNodes)
      | _, _ => none := by
  simp [acceptedIn, hflight]

private theorem acceptedIn_none {o : Overlay} {l r : List Message} {m : Message} {env : Env}
    {view : Node.State} (hflight : o.inFlight = l ++ m :: r) (ht : m.token? = none) :
    acceptedIn (o, .deliver l.length env view) = none := by
  rw [acceptedIn_deliver hflight]
  split
  · next q s hp hs => simp [Message.token?, hp] at ht
  · rfl

/-- A message to an address without a node only leaves the network. -/
theorem flooding_idle {o o' : Overlay} {l r : List Message} {m : Message} {env : Env}
    {view : Node.State} (hflight : o.inFlight = l ++ m :: r) (hidle : m.target ∉ o.graph.relays)
    (hfloods : o'.floods = l.filterMap Message.token? ++ r.filterMap Message.token?)
    (acc : List (SocketAddr × List NodeId)) (k : Nat) :
    o'.flooding (acc ++ (acceptedIn (o, .deliver l.length env view)).toList)
        (k + floodsSent (o, .deliver l.length env view)) = o.flooding acc k ∨
      Flooding.Step o.graph (o.flooding acc k)
        (o'.flooding (acc ++ (acceptedIn (o, .deliver l.length env view)).toList)
          (k + floodsSent (o, .deliver l.length env view))) := by
  have hsent : floodsSent (o, .deliver l.length env view) = 0 := by
    rw [floodsSent, sent_deliver hflight]
    split
    · next s hs => exact (hidle (mem_relays.mpr ⟨s, hs⟩)).elim
    · rfl
  have haccepted : acceptedIn (o, .deliver l.length env view) = none := by
    rw [acceptedIn_deliver hflight]
    split
    · next s _ hs => exact (hidle (mem_relays.mpr ⟨s, hs⟩)).elim
    · rfl
  cases ht : m.token? with
  | none =>
    left
    rw [haccepted, hsent, Overlay.flooding, Overlay.flooding, hfloods]
    simp [floods, hflight, ht]
  | some t =>
    obtain ⟨p, -, rfl⟩ := token_eq_some ht
    obtain ⟨hforward, haccept⟩ := forward_eq_nil (o := o)
      (t := ⟨p.visitedNodes, m.source, m.target⟩) hidle
    right
    apply flooding_deliver hflight ht
    · rw [hfloods, hforward, List.append_nil]
    · rw [hsent, hforward, List.length_nil]
    · rw [haccepted, haccept, Option.toList_none]

/-- Each undisturbed step delivers a packet of the abstract flood or leaves it alone. -/
theorem Step.flooding {o o' : Overlay} {e : OverlayEvent} (h : o.Step e o')
    (hu : o.Undisturbed e) (acc : List (SocketAddr × List NodeId)) (k : Nat) :
    o'.graph = o.graph ∧
    (o'.flooding (acc ++ (acceptedIn (o, e)).toList) (k + floodsSent (o, e)) = o.flooding acc k ∨
      Flooding.Step o.graph (o.flooding acc k)
        (o'.flooding (acc ++ (acceptedIn (o, e)).toList) (k + floodsSent (o, e)))) := by
  cases h.transition with
  | @deliverNode l r m env s view hflight hhost hview =>
    have hm := hu m (by simp [hflight])
    have hregisters (ip : IpAddr) :
        ¬ (Event.mk (.packet m.packet m.source) env view).Registers ip := by
      intro hr
      rw [Event.Registers] at hr
      split at hr
      · next hin => exact hm.1 (Node.Input.packet.inj hin).1
      · next hin => cases hin
      · exact hr
    refine ⟨update_graph (o := { o with inFlight := l ++ r }) hhost rfl ?_ ?_, ?_⟩
    · exact (Event.after_id _).trans hview.id
    · exact congrArg (List.map IpAddr.atPort)
        ((Event.after_neighbours hregisters).trans hview.neighbours)
    cases ht : m.token? with
    | none =>
      have hnil : (outgoing m.target (Event.after
          ⟨.packet m.packet m.source, env, view⟩).sent).filterMap Message.token? = [] :=
        tokens_eq_nil fun b q ↦ Event.no_flood_sent (not_floods_of_token ht)
      have haccepted : acceptedIn (o, .deliver l.length env view) = none :=
        acceptedIn_none hflight ht
      left
      rw [haccepted, floodsSent, sent_deliver hflight, hhost, hnil]
      simp [Overlay.flooding, floods, hflight, ht, hnil]
    | some t =>
      obtain ⟨p, hp, rfl⟩ := token_eq_some ht
      obtain ⟨hforward, haccept⟩ := node_flood hp hhost hview (hm.2 (by simp [ht]))
      right
      refine flooding_deliver hflight ht ?_ ?_ ?_ acc k
      · rw [update_floods, hforward, floods, List.filterMap_append]
      · rw [floodsSent, sent_deliver hflight, hhost, hforward]
      · rw [acceptedIn_deliver hflight, hp, hhost, ← haccept]
        by_cases hid : s.id ∈ p.visitedNodes
        · simp [hid]
        · simp [hid]
  | @deliverServer l r m env s view hflight hhost =>
    have hm := hu m (by simp [hflight])
    have hserver := Server.State.handlePacket_neighbours s m.source hm.1
    refine ⟨update_graph (o := { o with inFlight := l ++ r }) hhost rfl hserver.1 hserver.2, ?_⟩
    apply flooding_idle hflight
    · simp [mem_relays, hhost]
    · simp [floods, outgoing]
  | @deliverNone l r m env view hflight hhost =>
    refine ⟨rfl, ?_⟩
    apply flooding_idle hflight
    · simp [mem_relays, hhost]
    · simp [floods]
  | @lose l r m hflight =>
    have ht := hu m (by simp [hflight])
    refine ⟨rfl, .inl ?_⟩
    simp [Overlay.flooding, floods, hflight, ht, acceptedIn, floodsSent, sent]
  | @duplicate l r m hflight =>
    have ht := hu m (by simp [hflight])
    refine ⟨rfl, .inl ?_⟩
    simp [Overlay.flooding, floods, ht, acceptedIn, floodsSent, sent]
  | @node a e s hhost hview hpacket =>
    have hnil : (outgoing a e.after.sent).filterMap Message.token? = [] :=
      tokens_eq_nil fun b q ↦ Event.no_flood_sent (Event.not_floods_of_isPacket hpacket)
    refine ⟨update_graph hhost rfl ((Event.after_id e).trans hview.id) ?_, .inl ?_⟩
    · exact congrArg (List.map IpAddr.atPort)
        ((Event.after_neighbours hu).trans hview.neighbours)
    · simp [Overlay.flooding, hnil, acceptedIn, floodsSent, sent]
  | @server a e s sendResult hhost =>
    have hnil : (outgoing a (e.run sendResult s).2).filterMap Message.token? = [] :=
      tokens_eq_nil fun b q ↦ Server.Event.no_flood_sent hu
    obtain ⟨hid, hnb⟩ := e.run_neighbours sendResult s
    refine ⟨update_graph hhost rfl hid hnb, .inl ?_⟩
    simp [Overlay.flooding, hnil, acceptedIn, floodsSent, sent, hhost]
  | @client m hsource =>
    have ht : m.token? = none := hu
    refine ⟨rfl, .inl ?_⟩
    simp [Overlay.flooding, floods, ht, acceptedIn, floodsSent, sent]
  | stop => cases hu

/-- The abstract flood along a run: the outcome is settled, and the sends stay within budget. -/
theorem run_flooding {o₁ o : Overlay} {tr : List (Overlay × OverlayEvent)} {k : Nat}
    (h : Run Step o₁ tr o) (hu : ∀ p ∈ tr, p.1.Undisturbed p.2)
    (hsound : (o₁.flooding [] k).Sound o₁.graph) :
    o.graph = o₁.graph ∧
    (o.flooding (tr.filterMap acceptedIn) (k + (tr.map floodsSent).sum)).Sound o₁.graph ∧
    (tr.filterMap acceptedIn ++ o.floods.flatMap o₁.graph.spread).Perm
      (o₁.floods.flatMap o₁.graph.spread) ∧
    (o.flooding (tr.filterMap acceptedIn) (k + (tr.map floodsSent).sum)).budget o₁.graph ≤
      (o₁.flooding [] k).budget o₁.graph := by
  induction h with
  | refl => exact ⟨rfl, hsound, .refl _, Nat.le_refl _⟩
  | @tail o o' tr e _ he ih =>
    obtain ⟨hgraph, hs, hperm, hbudget⟩ := ih fun p hp ↦ hu p (List.mem_append_left _ hp)
    obtain ⟨hgraph', hstep⟩ := he.flooding (hu (o, e) (by simp)) (tr.filterMap acceptedIn)
      (k + (tr.map floodsSent).sum)
    have haccepted : (tr ++ [(o, e)]).filterMap acceptedIn =
        tr.filterMap acceptedIn ++ (acceptedIn (o, e)).toList := by
      cases ha : acceptedIn (o, e) with
      | none => simp [ha]
      | some x => simp [ha]
    have hsent : k + ((tr ++ [(o, e)]).map floodsSent).sum =
        k + (tr.map floodsSent).sum + floodsSent (o, e) := by
      simp [Nat.add_assoc]
    rw [haccepted, hsent]
    refine ⟨hgraph'.trans hgraph, ?_⟩
    rcases hstep with hsame | hstep
    · rw [hsame]
      have hacc := congrArg Flooding.accepted hsame
      have hfly := congrArg Flooding.flying hsame
      simp only [Overlay.flooding] at hacc hfly
      rw [hacc, hfly]
      exact ⟨hs, hperm, hbudget⟩
    · rw [hgraph] at hstep
      exact ⟨hstep.sound hs, (hstep.outcome hs).trans hperm, (hstep.budget_le hs).trans hbudget⟩

/-- No flood packet is in flight. -/
def FloodFree (o : Overlay) : Prop := ∀ m ∈ o.inFlight, m.token? = none

instance (o : Overlay) : Decidable o.FloodFree :=
  inferInstanceAs (Decidable (∀ m ∈ o.inFlight, m.token? = none))

/-- The labels of a server and the nodes are their ids. -/
theorem injOn_label {o : Overlay} {a : SocketAddr} {h : Host} (hids : o.DistinctIds)
    (ha : o.hosts.lookup a = some h) : Set.InjOn o.graph.label (insert a o.graph.relays) := by
  have hhost (b : SocketAddr) (hb : b ∈ (insert a o.graph.relays : Set SocketAddr)) :
      ∃ k, o.hosts.lookup b = some k ∧ o.graph.label b = k.id := by
    rcases hb with rfl | hb
    · exact ⟨h, ha, by simp [graph, ha]⟩
    · obtain ⟨s, hs⟩ := mem_relays.mp hb
      exact ⟨.node s, hs, by simp [graph, hs]⟩
  intro b hb c hc hbc
  obtain ⟨k, hk, hkid⟩ := hhost b hb
  obtain ⟨k', hk', hkid'⟩ := hhost c hc
  exact hids b c k k' hk hk' (hkid.symm.trans (hbc.trans hkid'))

/-- What one turn of a server's flood task puts in flight. -/
theorem flood_floods {o : Overlay} {a : SocketAddr} {s : Server.State} (now : SystemTime)
    {sendResult : Nat → Except ReliableUdpSocketError Unit}
    (hs : o.hosts.lookup a = some (.server s)) (hok : ∀ i, sendResult i = .ok ())
    (hfree : o.FloodFree) :
    (o.next (.server a (.flood now) sendResult)).graph = o.graph ∧
    (o.next (.server a (.flood now) sendResult)).floods =
      (o.graph.out a).map fun b ↦ ⟨[o.graph.label a], a, b⟩ := by
  have hnext : o.next (.server a (.flood now) sendResult) =
      o.update a (.server s) (s.flood now sendResult).1 := by
    simp only [next, hs]
    rfl
  have hnone : o.floods = [] := List.filterMap_eq_nil_iff.mpr hfree
  have htoken : Message.token? ∘ ((fun x ↦ ⟨a, x.1, x.2⟩) ∘ fun addr ↦
      (addr, .nodePacket (.floodPacket (s.floodPacket now)))) =
      some ∘ fun b ↦ (⟨[s.id], a, b⟩ : Token SocketAddr NodeId) := by
    funext b
    rfl
  rw [hnext]
  refine ⟨update_graph hs rfl rfl rfl, ?_⟩
  rw [update_floods, hnone, List.nil_append, outgoing, Server.State.flood,
    Server.broadcast_of_ok hok, List.map_map, List.filterMap_map, htoken, List.filterMap_eq_map]
  simp [graph, hs, Host.neighbours, Host.id]

/-- One flood of the server at `a`, in a network with distinct ids and duplicate-free neighbour
lists, follows exactly the simple paths from `a` through nodes, however its packets are
delivered: finitely many are sent, each accepted packet took a simple path, and when none is
left in flight each such path was taken once. -/
theorem flood_simplePaths {o₀ o₁ : Overlay} {a : SocketAddr} {s : Server.State}
    {now : SystemTime} {sendResult : Nat → Except ReliableUdpSocketError Unit}
    (hids : o₀.DistinctIds)
    (hnodup : ∀ b h, o₀.hosts.lookup b = some h → h.neighbours.Nodup) (hfree : o₀.FloodFree)
    (hs : o₀.hosts.lookup a = some (.server s)) (hok : ∀ i, sendResult i = .ok ())
    (hflood : o₀.Step (.server a (.flood now) sendResult) o₁) :
    ∃ bound, ∀ tr o, Run Step o₁ tr o → (∀ p ∈ tr, p.1.Undisturbed p.2) →
      (((o₀, .server a (.flood now) sendResult) :: tr).map floodsSent).sum ≤ bound ∧
      (∀ n visited, (n, visited) ∈ tr.filterMap acceptedIn →
        (visited ++ [o₀.graph.label n]).Nodup ∧ visited.length ≤ o₀.graph.relays.card) ∧
      (o.FloodFree →
        (tr.filterMap acceptedIn).Nodup ∧
        (∀ n visited, (n, visited) ∈ tr.filterMap acceptedIn ↔
          ∃ xs, o₀.graph.SimplePath a xs n ∧ visited = (a :: xs).map o₀.graph.label) ∧
        ∀ n, Relation.TransGen o₀.graph.Edge a n →
          ∃ visited, (n, visited) ∈ tr.filterMap acceptedIn) := by
  obtain rfl := hflood.2
  obtain ⟨hgraph, hfloods⟩ := flood_floods now hs hok hfree
  have hlabel := injOn_label hids hs
  have hout (b : SocketAddr) : (o₀.graph.out b).Nodup := by
    cases hb : o₀.hosts.lookup b with
    | none => simp [graph, hb]
    | some h => simpa [graph, hb] using hnodup b h hb
  -- the outcome of the flood when it sets out
  have hfuture : (o₀.next (.server a (.flood now) sendResult)).floods.flatMap o₀.graph.spread =
      o₀.graph.flood [o₀.graph.label a] a := by
    rw [hfloods, List.flatMap_map, RelayGraph.flood_eq]
  refine ⟨((o₀.next (.server a (.flood now) sendResult)).flooding []
    (floodsSent (o₀, .server a (.flood now) sendResult))).budget o₀.graph, fun tr o hrun hu ↦ ?_⟩
  obtain ⟨-, -, hperm, hbudget⟩ := run_flooding hrun hu
    (k := floodsSent (o₀, .server a (.flood now) sendResult)) fun t ht ↦ by
      rw [flooding, hfloods] at ht
      obtain ⟨b, -, rfl⟩ := List.mem_map.mp ht
      simp [hgraph]
  rw [hgraph] at hperm hbudget
  rw [hfuture] at hperm
  have hpath {n : SocketAddr} {visited : List NodeId}
      (h : (n, visited) ∈ tr.filterMap acceptedIn) :
      ∃ xs, o₀.graph.SimplePath a xs n ∧ visited = (a :: xs).map o₀.graph.label :=
    (RelayGraph.mem_flood_start hlabel).mp (hperm.subset (List.mem_append_left _ h))
  refine ⟨?_, fun n visited h ↦ ?_, fun hend ↦ ?_⟩
  · rw [List.map_cons, List.sum_cons]
    exact (Nat.le_add_right _ _).trans hbudget
  · obtain ⟨xs, hsimple, rfl⟩ := hpath h
    refine ⟨?_, by simpa using hsimple.length_le⟩
    simpa using hsimple.nodup_labels hlabel
  · have hempty : o.floods = [] := List.filterMap_eq_nil_iff.mpr hend
    rw [hempty, List.flatMap_nil, List.append_nil] at hperm
    have hmem (n : SocketAddr) (visited : List NodeId) :
        (n, visited) ∈ tr.filterMap acceptedIn ↔
          ∃ xs, o₀.graph.SimplePath a xs n ∧ visited = (a :: xs).map o₀.graph.label :=
      hperm.mem_iff.trans (RelayGraph.mem_flood_start hlabel)
    refine ⟨hperm.nodup_iff.mpr (RelayGraph.nodup_flood hout ?_ _ a), hmem, fun n hn ↦ ?_⟩
    · exact hlabel.mono (Set.subset_insert a _)
    · have hne : n ≠ a := by
        rintro rfl
        obtain ⟨m, -, -, hrelay⟩ := Relation.TransGen.tail'_iff.mp hn
        obtain ⟨s', hs'⟩ := mem_relays.mp hrelay
        simp [hs] at hs'
      obtain ⟨xs, hxs⟩ := RelayGraph.exists_simplePath hn hne
      exact ⟨_, (hmem n _).mpr ⟨xs, hxs, rfl⟩⟩

/-- No two hosts have one id. -/
theorem distinctIds_of_entries {o : Overlay}
    (h : ∀ e ∈ o.hosts.entries, ∀ f ∈ o.hosts.entries, e.2.id = f.2.id → e.1 = f.1) :
    o.DistinctIds := by
  intro a b h' k ha hb
  exact h ⟨a, h'⟩ (Map.mem_entries_iff.mpr ha) ⟨b, k⟩ (Map.mem_entries_iff.mpr hb)

/-- Deliveries whose sends succeed are undisturbed, where no new neighbour turns up. -/
theorem undisturbed_play {o : Overlay} {k : Nat}
    (h : ∀ p ∈ (o.play (List.replicate k deliverNext)).1, ∀ m ∈ p.1.inFlight,
      m.packet ≠ .nodePacket .newNeighbour) :
    ∀ p ∈ (o.play (List.replicate k deliverNext)).1, p.1.Undisturbed p.2 := by
  intro p hp
  obtain ⟨e, he, heq⟩ := mem_play hp
  obtain rfl := List.eq_of_mem_replicate he
  rw [heq]
  exact fun m hm ↦ ⟨h p hp m (List.mem_of_getElem? hm), fun _ ↦ Env.calm_allOk 0⟩

end Overlay

/-- The server floods. -/
def triangleFlood : OverlayEvent := .server (hostAddr 9) (.flood 0) fun _ ↦ .ok ()

/-- The flood until none of its packets is left. -/
def triangleRun : List (Overlay × OverlayEvent) × Overlay :=
  (triangle.next triangleFlood).play (List.replicate 4 deliverNext)

/-- The packet that came over the first node is accepted at the second one. -/
theorem flood_triangle :
    (hostAddr 2, [9, 1]) ∈ triangleRun.1.filterMap Overlay.acceptedIn := by
  have hids : triangle.DistinctIds := Overlay.distinctIds_of_entries (by decide)
  have hnodup := Overlay.forall_hosts (o := triangle) (P := fun _ h ↦ h.neighbours.Nodup)
    (by decide)
  have hserver : triangle.hosts.lookup (hostAddr 9) =
      some (.server (.new 9 [hostAddr 1, hostAddr 2])) := rfl
  have hflood : triangle.Step (.server (hostAddr 9) (.flood 0) fun _ ↦ .ok ())
      (triangle.next triangleFlood) := ⟨⟨_, rfl⟩, rfl⟩
  obtain ⟨bound, hbound⟩ := Overlay.flood_simplePaths hids hnodup (by decide) hserver (fun _ ↦ rfl)
    hflood
  obtain ⟨-, -, hend⟩ := hbound triangleRun.1 triangleRun.2 (Overlay.run_play _ _)
    (Overlay.undisturbed_play (by decide))
  refine ((hend (by decide)).2.1 (hostAddr 2) [9, 1]).mpr ⟨[hostAddr 1], ⟨?_, by decide⟩, by decide⟩
  simp only [List.cons_append, List.nil_append, List.isChain_cons_cons, RelayGraph.Edge]
  exact ⟨⟨by decide, by decide⟩, ⟨by decide, by decide⟩, .singleton _⟩

end PessiStreamer.System
