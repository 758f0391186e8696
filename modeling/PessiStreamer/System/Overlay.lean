import PessiStreamer.Node.Change
import PessiStreamer.System.Host

/-!
# The network of servers and nodes

Servers and nodes at fixed addresses, and the packets on their way between them. Each copy
that a socket sends is a message of its own, so a retransmission is a duplicate; messages
may be lost, duplicated and delivered in any order, and hosts may stop for good.
-/

namespace PessiStreamer.System
open Base Common Node

/-- A packet on its way. -/
structure Message where
  source : SocketAddr
  target : SocketAddr
  packet : Packet
  deriving DecidableEq, Repr

/-- The running hosts by their addresses, and the messages in flight, oldest first. -/
structure Overlay where
  hosts : Map SocketAddr Host
  inFlight : List Message
  deriving DecidableEq

/-- What happens in the network. -/
inductive OverlayEvent where
  /-- a message arrives; a node meets `env` and iterates its maps as in `view` -/
  | deliver (index : Nat) (env : Env) (view : Node.State)
  | lose (index : Nat)
  | duplicate (index : Nat)
  /-- an event of a node other than a packet -/
  | node (addr : SocketAddr) (e : Node.Event)
  | server (addr : SocketAddr) (e : Server.Event)
      (sendResult : Nat → Except ReliableUdpSocketError Unit)
  /-- someone who is no host sends a packet -/
  | client (m : Message)
  | stop (addr : SocketAddr)

/-- The messages by which a host sends packets. -/
def outgoing (source : SocketAddr) (sent : List (SocketAddr × Packet)) : List Message :=
  sent.map fun p ↦ ⟨source, p.1, p.2⟩

namespace Overlay

/-- There is a running node at the address. -/
def HasNode (o : Overlay) (a : SocketAddr) : Prop := ∃ s, o.hosts.lookup a = some (.node s)

/-- Servers and nodes that were just started. -/
def Started (o : Overlay) : Prop :=
  o.inFlight = [] ∧ ∀ a h, o.hosts.lookup a = some h →
    (∃ id neighbours, h = .server (.new id neighbours)) ∨
      ∃ id neighbours localAddr, h = .node (.new id neighbours localAddr)

/-- A node that was just started is in its first state. -/
theorem Started.node {o : Overlay} (h : o.Started) {a : SocketAddr} {s : Node.State}
    (hs : o.hosts.lookup a = some (.node s)) :
    ∃ id neighbours localAddr, s = .new id neighbours localAddr := by
  rcases h.2 a _ hs with ⟨id, neighbours, hserver⟩ | ⟨id, neighbours, localAddr, hnode⟩
  · cases hserver
  · exact ⟨id, neighbours, localAddr, Host.node.inj hnode⟩

/-- A host changes its state and sends. -/
def update (o : Overlay) (addr : SocketAddr) (h : Host) (sent : List (SocketAddr × Packet)) :
    Overlay where
  hosts := o.hosts.modify addr fun _ ↦ h
  inFlight := o.inFlight ++ outgoing addr sent

/-- A message reaches its target. -/
def receive (o : Overlay) (m : Message) (env : Env) (view : Node.State) : Overlay :=
  match o.hosts.lookup m.target with
  | some (.node _) =>
    let c := Event.after ⟨.packet m.packet m.source, env, view⟩
    o.update m.target (.node c.state) c.sent
  | some (.server s) => o.update m.target (.server (s.handlePacket m.packet m.source)) []
  | none => o

/-- What an event does. -/
def next (o : Overlay) : OverlayEvent → Overlay
  | .deliver index env view =>
    match o.inFlight[index]? with
    | some m => { o with inFlight := o.inFlight.eraseIdx index }.receive m env view
    | none => o
  | .lose index => { o with inFlight := o.inFlight.eraseIdx index }
  | .duplicate index => { o with inFlight := o.inFlight ++ o.inFlight[index]?.toList }
  | .node addr e => o.update addr (.node e.after.state) e.after.sent
  | .server addr e sendResult =>
    match o.hosts.lookup addr with
    | some (.server s) =>
      o.update addr (.server (e.run sendResult s).1) (e.run sendResult s).2
    | _ => o
  | .client m => { o with inFlight := o.inFlight ++ [m] }
  | .stop addr => { o with hosts := o.hosts.erase addr }

/-- The messages that hosts and clients send in an event. -/
def sent (o : Overlay) : OverlayEvent → List Message
  | .deliver index env view =>
    match o.inFlight[index]? with
    | some m =>
      match o.hosts.lookup m.target with
      | some (.node _) =>
        outgoing m.target (Event.after ⟨.packet m.packet m.source, env, view⟩).sent
      | _ => []
    | none => []
  | .node addr e => outgoing addr e.after.sent
  | .server addr e sendResult =>
    match o.hosts.lookup addr with
    | some (.server s) => outgoing addr (e.run sendResult s).2
    | _ => []
  | .client m => [m]
  | .lose _ | .duplicate _ | .stop _ => []

/-- Which node handles what, if the address is that of a node. -/
def handled (o : Overlay) : OverlayEvent → Option (SocketAddr × Node.Event)
  | .deliver index env view =>
    o.inFlight[index]?.map fun m ↦ (m.target, ⟨.packet m.packet m.source, env, view⟩)
  | .node addr e => some (addr, e)
  | .lose _ | .duplicate _ | .server _ _ _ | .client _ | .stop _ => none

/-- When an event can happen. -/
def Enabled (o : Overlay) : OverlayEvent → Prop
  | .deliver index _ view => ∃ m, o.inFlight[index]? = some m ∧
      ∀ s, o.hosts.lookup m.target = some (.node s) → s.Reorder view
  | .lose index => index < o.inFlight.length
  | .duplicate index => index < o.inFlight.length
  | .node addr e => e.input.isPacket = false ∧ ∃ s, o.hosts.lookup addr = some (.node s) ∧
      s.Reorder e.view
  | .server addr _ _ => ∃ s, o.hosts.lookup addr = some (.server s)
  | .client m => o.hosts.lookup m.source = none
  | .stop addr => (o.hosts.lookup addr).isSome

/-- One atomic step of the network. -/
def Step (o : Overlay) (e : OverlayEvent) (o' : Overlay) : Prop := o.Enabled e ∧ o' = o.next e

/-- What a step can do. -/
inductive Transition (o : Overlay) : OverlayEvent → Overlay → Prop
  | deliverNode {l r : List Message} {m : Message} {env : Env} {s view : Node.State} :
      o.inFlight = l ++ m :: r → o.hosts.lookup m.target = some (.node s) → s.Reorder view →
      Transition o (.deliver l.length env view) (update { o with inFlight := l ++ r } m.target
        (.node (Event.after ⟨.packet m.packet m.source, env, view⟩).state)
        (Event.after ⟨.packet m.packet m.source, env, view⟩).sent)
  | deliverServer {l r : List Message} {m : Message} {env : Env} {s : Server.State}
      {view : Node.State} :
      o.inFlight = l ++ m :: r → o.hosts.lookup m.target = some (.server s) →
      Transition o (.deliver l.length env view) (update { o with inFlight := l ++ r } m.target
        (.server (s.handlePacket m.packet m.source)) [])
  | deliverNone {l r : List Message} {m : Message} {env : Env} {view : Node.State} :
      o.inFlight = l ++ m :: r → o.hosts.lookup m.target = none →
      Transition o (.deliver l.length env view) { o with inFlight := l ++ r }
  | lose {l r : List Message} {m : Message} : o.inFlight = l ++ m :: r →
      Transition o (.lose l.length) { o with inFlight := l ++ r }
  | duplicate {l r : List Message} {m : Message} : o.inFlight = l ++ m :: r →
      Transition o (.duplicate l.length) { o with inFlight := o.inFlight ++ [m] }
  | node {addr : SocketAddr} {e : Node.Event} {s : Node.State} :
      o.hosts.lookup addr = some (.node s) → s.Reorder e.view →
      e.input.isPacket = false →
      Transition o (.node addr e) (o.update addr (.node e.after.state) e.after.sent)
  | server {addr : SocketAddr} {e : Server.Event} {s : Server.State}
      {sendResult : Nat → Except ReliableUdpSocketError Unit} :
      o.hosts.lookup addr = some (.server s) →
      Transition o (.server addr e sendResult)
        (o.update addr (.server (e.run sendResult s).1) (e.run sendResult s).2)
  | client {m : Message} : o.hosts.lookup m.source = none →
      Transition o (.client m) { o with inFlight := o.inFlight ++ [m] }
  | stop {addr : SocketAddr} : Transition o (.stop addr) { o with hosts := o.hosts.erase addr }

/-- The messages before and after the one with an index. -/
theorem split_inFlight {o : Overlay} {index : Nat} {m : Message}
    (h : o.inFlight[index]? = some m) :
    ∃ l r, o.inFlight = l ++ m :: r ∧ l.length = index ∧ o.inFlight.eraseIdx index = l ++ r := by
  obtain ⟨hlt, rfl⟩ := List.getElem?_eq_some_iff.mp h
  refine ⟨o.inFlight.take index, o.inFlight.drop (index + 1), ?_, ?_, ?_⟩
  · rw [List.getElem_cons_drop, List.take_append_drop]
  · exact List.length_take_of_le (Nat.le_of_lt hlt)
  · exact List.eraseIdx_eq_take_drop_succ _ _

/-- What remains when a message leaves was in flight before. -/
theorem mem_of_mem_rest {o : Overlay} {l r : List Message} {m m' : Message}
    (hflight : o.inFlight = l ++ m :: r) (h : m' ∈ l ++ r) : m' ∈ o.inFlight := by
  rw [hflight]
  simp only [List.mem_append, List.mem_cons] at h ⊢
  tauto

/-- What was in flight before remains, apart from the message that leaves. -/
theorem eq_or_mem_rest {o : Overlay} {l r : List Message} {m m' : Message}
    (hflight : o.inFlight = l ++ m :: r) (h : m' ∈ o.inFlight) : m' = m ∨ m' ∈ l ++ r := by
  rw [hflight] at h
  simp only [List.mem_append, List.mem_cons] at h ⊢
  tauto

/-- Only a node sends packets when a message arrives. -/
theorem sent_deliver {o : Overlay} {l r : List Message} {m : Message} {env : Env}
    {view : Node.State} (hflight : o.inFlight = l ++ m :: r) :
    o.sent (.deliver l.length env view) =
      match o.hosts.lookup m.target with
      | some (.node _) =>
        outgoing m.target (Event.after ⟨.packet m.packet m.source, env, view⟩).sent
      | _ => [] := by
  have hm : o.inFlight[l.length]? = some m := by simp [hflight]
  simp only [sent, hm]

/-- The inversion of a step. -/
theorem Step.transition {o o' : Overlay} {e : OverlayEvent} (h : o.Step e o') :
    o.Transition e o' := by
  obtain ⟨henabled, rfl⟩ := h
  cases e with
  | deliver index env view =>
    obtain ⟨m, hm, hview⟩ := henabled
    obtain ⟨l, r, hlr, rfl, herase⟩ := split_inFlight hm
    simp only [next, hm, herase, receive]
    cases hhost : o.hosts.lookup m.target with
    | none => exact .deliverNone hlr hhost
    | some host =>
      cases host with
      | node s => exact .deliverNode hlr hhost (hview s hhost)
      | server s => exact .deliverServer hlr hhost
  | lose index =>
    obtain ⟨l, r, hlr, rfl, herase⟩ := split_inFlight (List.getElem?_eq_getElem henabled)
    simp only [next, herase]
    exact .lose hlr
  | duplicate index =>
    obtain ⟨l, r, hlr, rfl, herase⟩ := split_inFlight (List.getElem?_eq_getElem henabled)
    simp only [next, List.getElem?_eq_getElem henabled, Option.toList_some]
    exact .duplicate hlr
  | node addr e =>
    obtain ⟨hpacket, s, hs, hview⟩ := henabled
    exact .node hs hview hpacket
  | server addr e sendResult =>
    obtain ⟨s, hs⟩ := henabled
    simp only [next, hs]
    exact .server hs
  | client m => exact .client henabled
  | stop addr => exact .stop

/-- A node handles a packet when a message with it arrives. -/
theorem Step.delivered {o o' : Overlay} {e : OverlayEvent} (hstep : o.Step e o') {a : SocketAddr}
    {i : Node.Event} (h : o.handled e = some (a, i)) {p : Packet} {x : SocketAddr}
    (hin : i.input = .packet p x) : ∃ index env view, e = .deliver index env view ∧
      i = ⟨.packet p x, env, view⟩ ∧ o.inFlight[index]? = some ⟨x, a, p⟩ := by
  cases e with
  | deliver index env view =>
    obtain ⟨m, hm, heq⟩ := Option.map_eq_some_iff.mp h
    obtain ⟨rfl, rfl⟩ := Prod.mk.inj heq
    obtain ⟨rfl, rfl⟩ := Node.Input.packet.inj hin
    exact ⟨index, env, view, rfl, rfl, hm⟩
  | node addr i' =>
    obtain ⟨rfl, rfl⟩ := Prod.mk.inj (Option.some.inj h)
    have hpacket := hstep.1.1
    rw [hin] at hpacket
    cases hpacket
  | lose | duplicate | server | client | stop => cases h

/-- What a host sends joins the messages in flight. -/
@[simp] theorem update_inFlight (o : Overlay) (a : SocketAddr) (h : Host)
    (sent : List (SocketAddr × Packet)) :
    (o.update a h sent).inFlight = o.inFlight ++ outgoing a sent := rfl

/-- Only the host that acts changes. -/
theorem update_lookup (o : Overlay) (a b : SocketAddr) (h : Host)
    (sent : List (SocketAddr × Packet)) :
    (o.update a h sent).hosts.lookup b =
      if b = a then (o.hosts.lookup a).map fun _ ↦ h else o.hosts.lookup b :=
  Map.lookup_modify o.hosts a (fun _ ↦ h) b

/-- A server that acts changes no node. -/
theorem node_of_update_server {o : Overlay} {a b : SocketAddr} {k : Server.State}
    {sent : List (SocketAddr × Packet)} {s : Node.State}
    (h : (o.update a (.server k) sent).hosts.lookup b = some (.node s)) :
    o.hosts.lookup b = some (.node s) := by
  rw [update_lookup] at h
  split at h
  · obtain ⟨host, -, hhost⟩ := Option.map_eq_some_iff.mp h
    cases hhost
  · exact h

/-- The node at an address, or `d` where there is none. -/
def nodeAt (o : Overlay) (a : SocketAddr) (d : Node.State) : Node.State :=
  match o.hosts.lookup a with
  | some (.node s) => s
  | _ => d

/-- The node at an address with a node. -/
theorem nodeAt_eq {o : Overlay} {a : SocketAddr} (h : (o.hosts.lookup a).any Host.isNode)
    (d : Node.State) : o.hosts.lookup a = some (.node (o.nodeAt a d)) := by
  obtain ⟨k, hk, hnode⟩ := Option.any_eq_true .. |>.mp h
  cases k with
  | node s => simp only [nodeAt, hk]
  | server s => cases hnode

/-- The event in which the node that handles it iterates its maps in the order they have. -/
def settle (o : Overlay) : OverlayEvent → OverlayEvent
  | .deliver index env view =>
    .deliver index env ((o.inFlight[index]?).elim view fun m ↦ o.nodeAt m.target view)
  | .node addr e => .node addr { e with view := o.nodeAt addr e.view }
  | e => e

/-- Whether an event can happen, apart from the order in which maps are iterated. -/
def possible (o : Overlay) : OverlayEvent → Bool
  | .deliver index _ _ | .lose index | .duplicate index => index < o.inFlight.length
  | .node addr e =>
    match o.hosts.lookup addr with
    | some (.node _) => !e.input.isPacket
    | _ => false
  | .server addr _ _ =>
    match o.hosts.lookup addr with
    | some (.server _) => true
    | _ => false
  | .client m => o.hosts.lookup m.source = none
  | .stop addr => (o.hosts.lookup addr).isSome

/-- Let events happen one after the other, and leave out those that cannot. -/
def play (o : Overlay) : List OverlayEvent → List (Overlay × OverlayEvent) × Overlay
  | [] => ([], o)
  | e :: es =>
    if o.possible e then
      let r := play (o.next (o.settle e)) es
      ((o, o.settle e) :: r.1, r.2)
    else play o es

/-- An event that is possible is enabled once the orders of the maps are settled. -/
theorem enabled_settle {o : Overlay} {e : OverlayEvent} (h : o.possible e) :
    o.Enabled (o.settle e) := by
  cases e with
  | deliver index env view =>
    have hlt : index < o.inFlight.length := by simpa [possible] using h
    refine ⟨_, List.getElem?_eq_getElem hlt, fun s hs ↦ ?_⟩
    simp only [List.getElem?_eq_getElem hlt, Option.elim_some, nodeAt, hs]
    exact .refl s
  | lose index =>
    have hlt : index < o.inFlight.length := of_decide_eq_true h
    exact hlt
  | duplicate index =>
    have hlt : index < o.inFlight.length := of_decide_eq_true h
    exact hlt
  | node addr e =>
    simp only [possible] at h
    split at h
    · next s hs =>
      refine ⟨by simpa using h, s, hs, ?_⟩
      simp only [nodeAt, hs]
      exact .refl s
    · cases h
  | server addr e sendResult =>
    simp only [possible] at h
    split at h
    · next s hs => exact ⟨s, hs⟩
    · cases h
  | client m =>
    have hnone : o.hosts.lookup m.source = none := of_decide_eq_true h
    exact hnone
  | stop addr => exact h

/-- What is played are the given events. -/
theorem mem_play {o : Overlay} {es : List OverlayEvent} {p : Overlay × OverlayEvent}
    (h : p ∈ (o.play es).1) : ∃ e ∈ es, p.2 = p.1.settle e := by
  induction es generalizing o with
  | nil => cases h
  | cons e es ih =>
    rw [play] at h
    split at h
    · rcases List.mem_cons.mp h with rfl | h
      · exact ⟨e, List.mem_cons_self, rfl⟩
      · obtain ⟨e', he', hp⟩ := ih h
        exact ⟨e', List.mem_cons_of_mem e he', hp⟩
    · obtain ⟨e', he', hp⟩ := ih h
      exact ⟨e', List.mem_cons_of_mem e he', hp⟩

/-- What is played is a run. -/
theorem run_play (o : Overlay) (es : List OverlayEvent) :
    Run Step o (o.play es).1 (o.play es).2 := by
  induction es generalizing o with
  | nil => exact .refl o
  | cons e es ih =>
    rw [play]
    split
    · next h => exact Run.head ⟨enabled_settle h, rfl⟩ (ih _)
    · exact ih o

/-- A property of all hosts. -/
theorem forall_hosts {o : Overlay} {P : SocketAddr → Host → Prop}
    (h : ∀ e ∈ o.hosts.entries, P e.1 e.2) (a : SocketAddr) (k : Host)
    (hk : o.hosts.lookup a = some k) : P a k :=
  h ⟨a, k⟩ (Map.mem_entries_iff.mpr hk)

end Overlay

/-- An address for a host with a number. -/
def hostAddr (n : BitVec 32) : SocketAddr := (IpAddr.v4 n).atPort

/-- A server next to two nodes that are neighbours of each other. -/
def triangle : Overlay where
  hosts := AList.insert (hostAddr 9) (.server (.new 9 [hostAddr 1, hostAddr 2])) <|
    AList.insert (hostAddr 1) (.node (.new 1 [.v4 2] (hostAddr 1))) <|
    AList.insert (hostAddr 2) (.node (.new 2 [.v4 1] (hostAddr 2))) ∅
  inFlight := []

/-- A node that was never started. -/
def noNode : Node.State := .new 0 [] (hostAddr 0)

/-- A message in flight arrives, and the sends of its handler succeed. -/
def deliverAt (index : Nat) : OverlayEvent := .deliver index (.calm 0) noNode

/-- The oldest message in flight arrives. -/
def deliverNext : OverlayEvent := deliverAt 0

end PessiStreamer.System
