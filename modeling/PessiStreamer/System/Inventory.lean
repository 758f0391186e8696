import PessiStreamer.Node.Listed
import PessiStreamer.Server.Streaming
import PessiStreamer.System.Audience
import PessiStreamer.System.Words

/-!
# A server has what it is asked for

A server announces the videos that it has and never removes one of them. So where the flood packets
of servers are true at first they stay so, and a node routes over a server only videos that this
server has, however packets are lost, repeated and reordered and whoever else sends some.
-/

namespace PessiStreamer.System
open Base Common Node

namespace Overlay

variable {o o' : Overlay} {e : OverlayEvent} {a b : SocketAddr} {v : VideoId}

private theorem HostedAt.update (h : o.HostedAt b v) {k₀ k : Host}
    {sent : List (SocketAddr × Packet)} (hhost : o.hosts.lookup a = some k₀)
    (hkeep : k₀.Hosts v → k.Hosts v) : (o.update a k sent).HostedAt b v := by
  intro k' hk'
  rw [update_lookup] at hk'
  split at hk'
  · next hba =>
    rw [hhost] at hk'
    obtain rfl : k = k' := Option.some.inj hk'
    exact hkeep (h k₀ (hba ▸ hhost))
  · exact h k' hk'

/-- A host takes subscribers for a video as long as it runs. -/
theorem Step.hostedAt (hstep : o.Step e o') (h : o.HostedAt b v) : o'.HostedAt b v := by
  cases hstep.transition with
  | @deliverNode l r m env s view _ hhost _ =>
    exact HostedAt.update (o := { o with inFlight := l ++ r }) h hhost fun _ ↦ trivial
  | @deliverServer l r m env s view _ hhost =>
    exact HostedAt.update (o := { o with inFlight := l ++ r }) h hhost fun hs ↦
      Server.State.Hosts.handlePacket hs m.packet m.source
  | node hhost _ _ => exact h.update hhost fun _ ↦ trivial
  | @server x i s sendResult hhost =>
    exact h.update hhost fun hs ↦ Server.State.Hosts.run hs i sendResult
  | stop => exact fun k hk ↦ h k (Map.lookup_of_erase hk)
  | deliverNone _ _ => exact h
  | lose _ => exact h
  | duplicate _ => exact h
  | client _ => exact h

/-- A flood packet in flight whose sender is a server lists only videos that it has. -/
def Truthful (o : Overlay) : Prop :=
  ∀ m ∈ o.inFlight, ∀ q, m.packet = .nodePacket (.floodPacket q) →
    ∀ v ∈ q.videosAvailable.map Prod.fst, o.HostedAt m.source v

/-- The flood packets of servers are true, and so is what the nodes know from them. -/
structure Inventory (o : Overlay) : Prop where
  flight : o.Truthful
  nodes : ∀ a s, o.hosts.lookup a = some (.node s) → s.Credits o.HostedAt

namespace Inventory

/-- A step of the network, whatever is lost, repeated or reordered in it. -/
theorem step (h : o.Inventory) (hstep : o.Step e o') : o'.Inventory where
  flight := by
    intro m hm q hq v hv
    apply hstep.hostedAt
    cases hstep.origin hm with
    | before hm => exact h.flight m hm q hq v hv
    | node hs _ _ _ _ => exact HasNode.hostedAt ⟨_, hs⟩
    | @server s i sendResult hs _ hsent =>
      rw [hq] at hsent
      intro k hk
      obtain rfl : k = .server s := Option.some.inj (hk.symm.trans hs)
      exact Server.State.hosts_of_sent hsent hv
    | client he =>
      subst he
      exact hostedAt_of_none hstep.1
  nodes := by
    intro a t ht
    rcases hstep.node_cases ht with ⟨hs, -⟩ | ⟨s, i, hacts, rfl⟩
    · exact (h.nodes a t hs).mono fun _ _ ↦ hstep.hostedAt
    · have hbefore := (h.nodes a s hacts.host).reorder hacts.view
      have hafter : i.after.state.Credits o.HostedAt := by
        apply hbefore.after
        intro n p hflood
        obtain ⟨index, env, view, -, -, hm⟩ := hstep.delivered hacts.handled hflood.1
        exact h.flight _ (List.mem_of_getElem? hm) p rfl
      exact hafter.mono fun _ _ ↦ hstep.hostedAt

/-- Messages leave, and someone who is no host sends some. -/
theorem exchange (h : o.Inventory) {ms : List Message}
    (hms : ∀ m ∈ ms, m ∈ o.inFlight ∨ o.hosts.lookup m.source = none) :
    Inventory { o with inFlight := ms } where
  flight := by
    intro m hm q hq v hv
    rcases hms m hm with hm | hnone
    · exact h.flight m hm q hq v hv
    · exact hostedAt_of_none hnone
  nodes := h.nodes

/-- A node asks a server only for videos that this server has. -/
theorem hostedAt (h : o.Inventory) (hcounts : o.CountsOn a b v) : o.HostedAt b v := by
  obtain ⟨s, hs, hroute⟩ := hcounts
  exact (h.nodes a s hs).routed v b hroute

end Inventory

/-- Nodes that have just started know nothing. -/
theorem Truthful.inventory (h : o.Truthful) (hnodes : ∀ a t, o.hosts.lookup a = some (.node t) →
    ∃ id neighbours localAddr, t = .new id neighbours localAddr) : o.Inventory where
  flight := h
  nodes := by
    intro a t ht
    obtain ⟨id, neighbours, localAddr, rfl⟩ := hnodes a t ht
    exact State.credits_new id neighbours localAddr

end Overlay
end PessiStreamer.System
