import PessiStreamer.System.Agreement
import PessiStreamer.System.Words

/-!
# A route is backed by a subscription

A node that routes a video over another one is a subscriber there, or its request is on its way.
Sends may fail and nodes may give up the nodes they route over: a failed request sets no route, and
a failed stop has dropped its route already. What must not happen is that a request is lost, that a
stop comes twice or after a later request, and that a node drops a running one of its own accord.
-/

namespace PessiStreamer.System
open Base Common Node

namespace Overlay

/-- A step that takes no subscription from a node that counts on it. -/
def Loyal (o : Overlay) : OverlayEvent → Prop
  | .deliver index _ _ => ∀ m v, o.inFlight[index]? = some m →
      m.packet = .serverPacket (.requestVideo v) → o.HasNode m.source →
      ∀ m' ∈ o.inFlight.take index, m'.packet = .serverPacket (.stopVideo v) →
        ¬ (m'.source = m.source ∧ m'.target = m.target)
  | .lose index => ∀ m v, o.inFlight[index]? = some m →
      m.packet = .serverPacket (.requestVideo v) → ¬ (o.HasNode m.source ∧ o.HasNode m.target)
  | .duplicate index => ∀ m v, o.inFlight[index]? = some m →
      m.packet = .serverPacket (.stopVideo v) → ¬ (o.HasNode m.source ∧ o.HasNode m.target)
  | .node _ e => ∀ v a, e.Removes v a → ¬ o.HasNode a
  | .server _ _ _ | .client _ | .stop _ => True

end Overlay

/-- The node at `a` is a subscriber of the node at `b` for whatever it routes over it, as far as its
last word there has come, and none of its messages is a ping. -/
structure Linked (a b : SocketAddr) (o : Overlay) : Prop where
  routes : ∀ v, o.CountsOn a b v → Settles (wordIn a b v) o.inFlight (a ∈ o.subscribersAt v b)
  pings : ∀ m ∈ o.inFlight, m.source = a → ∀ k vs, m.packet ≠ .nodePacket (.clientPing k vs)

namespace Linked

variable {o o' : Overlay} {e : OverlayEvent} {a b : SocketAddr}

/-- A message that speaks against a video is a stop. -/
theorem stop_of_word (h : Linked a b o) {m : Message} (hm : m ∈ o.inFlight) {v : VideoId}
    (hword : wordIn a b v m = some false) :
    m.source = a ∧ m.target = b ∧ m.packet = .serverPacket (.stopVideo v) := by
  obtain ⟨hsource, htarget, heq⟩ := wordIn_of_ne_none (hword ▸ Option.some_ne_none false)
  rcases Client.wordOf_eq_some_false (heq.symm.trans hword) with hstop | ⟨k, vs, hping⟩
  · exact ⟨hsource, htarget, hstop⟩
  · exact (h.pings m hm hsource k vs hping).elim

/-- A loyal step takes nothing from the node. -/
theorem keeps (h : Linked a b o) (hstep : o.Step e o') (hloyal : o.Loyal e) (ha : o.HasNode a)
    (hb : o.HasNode b) (v : VideoId) : o.Keeps a b v e := by
  cases e with
  | deliver index env view =>
    intro m hm htrue
    obtain ⟨rfl, rfl, hpacket⟩ := wordIn_eq_some_true htrue
    intro m' hm' hfalse
    obtain ⟨hsource, htarget, hstop⟩ := h.stop_of_word (List.mem_of_mem_take hm') hfalse
    exact hloyal m v hm hpacket ha m' hm' hstop ⟨hsource, htarget⟩
  | lose index =>
    intro m hm htrue
    obtain ⟨rfl, rfl, hpacket⟩ := wordIn_eq_some_true htrue
    exact hloyal m v hm hpacket ⟨ha, hb⟩
  | duplicate index =>
    intro m hm hfalse
    obtain ⟨rfl, rfl, hstop⟩ := h.stop_of_word (List.mem_of_getElem? hm) hfalse
    exact hloyal m v hm hstop ⟨ha, hb⟩
  | node addr i => exact fun _ hrem ↦ hloyal v a hrem ha
  | server addr i sendResult =>
    rintro rfl
    obtain ⟨k, hk⟩ := hstep.1
    obtain ⟨t, ht⟩ := hb
    cases hk.symm.trans ht
  | client m => trivial
  | stop addr => trivial

private theorem step (h : Linked a b o) (hstep : o.Step e o') (hloyal : o.Loyal e)
    (ha : o'.HasNode a)
    (hb : o'.HasNode b) : Linked a b o' := by
  constructor
  · intro v hcounts
    have hbefore := hstep.hadNode hb
    refine hstep.settles_route hb.isSome (fun u _ ↦ ?_) (fun _ _ ↦ hbefore.hostedAt) h.routes
      hcounts
    exact h.keeps hstep hloyal (hstep.hadNode ha) hbefore u
  · intro m hm hsource k vs hping
    obtain ⟨t, ht⟩ := ha
    rw [hstep.2, Overlay.inFlight_next] at hm
    rcases List.mem_append.mp hm with hm | hm
    · exact h.pings m (Overlay.mem_of_mem_inFlight_rest hm) hsource k vs hping
    rcases hstep.node_cases ht with ⟨-, hsent⟩ | ⟨s, i, hacts, -⟩
    · exact hsent m hm hsource
    · rw [hacts.sent] at hm
      obtain ⟨x, hx, rfl⟩ := List.mem_map.mp hm
      exact i.not_ping_sent hx hping

end Linked

private theorem Overlay.Started.linked {o : Overlay} (h : o.Started) (a b : SocketAddr) :
    Linked a b o := by
  refine ⟨fun v hcounts ↦ ?_, fun m hm ↦ ?_⟩
  · obtain ⟨s, hs, hroute⟩ := hcounts
    obtain ⟨id, nbs, addr, rfl⟩ := h.node hs
    cases hroute
  · rw [h.1] at hm
    cases hm

/-- In every run of loyal steps, a node that routes a video over another one is a subscriber there
when no message is on its way between the two. -/
theorem run_reciprocal {o₀ o : Overlay} {tr : List (Overlay × OverlayEvent)} (h₀ : o₀.Started)
    (hrun : Run Overlay.Step o₀ tr o) (hloyal : ∀ p ∈ tr, p.1.Loyal p.2) {a b : SocketAddr}
    {s t : Node.State} (hs : o.hosts.lookup a = some (.node s))
    (ht : o.hosts.lookup b = some (.node t))
    (hquiet : ∀ m ∈ o.inFlight, ¬ (m.source = a ∧ m.target = b))
    (v : VideoId) (hroute : s.videoRoutes.lookup v = some b) : a ∈ t.subscribers v := by
  have hlinked : o.HasNode a → o.HasNode b → Linked a b o :=
    hrun.invariant_of_forall (I := fun o ↦ o.HasNode a → o.HasNode b → Linked a b o)
      (P := Overlay.Loyal)
      (fun _ _ _ h hloyal hstep ha hb ↦
        (h (hstep.hadNode ha) (hstep.hadNode hb)).step hstep hloyal ha hb)
      hloyal fun _ _ ↦ h₀.linked a b
  have hsettles := (hlinked ⟨s, hs⟩ ⟨t, ht⟩).routes v ⟨s, hs, hroute⟩
  rw [Overlay.subscribersAt_of_lookup ht] at hsettles
  exact (settles_of_quiet hquiet).mp hsettles

/-- Node 1, which routes the video over node 3, is a subscriber there. -/
theorem run_reciprocal_diamond :
    hostAddr 1 ∈ (diamondServed.2.nodeAt (hostAddr 3) noNode).subscribers 5 := by
  refine run_reciprocal diamond_started (Overlay.run_play _ _) (fun p hp ↦ ?_)
    (Overlay.nodeAt_eq (by decide +kernel) noNode)
    (Overlay.nodeAt_eq (by decide +kernel) noNode) (by decide +kernel) 5 (by decide +kernel)
  obtain ⟨e, he, heq⟩ := Overlay.mem_play hp
  rw [heq]
  -- the oldest message is overtaken by none
  have hdeliver : p.1.Loyal (p.1.settle deliverNext) := fun m v _ _ _ m' hm' ↦ by cases hm'
  simp only [diamondAsk, List.mem_append, List.mem_cons, List.mem_replicate, List.mem_nil_iff,
    or_false] at he
  rcases he with (((rfl | rfl) | ⟨-, rfl⟩) | rfl | rfl) | ⟨-, rfl⟩
  · trivial
  · trivial
  · exact hdeliver
  · trivial
  · exact hdeliver
  · exact hdeliver

end PessiStreamer.System
