import PessiStreamer.Node.Service
import PessiStreamer.System.Arrival
import PessiStreamer.System.Clientele
import PessiStreamer.System.Inventory
import PessiStreamer.System.Loops

/-!
# Whoever watches is fed

In a run in which sends succeed and nobody loses a subscription that they count on, the routes of a
video and its subscriptions come to agree: when no request and no stop is on its way along the route
from the source of the client, the packets of the video go to the client from a server. Only a
circle of routes, a node that waits for an offer of the video or a host that has stopped can cut the
way off.
-/

namespace PessiStreamer.System
open Base Common Node Relation

/-- A step that takes no subscription at a running host from the client and the nodes that count on
them, in which all sends of nodes succeed. -/
def Audience.Sound (c : SocketAddr) (s : Audience) : AudienceEvent → Prop
  | .network e => s.Loyal c (.network e) ∧ (∀ env ∈ e.env?, env.AllOk) ∧
      ∀ a b v, s.overlay.CountsOn a b v → (s.overlay.hosts.lookup b).isSome →
        s.overlay.Keeps a b v e
  | .receive index env view => s.Loyal c (.receive index env view)
  | .client e => s.Loyal c (.client e)

/-- The node at the address waits for an offer of the video, or routes it over a host that has
stopped. -/
def Overlay.stuck (o : Overlay) (v : VideoId) (a : SocketAddr) : Bool :=
  match o.hosts.lookup a with
  | some (.node t) => decide (v ∈ t.pendingVideoRequests) ||
      (t.videoRoutes.lookup v).any fun b ↦ (o.hosts.lookup b).isNone
  | _ => false

private theorem Overlay.of_not_stuck {o : Overlay} {v : VideoId} {a : SocketAddr} {t : Node.State}
    (h : ¬ o.stuck v a) (ht : o.hosts.lookup a = some (.node t)) :
    v ∉ t.pendingVideoRequests ∧
      ∀ b, t.videoRoutes.lookup v = some b → (o.hosts.lookup b).isSome := by
  simp only [stuck, ht, Bool.or_eq_true, decide_eq_true_eq, not_or] at h
  refine ⟨h.1, fun b hb ↦ ?_⟩
  simpa [hb, Option.isSome_iff_ne_none] using h.2

/-- No request and no stop of the video is on its way to where the node, or one further on the route
from there, routes it. -/
def Overlay.QuietFrom (o : Overlay) (v : VideoId) (n : SocketAddr) : Prop :=
  ∀ a b, ReflTransGen (o.RoutesOver v) n a → o.CountsOn a b v →
    ∀ m ∈ o.inFlight, wordIn a b v m = none

namespace Overlay.QuietFrom

variable {o : Overlay} {v : VideoId} {n a b : SocketAddr}

private theorem tail (h : o.QuietFrom v n) (hna : o.RoutesOver v n a) : o.QuietFrom v a :=
  fun b d hab hcounts ↦ h b d (hab.head hna) hcounts

private theorem settled (h : o.QuietFrom v n) (hna : ReflTransGen (o.RoutesOver v) n a)
    (hcounts : o.CountsOn a b v)
    (hsettles : Settles (wordIn a b v) o.inFlight (a ∈ o.subscribersAt v b)) :
    a ∈ o.subscribersAt v b :=
  (Settles.iff_of_none (h a b hna hcounts)).mp hsettles

end Overlay.QuietFrom

/-- What sound steps keep. -/
structure Provided (c : SocketAddr) (s : Audience) : Prop where
  client : Supplied c s
  routes : ∀ a b v, s.overlay.CountsOn a b v → (s.overlay.hosts.lookup b).isSome →
    Settles (wordIn a b v) s.overlay.inFlight (a ∈ s.overlay.subscribersAt v b)
  nodes : ∀ a t, s.overlay.hosts.lookup a = some (.node t) → ServiceInvariant t
  inventory : s.overlay.Inventory

namespace Provided

variable {c : SocketAddr} {s s' : Audience} {e : AudienceEvent}

/-- What the client does. -/
theorem act (h : Provided c s) {a : Client.Event} (hview : s.client.Reorder a.view)
    (hok : a.env.AllOk) : Provided c (s.act c a.after) where
  client := h.client.act hview hok
  routes := by
    intro x b v hcounts hb
    have hxc : c ≠ x := by
      rintro rfl
      obtain ⟨t, ht, -⟩ := hcounts
      cases h.client.absent.symm.trans ht
    exact (settles_of_others hxc _).mpr (h.routes x b v hcounts hb)
  nodes := h.nodes
  inventory := by
    apply h.inventory.exchange
    intro m hm
    rcases List.mem_append.mp hm with hm | hm
    · exact .inl hm
    · obtain ⟨x, -, rfl⟩ := List.mem_map.mp hm
      exact .inr h.client.absent

private theorem networkStep (h : Provided c s) {e : OverlayEvent} {o : Overlay}
    (hstep : s.overlay.Step e o) (hforeign : s.Foreign c e) (hsound : s.Sound c (.network e)) :
    Provided c { s with overlay := o } := by
  obtain ⟨hloyal, hok, hkeeps⟩ := hsound
  refine ⟨h.client.networkStep hstep hforeign hloyal, fun a b v hcounts hb ↦ ?_,
    fun a t ht ↦ ?_, h.inventory.step hstep⟩
  · have hbefore : (s.overlay.hosts.lookup b).isSome := by
      obtain ⟨k, hk⟩ := Option.isSome_iff_exists.mp hb
      obtain ⟨k₀, hk₀, -⟩ := hstep.kind hk
      simp [hk₀]
    exact hstep.settles_route hb (fun u hu ↦ hkeeps a b u hu hbefore)
      (fun _ ↦ h.inventory.hostedAt) (fun u hu ↦ h.routes a b u hu hbefore) hcounts
  · rcases hstep.node_cases ht with ⟨hs, -⟩ | ⟨t₀, i, hacts, rfl⟩
    · exact h.nodes a t hs
    · exact Node.Step.serves ⟨hacts.view, rfl⟩ (hok _ hacts.env) (h.nodes a t₀ hacts.host)

/-- A message leaves for the client. -/
theorem received (h : Provided c s) {l r : List Message} {m : Message}
    (hflight : s.overlay.inFlight = l ++ m :: r) (hm : m.target = c) :
    Provided c { s with overlay := { s.overlay with inFlight := l ++ r } } where
  client := h.client.received hflight hm
  routes a b v hcounts hb :=
    settles_received h.client.absent hflight hm hb (h.routes a b v hcounts hb)
  nodes := h.nodes
  inventory := h.inventory.exchange fun _ hm' ↦ .inl (Overlay.mem_of_mem_rest hflight hm')

private theorem step (h : Provided c s) (hstep : s.Step c e s') (hsound : s.Sound c e) :
    Provided c s' := by
  obtain ⟨henabled, rfl⟩ := hstep
  cases e with
  | network e => exact h.networkStep ⟨henabled.1, rfl⟩ henabled.2 hsound
  | receive index env view =>
    obtain ⟨⟨m, hm, hc⟩, hview⟩ := henabled
    obtain ⟨l, r, hlr, rfl, herase⟩ := Overlay.split_inFlight hm
    simp only [Audience.next, hm, herase]
    have hrest := h.received hlr hc
    exact hrest.act (a := ⟨.packet m.packet m.source, env, view⟩) hview hsound
  | client e => exact h.act henabled.2 hsound

/-- With no request and no stop on its way along a route, the packets that come to its end come to
its start. -/
theorem reached_of_route (h : Provided c s) {v : VideoId} {n x r : SocketAddr}
    (hquiet : s.overlay.QuietFrom v n) (hserver : ¬ s.overlay.HasNode r)
    (hpath : ReflTransGen (s.overlay.RoutesOver v) n x) (hx : s.overlay.Reached v r x) :
    s.overlay.Reached v r n := by
  induction hpath using ReflTransGen.head_induction_on with
  | refl => exact hx
  | @head y z hyz _ ih =>
    have hreached := ih (hquiet.tail hyz)
    obtain ⟨⟨t, ht, hroute⟩, hz⟩ := hyz
    have hcounts : s.overlay.CountsOn y z v := ⟨t, ht, hroute⟩
    refine hreached.tail ⟨?_, ?_, .inr hz⟩
    · exact hquiet.settled .refl hcounts (h.routes y z v hcounts hz.isSome)
    · rintro rfl
      exact hserver ⟨t, ht⟩

end Provided

/-- The nodes have just started, and so has the client. -/
theorem provided_new {c : SocketAddr} {o : Overlay} (htrue : o.Truthful)
    (hnodes : ∀ a t, o.hosts.lookup a = some (.node t) →
      ∃ id neighbours localAddr, t = .new id neighbours localAddr)
    (habsent : o.hosts.lookup c = none) (servers : List IpAddr) :
    Provided c ⟨o, .new servers⟩ := by
  refine ⟨⟨habsent, fun v n hsource ↦ by cases hsource⟩, fun a b v hcounts _ ↦ ?_,
    fun a t ht ↦ ?_, htrue.inventory hnodes⟩
  · obtain ⟨s, hs, hroute⟩ := hcounts
    obtain ⟨id, neighbours, localAddr, rfl⟩ := hnodes a s hs
    cases hroute
  · obtain ⟨id, neighbours, localAddr, rfl⟩ := hnodes a t ht
    exact serviceInvariant_new id neighbours localAddr

/-- In every run of sound steps, when no request and no stop of a video is on its way from the
client to the source or along the route from there, its packets go from a server to the client that
plays it, if the routes neither form a circle nor lead to a host that has stopped and no node on the
way waits for an offer of it. -/
theorem watched_fed {c : SocketAddr} {o₀ : Overlay} {servers : List IpAddr}
    {tr : List (Audience × AudienceEvent)} {s : Audience}
    (hnodes : ∀ a t, o₀.hosts.lookup a = some (.node t) →
      ∃ id neighbours localAddr, t = .new id neighbours localAddr)
    (htrue : o₀.Truthful) (habsent : o₀.hosts.lookup c = none)
    (hrun : Run (Audience.Step c) ⟨o₀, .new servers⟩ tr s) (hsound : ∀ p ∈ tr, p.1.Sound c p.2)
    {v : VideoId} {n : SocketAddr} (hsource : s.client.source v = some n)
    (hn : s.overlay.HasNode n) (hclient : ∀ m ∈ s.overlay.inFlight, wordIn c n v m = none)
    (hquiet : s.overlay.QuietFrom v n) (hacyclic : Acyclic (s.overlay.RoutesOver v))
    (hway : ∀ a, ReflTransGen (s.overlay.RoutesOver v) n a → ¬ s.overlay.stuck v a) :
    ∃ r k, s.overlay.hosts.lookup r = some (.server k) ∧ s.overlay.Reached v r c := by
  have h : Provided c s := hrun.invariant_of_forall (P := Audience.Sound c)
    (fun _ _ _ h hsound hstep ↦ h.step hstep hsound) hsound
    (provided_new htrue hnodes habsent servers)
  have hsubscriber : c ∈ s.overlay.subscribersAt v n :=
    (Settles.iff_of_none hclient).mp (h.client.sources v n hsource hn)
  -- the last node on the way has a subscriber, so it routes the video over a server
  obtain ⟨x, hpath, hend⟩ := hacyclic.exists_end (s.overlay.finite_routesOver v) n
  obtain ⟨⟨t, ht⟩, hsubscribed⟩ :
      s.overlay.HasNode x ∧ s.overlay.subscribersAt v x ≠ [] := by
    rcases hpath.cases_tail with rfl | ⟨y, hy, ⟨u, hu, hroute⟩, hx⟩
    · exact ⟨hn, List.ne_nil_of_mem hsubscriber⟩
    · have hcounts : s.overlay.CountsOn y x v := ⟨u, hu, hroute⟩
      have hmem : y ∈ s.overlay.subscribersAt v x :=
        hquiet.settled hy hcounts (h.routes y x v hcounts hx.isSome)
      exact ⟨hx, List.ne_nil_of_mem hmem⟩
  rw [Overlay.subscribersAt_of_lookup ht] at hsubscribed
  obtain ⟨hserved, hup⟩ := Overlay.of_not_stuck (hway x hpath) ht
  obtain ⟨r, hroute, -⟩ : ∃ r, t.videoRoutes.lookup v = some r ∧ t.IsActive r := by
    rcases (h.nodes x t ht v).subscribed hsubscribed with hqueued | hrouted
    · exact (hserved hqueued).elim
    · exact hrouted
  have hr := hup r hroute
  have hserver : ¬ s.overlay.HasNode r := fun hnode ↦ hend r ⟨⟨t, ht, hroute⟩, hnode⟩
  obtain ⟨k, hk⟩ : ∃ k, s.overlay.hosts.lookup r = some (.server k) := by
    obtain ⟨host, hhost⟩ := Option.isSome_iff_exists.mp hr
    cases host with
    | server k => exact ⟨k, hhost⟩
    | node u => exact (hserver ⟨u, hhost⟩).elim
  -- its packets come to that node, from there to the source, and to the client
  have hx : s.overlay.Reached v r x := by
    have hcounts : s.overlay.CountsOn x r v := ⟨t, ht, hroute⟩
    refine .single ⟨?_, ?_, .inl rfl⟩
    · exact hquiet.settled hpath hcounts (h.routes x r v hcounts hr)
    · rintro rfl
      exact hserver ⟨t, ht⟩
  refine ⟨r, k, hk, (h.reached_of_route hquiet hserver hpath hx).tail ⟨hsubscriber, ?_, .inr hn⟩⟩
  rintro rfl
  cases h.client.absent.symm.trans hk

/-- Floods of servers, messages that arrive one after the other and sends of the client that succeed
are sound. -/
theorem Audience.sound_play {c : SocketAddr} {s : Audience} {es : List AudienceEvent}
    (hes : ∀ e ∈ es, e = .network deliverNext ∨
      (∃ a t sendResult, e = .network (.server a (.flood t) sendResult)) ∨
      (∃ i t view, e = .receive i (Client.calmEnv t) view) ∨
      ∃ input t view, e = .client ⟨input, Client.calmEnv t, view⟩) :
    ∀ p ∈ (Run.play (next? c) s es).1, p.1.Sound c p.2 := by
  have hloyal : ∀ p ∈ (Run.play (next? c) s es).1, p.1.Loyal c p.2 := by
    apply loyal_play
    intro e he
    rcases hes e he with rfl | ⟨a, t, sendResult, rfl⟩ | h
    · exact .inl rfl
    · exact .inr (.inl ⟨a, .flood t, sendResult, rfl⟩)
    · exact .inr (.inr h)
  rintro ⟨s', e'⟩ hp
  have hloyal := hloyal _ hp
  obtain ⟨e, he, t, hnext⟩ := Run.mem_play hp
  obtain rfl : e' = s'.settle e := settle_of_next? hnext
  rcases hes e he with rfl | ⟨a, t, sendResult, rfl⟩ | ⟨i, t, view, rfl⟩ | ⟨input, t, view, rfl⟩
  · refine ⟨hloyal, fun env henv ↦ ?_, fun a b v _ _ m hm hfor m' hm' ↦ ?_⟩
    · obtain rfl : Env.calm 0 = env := Option.some.inj henv
      exact Env.calm_allOk 0
    · cases hm'
  · refine ⟨hloyal, ?_, ?_⟩
    · rintro env henv
      cases henv
    · intro a' b v _ _ _ name hname
      cases hname
  · exact hloyal
  · exact hloyal

/-- The client of the chain gets the answer of the second node, starts to play the video, and the
requests arrive one after the other. -/
def playedOverChain : List (Audience × AudienceEvent) × Audience :=
  Run.play (Audience.next? (hostAddr 7)) ⟨chain, .new [.v4 2]⟩
    ([.network (.server (hostAddr 9) (.flood 0) fun _ ↦ .ok ())] ++
    List.replicate 3 (.network deliverNext) ++
    [.client ⟨.pingNodes, Client.calmEnv 0, .new []⟩, .network deliverNext,
      .receive 0 (Client.calmEnv 3) (.new []),
      .client ⟨.uiStartPlaying 5, Client.calmEnv 4, .new []⟩] ++
    List.replicate 3 (.network deliverNext))

/-- The packets of a server come to the client at the end of the chain. -/
theorem watched_fed_chain : ∃ r k, playedOverChain.2.overlay.hosts.lookup r = some (.server k) ∧
    playedOverChain.2.overlay.Reached 5 r (hostAddr 7) := by
  have hrun : Run (Audience.Step (hostAddr 7)) ⟨chain, .new [.v4 2]⟩ playedOverChain.1
      playedOverChain.2 := by
    apply Run.run_play
    exact fun _ _ _ _ ↦ Audience.step_of_next? _
  have hsound : ∀ p ∈ playedOverChain.1, p.1.Sound (hostAddr 7) p.2 := by
    apply Audience.sound_play
    simp
  have hnodes : ∀ a k, chain.hosts.lookup a = some k → ∀ t, k = .node t →
      ∃ id neighbours localAddr, t = .new id neighbours localAddr := by
    apply Overlay.forall_hosts
    have hentries : chain.hosts.entries =
        [⟨hostAddr 9, .server ((Server.State.new 9 [hostAddr 1]).addVideo 5 "")⟩,
          ⟨hostAddr 1, .node (.new 1 [.v4 2] (hostAddr 1))⟩,
          ⟨hostAddr 2, .node (.new 2 [.v4 1] (hostAddr 2))⟩] := rfl
    simp only [hentries, List.forall_mem_cons]
    refine ⟨fun t ht ↦ ?_, fun t ht ↦ ⟨_, _, _, (Host.node.inj ht).symm⟩,
      fun t ht ↦ ⟨_, _, _, (Host.node.inj ht).symm⟩, List.forall_mem_nil _⟩
    cases ht
  -- the second node routes the video over the first one, and that one over the server
  have hroutes : ∀ a k, playedOverChain.2.overlay.hosts.lookup a = some k →
      ¬ playedOverChain.2.overlay.stuck 5 a ∧
        (playedOverChain.2.overlay.upstream 5 a = none ∨ a = hostAddr 2 ∧
          playedOverChain.2.overlay.upstream 5 a = some (hostAddr 1)) :=
    Overlay.forall_hosts (by decide +kernel)
  have hroute {a b : SocketAddr} (hab : playedOverChain.2.overlay.RoutesOver 5 a b) :
      a = hostAddr 2 ∧ b = hostAddr 1 := by
    obtain ⟨t, ht, -⟩ := hab.1
    rw [Overlay.routesOver_iff] at hab
    rcases (hroutes a _ ht).2 with hnone | ⟨ha, hsome⟩
    · cases hnone.symm.trans hab
    · exact ⟨ha, Option.some.inj (hab.symm.trans hsome)⟩
  have hacyclic : Acyclic (playedOverChain.2.overlay.RoutesOver 5) := by
    intro a haa
    obtain ⟨b, hab, -⟩ := TransGen.head'_iff.mp haa
    obtain ⟨b', -, hba⟩ := TransGen.tail'_iff.mp haa
    cases (hroute hab).1.symm.trans (hroute hba).2
  have hway (a : SocketAddr) : ¬ playedOverChain.2.overlay.stuck 5 a := by
    intro hstuck
    cases ha : playedOverChain.2.overlay.hosts.lookup a with
    | none => simp [Overlay.stuck, ha] at hstuck
    | some k => exact (hroutes a k ha).1 hstuck
  have htrue : chain.Truthful := by
    intro m hm
    cases hm
  have hsilent : ∀ m ∈ playedOverChain.2.overlay.inFlight, Client.wordOf 5 m.packet = none := by
    decide +kernel
  exact watched_fed (fun a t ht ↦ hnodes a _ ht t rfl) htrue (by decide) hrun hsound
    (n := hostAddr 2) (by decide +kernel) ⟨_, Overlay.nodeAt_eq (by decide +kernel) noNode⟩
    (fun m hm ↦ wordIn_of_silent (hsilent m hm))
    (fun _ _ _ _ m hm ↦ wordIn_of_silent (hsilent m hm)) hacyclic fun a _ ↦ hway a

end PessiStreamer.System
