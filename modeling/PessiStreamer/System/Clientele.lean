import PessiStreamer.System.Audience
import PessiStreamer.System.Words

/-!
# A source is backed by a subscription

A client is a subscriber of the node that a video of its comes from, or its request is on its way.
What must not happen is that the socket of the client refuses a send, that a request to a source is
lost, that an older stop or ping comes after it, and that a source drops the client of its own
accord. All the rest may be lost, repeated and reordered, and the client may be redirected.
-/

namespace PessiStreamer.System
open Base Common Node

/-- A step that takes no subscription from the client at a node that is the source of the video. -/
def Audience.Loyal (c : SocketAddr) (s : Audience) : AudienceEvent → Prop
  | .network e => ∀ v n, s.client.source v = some n → s.overlay.HasNode n →
      s.overlay.Keeps c n v e
  | .receive _ env _ => env.AllOk
  | .client e => e.env.AllOk

/-- What the client receives tells no host anything. -/
theorem settles_received {o : Overlay} {a b c : SocketAddr} {v : VideoId} {l r : List Message}
    {m : Message} {now : Prop} (habsent : o.hosts.lookup c = none)
    (hflight : o.inFlight = l ++ m :: r) (hm : m.target = c) (hb : (o.hosts.lookup b).isSome)
    (h : Settles (wordIn a b v) o.inFlight now) : Settles (wordIn a b v) (l ++ r) now := by
  have hne : m.target ≠ b := by
    rintro rfl
    rw [hm, habsent] at hb
    cases hb
  rw [hflight] at h
  exact h.lose (by simp [wordIn_of_target hne])

/-- The client is a subscriber of each running node that a video of its comes from, as far as its
last word there has come. -/
structure Supplied (c : SocketAddr) (s : Audience) : Prop where
  absent : s.overlay.hosts.lookup c = none
  sources : ∀ v n, s.client.source v = some n → s.overlay.HasNode n →
    Settles (wordIn c n v) s.overlay.inFlight (c ∈ s.overlay.subscribersAt v n)

namespace Supplied

variable {c : SocketAddr} {s s' : Audience} {e : AudienceEvent}

/-- What the client does. -/
theorem act (h : Supplied c s) {a : Client.Event} (hview : s.client.Reorder a.view)
    (hok : a.env.AllOk) : Supplied c (s.act c a.after) where
  absent := h.absent
  sources := by
    intro v n hsource hn
    have hbefore (u : VideoId) (hu : a.view.source u = some n) :
        Settles (wordIn c n u) s.overlay.inFlight (c ∈ s.overlay.subscribersAt u n) := by
      apply h.sources u n _ hn
      rw [← hu, Client.State.source, Client.State.source, AList.perm_lookup hview.playingVideos]
    exact (settles_outgoing _).mpr (Client.Event.settles_after hok hbefore v hsource)

/-- A step of the network. -/
theorem networkStep (h : Supplied c s) {e : OverlayEvent} {o : Overlay}
    (hstep : s.overlay.Step e o) (hforeign : s.Foreign c e) (hloyal : s.Loyal c (.network e)) :
    Supplied c { s with overlay := o } where
  absent := hstep.absent h.absent
  sources := by
    intro v n hsource hn
    have hbefore := hstep.hadNode hn
    refine hstep.settles (hloyal v n hsource hbefore) hn.isSome hbefore.hostedAt (fun m hm ↦ ?_)
      (h.sources v n hsource hbefore)
    -- nobody else speaks for the client
    rw [wordIn_of_source]
    · simp
    · rintro rfl
      rcases hstep.sender hm with ⟨k, hk⟩ | rfl
      · cases h.absent.symm.trans hk
      · exact hforeign.1 rfl

/-- A message leaves for the client. -/
theorem received (h : Supplied c s) {l r : List Message} {m : Message}
    (hflight : s.overlay.inFlight = l ++ m :: r) (hm : m.target = c) :
    Supplied c { s with overlay := { s.overlay with inFlight := l ++ r } } where
  absent := h.absent
  sources := by
    intro v n hsource hn
    refine settles_received h.absent hflight hm ?_ (h.sources v n hsource hn)
    exact hn.isSome

private theorem step (h : Supplied c s) (hstep : s.Step c e s') (hloyal : s.Loyal c e) :
    Supplied c s' := by
  obtain ⟨henabled, rfl⟩ := hstep
  cases e with
  | network e => exact h.networkStep ⟨henabled.1, rfl⟩ henabled.2 hloyal
  | receive index env view =>
    obtain ⟨⟨m, hm, hc⟩, hview⟩ := henabled
    obtain ⟨l, r, hlr, rfl, herase⟩ := Overlay.split_inFlight hm
    simp only [Audience.next, hm, herase]
    have hrest := h.received hlr hc
    exact hrest.act (a := ⟨.packet m.packet m.source, env, view⟩) hview hloyal
  | client e => exact h.act henabled.2 hloyal

end Supplied

/-- In every run of loyal steps the client is a subscriber of each running node that a video of its
comes from, when no message of the client is on its way there. -/
theorem sources_supplied {c : SocketAddr} {o₀ : Overlay} {servers : List IpAddr}
    {tr : List (Audience × AudienceEvent)} {s : Audience} (habsent : o₀.hosts.lookup c = none)
    (hrun : Run (Audience.Step c) ⟨o₀, .new servers⟩ tr s) (hloyal : ∀ p ∈ tr, p.1.Loyal c p.2)
    {v : VideoId} {n : SocketAddr} {t : Node.State} (hsource : s.client.source v = some n)
    (hn : s.overlay.hosts.lookup n = some (.node t))
    (hquiet : ∀ m ∈ s.overlay.inFlight, ¬ (m.source = c ∧ m.target = n)) :
    c ∈ t.subscribers v := by
  have hstart : Supplied c ⟨o₀, .new servers⟩ := ⟨habsent, fun v n hsource ↦ by cases hsource⟩
  have hsupplied : Supplied c s := hrun.invariant_of_forall (P := Audience.Loyal c)
    (fun _ _ _ h hloyal hstep ↦ h.step hstep hloyal) hloyal hstart
  have hsettles := hsupplied.sources v n hsource ⟨t, hn⟩
  rw [Overlay.subscribersAt_of_lookup hn] at hsettles
  exact (settles_of_quiet hquiet).mp hsettles

/-- What happens is the event with the orders of the maps settled. -/
theorem Audience.settle_of_next? {c : SocketAddr} {s t : Audience} {e e' : AudienceEvent}
    (h : s.next? c e = some (e', t)) : e' = s.settle e := by
  unfold next? at h
  split at h
  · exact (Prod.mk.inj (Option.some.inj h)).1.symm
  · cases h

/-- Messages that arrive one after the other, servers that act and sends of the client that succeed
take no subscription. -/
theorem Audience.loyal_play {c : SocketAddr} {s : Audience} {es : List AudienceEvent}
    (hes : ∀ e ∈ es, e = .network deliverNext ∨
      (∃ a k sendResult, e = .network (.server a k sendResult)) ∨
      (∃ i t view, e = .receive i (Client.calmEnv t) view) ∨
      ∃ input t view, e = .client ⟨input, Client.calmEnv t, view⟩) :
    ∀ p ∈ (Run.play (next? c) s es).1, p.1.Loyal c p.2 := by
  rintro ⟨s', e'⟩ hp
  obtain ⟨e, he, t, hnext⟩ := Run.mem_play hp
  obtain rfl : e' = s'.settle e := settle_of_next? hnext
  rcases hes e he with rfl | ⟨a, k, sendResult, rfl⟩ | ⟨i, t, view, rfl⟩ | ⟨input, t, view, rfl⟩
  · -- the oldest message is overtaken by none
    rintro v n - - m hm hfor m' hm'
    cases hm'
  · rintro v n - ⟨t, ht⟩ rfl
    obtain ⟨⟨s₀, hs₀⟩, -⟩ := (Audience.step_of_next? c hnext).1
    cases hs₀.symm.trans ht
  · exact fun _ ↦ rfl
  · exact fun _ ↦ rfl

/-- The client of the triangle starts to play the video that the second node offers, and its request
gets there. -/
def askedInTriangle : List (Audience × AudienceEvent) × Audience :=
  Run.play (Audience.next? (hostAddr 7)) ⟨triangle, .new [.v4 2]⟩
    ([.network (.server (hostAddr 9) (.addVideo 5 "film") fun _ ↦ .ok ()),
      .network (.server (hostAddr 9) (.flood 0) fun _ ↦ .ok ())] ++
    List.replicate 4 (.network deliverNext) ++
    [.client ⟨.pingNodes, Client.calmEnv 0, .new []⟩, .network deliverNext,
      .receive 0 (Client.calmEnv 3) (.new []),
      .client ⟨.uiStartPlaying 5, Client.calmEnv 4, .new []⟩, .network deliverNext])

/-- The client is a subscriber of the second node. -/
theorem sources_supplied_triangle :
    hostAddr 7 ∈ (askedInTriangle.2.overlay.nodeAt (hostAddr 2) noNode).subscribers 5 := by
  have hrun : Run (Audience.Step (hostAddr 7)) ⟨triangle, .new [.v4 2]⟩ askedInTriangle.1
      askedInTriangle.2 := by
    apply Run.run_play
    exact fun _ _ _ _ ↦ Audience.step_of_next? _
  have hloyal : ∀ p ∈ askedInTriangle.1, p.1.Loyal (hostAddr 7) p.2 := by
    apply Audience.loyal_play
    simp
  have hsource : askedInTriangle.2.client.source 5 = some (hostAddr 2) := by decide +kernel
  have hnode : askedInTriangle.2.overlay.hosts.lookup (hostAddr 2) =
      some (.node (askedInTriangle.2.overlay.nodeAt (hostAddr 2) noNode)) :=
    Overlay.nodeAt_eq (by decide +kernel) noNode
  exact sources_supplied (by decide) hrun hloyal hsource hnode (by decide +kernel)

end PessiStreamer.System
