import PessiStreamer.System.Arrival
import PessiStreamer.System.RoundTrips

/-!
# The client as seen from the network

To servers and nodes the client is someone who is no host: what it receives leaves the network, and
what it sends comes from outside. So each run of the network and the client is one of the network,
and what holds of these holds of the network with the client.
-/

namespace PessiStreamer.System
open Base Common Node

/-- Messages are sent from outside, one after the other. -/
def sends (o : Overlay) : List Message → List (Overlay × OverlayEvent)
  | [] => []
  | m :: ms => (o, .client m) :: sends { o with inFlight := o.inFlight ++ [m] } ms

/-- The steps of the network in a step of the network and the client. -/
def overlayStep (c : SocketAddr) (p : Audience × AudienceEvent) : List (Overlay × OverlayEvent) :=
  let o := p.1.overlay
  match p.2 with
  | .network e => [(o, e)]
  | .receive index env view =>
    match o.inFlight[index]? with
    | some m =>
      let e : Client.Event := ⟨.packet m.packet m.source, env, view⟩
      (o, .deliver index (.calm 0) noNode) ::
        sends { o with inFlight := o.inFlight.eraseIdx index } (outgoing c e.after.sent)
    | none => []
  | .client e => sends o (outgoing c e.after.sent)

/-- The steps of the network in a run of the network and the client. -/
def overlaySteps (c : SocketAddr) (tr : List (Audience × AudienceEvent)) :
    List (Overlay × OverlayEvent) := tr.flatMap (overlayStep c)

section Runs

variable {c : SocketAddr} {o : Overlay} {s₀ s s' : Audience} {e : AudienceEvent}
  {tr tr' : List (Audience × AudienceEvent)}

/-- The steps of two runs. -/
theorem overlaySteps_append (tr tr' : List (Audience × AudienceEvent)) :
    overlaySteps c (tr ++ tr') = overlaySteps c tr ++ overlaySteps c tr' := List.flatMap_append

private theorem run_sends (habsent : o.hosts.lookup c = none) (sent : List (SocketAddr × Packet)) :
    Run Overlay.Step o (sends o (outgoing c sent))
      { o with inFlight := o.inFlight ++ outgoing c sent } := by
  induction sent generalizing o with
  | nil =>
    simp only [outgoing, List.map_nil, List.append_nil]
    exact .refl o
  | cons x sent ih =>
    have hrest := ih (o := { o with inFlight := o.inFlight ++ [⟨c, x.1, x.2⟩] }) habsent
    rw [List.append_assoc] at hrest
    exact Run.head ⟨habsent, rfl⟩ hrest

private theorem Audience.Step.run_overlayStep (hstep : s.Step c e s')
    (habsent : s.overlay.hosts.lookup c = none) :
    Run Overlay.Step s.overlay (overlayStep c (s, e)) s'.overlay := by
  obtain ⟨henabled, rfl⟩ := hstep
  cases e with
  | network e => exact .single ⟨henabled.1, rfl⟩
  | receive index env view =>
    obtain ⟨⟨m, hm, rfl⟩, -⟩ := henabled
    have hdeliver : s.overlay.Step (.deliver index (.calm 0) noNode)
        { s.overlay with inFlight := s.overlay.inFlight.eraseIdx index } := by
      refine ⟨⟨m, hm, fun t ht ↦ ?_⟩, ?_⟩
      · cases habsent.symm.trans ht
      · simp only [Overlay.next, hm, Overlay.receive, habsent]
    simp only [overlayStep, Audience.next, hm]
    refine Run.head hdeliver (run_sends ?_ _)
    exact habsent
  | client e => exact run_sends habsent _

/-- Each run of the network and the client is one of the network. -/
theorem run_overlaySteps (hrun : Run (Audience.Step c) s₀ tr s)
    (habsent : s₀.overlay.hosts.lookup c = none) :
    Run Overlay.Step s₀.overlay (overlaySteps c tr) s.overlay ∧
      s.overlay.hosts.lookup c = none := by
  induction hrun with
  | refl => exact ⟨.refl _, habsent⟩
  | @tail s s' tr e _ he ih =>
    have hstep := he.run_overlayStep ih.2
    refine ⟨?_, ?_⟩
    · rw [overlaySteps_append]
      simpa [overlaySteps] using ih.1.trans hstep
    · exact hstep.invariant (I := fun o ↦ o.hosts.lookup c = none)
        (fun _ _ _ hc he ↦ he.absent hc) ih.2

/-- What holds of the steps of the network in each step of a run holds of all of them. -/
theorem forall_overlaySteps {P : Overlay × OverlayEvent → Prop}
    (hrun : Run (Audience.Step c) s₀ tr s) (habsent : s₀.overlay.hosts.lookup c = none)
    (hP : ∀ p ∈ tr, p.1.overlay.hosts.lookup c = none → p.1.Enabled c p.2 →
      ∀ q ∈ overlayStep c p, P q) : ∀ q ∈ overlaySteps c tr, P q := by
  intro q hq
  obtain ⟨p, hp, hstep⟩ := List.mem_flatMap.mp hq
  obtain ⟨l, rest, rfl, hl, -⟩ := hrun.exists_split hp
  obtain ⟨-, t, he, -⟩ := hrun.split
  exact hP p hp (run_overlaySteps hl habsent).2 he.1 q hstep

end Runs
end PessiStreamer.System
