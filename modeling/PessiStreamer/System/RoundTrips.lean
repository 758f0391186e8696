import PessiStreamer.Client.Pings
import PessiStreamer.System.Audience

/-!
# Pings and answers over the network

A client takes an answer by its number alone, whichever node it comes from. But an answer with a
number comes only from the node that was sent the ping with this number, so over any network the
round-trip times of a node are those of its own pings.
-/

namespace PessiStreamer.System
open Base Common

/-- The event of the client that a step is. -/
def clientStep (p : Audience × AudienceEvent) : Option (Client.State × Client.Event) :=
  match p.2 with
  | .network _ => none
  | .receive index env view => (p.1.overlay.inFlight[index]?).map fun m ↦
      (p.1.client, ⟨.packet m.packet m.source, env, view⟩)
  | .client e => some (p.1.client, e)

/-- The steps of the client in a run. -/
def clientSteps (tr : List (Audience × AudienceEvent)) : List (Client.State × Client.Event) :=
  tr.filterMap clientStep

section Histories

variable {c : SocketAddr} {tr tr' : List (Audience × AudienceEvent)} {s₀ s : Audience}

/-- The steps of the client in two runs. -/
theorem clientSteps_append (tr tr' : List (Audience × AudienceEvent)) :
    clientSteps (tr ++ tr') = clientSteps tr ++ clientSteps tr' := List.filterMap_append

/-- The client runs on its own. -/
theorem run_clientSteps (hrun : Run (Audience.Step c) s₀ tr s) :
    Run Client.Step s₀.client (clientSteps tr) s.client := by
  induction hrun with
  | refl => exact .refl _
  | @tail s t tr e _ he ih =>
    obtain ⟨henabled, rfl⟩ := he
    rw [clientSteps_append]
    cases e with
    | network e =>
      have hnone : clientSteps [(s, .network e)] = [] := rfl
      rw [hnone, List.append_nil]
      exact ih
    | receive index env view =>
      obtain ⟨⟨m, hm, -⟩, hview⟩ := henabled
      have hstep : clientSteps [(s, .receive index env view)] =
          [(s.client, ⟨.packet m.packet m.source, env, view⟩)] := by
        simp [clientSteps, clientStep, hm]
      rw [hstep]
      simp only [Audience.next, hm]
      exact ih.tail ⟨hview, rfl⟩
    | client e => exact ih.tail ⟨henabled.2, rfl⟩

end Histories

/-- What holds of the messages in every state of every run: the pings of the client in flight are
on their way to the nodes it asked, and the answers on their way from these. -/
structure Corresponds (c : SocketAddr) (tr : List (Audience × AudienceEvent)) (s : Audience) :
    Prop where
  absent : s.overlay.hosts.lookup c = none
  pings : ∀ m ∈ s.overlay.inFlight, m.source = c → ∀ n vs,
    m.packet = .nodePacket (.clientPing n vs) →
      ∃ t, (n, m.target, t) ∈ Client.askedIn (clientSteps tr)
  answers : ∀ m ∈ s.overlay.inFlight, m.target = c → ∀ p,
    m.packet = .clientPacket (.videoList p) →
      ∃ t, (p.sequenceNumber, m.source, t) ∈ Client.askedIn (clientSteps tr)

namespace Corresponds

variable {c : SocketAddr} {tr : List (Audience × AudienceEvent)} {s s' : Audience}
  {e : AudienceEvent}

private theorem append (h : Corresponds c tr s) (tr' : List (Audience × AudienceEvent)) :
    Corresponds c (tr ++ tr') s := by
  have hmono {x : UInt64 × SocketAddr × SystemTime} (hx : x ∈ Client.askedIn (clientSteps tr)) :
      x ∈ Client.askedIn (clientSteps (tr ++ tr')) := by
    rw [clientSteps_append, Client.askedIn, List.flatMap_append]
    exact List.mem_append_left _ hx
  refine ⟨h.absent, fun m hm hc n vs hp ↦ ?_, fun m hm hc p hp ↦ ?_⟩
  · obtain ⟨t, ht⟩ := h.pings m hm hc n vs hp
    exact ⟨t, hmono ht⟩
  · obtain ⟨t, ht⟩ := h.answers m hm hc p hp
    exact ⟨t, hmono ht⟩

/-- The node that gets a ping answers it. -/
theorem networkStep (h : Corresponds c tr s) {e : OverlayEvent} {o' : Overlay}
    (hstep : s.overlay.Step e o')
    (hforeign : s.Foreign c e) :
    Corresponds c tr { s with overlay := o' } := by
  refine ⟨?_, fun m hm hc n vs hp ↦ ?_, fun m hm hc p hp ↦ ?_⟩
  · exact hstep.absent h.absent
  · cases hstep.origin hm with
    | before hm => exact h.pings m hm hc n vs hp
    | node hs => cases h.absent.symm.trans (hc ▸ hs)
    | server _ _ hsent => simpa [hp] using Server.Event.sent_cases hsent
    | client heq =>
      rw [heq] at hforeign
      exact (hforeign.1 hc).elim
  · cases hstep.origin hm with
    | before hm => exact h.answers m hm hc p hp
    | node hs _ hflight hsent _ =>
      rw [hp] at hsent
      obtain ⟨n, requested, hin, rfl⟩ := Node.Event.answer_of_sent hsent
      exact h.pings _ (hflight _ _ hin) hc n requested rfl
    | server _ _ hsent => simpa [hp] using Server.Event.sent_cases hsent
    | client heq =>
      rw [heq] at hforeign
      have hsends := hforeign.2
      rw [hp] at hsends
      cases hsends

/-- A message leaves the network. -/
theorem drop (h : Corresponds c tr s) {l : List Message}
    (hl : ∀ m ∈ l, m ∈ s.overlay.inFlight) :
    Corresponds c tr { s with overlay := { s.overlay with inFlight := l } } where
  absent := h.absent
  pings m hm := h.pings m (hl m hm)
  answers m hm := h.answers m (hl m hm)

/-- The client handles an event, and what it sends is on record. -/
theorem act (h : Corresponds c tr s) {e : Client.Event}
    (hasks : ∀ x ∈ e.asks, x ∈ Client.askedIn (clientSteps tr)) :
    Corresponds c tr (s.act c e.after) := by
  refine ⟨h.absent, fun m hm hc n vs hp ↦ ?_, fun m hm hc p hp ↦ ?_⟩
  · rcases List.mem_append.mp hm with hm | hm
    · exact h.pings m hm hc n vs hp
    · obtain ⟨x, hx, rfl⟩ := List.mem_map.mp hm
      refine ⟨e.env.now, hasks _ (List.mem_filterMap.mpr ⟨x, hx, ?_⟩)⟩
      rw [show x.2 = _ from hp]
  · rcases List.mem_append.mp hm with hm | hm
    · exact h.answers m hm hc p hp
    · obtain ⟨x, hx, rfl⟩ := List.mem_map.mp hm
      have hsends := e.sends_of_sent x hx
      rw [show x.2 = _ from hp] at hsends
      cases hsends

private theorem step (h : Corresponds c tr s) (hstep : s.Step c e s') :
    Corresponds c (tr ++ [(s, e)]) s' := by
  obtain ⟨henabled, rfl⟩ := hstep
  have hafter := h.append [(s, e)]
  have hasks {a : Client.Event} (ha : clientStep (s, e) = some (s.client, a)) :
      ∀ x ∈ a.asks, x ∈ Client.askedIn (clientSteps (tr ++ [(s, e)])) := by
    intro x hx
    rw [Client.askedIn, List.mem_flatMap]
    refine ⟨(s.client, a), ?_, hx⟩
    rw [clientSteps_append]
    exact List.mem_append_right _ (List.mem_filterMap.mpr ⟨_, List.mem_singleton_self _, ha⟩)
  cases e with
  | network e => exact hafter.networkStep ⟨henabled.1, rfl⟩ henabled.2
  | receive index env view =>
    obtain ⟨⟨m, hm, -⟩, -⟩ := henabled
    obtain ⟨l, r, hlr, rfl, herase⟩ := Overlay.split_inFlight hm
    have hrest := hafter.drop (l := l ++ r) fun m' hm' ↦ Overlay.mem_of_mem_rest hlr hm'
    simp only [Audience.next, hm, herase]
    apply hrest.act
    apply hasks
    simp [clientStep, hm]
  | client e => exact hafter.act (hasks rfl)

end Corresponds

section Runs

variable {c : SocketAddr} {o₀ : Overlay} {servers : List IpAddr}
  {tr : List (Audience × AudienceEvent)} {s : Audience}

private theorem run_corresponds (hidle : o₀.inFlight = []) (habsent : o₀.hosts.lookup c = none)
    (hrun : Run (Audience.Step c) ⟨o₀, .new servers⟩ tr s) : Corresponds c tr s := by
  induction hrun with
  | refl => exact ⟨habsent, by simp [hidle], by simp [hidle]⟩
  | tail _ he ih => exact ih.step he

/-- The answer that the client takes in a step comes from the node that it sent the ping to. -/
theorem answered_by_asked (hidle : o₀.inFlight = []) (habsent : o₀.hosts.lookup c = none)
    (hrun : Run (Audience.Step c) ⟨o₀, .new servers⟩ tr s)
    (hcount : (Client.numberedIn (clientSteps tr)).length ≤ 2 ^ 64) {e : AudienceEvent}
    (henabled : s.Enabled c e) {q : Client.State × Client.Event} (hq : clientStep (s, e) = some q)
    {x : Client.Answer} (hx : q.2.answer? = some x) :
    ∃ t, (x.number, x.addr, t) ∈ Client.askedIn (clientSteps tr) ∧
      x.rtt = durationSince x.receivedAt t := by
  have hcorresponds := run_corresponds hidle habsent hrun
  have hpinging := Client.run_pinging (run_clientSteps hrun)
  obtain ⟨p, a, ⟨b, t⟩, hin, ⟨hnumber, rfl⟩, hpending, hrtt⟩ := Client.Event.answer?_eq_some hx
  cases e with
  | network e => cases hq
  | receive index env view =>
    obtain ⟨⟨m, hm, hc⟩, hview⟩ := henabled
    simp only [clientStep, hm, Option.map_some, Option.some.injEq] at hq
    subst hq
    obtain ⟨hpacket, hsource⟩ := Client.Input.packet.inj hin
    obtain ⟨u, hu⟩ := hcorresponds.answers m (List.mem_of_getElem? hm) hc p hpacket
    rw [AList.perm_lookup hview.pendingPings] at hpending
    rw [hnumber, hsource] at hu
    have hsame := hpinging.eq_of_asked hcount (hpinging.pending _ _ hpending) hu
    cases hsame
    exact ⟨t, hu, hrtt⟩
  | client e =>
    cases hq
    have hpacket := henabled.1
    rw [hin] at hpacket
    cases hpacket

/-- Whatever is lost, duplicated, reordered or fails, while the numbers of pings suffice each ping
counts at most once, the round-trip times of a node are those of the last ten answers of this very
node, and each of them is the time since this node was sent the ping with the number of the
answer. -/
theorem rtts_measured (hidle : o₀.inFlight = []) (habsent : o₀.hosts.lookup c = none)
    (hrun : Run (Audience.Step c) ⟨o₀, .new servers⟩ tr s)
    (hcount : (Client.numberedIn (clientSteps tr)).length ≤ 2 ^ 64) :
    ((Client.answersIn (clientSteps tr)).map Client.Answer.number).Nodup ∧
    (∀ n node, s.client.nodes.lookup n = some node →
      node.latestRtts = .newest 10 (Client.rttsIn n (clientSteps tr))) ∧
    ∀ l p r, tr = l ++ p :: r → ∀ q, clientStep p = some q → ∀ x, q.2.answer? = some x →
      ∃ t, (x.number, x.addr, t) ∈ Client.askedIn (clientSteps l) ∧
        x.rtt = durationSince x.receivedAt t := by
  have hclient := run_clientSteps hrun
  refine ⟨(Client.run_answers hclient hcount).1, (Client.run_pinging hclient).rtts, ?_⟩
  intro l p r htr q hq x hx
  subst htr
  obtain ⟨hbefore, t, hstep, -⟩ := Run.split hrun
  refine answered_by_asked hidle habsent hbefore ?_ hstep.1 hq hx
  rw [clientSteps_append, Client.numberedIn, List.flatMap_append, List.length_append] at hcount
  exact Nat.le_of_add_right_le hcount

/-- The only sample of the second node is its only answer's. -/
theorem rtts_measured_triangle : (⟨[3], by decide⟩ : CircularBuffer 10 Duration) =
    .newest 10 (Client.rttsIn (hostAddr 2) (clientSteps answeredInTriangle.1)) := by
  have h := rtts_measured rfl (by decide) answeredInTriangle_run (by decide +kernel)
  exact h.2.1 _ _ answeredInTriangle_node

end Runs
end PessiStreamer.System
