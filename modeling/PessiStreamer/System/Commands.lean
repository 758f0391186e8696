import PessiStreamer.Reliable.Network
import PessiStreamer.System.Host

/-!
# Subscription commands over the reliable layer

A peer sends requests and stops for one video with `send_reliable`, and the host at the
receiving address handles each copy that its socket returns: copies are not told apart, so
the peer's membership follows the copy that was processed last.
-/

namespace PessiStreamer.System
open Base Common Node Reliable

/-- The packet that `receive` handed to the loop of the host. -/
def returnedPacket : Occurrence Packet SocketAddr → Option (Packet × SocketAddr)
  | .returned (.reliable _ payload) source => some (payload, source)
  | .returned (.unreliable payload) source => some (payload, source)
  | _ => none

/-- The command of the peer that the host processed a reliable copy of. -/
def processedCommand (peer : SocketAddr) (v : VideoId) :
    Occurrence Packet SocketAddr → Option Bool
  | .returned (.reliable _ payload) source => if source = peer then commandOf v payload else none
  | _ => none

/-- Sockets over a network, and the host that the receiver's socket belongs to. -/
structure Session where
  network : Network Packet SocketAddr
  host : Host

/-- What happens in a session. -/
inductive SessionEvent where
  /-- a step of the network; `env` is what a handler run of the host meets in it -/
  | network (e : NetworkEvent Packet SocketAddr) (env : Env)
  /-- anything else the host does, which may also reorder its maps -/
  | host (h : Host)

/-- What is observed of an endpoint between two states of the network, newest first. -/
def arrivals (address : SocketAddr) (n n' : Network Packet SocketAddr) :
    List (Occurrence Packet SocketAddr) :=
  (n'.endpoint address).history.take
    ((n'.endpoint address).history.length - (n.endpoint address).history.length)

namespace Session

/-- A step of the network; if the receiver's socket returns a packet, the host handles it. -/
def step? (shard : SocketAddr → UInt64 → Nat) (receiver : SocketAddr) (s : Session) :
    SessionEvent → Option Session
  | .network e env => do
    let n ← s.network.step? shard e
    return {
      network := n
      host :=
        match (arrivals receiver s.network n).findSome? returnedPacket with
        | some (packet, source) => s.host.handle env packet source
        | none => s.host }
  | .host h => some { s with host := h }

/-- A step in which only a copy of a command of the peer may change whether the peer is
subscribed to the video, and the host goes on hosting it. -/
def Quiet (shard : SocketAddr → UInt64 → Nat) (receiver peer : SocketAddr) (v : VideoId)
    (s : Session) (e : SessionEvent) : Prop :=
  ∀ t ∈ s.step? shard receiver e, (s.host.Hosts v → t.host.Hosts v) ∧
    ((arrivals receiver s.network t.network).filterMap (processedCommand peer v) = [] →
      (peer ∈ t.host.subscribers v ↔ peer ∈ s.host.subscribers v))

instance (shard : SocketAddr → UInt64 → Nat) (receiver peer : SocketAddr) (v : VideoId)
    (s : Session) (e : SessionEvent) : Decidable (Quiet shard receiver peer v s e) :=
  inferInstanceAs (Decidable (∀ t ∈ s.step? shard receiver e, _))

/-- The command of the peer that the receiver processed last. -/
def lastProcessed (receiver peer : SocketAddr) (v : VideoId) (s : Session) : Option Bool :=
  ((s.network.endpoint receiver).history.filterMap (processedCommand peer v)).head?

end Session

section Arrivals

variable {shard : SocketAddr → UInt64 → Nat} {n n' : Network Packet SocketAddr}
  {e : NetworkEvent Packet SocketAddr} {peer : SocketAddr} {v : VideoId}

/-- What arrives in a step is observed of one step of the socket, or of none. -/
theorem arrivals_cases (h : n.step? shard e = some n') (b : SocketAddr) :
    (n'.endpoint b).history = arrivals b n n' ++ (n.endpoint b).history ∧
    (arrivals b n n' = [] ∨
      Transition (shard b) (n.endpoint b).socket (n'.endpoint b).socket (arrivals b n n')) := by
  rcases Network.endpoint_step h b with heq | ⟨action, hstep⟩
  · simp [arrivals, heq]
  · obtain ⟨o, -, hhist, ht⟩ := Monitor.transition hstep
    have harr : arrivals b n n' = o := by simp [arrivals, hhist]
    rw [harr]
    exact ⟨hhist, .inr ht⟩

/-- A command is processed alone, and acknowledged in the same step. -/
theorem processed_cases (peer : SocketAddr) (v : VideoId) {s t : Socket Packet SocketAddr}
    {k : UInt64 → Nat} {o : List (Occurrence Packet SocketAddr)} (ht : Transition k s t o) :
    o.filterMap (processedCommand peer v) = [] ∨
    ∃ packetId payload b, commandOf v payload = some b ∧
      s.receiving = .received (.reliable packetId payload) peer ∧
      o = [.returned (.reliable packetId payload) peer, .sent (.ack packetId) peer] := by
  cases ht with
  | @accept packetId payload source hr =>
    by_cases hs : source = peer
    · subst hs
      cases hb : commandOf v payload with
      | some b => exact .inr ⟨packetId, payload, b, hb, hr, rfl⟩
      | none => exact .inl (by simp [List.filterMap_cons, processedCommand, hb])
    · exact .inl (by simp [List.filterMap_cons, processedCommand, hs])
  | _ => exact .inl (by simp [List.filterMap_cons, processedCommand])

end Arrivals

namespace Session

variable {shard : SocketAddr → UInt64 → Nat} {receiver peer : SocketAddr} {v : VideoId}
  {s t : Session} {e : SessionEvent}

/-- The peer is a subscriber if and only if the copy processed last asked for the video. -/
structure Follows (receiver peer : SocketAddr) (v : VideoId) (s : Session) : Prop where
  hosts : s.host.Hosts v
  follows : ∀ b, s.lastProcessed receiver peer v = some b →
    (peer ∈ s.host.subscribers v ↔ b = true)

private theorem Follows.step (h : Follows receiver peer v s) (hq : s.Quiet shard receiver peer v e)
    (hstep : s.step? shard receiver e = some t) : Follows receiver peer v t := by
  obtain ⟨hhosts, hsame⟩ := hq t hstep
  refine ⟨hhosts h.hosts, fun b hb ↦ ?_⟩
  cases e with
  | host h' =>
    cases hstep
    rw [hsame (by simp [arrivals])]
    exact h.follows b hb
  | network e env =>
    simp only [step?, Option.bind_eq_bind, Option.bind_eq_some_iff] at hstep
    obtain ⟨n, hn, ht⟩ := hstep
    obtain rfl : t.network = n := by cases ht; rfl
    obtain ⟨hhist, hcases⟩ := arrivals_cases hn receiver
    simp only [lastProcessed, hhist, List.filterMap_append] at hb
    have hquiet (hnil : (arrivals receiver s.network t.network).filterMap
        (processedCommand peer v) = []) : peer ∈ t.host.subscribers v ↔ b = true := by
      rw [hnil] at hb
      rw [hsame hnil]
      exact h.follows b hb
    rcases hcases with hnil | htrans
    · exact hquiet (by simp [hnil])
    rcases processed_cases peer v htrans with hnil | ⟨packetId, payload, c, hc, -, ho⟩
    · exact hquiet hnil
    · rw [ho] at hb
      obtain rfl : c = b := by simpa [List.filterMap_cons, processedCommand, hc] using hb
      have hhost : t.host = s.host.handle env payload peer := by
        have heq := congrArg Session.host (Option.some.inj ht)
        rw [ho] at heq
        exact heq.symm
      rw [hhost, commandOf_eq_some hc]
      cases c with
      | true => simpa using Host.mem_subscribers_request h.hosts
      | false => simpa using Host.not_mem_subscribers_stop

/-- The states of a session that starts with new sockets, after any run in which nothing but
the peer's commands changes its membership. -/
def Reachable (shard : SocketAddr → UInt64 → Nat) (receiver peer : SocketAddr) (v : VideoId)
    (tr : List (Session × SessionEvent)) (s : Session) : Prop :=
  ∃ h : Host, h.Hosts v ∧
    Run (fun s e t ↦ Session.step? shard receiver s e = some t) ⟨.new, h⟩ tr s ∧
    ∀ p ∈ tr, p.1.Quiet shard receiver peer v p.2

/-- A step of a session is a step of its network or none. -/
theorem network_step (h : s.step? shard receiver e = some t) :
    t.network = s.network ∨ ∃ e', s.network.step? shard e' = some t.network := by
  cases e with
  | host h' =>
    cases h
    exact .inl rfl
  | network e env =>
    simp only [step?, Option.bind_eq_bind, Option.bind_eq_some_iff] at h
    obtain ⟨n, hn, ht⟩ := h
    cases ht
    exact .inr ⟨e, hn⟩

private theorem run_network {tr : List (Session × SessionEvent)} {s₀ : Session}
    (h : Run (fun s e t ↦ Session.step? shard receiver s e = some t) s₀ tr s)
    (h₀ : Network.Reachable shard s₀.network) : Network.Reachable shard s.network := by
  refine h.invariant (I := fun s ↦ Network.Reachable shard s.network) ?_ h₀
  rintro s e t ⟨tr, hs⟩ hstep
  rcases network_step hstep with heq | ⟨e', he'⟩
  · rw [heq]
    exact ⟨tr, hs⟩
  · exact ⟨_, hs.tail he'⟩

private theorem Reachable.follows {tr : List (Session × SessionEvent)}
    (h : Reachable shard receiver peer v tr s) : Follows receiver peer v s := by
  obtain ⟨host, hhost, hrun, hquiet⟩ := h
  refine hrun.invariant_of_forall (P := fun s e ↦ s.Quiet shard receiver peer v e)
    (fun s e t hs hq hstep ↦ hs.step hq hstep) hquiet ⟨hhost, fun b hb ↦ ?_⟩
  cases hb

end Session

/-- The packet of call `i` of the peer is resolved, and no copy of it is on its way. -/
structure Drained (receiver peer : SocketAddr) (i : Nat) (n : Network Packet SocketAddr) :
    Prop where
  reported : ∃ r, .completed i r ∈ (n.endpoint peer).history
  inFlight : ∀ d ∈ n.inFlight, d.source = peer → ∀ payload, d.packet ≠ .reliable (.ofNat i) payload
  received : ∀ payload,
    (n.endpoint receiver).socket.receiving ≠ .received (.reliable (.ofNat i) payload) peer

/-- A call that sends a command to the receiver. -/
def IsCommand (receiver : SocketAddr) (v : VideoId) (c : Call Packet SocketAddr) : Prop :=
  c.destination = receiver ∧ (commandOf v c.payload).isSome

section Drained

variable {shard : SocketAddr → UInt64 → Nat} {receiver peer : SocketAddr} {v : VideoId}
  {n n' : Network Packet SocketAddr} {e : NetworkEvent Packet SocketAddr} {i : Nat}

/-- What is drained stays so. -/
theorem Drained.step (h : Drained receiver peer i n) (hn' : Network.Reachable shard n')
    (hlen : (n'.endpoint peer).socket.calls.length ≤ 2 ^ 64) (hi : i < 2 ^ 64)
    (hstep : n.step? shard e = some n') : Drained receiver peer i n' := by
  obtain ⟨r, hr⟩ := h.reported
  have hreported : ∃ r, .completed i r ∈ (n'.endpoint peer).history :=
    ⟨r, (Network.endpoint_grows hstep peer).2.2 hr⟩
  have hsound := (hn'.endpoint peer).sound.2 hlen i hi
  rcases Network.step_cases hstep with
    ⟨hend, hflight⟩ | ⟨a, action, t, o, hact, hend, hflight, hreceive⟩
  · refine ⟨hreported, fun d hd ↦ h.inFlight d (hflight hd), ?_⟩
    rw [hend]
    exact h.received
  · refine ⟨hreported, fun d hd hsource payload hpacket ↦ ?_, fun payload hrec ↦ ?_⟩
    · rcases List.mem_append.mp (hflight hd) with hd | hd
      · exact h.inFlight d hd hsource payload hpacket
      · obtain ⟨rfl, hsent⟩ := Network.mem_sentBy.mp hd
        obtain ⟨newer, older, heq⟩ := List.append_of_mem hr
        have hhist : (n'.endpoint peer).history = (o ++ newer) ++ .completed i r :: older := by
          simp [hend, hsource, heq]
        have hcount := (hsound.around hhist).1
        rw [hpacket] at hsent
        have hnot := List.countP_eq_zero.mp hcount _ (List.mem_append_left newer hsent)
        simp [Occurrence.IsCopyOf] at hnot
    · by_cases ha : receiver = a
      · subst ha
        simp only [hend, Function.update_self] at hrec
        rcases (Socket.transition_of_step? hact).receiving_cases hrec with hrec | hrec
        · exact h.received payload hrec
        · have hmem := hreceive _ _ (received_of_step? hact hrec)
          exact h.inFlight _ hmem rfl payload rfl
      · simp only [hend, Function.update_of_ne ha] at hrec
        exact h.received payload hrec

/-- No copy of a drained packet is returned any more. -/
theorem Drained.not_returned (h : Drained receiver peer i n) (hstep : n.step? shard e = some n')
    (payload : Packet) :
    .returned (.reliable (.ofNat i) payload) peer ∉ arrivals receiver n n' := by
  intro hmem
  rcases (arrivals_cases hstep receiver).2 with hnil | ht
  · simp [hnil] at hmem
  · exact h.received payload (ht.returned_cases hmem).1

end Drained

/-- What holds after a state of the network in which all commands were drained: they stay so,
and none of them is processed again. -/
structure Since (shard : SocketAddr → UInt64 → Nat) (receiver peer : SocketAddr) (v : VideoId)
    (n₁ n : Network Packet SocketAddr) : Prop where
  reachable : Network.Reachable shard n
  calls : ∀ (j : Nat) (c : Call Packet SocketAddr), (n₁.endpoint peer).socket.calls[j]? = some c →
    ∃ c', (n.endpoint peer).socket.calls[j]? = some c' ∧ SameCall c c'
  drained : ∀ (j : Nat) (c : Call Packet SocketAddr),
    (n₁.endpoint peer).socket.calls[j]? = some c → IsCommand receiver v c →
      Drained receiver peer j n
  history : ∃ new, (n.endpoint receiver).history = new ++ (n₁.endpoint receiver).history ∧
    ∀ (j : Nat) (c : Call Packet SocketAddr), (n₁.endpoint peer).socket.calls[j]? = some c →
      IsCommand receiver v c → ∀ payload, .returned (.reliable (.ofNat j) payload) peer ∉ new

section Overtaking

variable {shard : SocketAddr → UInt64 → Nat} {receiver peer : SocketAddr} {v : VideoId}
  {n₁ n n' : Network Packet SocketAddr} {e : NetworkEvent Packet SocketAddr}

private theorem Since.step (h : Since shard receiver peer v n₁ n)
    (hlen : (n'.endpoint peer).socket.calls.length ≤ 2 ^ 64)
    (hstep : n.step? shard e = some n') : Since shard receiver peer v n₁ n' := by
  obtain ⟨tr, hrun⟩ := h.reachable
  have hn' : Network.Reachable shard n' := ⟨_, hrun.tail hstep⟩
  obtain ⟨-, hcalls, -⟩ := Network.endpoint_grows hstep peer
  refine ⟨hn', fun j c hc ↦ ?_, fun j c hc hcmd ↦ ?_, ?_⟩
  · obtain ⟨c', hc', hsame⟩ := h.calls j c hc
    obtain ⟨c'', hc'', hsame'⟩ := hcalls j c' hc'
    exact ⟨c'', hc'', hsame'.packetId.trans hsame.packetId, hsame'.payload.trans hsame.payload,
      hsame'.destination.trans hsame.destination⟩
  · obtain ⟨c', hc', -⟩ := h.calls j c hc
    obtain ⟨c'', hc'', -⟩ := hcalls j c' hc'
    have hj := Nat.lt_of_lt_of_le (List.getElem?_eq_some_iff.mp hc'').1 hlen
    exact (h.drained j c hc hcmd).step hn' hlen hj hstep
  · obtain ⟨new, hnew, hnot⟩ := h.history
    obtain ⟨harrive, -⟩ := arrivals_cases hstep receiver
    refine ⟨arrivals receiver n n' ++ new, by rw [harrive, hnew, List.append_assoc],
      fun j c hc hcmd payload hmem ↦ ?_⟩
    rcases List.mem_append.mp hmem with hmem | hmem
    · exact (h.drained j c hc hcmd).not_returned hstep payload hmem
    · exact hnot j c hc hcmd payload hmem

/-- A command that was begun after all others were drained is the one processed last, once it
was acknowledged. -/
theorem Since.lastProcessed (h : Since shard receiver peer v n₁ n) (h₁ : Network.Reachable shard n₁)
    (hlen : (n.endpoint peer).socket.calls.length < 2 ^ 64) {k : Nat}
    {c : Call Packet SocketAddr} (hbegun : (n₁.endpoint peer).socket.calls.length = k)
    (hk : (n.endpoint peer).socket.calls[k]? = some c) (hc : IsCommand receiver v c)
    (hlast : ∀ (j : Nat) (c' : Call Packet SocketAddr),
      (n.endpoint peer).socket.calls[j]? = some c' → IsCommand receiver v c' → j ≤ k)
    {after : Duration} (hack : .completed k (.acknowledged after) ∈ (n.endpoint peer).history) :
    ((n.endpoint receiver).history.filterMap (processedCommand peer v)).head? =
      commandOf v c.payload := by
  have hhonest := h.reachable.honest
  have hwf := hhonest.wellFormed peer
  have hlt {j : Nat} {d : Call Packet SocketAddr}
      (hd : (n.endpoint peer).socket.calls[j]? = some d) : j < 2 ^ 64 :=
    Nat.lt_trans (List.getElem?_eq_some_iff.mp hd).1 hlen
  obtain ⟨new, hnew, hnot⟩ := h.history
  obtain ⟨-, -, hreturned⟩ := Network.reachable_no_false_ack h.reachable hlen hk hack
  rw [hc.1] at hreturned
  -- a copy of the command was processed after the others were drained
  have hmem : .returned (.reliable c.packetId c.payload) peer ∈ new := by
    rw [hnew] at hreturned
    rcases List.mem_append.mp hreturned with hmem | hmem
    · exact hmem
    · obtain ⟨⟨d, hd, hid, -⟩, -⟩ := h₁.honest.returned receiver _ _ peer hmem
      obtain ⟨j, hj⟩ := List.mem_iff_getElem?.mp hd
      obtain ⟨hjlen, -⟩ := List.getElem?_eq_some_iff.mp hj
      obtain ⟨d', hd', hsame⟩ := h.calls j d hj
      have hjk := hwf.call_eq (Nat.le_of_lt hlen) hd' hk (hsame.packetId.trans hid)
      omega
  -- and every copy processed since then is one of it
  have hall (b : Bool) (hb : b ∈ new.filterMap (processedCommand peer v)) :
      commandOf v c.payload = some b := by
    obtain ⟨x, hx, hxb⟩ := List.mem_filterMap.mp hb
    unfold processedCommand at hxb
    split at hxb
    · next packetId payload source =>
      split at hxb
      · next hsource =>
        subst hsource
        have hmem' :
            .returned (.reliable packetId payload) source ∈ (n.endpoint receiver).history :=
          hnew ▸ List.mem_append_left _ hx
        obtain ⟨⟨d, hd, hid, hpayload, hdest⟩, -⟩ := hhonest.returned receiver _ _ source hmem'
        obtain ⟨j, hj⟩ := List.mem_iff_getElem?.mp hd
        have hcmd : IsCommand receiver v d := ⟨hdest, by simp [hpayload, hxb]⟩
        rcases Nat.lt_or_ge j k with hjk | hjk
        · obtain ⟨d₁, hd₁⟩ : ∃ d₁, (n₁.endpoint source).socket.calls[j]? = some d₁ :=
            ⟨_, List.getElem?_eq_getElem (hbegun ▸ hjk)⟩
          obtain ⟨d', hd', hsame⟩ := h.calls j d₁ hd₁
          obtain rfl : d = d' := Option.some.inj (hj.symm.trans hd')
          have hcmd₁ : IsCommand receiver v d₁ :=
            ⟨hsame.destination ▸ hcmd.1, hsame.payload ▸ hcmd.2⟩
          refine (hnot j d₁ hd₁ hcmd₁ payload ?_).elim
          rw [← hwf.numbered j d hj, hid]
          exact hx
        · obtain rfl : j = k := Nat.le_antisymm (hlast j d hj hcmd) hjk
          obtain rfl : d = c := Option.some.inj (hj.symm.trans hk)
          rw [hpayload, hxb]
      · cases hxb
    · cases hxb
  obtain ⟨b, hb⟩ := Option.isSome_iff_exists.mp hc.2
  have hin : b ∈ new.filterMap (processedCommand peer v) :=
    List.mem_filterMap.mpr ⟨_, hmem, by simp [processedCommand, hb]⟩
  rw [hnew, List.filterMap_append]
  cases hnew' : new.filterMap (processedCommand peer v) with
  | nil => simp [hnew'] at hin
  | cons b' rest =>
    rw [hall b' (hnew' ▸ List.mem_cons_self)]
    rfl

end Overtaking

namespace Session

variable {shard : SocketAddr → UInt64 → Nat} {receiver peer : SocketAddr} {v : VideoId}
  {s : Session}

/-- From a drained state on, nothing drained is processed again. -/
theorem run_since {s₁ : Session} {tr : List (Session × SessionEvent)}
    (h : Run (fun s e t ↦ Session.step? shard receiver s e = some t) s₁ tr s)
    (h₁ : Since shard receiver peer v s₁.network s₁.network)
    (hlen : (s.network.endpoint peer).socket.calls.length ≤ 2 ^ 64) :
    Since shard receiver peer v s₁.network s.network := by
  induction h with
  | refl => exact h₁
  | tail _ hstep ih =>
    rcases network_step hstep with heq | ⟨e', he'⟩
    · rw [heq] at hlen ⊢
      exact ih hlen
    · exact (ih (Nat.le_trans (Network.endpoint_grows he' peer).1 hlen)).step hlen he'

/-- When all commands of the peer were acknowledged and nothing else changed its membership,
it is a subscriber if and only if the copy processed last was one of a request. This is the last
command of all if that was begun in a state in which the earlier ones were drained. -/
theorem reachable_membership {tr : List (Session × SessionEvent)}
    (h : Reachable shard receiver peer v tr s)
    (hlen : (s.network.endpoint peer).socket.calls.length < 2 ^ 64)
    (hack : ∀ (i : Nat) (c : Call Packet SocketAddr),
      (s.network.endpoint peer).socket.calls[i]? = some c → IsCommand receiver v c →
        ∃ after, .completed i (.acknowledged after) ∈ (s.network.endpoint peer).history)
    {k : Nat} {c : Call Packet SocketAddr}
    (hk : (s.network.endpoint peer).socket.calls[k]? = some c) (hc : IsCommand receiver v c)
    (hlast : ∀ (j : Nat) (c' : Call Packet SocketAddr),
      (s.network.endpoint peer).socket.calls[j]? = some c' → IsCommand receiver v c' → j ≤ k) :
    (∃ b, s.lastProcessed receiver peer v = some b ∧
      (peer ∈ s.host.subscribers v ↔ b = true)) ∧
    ((∃ p ∈ tr, (p.1.network.endpoint peer).socket.calls.length = k ∧
        ∀ (i : Nat) (c' : Call Packet SocketAddr),
          (p.1.network.endpoint peer).socket.calls[i]? = some c' → IsCommand receiver v c' →
            Drained receiver peer i p.1.network) →
      (peer ∈ s.host.subscribers v ↔ c.payload = .serverPacket (.requestVideo v))) := by
  have hfollows := h.follows
  obtain ⟨host, -, hrun, -⟩ := h
  have hnet := run_network hrun ⟨[], .refl _⟩
  obtain ⟨after, hafter⟩ := hack k c hk hc
  obtain ⟨b, hb⟩ := Option.isSome_iff_exists.mp hc.2
  constructor
  · obtain ⟨-, -, hreturned⟩ := Network.reachable_no_false_ack hnet hlen hk hafter
    rw [hc.1] at hreturned
    have hmem : b ∈ (s.network.endpoint receiver).history.filterMap (processedCommand peer v) :=
      List.mem_filterMap.mpr ⟨_, hreturned, by simp [processedCommand, hb]⟩
    have hhead := List.head?_eq_some_head (List.ne_nil_of_mem hmem)
    exact ⟨_, hhead, hfollows.follows _ hhead⟩
  · rintro ⟨p, hp, hbegun, hdrained⟩
    obtain ⟨l, r, -, hleft, hright⟩ := hrun.exists_split hp
    have h₁ := run_network hleft ⟨[], .refl _⟩
    have hsince := run_since (v := v) hright
      ⟨h₁, fun j c hc ↦ ⟨c, hc, .refl c⟩, hdrained, ⟨[], rfl, by simp⟩⟩ (Nat.le_of_lt hlen)
    have hlastp : s.lastProcessed receiver peer v = some b :=
      (hsince.lastProcessed h₁ hlen hbegun hk hc hlast hafter).trans hb
    rw [hfollows.follows b hlastp, commandOf_eq_some hb]
    cases b with
    | true => simp
    | false => simp

end Session

/-- A peer and a server that streams video 5. -/
def commandPeer : SocketAddr := (IpAddr.v4 1).atPort

/-- The address of the server. -/
def commandReceiver : SocketAddr := (IpAddr.v4 2).atPort

/-- Before the first command. -/
def commandStart : Session where
  network := .new
  host := .server ⟨0, AList.insert 5 ⟨"five", [], 0⟩ ∅, []⟩

/-- A send of the peer up to the start of its task. -/
def sendCommand (i : Nat) (p : ServerPacket) : List SessionEvent :=
  [.act commandPeer (.call (.serverPacket p) commandReceiver),
    .act commandPeer (.transmit i (.ok ())), .act commandPeer (.register i 0),
    .act commandPeer (.spawn i)].map (.network · (.calm 0))

/-- The datagram in flight reaches the server, which processes it. -/
def serverTurn : List SessionEvent :=
  [.deliver 0, .act commandReceiver (.process true 0)].map (.network · (.calm 0))

/-- The acknowledgement in flight reaches the peer, which reports it. -/
def peerTurn : List SessionEvent :=
  [.deliver 0, .act commandPeer (.process true 1), .act commandPeer (.process true 1)].map
    (.network · (.calm 0))

/-- The stop is sent after the request was acknowledged. -/
def inOrder : List (Session × SessionEvent) × Session :=
  trace (Session.step? (fun _ _ ↦ 0) commandReceiver) commandStart <|
    sendCommand 0 (.requestVideo 5) ++ serverTurn ++ peerTurn ++
    sendCommand 1 (.stopVideo 5) ++ serverTurn ++ peerTurn

/-- After the stop the peer is no subscriber. -/
theorem membership_inOrder : commandPeer ∉ inOrder.2.host.subscribers 5 := by
  have hcalls : (inOrder.2.network.endpoint commandPeer).socket.calls =
      [⟨0, .serverPacket (.requestVideo 5), commandReceiver, .returned, some .sleeping⟩,
        ⟨1, .serverPacket (.stopVideo 5), commandReceiver, .returned, some .sleeping⟩] := by
    decide
  have hlt {i : Nat} {c : Call Packet SocketAddr}
      (hc : (inOrder.2.network.endpoint commandPeer).socket.calls[i]? = some c) : i < 2 := by
    have hlen := (List.getElem?_eq_some_iff.mp hc).1
    rwa [hcalls] at hlen
  -- the state in which the stop is begun
  have hbegun : ∃ p ∈ inOrder.1, (p.1.network.endpoint commandPeer).socket.calls.length = 1 ∧
      .completed 0 (.acknowledged 1) ∈ (p.1.network.endpoint commandPeer).history ∧
      p.1.network.inFlight = [] ∧
      (p.1.network.endpoint commandReceiver).socket.receiving = .idle :=
    ⟨inOrder.1.get ⟨9, by decide⟩, List.get_mem _ _, by decide⟩
  obtain ⟨p, hp, hlen, hreported, hflight, hidle⟩ := hbegun
  have hiff := (Session.reachable_membership (s := inOrder.2) (v := 5) (k := 1)
    ⟨commandStart.host, by decide, run_trace _ _ _, by decide⟩ (by decide) ?_
    (congrArg (·[1]?) hcalls) ⟨rfl, rfl⟩ ?_).2 ⟨p, hp, hlen, ?_⟩
  · rw [hiff]
    simp
  · intro i c hc _
    match i, hlt hc with
    | 0, _ => exact ⟨1, by decide⟩
    | 1, _ => exact ⟨1, by decide⟩
  · exact fun j c hc _ ↦ Nat.le_of_lt_succ (hlt hc)
  · intro i c hc _
    obtain rfl : i = 0 := Nat.lt_one_iff.mp (hlen ▸ (List.getElem?_eq_some_iff.mp hc).1)
    refine ⟨⟨_, hreported⟩, by simp [hflight], ?_⟩
    rw [hidle]
    simp

/-- The acknowledgement of the request is lost, the stop is sent and acknowledged, and only
then the request is transmitted again. -/
def overtaken : List (Session × SessionEvent) × Session :=
  trace (Session.step? (fun _ _ ↦ 0) commandReceiver) commandStart <|
    sendCommand 0 (.requestVideo 5) ++ serverTurn ++ [.network (.lose 0) (.calm 0)] ++
    sendCommand 1 (.stopVideo 5) ++ serverTurn ++ peerTurn ++
    [.network (.act commandPeer (.wake 0 TIMEOUT)) (.calm 0),
      .network (.act commandPeer (.retransmit 0 true TIMEOUT)) (.calm 0)] ++
    serverTurn ++ peerTurn

/-- The last command was a stop, all commands are acknowledged and nothing is in flight, yet the
peer is a subscriber. -/
theorem overtaken_request :
    Session.Reachable (fun _ _ ↦ 0) commandReceiver commandPeer 5 overtaken.1 overtaken.2 ∧
    (overtaken.2.network.endpoint commandPeer).socket.calls.map
      (fun c ↦ (c.payload, c.destination)) =
        [(.serverPacket (.requestVideo 5), commandReceiver),
          (.serverPacket (.stopVideo 5), commandReceiver)] ∧
    .completed 0 (.acknowledged 0) ∈ (overtaken.2.network.endpoint commandPeer).history ∧
    .completed 1 (.acknowledged 1) ∈ (overtaken.2.network.endpoint commandPeer).history ∧
    overtaken.2.network.inFlight = [] ∧
    commandPeer ∈ overtaken.2.host.subscribers 5 := by
  refine ⟨⟨commandStart.host, by decide, run_trace _ _ _, by decide⟩, by decide, by decide,
    by decide, by decide, by decide⟩

end PessiStreamer.System
