import PessiStreamer.Client.Requests
import PessiStreamer.System.Streams

/-!
# Counting on a subscription

A node counts on a subscription to a video at the host that it routes the video over, and a client
at the source of a video that it plays. Either asks for the video and later may stop it, and its
last word to the host decides. Which steps of the network take the subscription away nevertheless,
and that all others keep it.
-/

namespace PessiStreamer.System
open Base Common Node

/-- What a message from `a` tells the host at `b` about the video. -/
def wordIn (a b : SocketAddr) (v : VideoId) (m : Message) : Option Bool :=
  if m.source = a then Client.wordTo b v (m.target, m.packet) else none

section Words

variable {a b x : SocketAddr} {v : VideoId} {m : Message} {ms : List Message} {now : Prop}

/-- What others send tells nothing of `a`. -/
theorem wordIn_of_source (h : m.source ≠ a) : wordIn a b v m = none := if_neg h

/-- What is for others tells `b` nothing. -/
theorem wordIn_of_target (h : m.target ≠ b) : wordIn a b v m = none := by
  simp [wordIn, Client.wordTo, h]

/-- A message that tells something goes from `a` to `b`. -/
theorem wordIn_of_ne_none (h : wordIn a b v m ≠ none) :
    m.source = a ∧ m.target = b ∧ wordIn a b v m = Client.wordOf v m.packet := by
  have hsource : m.source = a := by
    by_contra hne
    exact h (wordIn_of_source hne)
  have htarget : m.target = b := by
    by_contra hne
    exact h (wordIn_of_target hne)
  exact ⟨hsource, htarget, by simp [wordIn, Client.wordTo, hsource, htarget]⟩

/-- Only a request speaks for the video. -/
theorem wordIn_eq_some_true (h : wordIn a b v m = some true) :
    m.source = a ∧ m.target = b ∧ m.packet = .serverPacket (.requestVideo v) := by
  obtain ⟨hsource, htarget, hword⟩ := wordIn_of_ne_none (h ▸ Option.some_ne_none true)
  exact ⟨hsource, htarget, Client.wordOf_eq_some_true (hword ▸ h)⟩

/-- What others send tells nothing about `a`. -/
theorem settles_of_others (hx : x ≠ a) (sent : List (SocketAddr × Packet)) :
    Settles (wordIn a b v) (ms ++ outgoing x sent) now ↔ Settles (wordIn a b v) ms now := by
  rw [Settles.append]
  apply Settles.iff_of_none
  intro m hm
  obtain ⟨y, -, rfl⟩ := List.mem_map.mp hm
  exact wordIn_of_source hx

/-- What `a` sends. -/
theorem settles_outgoing (sent : List (SocketAddr × Packet)) :
    Settles (wordIn a b v) (ms ++ outgoing a sent) now ↔
      Settles (Client.wordTo b v) sent (Settles (wordIn a b v) ms now) := by
  rw [Settles.append]
  unfold outgoing Settles
  rw [List.filterMap_map]
  simp only [Function.comp_def, wordIn, if_true]

/-- Nothing is on its way from `a` to `b`. -/
theorem settles_of_quiet (h : ∀ m ∈ ms, ¬ (m.source = a ∧ m.target = b)) :
    Settles (wordIn a b v) ms now ↔ now := by
  apply Settles.iff_of_none
  intro m hm
  by_contra hword
  obtain ⟨hsource, htarget, -⟩ := wordIn_of_ne_none hword
  exact h m hm ⟨hsource, htarget⟩

/-- What is not about the video tells nobody anything. -/
theorem wordIn_of_silent (h : Client.wordOf v m.packet = none) : wordIn a b v m = none := by
  by_contra hword
  obtain ⟨-, -, heq⟩ := wordIn_of_ne_none hword
  exact hword (heq.trans h)

end Words

/-- A subscriber stays one unless the handler removes it. -/
theorem mem_subscribers_after_of_not_removes {e : Node.Event} {x : SocketAddr} {v : VideoId}
    (h : x ∈ e.view.subscribers v) (hkeep : ¬ e.Removes v x) :
    x ∈ e.after.state.subscribers v := by
  refine e.reaches_after.invariant (I := fun c ↦ x ∈ c.state.subscribers v) (fun c d hc hd ↦ ?_) h
  cases hd with
  | @subscribe u a _ =>
    rw [Ctx.setState_state, State.subscribe_subscribers]
    split
    · next hvu =>
      subst hvu
      split
      · exact hc
      · exact List.mem_append_left _ hc
    · exact hc
  | @unsubscribe u a hrem =>
    rw [Ctx.setState_state, State.unsubscribe_subscribers]
    split
    · next hvu =>
      subst hvu
      refine List.mem_filter.mpr ⟨hc, decide_eq_true fun hxa ↦ hkeep (hxa ▸ hrem)⟩
    · exact hc
  | _ => exact hc

section Servers

variable {s : Server.State} {a addr : SocketAddr} {v : VideoId}

/-- A server removes a subscriber only when it sends a stop. -/
theorem mem_subscribers_handlePacket {p : Packet}
    (hstop : addr = a → p ≠ .serverPacket (.stopVideo v)) (ha : a ∈ s.subscribers v) :
    a ∈ (s.handlePacket p addr).subscribers v := by
  obtain ⟨video, hvideo, hmem⟩ :
      ∃ video, s.videos.lookup v = some video ∧ a ∈ video.interested := by
    cases hvideo : s.videos.lookup v with
    | none => simp [Server.State.subscribers, hvideo] at ha
    | some video => exact ⟨video, rfl, by simpa [Server.State.subscribers, hvideo] using ha⟩
  unfold Server.State.handlePacket
  split
  · next u =>
    by_cases huv : v = u
    · subst huv
      by_cases haddr : addr ∈ video.interested
      · simp [Server.State.subscribers, hvideo, haddr, hmem]
      · simp [Server.State.subscribers, hvideo, haddr, hmem]
    · simp [Server.State.subscribers, Map.lookup_modify, huv, hvideo, hmem]
  · next u =>
    by_cases huv : v = u
    · subst huv
      have hne : a ≠ addr := fun haa ↦ hstop haa.symm rfl
      simp [Server.State.subscribers, hvideo, hmem, hne]
    · simp [Server.State.subscribers, Map.lookup_modify, huv, hvideo, hmem]
  all_goals exact ha

/-- Nor does one that starts another video, broadcasts a packet or announces its videos. -/
theorem mem_subscribers_run {e : Server.Event}
    {sendResult : Nat → Except ReliableUdpSocketError Unit} (hadd : ∀ name, e ≠ .addVideo v name)
    (ha : a ∈ s.subscribers v) : a ∈ (e.run sendResult s).1.subscribers v := by
  cases e with
  | addVideo u name =>
    have huv : v ≠ u := by
      rintro rfl
      exact hadd name rfl
    simpa [Server.Event.run, Server.State.addVideo, Server.State.subscribers,
      Map.lookup_insert_ite, huv] using ha
  | streamVideo u data =>
    simp only [Server.Event.run, Server.State.streamVideo]
    split
    · exact ha
    · split
      · exact ha
      · simp only [Server.State.subscribers, Map.lookup_modify]
        split
        · next huv =>
          subst huv
          simpa [Server.State.subscribers, Function.comp_def] using ha
        · exact ha
  | flood now => exact ha

end Servers

namespace Host

variable {h : Host} {env : Env} {a : SocketAddr} {v : VideoId} {m : Message}

/-- A message that tells the host nothing about `a` leaves it a subscriber. -/
theorem mem_subscribers_handle (hword : wordIn a m.target v m = none) (ha : a ∈ h.subscribers v) :
    a ∈ (h.handle env m.packet m.source).subscribers v := by
  cases h with
  | node s =>
    refine mem_subscribers_after_of_not_removes (e := ⟨.packet m.packet m.source, env, s⟩) ha
      fun hrem ↦ ?_
    unfold Event.Removes at hrem
    split at hrem
    · next u addr hin =>
      obtain ⟨hpacket, hsource⟩ := Node.Input.packet.inj hin
      simp [wordIn, Client.wordTo, Client.wordOf, hpacket, hsource, hrem.1, hrem.2] at hword
    · next k requested addr hin =>
      obtain ⟨hpacket, hsource⟩ := Node.Input.packet.inj hin
      simp [wordIn, Client.wordTo, Client.wordOf, hpacket, hsource, hrem.1, hrem.2] at hword
    · next hin => cases hin
    · rw [Event.givesUp_of_packet rfl] at hrem
      cases hrem
  | server s =>
    refine mem_subscribers_handlePacket (fun hsource hpacket ↦ ?_) ha
    simp [wordIn, Client.wordTo, Client.wordOf, hsource, hpacket] at hword

/-- A message that speaks for `a` makes it a subscriber. -/
theorem mem_subscribers_handle_of_true (hword : wordIn a m.target v m = some true)
    (hv : h.Hosts v) : a ∈ (h.handle env m.packet m.source).subscribers v := by
  obtain ⟨hsource, -, hpacket⟩ := wordIn_eq_some_true hword
  rw [hsource, hpacket]
  exact mem_subscribers_request hv

end Host

/-- What the environment answers the node that handles the event. -/
def OverlayEvent.env? : OverlayEvent → Option Env
  | .deliver _ env _ => some env
  | .node _ e => some e.env
  | .lose _ | .duplicate _ | .server _ _ _ | .client _ | .stop _ => none

namespace Overlay

variable {o o' : Overlay} {e : OverlayEvent} {a b x : SocketAddr} {v : VideoId}

/-- What is in flight after an event apart from the messages that hosts and clients send. -/
def rest (o : Overlay) : OverlayEvent → List Message
  | .deliver index _ _ | .lose index => o.inFlight.eraseIdx index
  | .duplicate index => o.inFlight ++ o.inFlight[index]?.toList
  | .node _ _ | .server _ _ _ | .client _ | .stop _ => o.inFlight

/-- What is in flight was so before, or was sent in the event. -/
theorem inFlight_next (o : Overlay) (e : OverlayEvent) :
    (o.next e).inFlight = o.rest e ++ o.sent e := by
  cases e with
  | deliver index env view =>
    cases hm : o.inFlight[index]? with
    | none =>
      simp [next, rest, sent, hm, List.eraseIdx_of_length_le (List.getElem?_eq_none_iff.mp hm)]
    | some m =>
      simp only [next, rest, sent, hm, receive]
      cases hhost : o.hosts.lookup m.target with
      | none => simp
      | some k =>
        cases k with
        | node s => rfl
        | server s => rfl
  | server addr e sendResult =>
    simp only [next, rest, sent]
    cases hhost : o.hosts.lookup addr with
    | none => simp
    | some k =>
      cases k with
      | node s => simp
      | server s => rfl
  | client m => rfl
  | node addr e => rfl
  | lose index => simp [next, rest, sent]
  | duplicate index => simp [next, rest, sent]
  | stop addr => simp [next, rest, sent]

/-- What was not sent in the event was in flight before. -/
theorem mem_of_mem_inFlight_rest {m : Message} (h : m ∈ o.rest e) : m ∈ o.inFlight := by
  cases e with
  | deliver index env view => exact List.mem_of_mem_eraseIdx h
  | lose index => exact List.mem_of_mem_eraseIdx h
  | duplicate index =>
    rcases List.mem_append.mp h with h | h
    · exact h
    · exact List.mem_of_getElem? (Option.mem_toList.mp h)
  | _ => exact h

/-- A running node is a running host. -/
theorem HasNode.isSome (h : o.HasNode a) : (o.hosts.lookup a).isSome := by
  obtain ⟨s, hs⟩ := h
  simp [hs]

/-- Where something else runs, or nothing, there is no node. -/
theorem HasNode.ne_of_lookup (h : o.HasNode b) (hx : ∀ s, o.hosts.lookup x ≠ some (.node s)) :
    b ≠ x := by
  rintro rfl
  obtain ⟨s, hs⟩ := h
  exact hx s hs

/-- What a node is now it was before. -/
theorem Step.hadNode (hstep : o.Step e o') (ha : o'.HasNode a) : o.HasNode a := by
  obtain ⟨k, hk, hnode⟩ := hasNode_iff.mp ha
  obtain ⟨k₀, hk₀, hsame⟩ := hstep.kind hk
  exact hasNode_iff.mpr ⟨k₀, hk₀, hsame.trans hnode⟩

/-- A host that acts gets new subscribers. -/
theorem subscribersAt_update {k k₀ : Host} {sent : List (SocketAddr × Packet)}
    (hx : o.hosts.lookup x = some k₀) : (o.update x k sent).subscribersAt v b =
      if b = x then k.subscribers v else o.subscribersAt v b := by
  unfold subscribersAt
  rw [update_lookup]
  split
  · rw [hx]
    rfl
  · rfl

/-- The subscribers of the host that runs at the address. -/
theorem subscribersAt_of_lookup {k : Host} (hx : o.hosts.lookup x = some k) :
    o.subscribersAt v x = k.subscribers v := by
  simp [subscribersAt, hx]

/-- The node at `a` routes the video over the host at `b`. -/
def CountsOn (o : Overlay) (a b : SocketAddr) (v : VideoId) : Prop :=
  ∃ s, o.hosts.lookup a = some (.node s) ∧ s.videoRoutes.lookup v = some b

/-- A host that runs at the address takes subscribers for the video. -/
def HostedAt (o : Overlay) (b : SocketAddr) (v : VideoId) : Prop :=
  ∀ k, o.hosts.lookup b = some k → k.Hosts v

/-- A node takes subscribers for every video. -/
theorem HasNode.hostedAt (h : o.HasNode b) : o.HostedAt b v := by
  intro k hk
  obtain ⟨s, hs⟩ := h
  obtain rfl : k = .node s := Option.some.inj (hk.symm.trans hs)
  trivial

/-- Where no host runs nothing is asked of any. -/
theorem hostedAt_of_none (h : o.hosts.lookup b = none) : o.HostedAt b v := by
  intro k hk
  cases h.symm.trans hk

/-- A step that takes no subscription to the video at `b` from `a`, whose last word was for it: a
request comes to `b` and is not overtaken by what speaks against it, nothing of the kind comes
twice, and `b` does not drop `a` of its own accord. -/
def Keeps (o : Overlay) (a b : SocketAddr) (v : VideoId) : OverlayEvent → Prop
  | .deliver index _ _ => ∀ m, o.inFlight[index]? = some m → wordIn a b v m = some true →
      ∀ m' ∈ o.inFlight.take index, wordIn a b v m' ≠ some false
  | .lose index => ∀ m, o.inFlight[index]? = some m → wordIn a b v m ≠ some true
  | .duplicate index => ∀ m, o.inFlight[index]? = some m → wordIn a b v m ≠ some false
  | .node addr e => addr = b → ¬ e.Removes v a
  | .server addr e _ => addr = b → ∀ name, e ≠ .addVideo v name
  | .client _ | .stop _ => True

/-- A host that handles a message keeps `a`, or makes it a subscriber. -/
theorem settles_deliver {l r : List Message} {m : Message} {k : Host} (k' : Host) (env : Env)
    {sent : List (SocketAddr × Packet)} (hflight : o.inFlight = l ++ m :: r)
    (hhost : o.hosts.lookup m.target = some k) (hsub : ∀ u, k'.subscribers u = k.subscribers u)
    (hhosts : ∀ u, k.Hosts u → k'.Hosts u) (hv : o.HostedAt b v)
    (hkeeps : wordIn a b v m = some true → ∀ m' ∈ l, wordIn a b v m' ≠ some false)
    (h : Settles (wordIn a b v) o.inFlight (a ∈ o.subscribersAt v b)) :
    Settles (wordIn a b v) (l ++ r)
      (a ∈ (update { o with inFlight := l ++ r } m.target (k'.handle env m.packet m.source)
        sent).subscribersAt v b) := by
  have hupdate : (update { o with inFlight := l ++ r } m.target
      (k'.handle env m.packet m.source) sent).subscribersAt v b =
        if b = m.target then (k'.handle env m.packet m.source).subscribers v
        else o.subscribersAt v b :=
    subscribersAt_update (o := { o with inFlight := l ++ r }) hhost
  rw [hupdate]
  rw [hflight] at h
  by_cases hb : b = m.target
  · rw [if_pos hb]
    subst hb
    refine h.leave (fun hnone ha ↦ ?_) (fun htrue ↦ ?_) hkeeps
    · apply Host.mem_subscribers_handle hnone
      rwa [hsub, ← subscribersAt_of_lookup hhost]
    · exact Host.mem_subscribers_handle_of_true htrue (hhosts v (hv k hhost))
  · rw [if_neg hb]
    exact h.lose (by simp [wordIn_of_target (Ne.symm hb)])

/-- What is in flight when a message has arrived. -/
theorem rest_of_split {l r : List Message} {m : Message} {env : Env} {view : Node.State}
    (hflight : o.inFlight = l ++ m :: r) : o.rest (.deliver l.length env view) = l ++ r := by
  simp [rest, hflight, List.eraseIdx_append_of_length_le]

/-- Apart from what is sent in it, a step that takes no subscription leaves the last word and what
holds of it. -/
theorem Step.settles_rest (hstep : o.Step e o') (hkeeps : o.Keeps a b v e)
    (hb : (o'.hosts.lookup b).isSome) (hv : o.HostedAt b v)
    (h : Settles (wordIn a b v) o.inFlight (a ∈ o.subscribersAt v b)) :
    Settles (wordIn a b v) (o.rest e) (a ∈ o'.subscribersAt v b) := by
  cases hstep.transition with
  | @deliverNode l r m env s view hflight hhost hview =>
    rw [rest_of_split hflight]
    have hkeeps := hkeeps m (by simp [hflight])
    rw [hflight, List.take_left] at hkeeps
    exact settles_deliver (.node view) env hflight hhost hview.subscribers (fun _ ↦ id) hv hkeeps h
  | @deliverServer l r m env s view hflight hhost =>
    rw [rest_of_split hflight]
    have hkeeps := hkeeps m (by simp [hflight])
    rw [hflight, List.take_left] at hkeeps
    exact settles_deliver (.server s) env hflight hhost (fun _ ↦ rfl) (fun _ ↦ id) hv hkeeps h
  | @deliverNone l r m env view hflight hhost =>
    rw [rest_of_split hflight]
    rw [hflight] at h
    refine h.lose fun htrue ↦ ?_
    rw [← (wordIn_eq_some_true htrue).2.1, hhost] at hb
    cases hb
  | @lose l r m hflight =>
    have hrest : o.rest (.lose l.length) = l ++ r := by
      simp [rest, hflight, List.eraseIdx_append_of_length_le]
    rw [hrest]
    have hword := hkeeps m (by simp [hflight])
    rw [hflight] at h
    exact h.lose hword
  | @duplicate l r m hflight =>
    have hm : o.inFlight[l.length]? = some m := by simp [hflight]
    have hrest : o.rest (.duplicate l.length) = o.inFlight ++ [m] := by simp [rest, hm]
    rw [hrest]
    exact h.concat (hkeeps m hm)
  | @node x e s hhost hview hpacket =>
    refine h.mono fun ha ↦ ?_
    rw [subscribersAt_update hhost]
    split
    · next hbx =>
      apply mem_subscribers_after_of_not_removes _ (hkeeps hbx.symm)
      rw [hview.subscribers]
      rwa [hbx, subscribersAt_of_lookup hhost] at ha
    · exact ha
  | @server x e s sendResult hhost =>
    refine h.mono fun ha ↦ ?_
    rw [subscribersAt_update hhost]
    split
    · next hbx =>
      apply mem_subscribers_run (hkeeps hbx.symm)
      rwa [hbx, subscribersAt_of_lookup hhost] at ha
    · exact ha
  | @client m hsource => exact h
  | @stop x =>
    refine h.mono fun ha ↦ ?_
    obtain ⟨k, hk⟩ := Option.isSome_iff_exists.mp hb
    rw [subscribersAt_of_lookup hk]
    rwa [subscribersAt_of_lookup (Map.lookup_of_erase hk)] at ha

/-- Nor does the step as a whole, if nothing is sent in it that speaks against `a`. -/
theorem Step.settles (hstep : o.Step e o') (hkeeps : o.Keeps a b v e)
    (hb : (o'.hosts.lookup b).isSome) (hv : o.HostedAt b v)
    (hsent : ∀ m ∈ o.sent e, wordIn a b v m ≠ some false)
    (h : Settles (wordIn a b v) o.inFlight (a ∈ o.subscribersAt v b)) :
    Settles (wordIn a b v) o'.inFlight (a ∈ o'.subscribersAt v b) := by
  have hrest := hstep.settles_rest hkeeps hb hv h
  rw [hstep.2] at hrest ⊢
  rw [inFlight_next, Settles.append]
  exact Settles.of_no_objection hsent hrest

/-- Whoever sends in a step is a host, or comes from outside. -/
theorem Step.sender (hstep : o.Step e o') {m : Message} (hm : m ∈ o.sent e) :
    (∃ k, o.hosts.lookup m.source = some k) ∨ e = .client m := by
  have hout {x : SocketAddr} {k : Host} {sent : List (SocketAddr × Packet)}
      (hx : o.hosts.lookup x = some k) (hm : m ∈ outgoing x sent) :
      ∃ k, o.hosts.lookup m.source = some k := by
    obtain ⟨y, -, rfl⟩ := List.mem_map.mp hm
    exact ⟨k, hx⟩
  cases hstep.transition with
  | @deliverNode l r m' env s view hflight hhost hview =>
    rw [sent_deliver hflight, hhost] at hm
    exact .inl (hout hhost hm)
  | @deliverServer l r m' env s view hflight hhost =>
    rw [sent_deliver hflight, hhost] at hm
    cases hm
  | @deliverNone l r m' env view hflight hhost =>
    rw [sent_deliver hflight, hhost] at hm
    cases hm
  | @node x i s hhost hview hpacket => exact .inl (hout hhost hm)
  | @server x i s sendResult hhost =>
    simp only [sent, hhost] at hm
    exact .inl (hout hhost hm)
  | @client m' hnone =>
    obtain rfl : m = m' := by simpa [sent] using hm
    exact .inr rfl
  | lose | duplicate | stop => simp [sent] at hm

/-- The node at `a` handles the event `i` in a step. -/
structure Acts (o : Overlay) (e : OverlayEvent) (a : SocketAddr) (s : Node.State)
    (i : Node.Event) : Prop where
  host : o.hosts.lookup a = some (.node s)
  view : s.Reorder i.view
  sent : o.sent e = outgoing a i.after.sent
  env : e.env? = some i.env
  handled : o.handled e = some (a, i)

/-- Only the node that acts changes. -/
theorem Acts.node_cases {s : Node.State} {i : Node.Event} (h : o.Acts e x s i) (o₁ : Overlay)
    (hhosts : o₁.hosts = o.hosts) {sent : List (SocketAddr × Packet)} {t : Node.State}
    (ht : (o₁.update x (.node i.after.state) sent).hosts.lookup a = some (.node t)) :
    (o.hosts.lookup a = some (.node t) ∧ ∀ m ∈ o.sent e, m.source ≠ a) ∨
      ∃ s i, o.Acts e a s i ∧ t = i.after.state := by
  rw [update_lookup, hhosts] at ht
  split at ht
  · next hax =>
    subst hax
    rw [h.host, Option.map_some, Option.some.injEq, Host.node.injEq] at ht
    exact .inr ⟨s, i, h, ht.symm⟩
  · next hax =>
    refine .inl ⟨ht, fun m hm hsource ↦ hax ?_⟩
    rw [h.sent] at hm
    obtain ⟨y, -, rfl⟩ := List.mem_map.mp hm
    exact hsource.symm

/-- A node stays as it is while others send, or it handles an event. -/
theorem Step.node_cases (hstep : o.Step e o') {t : Node.State}
    (ht : o'.hosts.lookup a = some (.node t)) :
    (o.hosts.lookup a = some (.node t) ∧ ∀ m ∈ o.sent e, m.source ≠ a) ∨
      ∃ s i, o.Acts e a s i ∧ t = i.after.state := by
  cases hstep.transition with
  | @deliverNode l r m env s view hflight hhost hview =>
    have hacts : o.Acts (.deliver l.length env view) m.target s
        ⟨.packet m.packet m.source, env, view⟩ :=
      ⟨hhost, hview, by rw [sent_deliver hflight, hhost], rfl, by simp [handled, hflight]⟩
    exact hacts.node_cases { o with inFlight := l ++ r } rfl ht
  | @deliverServer l r m env s view hflight hhost =>
    refine .inl ⟨node_of_update_server (o := { o with inFlight := l ++ r }) ht, fun m' hm' ↦ ?_⟩
    rw [sent_deliver hflight, hhost] at hm'
    cases hm'
  | @deliverNone l r m env view hflight hhost =>
    refine .inl ⟨ht, fun m' hm' ↦ ?_⟩
    rw [sent_deliver hflight, hhost] at hm'
    cases hm'
  | @lose l r m hflight => exact .inl ⟨ht, by simp [sent]⟩
  | @duplicate l r m hflight => exact .inl ⟨ht, by simp [sent]⟩
  | @node x i s hhost hview hpacket =>
    have hacts : o.Acts (.node x i) x s i := ⟨hhost, hview, rfl, rfl, rfl⟩
    exact hacts.node_cases o rfl ht
  | @server x i s sendResult hhost =>
    have ht := node_of_update_server ht
    refine .inl ⟨ht, fun m hm hsource ↦ ?_⟩
    simp only [sent, hhost] at hm
    obtain ⟨y, -, rfl⟩ := List.mem_map.mp hm
    obtain rfl : x = a := hsource
    cases hhost.symm.trans ht
  | @client m hnone =>
    refine .inl ⟨ht, fun m' hm' hsource ↦ ?_⟩
    obtain rfl : m' = m := by simpa [sent] using hm'
    rw [hsource] at hnone
    cases hnone.symm.trans ht
  | @stop x => exact .inl ⟨Map.lookup_of_erase ht, by simp [sent]⟩

end Overlay

/-- Each route that a node sets comes with a request, and each stop with a dropped route. -/
theorem routes_after {e : Node.Event} {a b : SocketAddr} {v : VideoId} {ms : List Message}
    (now : VideoId → Prop)
    (hstart : ∀ u, e.view.videoRoutes.lookup u = some b → Settles (wordIn a b u) ms (now u))
    (h : e.after.state.videoRoutes.lookup v = some b) :
    Settles (wordIn a b v) (ms ++ outgoing a e.after.sent) (now v) := by
  rw [settles_outgoing]
  apply e.reaches_after.invariant (I := fun c ↦ ∀ u, c.state.videoRoutes.lookup u = some b →
    Settles (Client.wordTo b u) c.sent (Settles (wordIn a b u) ms (now u))) _ hstart v h
  intro c d hc hd
  cases hd with
  | @stop w _ n _ _ =>
    intro u hu
    rw [Ctx.push_state, Ctx.setState_state, State.dropRoute_lookup] at hu
    split at hu
    · cases hu
    · next huw =>
      rw [Ctx.push_sent]
      apply (hc u hu).concat
      simp [Client.wordTo, Client.wordOf, Ne.symm huw]
  | stopFails _ _ =>
    intro u hu
    rw [Ctx.fail_state, Ctx.setState_state, State.dropRoute_lookup] at hu
    split at hu
    · cases hu
    · exact hc u hu
  | @request w n _ =>
    intro u hu
    rw [Ctx.setState_state, State.setRoute_lookup] at hu
    rw [Ctx.setState_sent, Ctx.push_sent]
    split at hu
    · next huw =>
      obtain rfl : n = b := Option.some.inj hu
      have hasked : Client.wordTo n u (n, .serverPacket (.requestVideo w)) = some true := by
        simp [Client.wordTo, Client.wordOf, huw]
      exact Settles.append.mpr ((Settles.singleton_of_some hasked).mpr rfl)
    · next huw =>
      apply (hc u hu).concat
      simp [Client.wordTo, Client.wordOf, Ne.symm huw]
  | @send p n hp =>
    intro u hu
    rw [Ctx.push_sent]
    apply (hc u hu).concat
    cases p with
    | serverPacket q => cases hp
    | nodePacket q =>
      cases q with
      | clientPing k requested => cases hp
      | _ => simp [Client.wordTo, Client.wordOf]
    | _ => simp [Client.wordTo, Client.wordOf]
  | _ => exact hc

namespace Overlay

variable {o o' : Overlay} {e : OverlayEvent} {a b : SocketAddr} {v : VideoId}

/-- A node that counts on a subscription after a step has it, or its last word is still on its way,
if it was so before and the step takes nothing from it. -/
theorem Step.settles_route (hstep : o.Step e o') (hb : (o'.hosts.lookup b).isSome)
    (hkeeps : ∀ u, o.CountsOn a b u → o.Keeps a b u e)
    (hv : ∀ u, o.CountsOn a b u → o.HostedAt b u)
    (h : ∀ u, o.CountsOn a b u →
      Settles (wordIn a b u) o.inFlight (a ∈ o.subscribersAt u b))
    (hcounts : o'.CountsOn a b v) :
    Settles (wordIn a b v) o'.inFlight (a ∈ o'.subscribersAt v b) := by
  obtain ⟨t, ht, hroute⟩ := hcounts
  rcases hstep.node_cases ht with ⟨hs, hsent⟩ | ⟨s, i, hacts, rfl⟩
  · have hcounts : o.CountsOn a b v := ⟨t, hs, hroute⟩
    apply hstep.settles (hkeeps v hcounts) hb (hv v hcounts) _ (h v hcounts)
    intro m hm
    simp [wordIn_of_source (hsent m hm)]
  · have hflight : o'.inFlight = o.rest e ++ outgoing a i.after.sent := by
      rw [hstep.2, inFlight_next, hacts.sent]
    rw [hflight]
    refine routes_after (fun u ↦ a ∈ o'.subscribersAt u b) (fun u hu ↦ ?_) hroute
    rw [hacts.view.route] at hu
    have hcounts : o.CountsOn a b u := ⟨s, hacts.host, hu⟩
    exact hstep.settles_rest (hkeeps u hcounts) hb (hv u hcounts) (h u hcounts)

end Overlay
end PessiStreamer.System
