import PessiStreamer.Node.Queue
import PessiStreamer.System.Words

/-!
# Upstream and downstream agree

A node that another one regards as subscriber routes the video over it, or the stop is on its way.
Sends may fail, and packets may be lost, come twice and overtake each other. What must not happen
between running nodes is that a request comes after the stop that takes it back, that a stop gets
lost, and that a node gives up another one that it receives a video from.
-/

namespace PessiStreamer.Node.Event
open Base Common

variable {e : Event} {v : VideoId} {b : SocketAddr}

/-- The node drops the route of a video over the host at `b`, and the stop is not sent. -/
def StopFails (e : Event) (v : VideoId) (b : SocketAddr) : Prop :=
  e.view.videoRoutes.lookup v = some b ∧ e.after.state.videoRoutes.lookup v = none ∧
    (b, .serverPacket (.stopVideo v)) ∉ e.after.sent

/-- The videos that a flood packet lists are queued no longer. -/
theorem not_lists_after {n : SocketAddr} (hv : v ∈ e.after.state.pendingVideoRequests) :
    ¬ e.Lists n v := by
  rintro ⟨p, ⟨hin, hid⟩, hlisted⟩
  rw [e.queue_after] at hv
  rcases List.mem_append.mp hv with hv | hv
  · obtain ⟨hpending, hkept⟩ := List.mem_filter.mp hv
    apply of_decide_eq_true hkept
    rw [dequeued, hin]
    simp only [if_neg hid]
    exact mem_pendingListed.mpr ⟨hpending, hlisted⟩
  · rw [queued, hin] at hv
    simp [givesUp_of_packet hin] at hv

/-- While the event is handled, a video keeps its source, or the source is told to stop, or the
route was dropped for a removed subscriber and a send fails. -/
def KeepsOrStops (e : Event) (v : VideoId) (b : SocketAddr) (c : Ctx) : Prop :=
  c.state.videoRoutes.lookup v = some b ∨ (b, .serverPacket (.stopVideo v)) ∈ c.sent ∨
    (c.state.videoRoutes.lookup v = none ∧ (∃ x, e.Removes v x) ∧ ¬ e.env.AllOk)

namespace KeepsOrStops

variable {c d : Ctx}

/-- What leaves the route alone and takes back no packet. -/
private theorem congr (h : e.KeepsOrStops v b c)
    (hroute : d.state.videoRoutes.lookup v = c.state.videoRoutes.lookup v)
    (hsent : ∀ x ∈ c.sent, x ∈ d.sent) : e.KeepsOrStops v b d := by
  unfold KeepsOrStops
  rw [hroute]
  exact h.imp_right (Or.imp_left (hsent _))

/-- A route is dropped and its source told to stop. -/
private theorem stop {u : VideoId} {n : SocketAddr} (h : e.KeepsOrStops v b c)
    (hn : c.state.videoRoutes.lookup u = some n) : e.KeepsOrStops v b
      ((c.setState (c.state.dropRoute u)).push (.serverPacket (.stopVideo u)) n) := by
  by_cases huv : v = u
  · subst huv
    right; left
    rw [Ctx.push_sent]
    rcases h with hkept | hsent | ⟨hnone, -⟩
    · obtain rfl : n = b := Option.some.inj (hn.symm.trans hkept)
      exact List.mem_append_right _ (List.mem_singleton_self _)
    · exact List.mem_append_left _ hsent
    · cases hn.symm.trans hnone
  · apply h.congr
    · rw [Ctx.push_state, Ctx.setState_state, State.dropRoute_lookup, if_neg huv]
    · exact fun _ ↦ List.mem_append_left _

/-- A route is dropped and the stop cannot be sent. -/
private theorem stopFails {u : VideoId} {x : SocketAddr} (h : e.KeepsOrStops v b c)
    (hrem : e.Removes u x) (hfails : ¬ e.env.AllOk) :
    e.KeepsOrStops v b (c.setState (c.state.dropRoute u)).fail := by
  by_cases huv : v = u
  · subst huv
    right; right
    refine ⟨?_, ⟨x, hrem⟩, hfails⟩
    rw [Ctx.fail_state, Ctx.setState_state, State.dropRoute_lookup, if_pos rfl]
  · apply h.congr
    · rw [Ctx.fail_state, Ctx.setState_state, State.dropRoute_lookup, if_neg huv]
    · exact fun _ ↦ id

/-- The node asks another one for a video. After a route was dropped it does not ask anew: the
subscriber that was removed is who would have asked. -/
private theorem request {u : VideoId} {n : SocketAddr} (h : e.KeepsOrStops v b c)
    (hredirect : ∀ a, e.givesUp = some a → e.view.videoRoutes.lookup v ≠ some a)
    (hlists : ∀ m, e.Lists m v → v ∈ c.state.pendingVideoRequests → m = b)
    (hsel : e.Selects c.state u n) : e.KeepsOrStops v b
      ((c.push (.serverPacket (.requestVideo u)) n).setState (c.state.setRoute u n)) := by
  have hpushed : ∀ x ∈ c.sent, x ∈ ((c.push (.serverPacket (.requestVideo u)) n).setState
      (c.state.setRoute u n)).sent := fun _ ↦ List.mem_append_left _
  by_cases huv : v = u
  · subst huv
    have hkeep (hn : n = b) : e.KeepsOrStops v b
        ((c.push (.serverPacket (.requestVideo v)) n).setState (c.state.setRoute v n)) := by
      left
      rw [Ctx.setState_state, State.setRoute_lookup, if_pos rfl, hn]
    rcases h with hkept | hsent | ⟨hnone, ⟨x, hrem⟩, -⟩
    · cases hsel with
      | requested _ hfree _ => cases hkept.symm.trans hfree
      | redirected hg hview _ _ _ _ => exact (hredirect _ hg hview).elim
      | queued hlisted hpend _ => exact hkeep (hlists n hlisted hpend)
      | again hagain => exact hkeep (Option.some.inj (hagain.symm.trans hkept))
    · exact .inr (.inl (hpushed _ hsent))
    · cases hsel with
      | requested hasks _ _ => exact (hasks.not_removes hrem).elim
      | redirected hg hview _ _ _ _ => exact (hredirect _ hg hview).elim
      | queued hlisted _ _ =>
        obtain ⟨p, hf, -⟩ := hlisted
        exact (hf.not_removes v x hrem).elim
      | again hagain => cases hnone.symm.trans hagain
  · refine h.congr ?_ hpushed
    rw [Ctx.setState_state, State.setRoute_lookup, if_neg huv]

end KeepsOrStops

/-- A video keeps its source, or the source is told to stop, or a send failed. This takes that the
source is not given up, and that no other node offers the video while it is queued. -/
theorem route_after_cases (hroute : e.view.videoRoutes.lookup v = some b)
    (hgive : e.givesUp ≠ some b)
    (hqueued : ∀ n, e.Lists n v → v ∈ e.view.pendingVideoRequests → n = b) :
    e.after.state.videoRoutes.lookup v = some b ∨
      (b, .serverPacket (.stopVideo v)) ∈ e.after.sent ∨
      (e.after.state.videoRoutes.lookup v = none ∧ ¬ e.env.AllOk) := by
  have hafter := e.reaches_after.invariant (I := fun c ↦ c.env = e.env ∧
    (∀ n, e.Lists n v → v ∈ c.state.pendingVideoRequests → n = b) ∧ e.KeepsOrStops v b c)
    (fun c d hc hd ↦ ?_) ⟨rfl, hqueued, .inl hroute⟩
  · obtain ⟨-, -, hkept | hsent | ⟨hnone, -, hfails⟩⟩ := hafter
    · exact .inl hkept
    · exact .inr (.inl hsent)
    · exact .inr (.inr ⟨hnone, hfails⟩)
  obtain ⟨henv, hlists, hcases⟩ := hc
  cases hd with
  | stop _ hn => exact ⟨henv, hlists, hcases.stop hn⟩
  | stopFails hrem hfail =>
    refine ⟨henv, hlists, hcases.stopFails hrem fun hok ↦ ?_⟩
    obtain ⟨err, herr⟩ := hfail
    rw [henv, hok] at herr
    cases herr
  | request hsel =>
    refine ⟨henv, hlists, hcases.request (fun a hg hview ↦ ?_) hlists hsel⟩
    obtain rfl : a = b := Option.some.inj (hview.symm.trans hroute)
    exact hgive hg
  | @enqueue vs hflood _ =>
    refine ⟨henv, fun n hlisted _ ↦ ?_, hcases⟩
    obtain ⟨p, hf, -⟩ := hlisted
    exact (hflood n p hf).elim
  | dequeue =>
    refine ⟨henv, fun n hlisted hv ↦ ?_, hcases⟩
    exact hlists n hlisted ((State.dequeue_pending _ _ _).mp hv).1
  | send _ =>
    exact ⟨henv, hlists, hcases.congr rfl fun _ ↦ List.mem_append_left _⟩
  | _ => exact ⟨henv, hlists, hcases⟩

end PessiStreamer.Node.Event

namespace PessiStreamer.System
open Base Common Node

namespace Overlay

/-- The node at `a` routes the video over the host at `b`, or a stop of it is on its way there. -/
def Accounted (o : Overlay) (a b : SocketAddr) (v : VideoId) (ms : List Message) : Prop :=
  o.CountsOn a b v ∨ ⟨a, b, .serverPacket (.stopVideo v)⟩ ∈ ms

/-- A step after which two nodes can still agree. Between running nodes, a request only arrives
while its sender routes the video over the receiver or a stop follows, a stop that is lost leaves
the same behind, and a node that drops a route sends the stop. No node gives up a running one that
it receives a video from. -/
def Faithful (o : Overlay) : OverlayEvent → Prop
  | .deliver index env view => ∀ m, o.inFlight[index]? = some m → o.HasNode m.target →
      (∀ v, m.packet = .serverPacket (.requestVideo v) → o.HasNode m.source →
        o.Accounted m.source m.target v o.inFlight) ∧
      ∀ v b, o.HasNode b → ¬ Event.StopFails ⟨.packet m.packet m.source, env, view⟩ v b
  | .lose index => ∀ m v, o.inFlight[index]? = some m → m.packet = .serverPacket (.stopVideo v) →
      o.HasNode m.source → o.HasNode m.target →
        o.Accounted m.source m.target v (o.inFlight.eraseIdx index)
  | .node _ e => ∀ v b, o.HasNode b →
      ¬ e.StopFails v b ∧ (e.givesUp = some b → e.view.videoRoutes.lookup v ≠ some b)
  | .duplicate _ | .server _ _ _ | .client _ | .stop _ => True

variable {o o' : Overlay} {e : OverlayEvent} {a b : SocketAddr} {v : VideoId}
  {ms ms' : List Message}

private theorem Accounted.mono (h : o.Accounted a b v ms)
    (hms : ∀ m ∈ ms, m.packet = .serverPacket (.stopVideo v) → m.source = a → m.target = b →
      m ∈ ms') : o.Accounted a b v ms' :=
  h.imp_right fun hstop ↦ hms _ hstop rfl rfl rfl

/-- A message that is no stop between the two leaves. -/
private theorem Accounted.rest {l r : List Message} {m : Message}
    (h : o.Accounted a b v o.inFlight) (hflight : o.inFlight = l ++ m :: r)
    (hm : m.packet = .serverPacket (.stopVideo v) → m.source = a → m.target ≠ b) :
    o.Accounted a b v (l ++ r) := by
  refine h.mono fun m' hm' hstop hsource htarget ↦ ?_
  rcases Overlay.eq_or_mem_rest hflight hm' with rfl | hrest
  · exact (hm hstop hsource htarget).elim
  · exact hrest

/-- What a faithful step asks of the node that acts in it. -/
theorem Faithful.acts {s : Node.State} {i : Node.Event} (hf : o.Faithful e)
    (hacts : o.Acts e a s i) (hb : o.HasNode b) :
    ¬ i.StopFails v b ∧ (i.givesUp = some b → i.view.videoRoutes.lookup v ≠ some b) := by
  have hhandled := hacts.handled
  cases e with
  | deliver index env view =>
    obtain ⟨m, hm, heq⟩ := Option.map_eq_some_iff.mp hhandled
    obtain ⟨rfl, rfl⟩ := Prod.mk.inj heq
    refine ⟨(hf m hm ⟨s, hacts.host⟩).2 v b hb, fun hg ↦ ?_⟩
    rw [Event.givesUp_of_packet rfl] at hg
    cases hg
  | node x i' =>
    obtain ⟨rfl, rfl⟩ := Prod.mk.inj (Option.some.inj hhandled)
    exact hf v b hb
  | lose | duplicate | server | client | stop => cases hhandled

end Overlay

/-- What holds of the queue while a node handles an event. The videos that the flood packet in hand
lists are still to be taken off it. -/
structure Queueing (o : Overlay) (e : Node.Event) (s : Node.State) : Prop where
  queued : ∀ v n, v ∈ s.pendingVideoRequests → s.videoRoutes.lookup v = some n →
    ¬ o.HasNode n ∨ e.Lists n v
  offered : ∀ v n, v ∈ s.pendingVideoRequests → s.Offers n v → e.Lists n v
  givenUp : ∀ v n, e.givesUp = some n → s.videoRoutes.lookup v = some n →
    e.view.videoRoutes.lookup v = some n

namespace Queueing

variable {o : Overlay} {e : Node.Event} {s t : Node.State}

/-- Changes that set no route, queue nothing and offer what is listed. -/
theorem congr (h : Queueing o e s)
    (hroute : ∀ v n, t.videoRoutes.lookup v = some n → s.videoRoutes.lookup v = some n)
    (hpend : ∀ v ∈ t.pendingVideoRequests, v ∈ s.pendingVideoRequests)
    (hoffers : ∀ n v, t.Offers n v → s.Offers n v ∨ e.Lists n v) : Queueing o e t where
  queued v n hv hn := h.queued v n (hpend v hv) (hroute v n hn)
  offered v n hv hn := (hoffers n v hn).elim (h.offered v n (hpend v hv)) id
  givenUp v n hg hn := h.givenUp v n hg (hroute v n hn)

private theorem dropRoute (h : Queueing o e s) (v : VideoId) : Queueing o e (s.dropRoute v) := by
  refine h.congr (fun u n hn ↦ ?_) (fun _ ↦ id) fun _ _ ↦ .inl
  rw [State.dropRoute_lookup] at hn
  split at hn
  · cases hn
  · exact hn

/-- The node asks another one for a video. -/
theorem setRoute (h : Queueing o e s) {v : VideoId} {n : SocketAddr} (hsel : e.Selects s v n) :
    Queueing o e (s.setRoute v n) where
  queued := by
    intro u m hu hm
    rw [State.setRoute_lookup] at hm
    split at hm
    · next huv =>
      subst huv
      obtain rfl := Option.some.inj hm
      cases hsel with
      | requested _ _ hbest => exact .inr (h.offered u n hu (State.offers_of_best hbest))
      | redirected _ _ _ _ _ hbest => exact .inr (h.offered u n hu (State.offers_of_best hbest))
      | queued hlists _ _ => exact .inr hlists
      | again hagain => exact h.queued u n hu hagain
    · exact h.queued u m hu hm
  offered := h.offered
  givenUp := by
    intro u m hg hm
    rw [State.setRoute_lookup] at hm
    split at hm
    · next huv =>
      subst huv
      obtain rfl := Option.some.inj hm
      cases hsel with
      | requested hasks _ _ => simp [hasks.givesUp_eq] at hg
      | redirected hg' _ _ _ hne _ => exact (hne (Option.some.inj (hg.symm.trans hg'))).elim
      | queued hlists _ _ => simp [hlists.givesUp_eq] at hg
      | again hagain => exact h.givenUp u n hg hagain
    · exact h.givenUp u m hg hm

/-- Every change of a handler that gives up no running node that the node receives a video from. -/
theorem change {c d : Ctx} (h : Queueing o e c.state)
    (hgive : ∀ v n, e.givesUp = some n → e.view.videoRoutes.lookup v = some n → ¬ o.HasNode n)
    (hd : e.Change c d) : Queueing o e d.state := by
  cases hd with
  | stop _ _ => exact h.dropRoute _
  | stopFails _ _ => exact h.dropRoute _
  | request hsel => exact h.setRoute hsel
  | @enqueue vs _ hvs =>
    refine ⟨fun v n hv hn ↦ ?_, fun v n hv hn ↦ ?_, h.givenUp⟩
    · rcases (State.enqueue_pending _ _ _).mp hv with hv | hv
      · exact h.queued v n hv hn
      · rcases (hvs v hv).1 with hnone | ⟨m, hg, hm⟩
        · cases hnone.symm.trans hn
        · obtain rfl : m = n := Option.some.inj (hm.symm.trans hn)
          exact .inl (hgive v m hg (h.givenUp v m hg hm))
    · rcases (State.enqueue_pending _ _ _).mp hv with hv | hv
      · exact h.offered v n hv hn
      · exact ((hvs v hv).2 n hn).elim
  | dequeue =>
    exact h.congr (fun _ _ ↦ id) (fun v hv ↦ ((State.dequeue_pending _ _ _).mp hv).1)
      fun _ _ ↦ .inl
  | mark _ =>
    exact h.congr (fun _ _ ↦ id) (fun _ ↦ id) fun n v hn ↦
      .inl (State.offers_markUnresponsive.mp hn).2
  | @learn fromAddr p t hf =>
    refine h.congr (fun _ _ ↦ id) (fun _ ↦ id) fun n v hn ↦ ?_
    rw [Ctx.setState_state, State.offers_updateRoute] at hn
    split at hn
    · next heq => exact .inr ⟨p, heq ▸ hf, hn⟩
    · exact .inl hn
  | _ => exact h.congr (fun _ _ ↦ id) (fun _ ↦ id) fun _ _ ↦ .inl

end Queueing

/-- The invariant of the network. -/
structure Agreed (o : Overlay) : Prop where
  upstream : ∀ a b v, a ≠ b → o.HasNode a → o.HasNode b → a ∈ o.subscribersAt v b →
    o.Accounted a b v o.inFlight
  queued : ∀ a v n s, o.hosts.lookup a = some (.node s) → v ∈ s.pendingVideoRequests →
    s.videoRoutes.lookup v = some n → ¬ o.HasNode n
  unoffered : ∀ a v n s, o.hosts.lookup a = some (.node s) → v ∈ s.pendingVideoRequests →
    ¬ s.Offers n v
  pings : ∀ m ∈ o.inFlight, o.HasNode m.source → ∀ k vs, m.packet ≠ .nodePacket (.clientPing k vs)

namespace Agreed

variable {o o' : Overlay} {e : OverlayEvent} {a b : SocketAddr} {v : VideoId}

/-- Whom the receiver of a message regards as subscriber is accounted for without the message. -/
theorem accounted_deliver {l r : List Message} {m : Message} {env : Env} {s view : Node.State}
    (h : Agreed o) (hflight : o.inFlight = l ++ m :: r)
    (hhost : o.hosts.lookup m.target = some (.node s)) (hview : s.Reorder view)
    (hrequest : ∀ v, m.packet = .serverPacket (.requestVideo v) → o.HasNode m.source →
      o.Accounted m.source m.target v o.inFlight)
    (hab : a ≠ m.target) (ha : o.HasNode a)
    (hsub : a ∈ (Event.after ⟨.packet m.packet m.source, env, view⟩).state.subscribers v) :
    o.Accounted a m.target v (l ++ r) := by
  have hall : o.Accounted a m.target v o.inFlight := by
    rcases Event.mem_subscribers_after hsub with hmem | hasks
    · apply h.upstream a m.target v hab ha ⟨s, hhost⟩
      rw [Overlay.subscribersAt_of_lookup hhost]
      rwa [hview.subscribers] at hmem
    · unfold Event.Asks at hasks
      split at hasks
      · next u addr hin =>
        obtain ⟨hpacket, rfl⟩ := Node.Input.packet.inj hin
        obtain ⟨rfl, rfl⟩ := hasks
        exact hrequest v hpacket ha
      · next k vs addr hin =>
        obtain ⟨hpacket, rfl⟩ := Node.Input.packet.inj hin
        obtain ⟨-, rfl⟩ := hasks
        exact (h.pings m (by simp [hflight]) ha k vs hpacket).elim
      · exact hasks.elim
  refine hall.rest hflight fun hstop hsource ↦ ?_
  -- the stop would have just arrived
  have hnot : a ∉ ((Host.node view).handle env (.serverPacket (.stopVideo v)) a).subscribers v :=
    Host.not_mem_subscribers_stop
  rw [hstop, hsource] at hsub
  exact (hnot hsub).elim

/-- Once the host at `b` has acted, its subscriber is accounted for by what is still under way. -/
theorem accounted_rest (h : Agreed o) (hstep : o.Step e o') (hf : o.Faithful e) (hab : a ≠ b)
    (ha : o.HasNode a) (hb : o'.HasNode b) (hsub : a ∈ o'.subscribersAt v b) :
    o.Accounted a b v (o.rest e) := by
  have hb₀ := hstep.hadNode hb
  have hbefore : a ∈ o.subscribersAt v b → o.Accounted a b v o.inFlight :=
    h.upstream a b v hab ha hb₀
  -- a message to another host is no stop for `b`
  have hother {l r : List Message} {m : Message} (hflight : o.inFlight = l ++ m :: r)
      (hbm : b ≠ m.target) (hacc : o.Accounted a b v o.inFlight) : o.Accounted a b v (l ++ r) :=
    hacc.rest hflight fun _ _ ↦ hbm.symm
  cases hstep.transition with
  | @deliverNode l r m env s view hflight hhost hview =>
    rw [Overlay.rest_of_split hflight]
    rw [Overlay.subscribersAt_update (o := { o with inFlight := l ++ r }) hhost] at hsub
    split at hsub
    · next hbm =>
      subst hbm
      have hrequest := (hf m (by simp [hflight]) ⟨s, hhost⟩).1
      exact h.accounted_deliver hflight hhost hview hrequest hab ha hsub
    · next hbm => exact hother hflight hbm (hbefore hsub)
  | @deliverServer l r m env s view hflight hhost =>
    rw [Overlay.rest_of_split hflight]
    have hbm : b ≠ m.target := hb₀.ne_of_lookup (by simp [hhost])
    rw [Overlay.subscribersAt_update (o := { o with inFlight := l ++ r }) hhost, if_neg hbm] at hsub
    exact hother hflight hbm (hbefore hsub)
  | @deliverNone l r m env view hflight hhost =>
    rw [Overlay.rest_of_split hflight]
    have hbm : b ≠ m.target := hb₀.ne_of_lookup (by simp [hhost])
    exact hother hflight hbm (hbefore hsub)
  | @lose l r m hflight =>
    have hrest : o.inFlight.eraseIdx l.length = l ++ r := by
      simp [hflight, List.eraseIdx_append_of_length_le]
    rw [Overlay.rest, hrest]
    by_cases hm : m = ⟨a, b, .serverPacket (.stopVideo v)⟩
    · subst hm
      exact hrest ▸ hf ⟨a, b, _⟩ v (by simp [hflight]) rfl ha hb₀
    · refine (hbefore hsub).rest hflight fun hstop hsource htarget ↦ ?_
      exact hm (by rw [← hstop, ← hsource, ← htarget])
  | @duplicate l r m hflight =>
    exact (hbefore hsub).mono fun m' hm' _ _ _ ↦ List.mem_append_left _ hm'
  | @node x i s hhost hview hpacket =>
    apply hbefore
    rw [Overlay.subscribersAt_update hhost] at hsub
    split at hsub
    · next hbx =>
      subst hbx
      rw [Overlay.subscribersAt_of_lookup hhost]
      rcases Event.mem_subscribers_after hsub with hmem | hasks
      · rwa [hview.subscribers] at hmem
      · unfold Event.Asks at hasks
        split at hasks
        · next hin => simp [hin, Input.isPacket] at hpacket
        · next hin => simp [hin, Input.isPacket] at hpacket
        · exact hasks.elim
    · exact hsub
  | @server x i s sendResult hhost =>
    have hbx : b ≠ x := hb₀.ne_of_lookup (by simp [hhost])
    rw [Overlay.subscribersAt_update hhost, if_neg hbx] at hsub
    exact hbefore hsub
  | @client m hsource => exact hbefore hsub
  | @stop x =>
    apply hbefore
    obtain ⟨t, ht⟩ := hb
    rw [Overlay.subscribersAt_of_lookup ht] at hsub
    rwa [Overlay.subscribersAt_of_lookup (Map.lookup_of_erase ht)]

/-- What the node at `a` does keeps it accounted for. -/
theorem accounted_next (h : Agreed o) (hstep : o.Step e o') (hf : o.Faithful e)
    (ha : o'.HasNode a) (hb : o.HasNode b) (hacc : o.Accounted a b v (o.rest e)) :
    o'.Accounted a b v o'.inFlight := by
  have hflight : o'.inFlight = o.rest e ++ o.sent e := by
    rw [hstep.2, Overlay.inFlight_next]
  rcases hacc with hcounts | hstop
  · obtain ⟨t, ht⟩ := ha
    rcases hstep.node_cases ht with ⟨hs, -⟩ | ⟨s, i, hacts, rfl⟩
    · obtain ⟨s, hs', hroute⟩ := hcounts
      obtain rfl : s = t := Host.node.inj (Option.some.inj (hs'.symm.trans hs))
      exact .inl ⟨s, ht, hroute⟩
    · obtain ⟨s', hs', hroute⟩ := hcounts
      obtain rfl : s' = s := Host.node.inj (Option.some.inj (hs'.symm.trans hacts.host))
      rw [← hacts.view.route] at hroute
      have hfaithful := hf.acts (v := v) hacts hb
      have hqueued (n : SocketAddr) (_ : i.Lists n v) (hv : v ∈ i.view.pendingVideoRequests) :
          n = b := by
        rw [hacts.view.pendingVideoRequests] at hv
        rw [hacts.view.route] at hroute
        exact (h.queued a v b s' hacts.host hv hroute hb).elim
      rcases Event.route_after_cases hroute (fun hg ↦ hfaithful.2 hg hroute) hqueued with
        hkept | hsent | ⟨hnone, -⟩
      · exact .inl ⟨_, ht, hkept⟩
      · right
        rw [hflight, hacts.sent]
        exact List.mem_append_right _ (List.mem_map.mpr ⟨_, hsent, rfl⟩)
      · right
        have hsent : (b, .serverPacket (.stopVideo v)) ∈ i.after.sent := by
          by_contra hsent
          exact hfaithful.1 ⟨hroute, hnone, hsent⟩
        rw [hflight, hacts.sent]
        exact List.mem_append_right _ (List.mem_map.mpr ⟨_, hsent, rfl⟩)
  · right
    rw [hflight]
    exact List.mem_append_left _ hstop

/-- The queue of a node that acts. -/
theorem queueing_after {s : Node.State} {i : Node.Event} (h : Agreed o) (hf : o.Faithful e)
    (hacts : o.Acts e a s i) : Queueing o i i.after.state := by
  refine i.reaches_after.invariant (I := fun c ↦ Queueing o i c.state) (fun c d hc hd ↦ ?_) ?_
  · exact hc.change (fun v n hg hn hnode ↦ (hf.acts hacts hnode).2 hg hn) hd
  · refine ⟨fun v n hv hn ↦ .inl ?_, fun v n hv hn ↦ ?_, fun v n hg hn ↦ hn⟩
    · exact h.queued a v n s hacts.host (hacts.view.pendingVideoRequests ▸ hv)
        ((hacts.view.route v).symm.trans hn)
    · exact (h.unoffered a v n s hacts.host (hacts.view.pendingVideoRequests ▸ hv)
        ((hacts.view.offers n v).mp hn)).elim

private theorem step (h : Agreed o) (hstep : o.Step e o') (hf : o.Faithful e) : Agreed o' := by
  refine ⟨fun a b v hab ha hb hsub ↦ ?_, fun a v n t ht hv hn hnode ↦ ?_,
    fun a v n t ht hv hn ↦ ?_, fun m hm hsource k vs hping ↦ ?_⟩
  · have hrest := h.accounted_rest hstep hf hab (hstep.hadNode ha) hb hsub
    exact h.accounted_next hstep hf ha (hstep.hadNode hb) hrest
  · rcases hstep.node_cases ht with ⟨hs, -⟩ | ⟨s, i, hacts, rfl⟩
    · exact h.queued a v n t hs hv hn (hstep.hadNode hnode)
    · rcases (h.queueing_after hf hacts).queued v n hv hn with hdead | hlists
      · exact hdead (hstep.hadNode hnode)
      · exact Event.not_lists_after hv hlists
  · rcases hstep.node_cases ht with ⟨hs, -⟩ | ⟨s, i, hacts, rfl⟩
    · exact h.unoffered a v n t hs hv hn
    · exact Event.not_lists_after hv ((h.queueing_after hf hacts).offered v n hv hn)
  · obtain ⟨t, ht⟩ := hsource
    rw [hstep.2, Overlay.inFlight_next] at hm
    rcases List.mem_append.mp hm with hm | hm
    · exact h.pings m (Overlay.mem_of_mem_inFlight_rest hm) (hstep.hadNode ⟨t, ht⟩) k vs hping
    rcases hstep.node_cases ht with ⟨-, hsent⟩ | ⟨s, i, hacts, -⟩
    · exact hsent m hm rfl
    · rw [hacts.sent] at hm
      obtain ⟨x, hx, heq⟩ := List.mem_map.mp hm
      exact i.not_ping_sent hx ((congrArg Message.packet heq).trans hping)

end Agreed

/-- Node 1 can reach the server 9 over the nodes 2 and 3. -/
def diamond : Overlay where
  hosts := AList.insert (hostAddr 9) (.server (.new 9 [hostAddr 2, hostAddr 3])) <|
    AList.insert (hostAddr 1) (.node (.new 1 [.v4 2, .v4 3] (hostAddr 1))) <|
    AList.insert (hostAddr 2) (.node (.new 2 [.v4 1] (hostAddr 2))) <|
    AList.insert (hostAddr 3) (.node (.new 3 [.v4 1] (hostAddr 3))) ∅
  inFlight := []

/-- The hosts of the diamond were just started. -/
theorem diamond_started : diamond.Started := by
  refine ⟨rfl, Overlay.forall_hosts ?_⟩
  have hentries : diamond.hosts.entries =
      [⟨hostAddr 9, .server (.new 9 [hostAddr 2, hostAddr 3])⟩,
        ⟨hostAddr 1, .node (.new 1 [.v4 2, .v4 3] (hostAddr 1))⟩,
        ⟨hostAddr 2, .node (.new 2 [.v4 1] (hostAddr 2))⟩,
        ⟨hostAddr 3, .node (.new 3 [.v4 1] (hostAddr 3))⟩] := rfl
  simp only [hentries, List.forall_mem_cons]
  exact ⟨.inl ⟨_, _, rfl⟩, .inr ⟨_, _, _, rfl⟩, .inr ⟨_, _, _, rfl⟩, .inr ⟨_, _, _, rfl⟩,
    List.forall_mem_nil _⟩

/-- A client of node 1 pings it with the videos it wants. -/
def diamondPing (videos : List VideoId) : OverlayEvent :=
  .client ⟨⟨.v4 7, 4000⟩, hostAddr 1, .nodePacket (.clientPing 0 videos)⟩

/-- The server offers video 5, floods, and the client asks node 1 for it. -/
def diamondAsk : List OverlayEvent :=
  [.server (hostAddr 9) (.addVideo 5 "five") fun _ ↦ .ok (),
    .server (hostAddr 9) (.flood 0) fun _ ↦ .ok ()] ++ List.replicate 8 deliverNext ++
    [diamondPing [5], deliverNext]

/-- Node 1 receives the video over node 3. -/
def diamondServed : List (Overlay × OverlayEvent) × Overlay :=
  diamond.play (diamondAsk ++ List.replicate 4 deliverNext)

end PessiStreamer.System
