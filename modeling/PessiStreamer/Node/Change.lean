import Mathlib.Logic.Relation
import PessiStreamer.Node.Rules

/-!
# The elementary changes of a handler run

Every run of a handler is a sequence of elementary changes, whatever becomes of its sends.
Each change comes with what the handlers check before they make it, so an invariant of whole
runs has to be proved for the changes only.
-/

namespace PessiStreamer.Node
open Base Common

namespace Event

/-- The handler of the event enters a subscriber. -/
def Asks (e : Event) (v : VideoId) (a : SocketAddr) : Prop :=
  match e.input with
  | .packet (.serverPacket (.requestVideo u)) addr => v = u ∧ a = addr
  | .packet (.nodePacket (.clientPing _ requestedVideos)) addr => v ∈ requestedVideos ∧ a = addr
  | _ => False

/-- The event is a flood packet that has not visited the node. -/
def Floods (e : Event) (fromAddr : SocketAddr) (p : FloodPacket) : Prop :=
  e.input = .packet (.nodePacket (.floodPacket p)) fromAddr ∧ e.view.id ∉ p.visitedNodes

/-- The event is a flood packet of a node that lists the video. -/
def Lists (e : Event) (n : SocketAddr) (v : VideoId) : Prop :=
  ∃ p, e.Floods n p ∧ v ∈ p.videosAvailable.map Prod.fst

/-- The handler of the event takes a neighbour. -/
def Registers (e : Event) (ip : IpAddr) : Prop :=
  match e.input with
  | .packet (.nodePacket .newNeighbour) addr => ip = addr.ip
  | .parentAnswer addr (.ok (.acknowledged _)) => ip = addr.ip
  | _ => False

/-- The packets other than requests and stops that the handler of the event may send. -/
def Sends (e : Event) : Packet → Prop
  | .serverPacket _ => False
  | .nodePacket (.clientPing _ _) => False
  | .nodePacket (.floodPacket _) => ∃ fromAddr p, e.Floods fromAddr p
  | _ => True

/-- A video that has no route, unless over the node that is given up. -/
def Unrouted (e : Event) (s : State) (v : VideoId) : Prop :=
  s.videoRoutes.lookup v = none ∨ ∃ a, e.givesUp = some a ∧ s.videoRoutes.lookup v = some a

/-- Why a handler asks a node for a video. -/
inductive Selects (e : Event) (s : State) (v : VideoId) (n : SocketAddr) : Prop
  | requested {a : SocketAddr} : e.Asks v a → s.videoRoutes.lookup v = none →
      s.getBestNodeToRedirect v = some n → Selects e s v n
  | redirected {a : SocketAddr} : e.givesUp = some a → e.view.videoRoutes.lookup v = some a →
      s.availableRoutes = (e.view.markUnresponsive a).availableRoutes → e.Unrouted s v → n ≠ a →
      s.getBestNodeToRedirect v = some n → Selects e s v n
  | queued : e.Lists n v → v ∈ s.pendingVideoRequests → s.Offers n v → Selects e s v n
  | again : s.videoRoutes.lookup v = some n → Selects e s v n

/-- The next send of the run fails. -/
def SendFails (c : Ctx) : Prop := ∃ err, c.env.sendResult c.attempts = .error err

/-- One elementary change of a run of the event's handler. -/
inductive Change (e : Event) : Ctx → Ctx → Prop
  | subscribe {c : Ctx} {v : VideoId} {a : SocketAddr} : e.Asks v a →
      Change e c (c.setState (c.state.subscribe v a))
  | unsubscribe {c : Ctx} {v : VideoId} {a : SocketAddr} : e.Removes v a →
      Change e c (c.setState (c.state.unsubscribe v a))
  | stop {c : Ctx} {v : VideoId} {a n : SocketAddr} : e.Removes v a →
      c.state.videoRoutes.lookup v = some n →
      Change e c ((c.setState (c.state.dropRoute v)).push (.serverPacket (.stopVideo v)) n)
  | stopFails {c : Ctx} {v : VideoId} {a : SocketAddr} : e.Removes v a → SendFails c →
      Change e c (c.setState (c.state.dropRoute v)).fail
  | request {c : Ctx} {v : VideoId} {n : SocketAddr} : e.Selects c.state v n →
      Change e c ((c.push (.serverPacket (.requestVideo v)) n).setState (c.state.setRoute v n))
  | enqueue {c : Ctx} {vs : List VideoId} : (∀ fromAddr p, ¬ e.Floods fromAddr p) →
      (∀ v ∈ vs, e.Unrouted c.state v ∧ ∀ n, ¬ c.state.Offers n v) →
      Change e c (c.setState (c.state.enqueue vs))
  | dequeue {c : Ctx} {vs : List VideoId} :
      Change e c (c.setState (c.state.dequeue vs))
  | mark {c : Ctx} {a : SocketAddr} : e.givesUp = some a →
      Change e c (c.setState (c.state.markUnresponsive a))
  | name {c : Ctx} {videos : List (VideoId × String)} :
      Change e c (c.setState (c.state.updateVideoNames videos))
  | learn {c : Ctx} {fromAddr : SocketAddr} {p : FloodPacket} {t : SystemTime} :
      e.Floods fromAddr p → Change e c (c.setState (c.state.updateRoute fromAddr p t))
  | register {c : Ctx} {ip : IpAddr} : e.Registers ip →
      Change e c (c.setState (c.state.registerNewNeighbour ip))
  | ping {c : Ctx} {a : SocketAddr} {t : SystemTime} :
      Change e c (c.setState (c.state.recordPing a t))
  | video {c : Ctx} {packet : VideoPacket} {t : SystemTime} :
      Change e c (c.setState (c.state.recordVideoPacket packet t))
  | send {c : Ctx} {p : Packet} {a : SocketAddr} : e.Sends p → Change e c (c.push p a)
  | fail {c : Ctx} : SendFails c → Change e c c.fail

/-- A state of a run of the event's handler. -/
def Reaches (e : Event) (c : Ctx) : Prop :=
  Relation.ReflTransGen e.Change (.start e.env e.view) c

private theorem removes_of_givesUp {e : Event} {a : SocketAddr} (h : e.givesUp = some a)
    (v : VideoId) : e.Removes v a := by
  obtain ⟨input, env, view⟩ := e
  rcases input with ⟨p, addr⟩ | addr | _ | _ | ⟨target, result⟩ | ⟨addr, result⟩
  · cases h
  · exact h
  · cases h
  · cases h
  · exact h
  · cases h

/-- A node that handles a packet gives up no node. -/
theorem givesUp_of_packet {e : Event} {p : Packet} {addr : SocketAddr}
    (h : e.input = .packet p addr) : e.givesUp = none := by
  rw [givesUp, h]

/-- A request gives up no node. -/
theorem Asks.givesUp_eq {e : Event} {v : VideoId} {a : SocketAddr} (h : e.Asks v a) :
    e.givesUp = none := by
  unfold Asks at h
  split at h
  · next hin => exact givesUp_of_packet hin
  · next hin => exact givesUp_of_packet hin
  · cases h

/-- A flood packet gives up no node. -/
theorem Floods.givesUp_eq {e : Event} {fromAddr : SocketAddr} {p : FloodPacket}
    (h : e.Floods fromAddr p) : e.givesUp = none := givesUp_of_packet h.1

/-- Only a packet is a flood packet. -/
theorem not_floods_of_isPacket {e : Event} (h : e.input.isPacket = false) (fromAddr : SocketAddr)
    (p : FloodPacket) : ¬ e.Floods fromAddr p := by
  intro hf
  rw [hf.1] at h
  cases h

/-- A node is not given up by a packet that lists videos. -/
theorem Lists.givesUp_eq {e : Event} {n : SocketAddr} {v : VideoId} (h : e.Lists n v) :
    e.givesUp = none := by
  obtain ⟨p, hf, -⟩ := h
  exact hf.givesUp_eq

/-- A request is no flood packet. -/
theorem Asks.not_floods {e : Event} {v : VideoId} {a fromAddr : SocketAddr} {p : FloodPacket}
    (h : e.Asks v a) : ¬ e.Floods fromAddr p := by
  intro hf
  rw [Asks, hf.1] at h
  exact h

/-- No handler both asks for a video and removes one of its subscribers. -/
theorem Asks.not_removes {e : Event} {v : VideoId} {a b : SocketAddr} (h : e.Asks v a) :
    ¬ e.Removes v b := by
  intro hr
  unfold Asks at h
  split at h
  · next hin =>
    rw [Removes, hin] at hr
    exact nomatch (givesUp_of_packet hin).symm.trans hr
  · next hin =>
    rw [Removes, hin] at hr
    exact hr.1 h.1
  · exact h

/-- A flood packet removes no subscriber. -/
theorem Floods.not_removes {e : Event} {fromAddr : SocketAddr} {p : FloodPacket}
    (h : e.Floods fromAddr p) (v : VideoId) (b : SocketAddr) : ¬ e.Removes v b := by
  intro hr
  have hgives : e.givesUp = some b := by
    rw [Removes, h.1] at hr
    exact hr
  rw [h.givesUp_eq] at hgives
  cases hgives

/-- Only the sender of the packet in hand lists videos. -/
theorem Lists.unique {e : Event} {n m : SocketAddr} {v u : VideoId} (h : e.Lists n v)
    (h' : e.Lists m u) : n = m := by
  obtain ⟨p, hf, -⟩ := h
  obtain ⟨q, hf', -⟩ := h'
  exact (Input.packet.inj (hf.1.symm.trans hf'.1)).2

end Event

section Handlers

variable {e : Event} {P Q : Ctx → Prop} {E : HandlerError → Ctx → Prop}

/-- A send is a change or fails. -/
theorem send_reaches {p : Packet} {a : SocketAddr} (hp : e.Sends p)
    (hpush : ∀ c, P c → P (c.push p a)) (hfail : ∀ c, P c → P c.fail) :
    Triple (fun c ↦ e.Reaches c ∧ P c) (send p a) (fun _ c ↦ e.Reaches c ∧ P c)
      fun _ c ↦ e.Reaches c ∧ P c := by
  intro c ⟨hc, hP⟩
  rcases send_cases p a c with h | ⟨err, he, h⟩
  · rw [h]
    exact ⟨hc.tail (.send hp), hpush c hP⟩
  · rw [h]
    exact ⟨hc.tail (.fail ⟨err, he⟩), hfail c hP⟩

/-- A change of the state. -/
theorem modifyState_reaches {f : State → State}
    (h : ∀ c, P c → e.Change c (c.setState (f c.state)) ∧ Q (c.setState (f c.state))) :
    Triple (fun c ↦ e.Reaches c ∧ P c) (modifyState f) (fun _ c ↦ e.Reaches c ∧ Q c) E :=
  fun c hc ↦ ⟨hc.1.tail (h c hc.2).1, (h c hc.2).2⟩

/-- A request is a change of the state, or its send fails. -/
theorem requestVideoToNode_reaches {v : VideoId} {n : SocketAddr}
    (hsel : ∀ c, P c → e.Selects c.state v n)
    (hroute : ∀ c, P c →
      Q ((c.push (.serverPacket (.requestVideo v)) n).setState (c.state.setRoute v n)))
    (hfail : ∀ c, P c → Q c.fail) :
    Triple (fun c ↦ e.Reaches c ∧ P c) (requestVideoToNode v n) (fun _ c ↦ e.Reaches c ∧ Q c)
      fun _ c ↦ e.Reaches c ∧ Q c := by
  intro c ⟨hc, hP⟩
  rcases requestVideoToNode_cases v n c with h | ⟨err, he, h⟩
  · rw [h]
    exact ⟨hc.tail (.request (hsel c hP)), hroute c hP⟩
  · rw [h]
    exact ⟨hc.tail (.fail ⟨err, he⟩), hfail c hP⟩

private theorem handleRequestVideo_reaches {v : VideoId} {a : SocketAddr} (hask : e.Asks v a) :
    Triple e.Reaches (handleRequestVideo v a) (fun _ ↦ e.Reaches) fun _ ↦ e.Reaches := by
  intro c hc
  have hsub : e.Reaches (c.setState (c.state.subscribe v a)) := hc.tail (.subscribe hask)
  rcases handleRequestVideo_cases v a c with ⟨-, h⟩ | ⟨hr, n, hb, h⟩ | ⟨hr, hb, h⟩
  · rw [h]
    exact hsub
  · rw [h]
    have hsel : e.Selects (c.state.subscribe v a) v n := .requested hask hr hb
    rcases requestVideoToNode_cases v n (c.setState (c.state.subscribe v a)) with h | ⟨err, he, h⟩
    · rw [h]
      exact hsub.tail (.request hsel)
    · rw [h]
      exact hsub.tail (.fail ⟨err, he⟩)
  · rw [h]
    refine hsub.tail (.enqueue (fun _ _ ↦ hask.not_floods) fun u hu ↦ ?_)
    obtain rfl := List.mem_singleton.mp hu
    exact ⟨.inl hr, State.best_eq_none_iff.mp hb⟩

private theorem handleStopVideo_reaches {v : VideoId} {a : SocketAddr} (hrem : e.Removes v a)
    {P : State → Prop} (hunsub : ∀ s, P s → P (s.unsubscribe v a))
    (hdrop : ∀ s, P s → P (s.dropRoute v)) :
    Triple (fun c ↦ e.Reaches c ∧ P c.state) (handleStopVideo v a)
      (fun _ c ↦ e.Reaches c ∧ P c.state) fun _ c ↦ e.Reaches c ∧ P c.state := by
  intro c ⟨hc, hP⟩
  have hleft : e.Reaches (c.setState (c.state.unsubscribe v a)) := hc.tail (.unsubscribe hrem)
  rcases handleStopVideo_cases v a c with ⟨-, h⟩ | ⟨-, n, hn, h⟩
  · rw [h]
    exact ⟨hleft, hunsub _ hP⟩
  · rw [h]
    rcases send_cases (.serverPacket (.stopVideo v)) n
      (c.setState ((c.state.unsubscribe v a).dropRoute v)) with hs | ⟨err, he, hs⟩
    · rw [hs]
      exact ⟨hleft.tail (.stop hrem hn), hdrop _ (hunsub _ hP)⟩
    · rw [hs]
      exact ⟨hleft.tail (.stopFails hrem ⟨err, he⟩), hdrop _ (hunsub _ hP)⟩

/-- A stop on its own. -/
theorem stopVideo_reaches {v : VideoId} {a : SocketAddr} (hrem : e.Removes v a) :
    Triple e.Reaches (handleStopVideo v a) (fun _ ↦ e.Reaches) fun _ ↦ e.Reaches := by
  have h := handleStopVideo_reaches hrem (P := fun _ ↦ True) (fun _ _ ↦ trivial)
    fun _ _ ↦ trivial
  apply h.consequence
  · exact fun c hc ↦ ⟨hc, trivial⟩
  · exact fun _ c hc ↦ hc.1
  · exact fun _ c hc ↦ hc.1

/-- What holds while the videos of a node that was given up are redirected: none of those still
to come or left over was routed anew, and no node offers those left over. -/
structure Redirecting (e : Event) (addr : SocketAddr) (todo left : List VideoId) (s : State) :
    Prop where
  marked : s.availableRoutes = (e.view.markUnresponsive addr).availableRoutes
  received : ∀ v ∈ todo, e.view.videoRoutes.lookup v = some addr
  nodup : (todo ++ left).Nodup
  unrouted : ∀ v ∈ todo ++ left, e.Unrouted s v
  unoffered : ∀ v ∈ left, ∀ n, ¬ s.Offers n v

private theorem Redirecting.inactive {addr : SocketAddr} {todo left : List VideoId} {s : State}
    (h : Redirecting e addr todo left s) : ¬ s.IsActive addr := by
  rw [State.isActive_congr h.marked, State.isActive_markUnresponsive]
  tauto

private theorem Redirecting.request {addr n : SocketAddr} {v : VideoId} {todo left : List VideoId}
    {s : State} (h : Redirecting e addr (v :: todo) left s) :
    Redirecting e addr todo left (s.setRoute v n) where
  marked := h.marked
  received := fun u hu ↦ h.received u (List.mem_cons_of_mem v hu)
  nodup := (List.nodup_cons.mp h.nodup).2
  unrouted := by
    intro u hu
    have huv : u ≠ v := by
      rintro rfl
      exact (List.nodup_cons.mp h.nodup).1 hu
    simpa [Event.Unrouted, huv] using h.unrouted u (List.mem_cons_of_mem v hu)
  unoffered := h.unoffered

private theorem Redirecting.leave {addr : SocketAddr} {v : VideoId} {todo left : List VideoId}
    {s : State} (h : Redirecting e addr (v :: todo) left s) (hv : ∀ n, ¬ s.Offers n v) :
    Redirecting e addr todo (left ++ [v]) s where
  marked := h.marked
  received := fun u hu ↦ h.received u (List.mem_cons_of_mem v hu)
  nodup := by
    rw [← List.append_assoc]
    exact (List.perm_append_singleton v (todo ++ left)).nodup_iff.mpr h.nodup
  unrouted := by
    intro u hu
    apply h.unrouted u
    simp only [List.mem_append, List.mem_cons, List.mem_nil_iff, or_false] at hu ⊢
    tauto
  unoffered := by
    intro u hu
    rcases List.mem_append.mp hu with hu | hu
    · exact h.unoffered u hu
    · obtain rfl := List.mem_singleton.mp hu
      exact hv

/-- Connecting to parents sends requests to become a neighbour. -/
theorem connectToParents_reaches (hpush : ∀ c a, P c → P (c.push (.nodePacket .newNeighbour) a))
    (hfail : ∀ c, P c → P c.fail) (addr : SocketAddr) (vs : List VideoId) :
    Triple (fun c ↦ e.Reaches c ∧ P c) (connectToParents addr vs)
      (fun _ c ↦ e.Reaches c ∧ P c) E := by
  refine Triple.bind (Q := fun _ c ↦ e.Reaches c ∧ P c) (fun _ hc ↦ hc) fun s ↦ ?_
  refine Triple.ite (fun _ ↦ Triple.pure fun _ ↦ id) fun _ ↦ Triple.forM fun parent _ ↦ ?_
  refine Triple.ite (fun _ ↦ Triple.pure fun _ ↦ id) fun _ ↦ Triple.attempt ?_
  exact send_reaches trivial (fun c ↦ hpush c parent) hfail

/-- No video is received twice from a node. -/
theorem nodup_videosReceiving (s : State) (addr : SocketAddr) :
    (s.videosReceiving addr).Nodup :=
  (List.filter_sublist.map _).nodup (s.videoRoutes.nodupKeys : s.videoRoutes.entries.keys.Nodup)

private theorem handleUnresponsiveNode_reaches {addr : SocketAddr} (hg : e.givesUp = some addr) :
    Triple (fun c ↦ e.Reaches c ∧ c.state = e.view.markUnresponsive addr)
      (handleUnresponsiveNode addr) (fun _ ↦ e.Reaches) E := by
  refine triple_bind_getState fun s ↦ ?_
  have hstop : Triple
      (fun c ↦ e.Reaches c ∧ Redirecting e addr (s.videosReceiving addr) [] c.state)
      ((s.videosSending addr).forM fun v ↦ attempt (handleStopVideo v addr))
      (fun _ c ↦ e.Reaches c ∧ Redirecting e addr (s.videosReceiving addr) [] c.state) E := by
    refine Triple.forM fun v _ ↦ Triple.attempt ?_
    refine handleStopVideo_reaches (P := Redirecting e addr (s.videosReceiving addr) [])
      (Event.removes_of_givesUp hg v)
      (fun s h ↦ ⟨h.marked, h.received, h.nodup, h.unrouted, h.unoffered⟩)
      fun s h ↦ ⟨h.marked, h.received, h.nodup, fun u hu ↦ ?_, h.unoffered⟩
    by_cases huv : u = v
    · exact .inl (by simp [huv])
    · simpa [Event.Unrouted, huv] using h.unrouted u hu
  refine Triple.bind (hstop.strengthen ?_) fun _ ↦ Triple.bind (Q := fun remaining c ↦
    e.Reaches c ∧ Redirecting e addr [] remaining c.state) ?_ fun remaining ↦ ?_
  · rintro c ⟨⟨hc, hstate⟩, rfl⟩
    rw [hstate]
    have hreceived (v : VideoId) (hv : v ∈ (e.view.markUnresponsive addr).videosReceiving addr) :
        e.view.videoRoutes.lookup v = some addr := mem_videosReceiving.mp hv
    refine ⟨hc, rfl, hreceived, by simpa using nodup_videosReceiving _ addr, fun v hv ↦ ?_, ?_⟩
    · exact .inr ⟨addr, hg, hreceived v (by simpa using hv)⟩
    · simp
  · refine redirectVideos_rule (I := fun todo left c ↦ e.Reaches c ∧
      Redirecting e addr todo left c.state) ?_ ?_ (s.videosReceiving addr) []
    · rintro v rest left n
      refine (requestVideoToNode_reaches (P := fun c ↦ Redirecting e addr (v :: rest) left c.state ∧
        c.state.getBestNodeToRedirect v = some n) ?_ ?_ ?_).strengthen
        fun c hc ↦ ⟨hc.1.1, hc.1.2, hc.2⟩
      · rintro c ⟨hr, hb⟩
        refine .redirected hg (hr.received v (by simp)) hr.marked (hr.unrouted v (by simp)) ?_ hb
        rintro rfl
        exact hr.inactive (State.offers_of_best hb).isActive
      · exact fun c hc ↦ hc.1.request
      · rintro c ⟨hr, -⟩
        exact ⟨hr.marked, fun u hu ↦ hr.received u (List.mem_cons_of_mem v hu),
          (List.nodup_cons.mp hr.nodup).2, fun u hu ↦ hr.unrouted u (List.mem_cons_of_mem v hu),
          hr.unoffered⟩
    · rintro v rest left c hb ⟨hc, hr⟩
      exact ⟨hc, hr.leave (State.best_eq_none_iff.mp hb)⟩
  · refine Triple.bind (connectToParents_reaches
      (P := fun c ↦ Redirecting e addr [] remaining c.state) (fun _ _ ↦ id) (fun _ ↦ id) addr
      remaining) fun _ ↦ ?_
    refine (modifyState_reaches (Q := fun _ ↦ True) fun c hc ↦
      ⟨.enqueue ?_ fun v hv ↦ ?_, trivial⟩).weaken fun _ c hc ↦ hc.1
    · intro fromAddr p hf
      simp [hf.givesUp_eq] at hg
    · exact ⟨hc.unrouted v (by simpa using hv), hc.unoffered v hv⟩

/-- Marking a node and giving it up. -/
theorem giveUp_reaches {addr : SocketAddr} (hg : e.givesUp = some addr) :
    Triple (fun c ↦ e.Reaches c ∧ c.state = e.view) (do
        modifyState fun s ↦ s.markUnresponsive addr
        handleUnresponsiveNode addr) (fun _ ↦ e.Reaches) E :=
  Triple.bind (modifyState_reaches fun c hc ↦
    ⟨.mark hg, by rw [Ctx.setState_state, hc]⟩) fun _ ↦ handleUnresponsiveNode_reaches hg

private theorem checkPendingVideos_reaches {fromAddr : SocketAddr} {p : FloodPacket}
    (hf : e.Floods fromAddr p) :
    Triple (fun c ↦ e.Reaches c ∧ ∀ v ∈ p.videosAvailable.map Prod.fst, c.state.Offers fromAddr v)
      (checkPendingVideos fromAddr p.videosAvailable) (fun _ ↦ e.Reaches) E := by
  refine triple_bind_getState fun s ↦ ?_
  refine Triple.bind (Q := fun _ c ↦ e.Reaches c ∧ True) ?_ fun _ ↦
    (modifyState_reaches (Q := fun _ ↦ True) fun c _ ↦ ⟨.dequeue, trivial⟩).weaken
      fun _ c hc ↦ hc.1
  refine (Triple.forM (I := fun c ↦ e.Reaches c ∧ ∀ v ∈ s.pendingListed p.videosAvailable,
    v ∈ c.state.pendingVideoRequests ∧ c.state.Offers fromAddr v) fun v hv ↦ ?_).consequence
    ?_ (fun _ c hc ↦ ⟨hc.1, trivial⟩) fun _ _ ↦ id
  · refine Triple.attempt (requestVideoToNode_reaches (fun c hc ↦ ?_) (fun c hc ↦ hc) fun c hc ↦ hc)
    exact .queued ⟨p, hf, (mem_pendingListed.mp hv).2⟩ (hc v hv).1 (hc v hv).2
  · rintro c ⟨⟨hc, hoffers⟩, rfl⟩
    refine ⟨hc, fun v hv ↦ ?_⟩
    obtain ⟨hpending, hlisted⟩ := mem_pendingListed.mp hv
    exact ⟨hpending, hoffers v hlisted⟩

private theorem handleFloodPacket_reaches {fromAddr : SocketAddr} {p : FloodPacket}
    (hin : e.input = .packet (.nodePacket (.floodPacket p)) fromAddr) :
    Triple (fun c ↦ e.Reaches c ∧ c.state = e.view) (handleFloodPacket fromAddr p)
      (fun _ ↦ e.Reaches) E := by
  refine triple_bind_getState fun s ↦
    Triple.ite (fun _ ↦ Triple.pure fun c hc ↦ hc.1.1) fun hid ↦ ?_
  refine Triple.strengthen (P := fun c ↦ e.Floods fromAddr p ∧ e.Reaches c)
    (Triple.of_forall fun hf ↦ ?_) ?_
  · refine Triple.bind (Q := fun _ c ↦ e.Reaches c ∧ True) (fun c hc ↦ ⟨hc, trivial⟩) fun t ↦
      Triple.bind (modifyState_reaches (Q := fun _ ↦ True) fun c _ ↦ ⟨.name, trivial⟩) fun _ ↦
      Triple.bind (modifyState_reaches fun c _ ↦ ⟨.learn hf, ?_⟩) fun _ ↦
      Triple.bind (checkPendingVideos_reaches hf) fun _ ↦ ?_
    · intro v hv
      rw [Ctx.setState_state, State.offers_updateRoute, if_pos rfl]
      exact hv
    refine Triple.bind (Q := fun _ ↦ e.Reaches) (fun c hc ↦ hc) fun s ↦ Triple.forM fun addr _ ↦
      Triple.attempt (Triple.bind (Q := fun _ c ↦ e.Reaches c ∧ True)
        (fun c hc ↦ ⟨hc, trivial⟩) fun t ↦ ?_)
    refine (send_reaches (P := fun _ ↦ True) ?_ (fun _ _ ↦ trivial) fun _ _ ↦ trivial).consequence
      (fun _ ↦ id) (fun _ c hc ↦ hc.1) fun _ c hc ↦ hc.1
    exact ⟨fromAddr, p, hf⟩
  · rintro c ⟨⟨hc, hview⟩, rfl⟩
    exact ⟨⟨hin, hview ▸ hid⟩, hc⟩

private theorem handleClientPing_reaches {n : UInt64} {requested : List VideoId} {addr : SocketAddr}
    (hin : e.input = .packet (.nodePacket (.clientPing n requested)) addr) :
    Triple e.Reaches (handleClientPing n requested addr) (fun _ ↦ e.Reaches)
      fun _ ↦ e.Reaches := by
  refine Triple.bind (Q := fun _ ↦ e.Reaches) (fun _ ↦ id) fun s ↦
    Triple.bind (Q := fun _ c ↦ e.Reaches c ∧ True) (fun c hc ↦ ⟨hc, trivial⟩) fun t ↦
    Triple.bind (modifyState_reaches (Q := fun _ ↦ True) fun c _ ↦ ⟨.ping, trivial⟩) fun _ ↦
    Triple.bind (Q := fun _ ↦ e.Reaches) ?_ fun _ ↦
    Triple.bind (Q := fun _ ↦ e.Reaches) (fun _ ↦ id) fun s ↦
    Triple.bind (Q := fun _ c ↦ e.Reaches c ∧ True) ?_ fun _ ↦
      (send_reaches (p := .clientPacket _) trivial (fun _ _ ↦ trivial)
        fun _ _ ↦ trivial).consequence (fun _ ↦ id) (fun _ _ hc ↦ hc.1) fun _ _ hc ↦ hc.1
  · refine (Triple.forM fun v hv ↦ ?_).strengthen fun c hc ↦ hc.1
    refine Triple.bind (Q := fun _ ↦ e.Reaches) (fun _ ↦ id) fun s ↦
      Triple.ite (fun _ ↦ Triple.pure fun _ ↦ id) fun _ ↦ handleRequestVideo_reaches ?_
    rw [Event.Asks, hin]
    exact ⟨hv, rfl⟩
  · refine (Triple.forM (I := e.Reaches) fun video _ ↦ ?_).weaken fun _ c hc ↦ ⟨hc, trivial⟩
    refine Triple.ite (fun h ↦ ?_) fun _ ↦ Triple.pure fun _ ↦ id
    apply stopVideo_reaches
    rw [Event.Removes, hin]
    exact ⟨h.1, rfl⟩

private theorem handleVideoPacket_reaches (packet : VideoPacket) :
    Triple e.Reaches (handleVideoPacket packet) (fun _ ↦ e.Reaches) fun _ ↦ e.Reaches := by
  refine Triple.bind (Q := fun _ ↦ e.Reaches) (fun _ ↦ id) fun s ↦
    Triple.bind (Q := fun _ c ↦ e.Reaches c ∧ True) (fun c hc ↦ ⟨hc, trivial⟩) fun t ↦
    Triple.bind (modifyState_reaches (Q := fun _ ↦ True) fun c _ ↦ ⟨.video, trivial⟩) fun _ ↦
    Triple.ite (fun _ ↦ Triple.pure fun c hc ↦ hc.1) fun _ ↦ ?_
  cases s.interested.lookup packet.streamId with
  | some subscribers =>
    refine (Triple.forM (I := fun c ↦ e.Reaches c ∧ True) (E := fun _ c ↦ e.Reaches c ∧ True)
      fun addr _ ↦ ?_).consequence (fun _ ↦ id) (fun _ _ hc ↦ hc.1) fun _ _ hc ↦ hc.1
    exact send_reaches trivial (fun _ _ ↦ trivial) fun _ _ ↦ trivial
  | none => exact fun c hc ↦ hc.1

private theorem registerNewNeighbour_reaches {ip : IpAddr} (h : e.Registers ip) :
    Triple e.Reaches (modifyState fun s ↦ s.registerNewNeighbour ip) (fun _ ↦ e.Reaches) E :=
  fun _ hc ↦ hc.tail (.register h)

/-- A routed video is asked for again where its route leads. -/
theorem videoHealthCheck_reaches :
    Triple e.Reaches videoHealthCheck (fun _ ↦ e.Reaches) fun _ ↦ e.Reaches := by
  refine Triple.bind (Q := fun _ ↦ e.Reaches) (fun _ ↦ id) fun s ↦
    Triple.bind (Q := fun _ ↦ e.Reaches) (fun _ ↦ id) fun t ↦ Triple.forM fun packet _ ↦
    triple_bind_getState fun s ↦ Triple.ite (fun _ ↦ ?_) fun _ ↦ Triple.pure fun _ hc ↦ hc.1
  cases hr : s.videoRoutes.lookup packet.1 with
  | some n =>
    refine (requestVideoToNode_reaches (P := fun c ↦ c.state = s) (Q := fun _ ↦ True) ?_
      (fun _ _ ↦ trivial) fun _ _ ↦ trivial).consequence (fun _ ↦ id) (fun _ _ hc ↦ hc.1)
        fun _ _ hc ↦ hc.1
    rintro c rfl
    exact .again hr
  | none => exact Triple.pure fun _ hc ↦ hc.1

/-- The sweep removes the clients whose last ping is too old. -/
theorem clientHealthCheck_reaches (hin : e.input = .clientHealthCheck) :
    Triple (fun c ↦ e.Reaches c ∧ c = .start e.env e.view) clientHealthCheck (fun _ ↦ e.Reaches)
      E := by
  rintro c ⟨hc, rfl⟩
  refine (Triple.forM (I := e.Reaches) fun ping hping ↦ ?_) _ hc
  refine Triple.bind (Q := fun _ ↦ e.Reaches) (fun _ ↦ id) fun s ↦
    Triple.ite (fun hold ↦ Triple.forM fun v _ ↦ ?_) fun _ ↦ Triple.pure fun _ ↦ id
  apply Triple.attempt
  apply stopVideo_reaches
  rw [Event.Removes, hin]
  exact ⟨ping.2, Map.mem_entries_iff.mp hping, hold⟩

end Handlers

namespace Event

variable {e : Event}

private theorem handleInput_reaches (e : Event) :
    Triple (fun c ↦ e.Reaches c ∧ c = .start e.env e.view) (handleInput e.input)
      (fun _ ↦ e.Reaches) fun _ ↦ e.Reaches := by
  have hstart {m : Handler Unit} (h : Triple e.Reaches m (fun _ ↦ e.Reaches) fun _ ↦ e.Reaches) :
      Triple (fun c ↦ e.Reaches c ∧ c = .start e.env e.view) m (fun _ ↦ e.Reaches)
        fun _ ↦ e.Reaches := h.strengthen fun c hc ↦ hc.1
  have hview (c : Ctx) (hc : e.Reaches c ∧ c = .start e.env e.view) :
      e.Reaches c ∧ c.state = e.view := by
    obtain ⟨hc, rfl⟩ := hc
    exact ⟨hc, rfl⟩
  -- both tasks read the state before they give up a neighbour
  have hgive {s : State} {addr : SocketAddr} (h : e.view = s → e.givesUp = some addr) :
      Triple (fun c ↦ (e.Reaches c ∧ c.state = e.view) ∧ c.state = s) (do
        modifyState fun t ↦ t.markUnresponsive addr
        handleUnresponsiveNode addr) (fun _ ↦ e.Reaches) fun _ ↦ e.Reaches := by
    rintro c ⟨⟨hc, hview⟩, rfl⟩
    exact giveUp_reaches (h hview.symm) c ⟨hc, hview⟩
  cases hin : e.input with
  | packet p addr =>
    rcases p with p | (⟨n, vs⟩ | _ | p) | (v | v) | p
    · exact hstart (handleVideoPacket_reaches p)
    · exact hstart (handleClientPing_reaches hin)
    · refine hstart (registerNewNeighbour_reaches ?_)
      rw [Registers, hin]
    · apply (handleFloodPacket_reaches hin).strengthen
      rintro c ⟨hc, rfl⟩
      exact ⟨hc, rfl⟩
    · refine hstart (handleRequestVideo_reaches ?_)
      rw [Asks, hin]
      exact ⟨rfl, rfl⟩
    · apply hstart
      apply stopVideo_reaches
      rw [Removes, hin]
      exact ⟨rfl, rfl⟩
    · exact hstart fun c hc ↦ hc
  | neighbourUnresponsive addr =>
    apply Triple.strengthen _ hview
    apply triple_bind_getState
    intro s
    apply Triple.ite
    · intro h
      apply hgive
      intro hs
      rw [givesUp, hin]
      exact if_pos (hs ▸ h)
    · exact fun _ c hc ↦ hc.1.1
  | clientHealthCheck => exact clientHealthCheck_reaches hin
  | videoHealthCheck => exact hstart videoHealthCheck_reaches
  | floodPacketResult target result =>
    apply Triple.strengthen _ hview
    apply triple_bind_getState
    intro s
    apply Triple.ite
    · intro h
      apply hgive
      intro hs
      rw [givesUp, hin]
      exact if_pos (hs ▸ h)
    · exact fun _ ↦ Triple.pure fun _ hc ↦ hc.1.1
  | parentAnswer addr result =>
    rcases result with err | _ | _
    · exact hstart (Triple.pure fun _ ↦ id)
    · refine hstart (registerNewNeighbour_reaches ?_)
      rw [Registers, hin]
    · exact hstart (Triple.pure fun _ ↦ id)

/-- The handler of an event only makes the elementary changes. -/
theorem reaches_after (e : Event) : e.Reaches e.after :=
  Triple.finalState (handleInput_reaches e) ⟨.refl, rfl⟩

/-- What each change preserves holds when the handler ends. -/
theorem Reaches.invariant {I : Ctx → Prop} (h : e.Reaches c)
    (hchange : ∀ c d, I c → e.Change c d → I d) (hstart : I (.start e.env e.view)) : I c := by
  induction h with
  | refl => exact hstart
  | tail _ hd ih => exact hchange _ _ ih hd

/-- The handler keeps the id of the node. -/
theorem after_id (e : Event) : e.after.state.id = e.view.id := by
  refine e.reaches_after.invariant (I := fun c ↦ c.state.id = e.view.id) (fun c d hc hd ↦ ?_) rfl
  cases hd
  all_goals exact hc

/-- Only a new neighbour changes the neighbours of the node. -/
theorem after_neighbours {e : Event} (h : ∀ ip, ¬ e.Registers ip) :
    e.after.state.neighbours = e.view.neighbours := by
  refine e.reaches_after.invariant (I := fun c ↦ c.state.neighbours = e.view.neighbours)
    (fun c d hc hd ↦ ?_) rfl
  cases hd with
  | register hr => exact (h _ hr).elim
  | _ => exact hc

/-- Who is a subscriber after the handler was one before or is entered by the event. -/
theorem mem_subscribers_after {e : Event} {v : VideoId} {x : SocketAddr}
    (h : x ∈ e.after.state.subscribers v) : x ∈ e.view.subscribers v ∨ e.Asks v x := by
  refine e.reaches_after.invariant (I := fun c ↦ x ∈ c.state.subscribers v →
    x ∈ e.view.subscribers v ∨ e.Asks v x) (fun c d hc hd ↦ ?_) .inl h
  cases hd with
  | @subscribe u a hask =>
    intro hx
    rw [Ctx.setState_state, State.subscribe_subscribers] at hx
    by_cases hvu : v = u
    · subst hvu
      rw [if_pos rfl] at hx
      by_cases ha : a ∈ c.state.subscribers v
      · rw [if_pos ha] at hx
        exact hc hx
      · rw [if_neg ha] at hx
        rcases List.mem_append.mp hx with hx | hx
        · exact hc hx
        · exact .inr (List.mem_singleton.mp hx ▸ hask)
    · rw [if_neg hvu] at hx
      exact hc hx
  | @unsubscribe u a _ =>
    intro hx
    rw [Ctx.setState_state, State.unsubscribe_subscribers] at hx
    split at hx
    · next hvu =>
      subst hvu
      exact hc (List.mem_filter.mp hx).1
    · exact hc hx
  | _ => exact hc

/-- The packets a handler sends are requests, stops and those the event allows. -/
theorem sent_after (e : Event) :
    ∀ x ∈ e.after.sent, (∃ p, x.2 = .serverPacket p) ∨ e.Sends x.2 := by
  refine e.reaches_after.invariant
    (I := fun c ↦ ∀ x ∈ c.sent, (∃ p, x.2 = .serverPacket p) ∨ e.Sends x.2) (fun c d hc hd ↦ ?_)
    (by simp [Ctx.start])
  have hpush {p : Packet} {a : SocketAddr} (hp : (∃ q, p = .serverPacket q) ∨ e.Sends p) :
      ∀ x ∈ c.sent ++ [(a, p)], (∃ p, x.2 = .serverPacket p) ∨ e.Sends x.2 := by
    intro x hx
    rcases List.mem_append.mp hx with hx | hx
    · exact hc x hx
    · rw [List.mem_singleton.mp hx]
      exact hp
  cases hd with
  | stop => exact hpush (.inl ⟨_, rfl⟩)
  | request => exact hpush (.inl ⟨_, rfl⟩)
  | send hp => exact hpush (.inr hp)
  | _ => exact hc

/-- A node sends no pings. -/
theorem not_ping_sent {e : Event} {x : SocketAddr × Packet} (hx : x ∈ e.after.sent) {k : UInt64}
    {requested : List VideoId} : x.2 ≠ .nodePacket (.clientPing k requested) := by
  intro hping
  rcases e.sent_after x hx with ⟨p, hp⟩ | hsends
  · cases hping.symm.trans hp
  · rw [hping] at hsends
    exact hsends

/-- Only a flood packet that is no loop makes the node send flood packets. -/
theorem no_flood_sent {e : Event} (h : ∀ fromAddr p, ¬ e.Floods fromAddr p) {a : SocketAddr}
    {q : FloodPacket} : (a, .nodePacket (.floodPacket q)) ∉ e.after.sent := by
  intro hx
  rcases e.sent_after _ hx with ⟨p, hp⟩ | ⟨fromAddr, p, hp⟩
  · cases hp
  · exact h fromAddr p hp

end Event
end PessiStreamer.Node
