import PessiStreamer.Node.Rules

/-!
# Runs in which every send succeeds

Rules for handlers that the socket never fails.
-/

namespace PessiStreamer.Node
open Base Common

/-- All sends succeed, and the context has the property. -/
def Calm (P : Ctx → Prop) (c : Ctx) : Prop := c.env.AllOk ∧ P c

/-- A property of the state alone. -/
abbrev OnState (P : State → Prop) : Ctx → Prop := fun c ↦ P c.state

/-- While all sends succeed, the computation keeps a property. -/
def Keeps {α : Type} (P : Ctx → Prop) (m : Handler α) : Prop :=
  Triple (Calm P) m (fun _ ↦ Calm P) fun _ ↦ Calm P

section Primitives

variable {P Q : Ctx → Prop} {E : HandlerError → Ctx → Prop}

/-- A change of the state, with sends that succeed. -/
theorem calm_modifyState {f : State → State} (h : ∀ c, P c → Q (c.setState (f c.state))) :
    Triple (Calm P) (modifyState f) (fun _ ↦ Calm Q) E :=
  fun c hc ↦ ⟨hc.1, h c hc.2⟩

/-- A send that succeeds. -/
theorem calm_send {p : Packet} {a : SocketAddr} (h : ∀ c, P c → Q (c.push p a)) :
    Triple (Calm P) (send p a) (fun _ ↦ Calm Q) E := by
  intro c hc
  rw [send_of_allOk hc.1]
  exact ⟨hc.1, h c hc.2⟩

/-- Reading the state names it for what follows. -/
theorem calm_bind_getState {α : Type} {f : State → Handler α} {S : α → Ctx → Prop}
    (h : ∀ s, Triple (Calm fun c ↦ P c ∧ c.state = s) (f s) S E) :
    Triple (Calm P) (getState >>= f) S E :=
  triple_bind_getState fun s ↦ (h s).strengthen fun _ hc ↦ ⟨hc.1.1, hc.1.2, hc.2⟩

/-- A request that succeeds sets its route. -/
theorem calm_requestVideoToNode {v : VideoId} {n : SocketAddr}
    (h : ∀ c, P c →
      Q ((c.push (.serverPacket (.requestVideo v)) n).setState (c.state.setRoute v n))) :
    Triple (Calm P) (requestVideoToNode v n) (fun _ ↦ Calm Q) E := by
  intro c hc
  rcases requestVideoToNode_cases v n c with hr | ⟨e, he, -⟩
  · rw [hr]
    exact ⟨hc.1, h c hc.2⟩
  · rw [hc.1 c.attempts] at he
    cases he

end Primitives

namespace Keeps

variable {P : Ctx → Prop} {E : HandlerError → Ctx → Prop} {α β : Type}

/-- What both parts keep their sequence keeps. -/
theorem bind {m : Handler α} {f : α → Handler β} (h : Keeps P m) (h' : ∀ a, Keeps P (f a)) :
    Keeps P (m >>= f) := Triple.bind h h'

/-- A value that is returned changes nothing. -/
theorem pure (a : α) : Keeps P (Pure.pure a) := Triple.pure fun _ ↦ id

/-- A failure changes nothing. -/
theorem throw (e : HandlerError) : Keeps P (throw e : Handler α) := fun _ hc ↦ hc

/-- Reading the state changes nothing. -/
theorem getState : Keeps P getState := fun _ hc ↦ hc

/-- Reading the clock changes nothing. -/
theorem now : Keeps P now := fun _ hc ↦ hc

/-- A change of the state keeps what it is shown to keep. -/
theorem modifyState {f : State → State} (h : ∀ c, P c → P (c.setState (f c.state))) :
    Keeps P (modifyState f) := calm_modifyState h

/-- A choice keeps what both branches keep. -/
theorem ite {p : Prop} [Decidable p] {m m' : Handler α} (h : p → Keeps P m)
    (h' : ¬ p → Keeps P m') : Keeps P (if p then m else m') := Triple.ite h h'

/-- A loop keeps what its body keeps. -/
theorem forM {xs : List β} {g : β → Handler PUnit} (h : ∀ x ∈ xs, Keeps P (g x)) :
    Keeps P (xs.forM g) := Triple.forM h

/-- An attempt keeps what its handler keeps, and cannot fail. -/
theorem attempt {m : Handler α} (h : Keeps P m) :
    Triple (Calm P) (attempt m) (fun _ ↦ Calm P) E := Triple.attempt h

/-- The context a calm run ends in. -/
theorem finalState {m : Handler α} (h : Keeps P m) {c : Ctx} (hok : c.env.AllOk) (hc : P c) :
    P (finalState m c) :=
  (Triple.finalState h ⟨hok, hc⟩).2

end Keeps

section Loops

variable {P Q : Ctx → Prop} {E : HandlerError → Ctx → Prop}

/-- Connecting to parents only sends requests to become a neighbour. -/
theorem calm_connectToParents (h : ∀ c a, P c → P (c.push (.nodePacket .newNeighbour) a))
    (addr : SocketAddr) (vs : List VideoId) :
    Triple (Calm P) (connectToParents addr vs) (fun _ ↦ Calm P) E := by
  refine Triple.bind (Q := fun _ ↦ Calm P) (fun _ hc ↦ hc) fun s ↦ ?_
  refine Triple.ite (fun _ ↦ Triple.pure fun _ ↦ id) fun _ ↦ Triple.forM fun parent _ ↦ ?_
  refine Triple.ite (fun _ ↦ Triple.pure fun _ ↦ id) fun _ ↦ Triple.attempt (calm_send ?_)
  exact fun c hc ↦ h c parent hc

/-- The redirecting loop, with an invariant about the videos still to come and those left
without a node. -/
theorem calm_redirectVideos {I : List VideoId → List VideoId → Ctx → Prop}
    (hsome : ∀ v rest left n c, c.state.getBestNodeToRedirect v = some n →
      I (v :: rest) left c →
      I rest left ((c.push (.serverPacket (.requestVideo v)) n).setState (c.state.setRoute v n)))
    (hnone : ∀ v rest left c, c.state.getBestNodeToRedirect v = none →
      I (v :: rest) left c → I rest (left ++ [v]) c)
    (vs : List VideoId) :
    Triple (Calm (I vs [])) (redirectVideos vs) (fun remaining ↦ Calm (I [] remaining)) E := by
  refine redirectVideos_rule (I := fun todo left ↦ Calm (I todo left)) ?_ ?_ vs []
  · rintro v rest left n
    refine (calm_requestVideoToNode (P := fun c ↦ I (v :: rest) left c ∧
      c.state.getBestNodeToRedirect v = some n) ?_).strengthen fun c hc ↦ ⟨hc.1.1, hc.1.2, hc.2⟩
    exact fun c hc ↦ hsome v rest left n c hc.2 hc.1
  · exact fun v rest left c hb hc ↦ ⟨hc.1, hnone v rest left c hb hc.2⟩

/-- The drain of the queue, with an invariant about the videos still to be asked for. -/
theorem calm_checkPendingVideos {I : List VideoId → List VideoId → Ctx → Prop}
    {fromAddr : SocketAddr} {videos : List (VideoId × String)}
    (hstart : ∀ c, P c →
      I (c.state.pendingListed videos) (c.state.pendingListed videos) c)
    (hask : ∀ drained v rest c, v ∈ drained → I drained (v :: rest) c → I drained rest
      ((c.push (.serverPacket (.requestVideo v)) fromAddr).setState
        (c.state.setRoute v fromAddr)))
    (hend : ∀ drained c, I drained [] c → Q (c.setState (c.state.dequeue drained))) :
    Triple (Calm P) (checkPendingVideos fromAddr videos) (fun _ ↦ Calm Q) E := by
  refine calm_bind_getState fun s ↦ ?_
  refine Triple.bind (Q := fun _ ↦ Calm (I (s.pendingListed videos) [])) ?_ fun _ ↦
    calm_modifyState fun c hc ↦ hend _ c hc
  refine (Triple.forM_rest (I := fun rest ↦ Calm (I (s.pendingListed videos) rest)) _
    fun v rest hv ↦ Triple.attempt (calm_requestVideoToNode fun c hc ↦ ?_)).strengthen ?_
  · exact hask _ v rest c (hv.subset List.mem_cons_self) hc
  · rintro c ⟨hok, hc, rfl⟩
    exact ⟨hok, hstart c hc⟩

end Loops
end PessiStreamer.Node
