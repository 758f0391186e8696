import Mathlib.Data.Finset.Insert
import Mathlib.Data.Finset.Card
import PessiStreamer.Node.Rules

/-!
# What a client's ping does to its subscriptions

`handle_client_ping` enters the client for the requested videos that have no route, and takes
it out of every video it does not request. It skips the videos that are routed for somebody
else.
-/

namespace PessiStreamer.Node
open Base Common

/-- One turn of the first loop of `handle_client_ping`; `node/src/handle.rs:29`. -/
def requestMissing (addr : SocketAddr) (videoId : VideoId) : Handler Unit := do
  let s ← getState
  if (s.videoRoutes.lookup videoId).isSome then pure ()
  else handleRequestVideo videoId addr

/-- One turn of the second loop of `handle_client_ping`; `node/src/handle.rs:36`. -/
def stopUnrequested (requestedVideos : List VideoId) (addr : SocketAddr)
    (video : Sigma fun _ : VideoId ↦ List SocketAddr) : Handler Unit :=
  if video.1 ∉ requestedVideos ∧ addr ∈ video.2 then handleStopVideo video.1 addr
  else pure ()

/-- The answer to a ping; `node/src/handle.rs:21`. -/
def pingAnswer (sequenceNumber : UInt64) (videos : List (VideoId × String)) (now : SystemTime) :
    Packet :=
  .clientPacket (.videoList ⟨sequenceNumber, videos, now⟩)

/-- The handler, with the bodies of its loops and its answer named. -/
theorem handleClientPing_eq (n : UInt64) (requested : List VideoId) (addr : SocketAddr) :
    handleClientPing n requested addr = (getState >>= fun s ↦ now >>= fun t ↦
      modifyState (fun s ↦ s.recordPing addr t) >>= fun _ ↦
      requested.forM (requestMissing addr) >>= fun _ ↦
      getState >>= fun u ↦
      u.interested.entries.forM (stopUnrequested requested addr) >>= fun _ ↦
      send (pingAnswer n (s.getVideos addr) t) addr) := rfl

/-- In the state `t` a client has been entered for the videos `done` that had no route in `s`. -/
structure Requested (s : State) (addr : SocketAddr) (done : List VideoId) (t : State) : Prop where
  subscribed : ∀ v, addr ∈ t.subscribers v ↔
    addr ∈ s.subscribers v ∨ v ∈ done ∧ s.videoRoutes.lookup v = none
  unvisited : ∀ v, v ∉ done → t.videoRoutes.lookup v = s.videoRoutes.lookup v
  unrouted : ∀ v, t.videoRoutes.lookup v = none → s.videoRoutes.lookup v = none

namespace Requested

variable {s t u : State} {addr n : SocketAddr} {done : List VideoId} {v : VideoId}

private theorem refl (s : State) (addr : SocketAddr) : Requested s addr [] s where
  subscribed := by simp
  unvisited := fun _ _ ↦ rfl
  unrouted := fun _ ↦ id

/-- A video with a route is passed over. -/
theorem skip (h : Requested s addr done t) (hr : t.videoRoutes.lookup v ≠ none) :
    Requested s addr (done ++ [v]) t where
  subscribed := by
    intro u
    rw [h.subscribed u, List.mem_append, List.mem_singleton]
    constructor
    · rintro (hu | ⟨hu, hn⟩)
      · exact .inl hu
      · exact .inr ⟨.inl hu, hn⟩
    · rintro (hu | ⟨hu | rfl, hn⟩)
      · exact .inl hu
      · exact .inr ⟨hu, hn⟩
      · -- the route was installed for this very ping, or was there before
        by_cases hv : u ∈ done
        · exact .inr ⟨hv, hn⟩
        · rw [← h.unvisited u hv] at hn
          exact absurd hn hr
  unvisited := fun u hu ↦ h.unvisited u fun hd ↦ hu (List.mem_append_left _ hd)
  unrouted := h.unrouted

/-- A video without a route gets the client, and may get a route. -/
theorem enter (h : Requested s addr done t) (hr : t.videoRoutes.lookup v = none)
    (hsub : ∀ w, u.subscribers w = (t.subscribe v addr).subscribers w)
    (hroute : ∀ w, w ≠ v → u.videoRoutes.lookup w = t.videoRoutes.lookup w) :
    Requested s addr (done ++ [v]) u where
  subscribed := by
    intro w
    rw [hsub, List.mem_append, List.mem_singleton]
    by_cases hw : w = v
    · subst hw
      have hmem := mem_subscribe t w addr
      simp only [hmem, h.unrouted w hr, or_true, and_self]
    · rw [State.subscribe_subscribers, if_neg hw, h.subscribed w]
      simp [hw]
  unvisited := by
    intro w hw
    rw [List.mem_append, List.mem_singleton, not_or] at hw
    rw [hroute w hw.2, h.unvisited w hw.1]
  unrouted := by
    intro w hn
    by_cases hw : w = v
    · subst hw
      exact h.unrouted w hr
    · rw [hroute w hw] at hn
      exact h.unrouted w hn

end Requested

section Loops

variable {s t : State} {addr : SocketAddr} {requested : List VideoId}

private theorem requestMissing_rule (done : List VideoId) (v : VideoId) :
    Triple (fun c ↦ Requested s addr done c.state) (requestMissing addr v)
      (fun _ c ↦ Requested s addr (done ++ [v]) c.state) fun _ _ ↦ True := by
  apply triple_bind_getState
  intro t
  apply Triple.ite
  · rintro hr c ⟨h, rfl⟩
    exact h.skip (Option.isSome_iff_ne_none.mp hr)
  · rintro hr c ⟨h, rfl⟩
    rw [Option.not_isSome_iff_eq_none] at hr
    rcases handleRequestVideo_cases v addr c with
      ⟨hsome, -⟩ | ⟨-, n, -, he⟩ | ⟨-, -, he⟩
    · rw [hr] at hsome
      cases hsome
    · rcases requestVideoToNode_cases v n (c.setState (c.state.subscribe v addr)) with
        ho | ⟨e, -, ho⟩
      · rw [he, ho]
        apply h.enter hr
        · exact fun _ ↦ rfl
        · intro w hw
          simp [hw]
      · rw [he, ho]
        trivial
    · rw [he]
      exact h.enter hr (fun _ ↦ rfl) fun _ _ ↦ rfl

/-- The first loop. -/
theorem requestLoop_rule (s : State) (addr : SocketAddr) (requested : List VideoId) :
    Triple (fun c ↦ c.state = s) (requested.forM (requestMissing addr))
      (fun _ c ↦ Requested s addr requested c.state) fun _ _ ↦ True := by
  have hloop := Triple.forM_rest (E := fun _ _ ↦ True) (g := requestMissing addr)
    (I := fun rest c ↦ ∃ done, requested = done ++ rest ∧ Requested s addr done c.state) requested
    ?_
  · apply hloop.consequence
    · rintro c rfl
      exact ⟨[], rfl, .refl c.state addr⟩
    · rintro _ c ⟨done, hdone, h⟩
      rw [List.append_nil] at hdone
      rw [hdone]
      exact h
    · exact fun _ _ ↦ id
  · rintro v rest - c ⟨done, hdone, h⟩
    have hturn := requestMissing_rule done v c h
    split at hturn
    · exact ⟨done ++ [v], by simpa using hdone, hturn⟩
    · trivial

/-- The requested videos that the first loop asks an upstream node for, one request each. -/
def State.askedFor (s : State) (requested : List VideoId) : Finset VideoId :=
  requested.toFinset.filter fun v ↦
    s.videoRoutes.lookup v = none ∧ (s.getBestNodeToRedirect v).isSome

/-- Whether there is a node to choose depends on the routes to the servers only. -/
theorem best_isSome_congr {s t : State} (h : t.availableRoutes = s.availableRoutes)
    (v : VideoId) : (t.getBestNodeToRedirect v).isSome = (s.getBestNodeToRedirect v).isSome := by
  rw [Bool.eq_iff_iff, ← not_iff_not, Option.not_isSome_iff_eq_none,
    Option.not_isSome_iff_eq_none, State.best_eq_none_iff, State.best_eq_none_iff]
  simp only [State.offers_congr h]

private theorem askedFor_congr {s t : State} (hroutes : t.videoRoutes = s.videoRoutes)
    (h : t.availableRoutes = s.availableRoutes) (requested : List VideoId) :
    t.askedFor requested = s.askedFor requested := by
  simp only [State.askedFor, hroutes, best_isSome_congr h]

/-- A video that is not asked for adds no request. -/
theorem askedFor_cons_skip {s : State} {v : VideoId}
    (hv : ¬ (s.videoRoutes.lookup v = none ∧ (s.getBestNodeToRedirect v).isSome))
    (vs : List VideoId) : s.askedFor (v :: vs) = s.askedFor vs := by
  unfold State.askedFor
  rw [List.toFinset_cons, Finset.filter_insert, if_neg hv]

/-- A video that is asked for adds one request, and is routed afterwards. -/
theorem card_askedFor_cons {s t : State} {v : VideoId} {n : SocketAddr}
    (hv : s.videoRoutes.lookup v = none ∧ (s.getBestNodeToRedirect v).isSome)
    (hroutes : t.videoRoutes = s.videoRoutes.insert v n)
    (h : t.availableRoutes = s.availableRoutes) (vs : List VideoId) :
    (s.askedFor (v :: vs)).card = (t.askedFor vs).card + 1 := by
  have hmem : v ∉ t.askedFor vs := by
    simp [State.askedFor, hroutes]
  have hinsert : s.askedFor (v :: vs) = insert v (t.askedFor vs) := by
    ext u
    simp only [State.askedFor, hroutes, best_isSome_congr h, Finset.mem_filter,
      Finset.mem_insert, List.mem_toFinset, List.mem_cons, Map.lookup_insert_ite]
    by_cases hu : u = v
    · rw [hu]
      simp [hv]
    · simp [hu]
  rw [hinsert, Finset.card_insert_of_notMem hmem]

/-- The first loop returns just if the socket takes all of its requests. -/
theorem requestLoop_ok_iff (addr : SocketAddr) (requested : List VideoId) (c : Ctx) :
    (∃ d, requested.forM (requestMissing addr) c = .ok () d) ↔
      ∀ i < (c.state.askedFor requested).card, c.env.sendResult (c.attempts + i) = .ok () := by
  induction requested generalizing c with
  | nil => simp [State.askedFor]
  | cons v vs ih =>
    have hcons : (v :: vs).forM (requestMissing addr) c =
        (requestMissing addr v >>= fun _ ↦ vs.forM (requestMissing addr)) c := rfl
    rw [hcons, bind_apply]
    cases hr : c.state.videoRoutes.lookup v with
    | some n =>
      have hturn : requestMissing addr v c = .ok () c := by
        simp [requestMissing, hr]
      rw [hturn, askedFor_cons_skip (by simp [hr])]
      exact ih c
    | none =>
      have hturn : requestMissing addr v c = handleRequestVideo v addr c := by
        simp [requestMissing, hr]
      rw [hturn]
      rcases handleRequestVideo_cases v addr c with
        ⟨hsome, -⟩ | ⟨-, n, hb, he⟩ | ⟨-, hb, he⟩
      · rw [hr] at hsome
        cases hsome
      · -- the video is asked for with the send that comes next
        let d := c.setState (c.state.subscribe v addr)
        let t := (c.state.subscribe v addr).setRoute v n
        have hcard : (c.state.askedFor (v :: vs)).card = (t.askedFor vs).card + 1 :=
          card_askedFor_cons (t := t) ⟨hr, by simp [hb]⟩ rfl rfl vs
        rw [he, hcard, Nat.forall_lt_succ_left]
        cases hsend : c.env.sendResult c.attempts with
        | ok u =>
          have ho : requestVideoToNode v n d =
              .ok () ((d.push (.serverPacket (.requestVideo v)) n).setState t) := by
            simp [requestVideoToNode, send, d, t, hsend]
          rw [ho]
          apply (ih _).trans
          simp [d, Nat.add_assoc, Nat.add_comm 1]
        | error e =>
          have ho : requestVideoToNode v n d = .error (.socket e) d.fail := by
            simp [requestVideoToNode, send, d, hsend]
          rw [ho]
          simp
      · rw [he, askedFor_cons_skip (by simp [hb])]
        exact (ih _).trans (by rw [askedFor_congr rfl rfl]; exact .rfl)

/-- A stop that returns has taken the subscriber out. -/
theorem handleStopVideo_left {v : VideoId} {c d : Ctx}
    (h : handleStopVideo v addr c = .ok () d) (u : VideoId) :
    addr ∈ d.state.subscribers u ↔ u ≠ v ∧ addr ∈ c.state.subscribers u := by
  have hleft : addr ∈ (c.state.unsubscribe v addr).subscribers u ↔
      u ≠ v ∧ addr ∈ c.state.subscribers u := by
    rw [State.unsubscribe_subscribers]
    by_cases hu : u = v
    · simp [hu]
    · simp [hu]
  rw [← hleft]
  rcases handleStopVideo_cases v addr c with ⟨-, he⟩ | ⟨-, n, -, he⟩
  · rw [he] at h
    cases h
    exact .rfl
  · rcases send_cases (.serverPacket (.stopVideo v)) n
      (c.setState ((c.state.unsubscribe v addr).dropRoute v)) with hs | ⟨e, -, hs⟩
    · rw [he, hs] at h
      cases h
      exact .rfl
    · rw [he, hs] at h
      cases h

/-- The second loop, from the state `t` whose entries it visits. -/
theorem stopLoop_rule (t : State) (addr : SocketAddr) (requested : List VideoId) :
    Triple (fun c ↦ c.state = t) (t.interested.entries.forM (stopUnrequested requested addr))
      (fun _ c ↦ ∀ v, addr ∈ c.state.subscribers v ↔ addr ∈ t.subscribers v ∧ v ∈ requested)
      fun _ _ ↦ True := by
  have hloop := Triple.forM_rest (E := fun _ _ ↦ True) (g := stopUnrequested requested addr)
    (I := fun rest c ↦ ∀ v, addr ∈ c.state.subscribers v ↔
      addr ∈ t.subscribers v ∧ (v ∈ requested ∨ v ∈ rest.map Sigma.fst)) t.interested.entries ?_
  · apply hloop.consequence
    · rintro c rfl v
      have hkey : addr ∈ c.state.subscribers v → v ∈ c.state.interested.entries.map Sigma.fst :=
        fun hv ↦ List.mem_map_of_mem (mem_entries_of_subscriber hv)
      tauto
    · intro _ c h v
      simpa using h v
    · exact fun _ _ ↦ id
  · intro video rest hrest c h
    have hvideo := subscribers_of_mem_entries (hrest.subset List.mem_cons_self)
    have hkeys : (video.1 :: rest.map Sigma.fst).Nodup :=
      (hrest.map Sigma.fst).sublist.nodup t.interested.nodupKeys
    simp only [List.map_cons, List.mem_cons] at h
    unfold stopUnrequested
    by_cases hstop : video.1 ∉ requested ∧ addr ∈ video.2
    · rw [if_pos hstop]
      split
      · next d hd =>
        intro u
        rw [handleStopVideo_left hd u, h u]
        by_cases hu : u = video.1
        · simp only [hu, ne_eq, not_true_eq_false, false_and, hstop.1, false_or,
            (List.nodup_cons.mp hkeys).1, and_false]
        · simp [hu]
      · trivial
    · rw [if_neg hstop]
      intro u
      rw [h u]
      by_cases hu : u = video.1
      · -- the video is requested, or the client is no subscriber of it
        rw [hu, hvideo]
        tauto
      · simp [hu]

end Loops

/-- After a ping that succeeds the client has the requested videos that it had already or that
came from nowhere. -/
theorem mem_subscribers_of_ping {s : State} {env : Env} {n : UInt64} {requested : List VideoId}
    {addr : SocketAddr} {c : Ctx}
    (h : handleClientPing n requested addr (.start env s) = .ok () c) (v : VideoId) :
    addr ∈ c.state.subscribers v ↔
      v ∈ requested ∧ (s.videoRoutes.lookup v = none ∨ addr ∈ s.subscribers v) := by
  have hrule : Triple (fun c ↦ c.state = s) (handleClientPing n requested addr)
      (fun _ c ↦ ∀ v, addr ∈ c.state.subscribers v ↔
        v ∈ requested ∧ (s.videoRoutes.lookup v = none ∨ addr ∈ s.subscribers v))
      fun _ _ ↦ True := by
    rw [handleClientPing_eq]
    apply triple_bind_getState
    intro s'
    apply Triple.bind (Q := fun _ c ↦ c.state = s)
    · exact fun c hc ↦ hc.1
    intro t
    apply Triple.bind (Q := fun _ c ↦ c.state = s.recordPing addr t)
    · rintro c rfl
      rfl
    intro _
    apply (requestLoop_rule (s.recordPing addr t) addr requested).bind
    intro _
    apply triple_bind_getState
    intro u
    have hstops (hreq : Requested (s.recordPing addr t) addr requested u) :
        Triple (fun c ↦ c.state = u) (u.interested.entries.forM (stopUnrequested requested addr))
          (fun _ c ↦ ∀ v, addr ∈ c.state.subscribers v ↔
            v ∈ requested ∧ (s.videoRoutes.lookup v = none ∨ addr ∈ s.subscribers v))
          fun _ _ ↦ True := by
      apply (stopLoop_rule u addr requested).weaken
      intro _ c hc v
      have hv : addr ∈ u.subscribers v ↔
          addr ∈ s.subscribers v ∨ v ∈ requested ∧ s.videoRoutes.lookup v = none :=
        hreq.subscribed v
      rw [hc v, hv]
      tauto
    apply ((Triple.of_forall hstops).strengthen _).bind
    · intro _ c hc
      rcases send_cases (pingAnswer n (s'.getVideos addr) t) addr c with hs | ⟨e, -, hs⟩
      · rw [hs]
        exact hc
      · rw [hs]
        trivial
    · rintro c ⟨hreq, rfl⟩
      exact ⟨hreq, rfl⟩
  have hc := hrule (.start env s) rfl
  rw [h] at hc
  exact hc v

/-- A ping that succeeds leaves its sender with exactly the requested videos if and only if it
had those of them that were already on their way to this node. -/
theorem clientPing_reconciles_iff {s : State} {env : Env} {n : UInt64} {requested : List VideoId}
    {addr : SocketAddr} {c : Ctx}
    (h : handleClientPing n requested addr (.start env s) = .ok () c) :
    (∀ v, addr ∈ c.state.subscribers v ↔ v ∈ requested) ↔
      ∀ v ∈ requested, s.videoRoutes.lookup v = none ∨ addr ∈ s.subscribers v := by
  constructor
  · intro hiff v hv
    exact ((mem_subscribers_of_ping h v).mp ((hiff v).mpr hv)).2
  · intro hcond v
    rw [mem_subscribers_of_ping h v]
    constructor
    · exact fun hv ↦ hv.1
    · exact fun hv ↦ ⟨hv, hcond v hv⟩

/-- A client watches a video of a neighbour. -/
def watchedByOne : State :=
  simulate (.new 1 [] (IpAddr.v4 1).atPort) (List.map (·, .calm 0)
    [.packet (.nodePacket (.floodPacket ⟨0, [(5, "five")], [9], []⟩)) (IpAddr.v4 2).atPort,
      .packet (.nodePacket (.clientPing 0 [5])) (IpAddr.v4 3).atPort])

/-- Its next ping is without effect. -/
theorem clientPing_reconciles_again :
    ∃ c, handleClientPing 1 [5] (IpAddr.v4 3).atPort (.start (.calm 1) watchedByOne) = .ok () c ∧
      ∀ v, (IpAddr.v4 3).atPort ∈ c.state.subscribers v ↔ v ∈ [5] := by
  have h : handleClientPing 1 [5] (IpAddr.v4 3).atPort (.start (.calm 1) watchedByOne) =
    .ok () _ := rfl
  exact ⟨_, h, (clientPing_reconciles_iff h).mpr (List.forall_mem_singleton.mpr (by decide))⟩

/-- The ping of a second client for the same video succeeds, and does not subscribe it. -/
theorem clientPing_not_reconciled : ∃ s, Reachable 1 [] (IpAddr.v4 1).atPort s ∧
    ∃ c, handleClientPing 0 [5] (IpAddr.v4 4).atPort (.start (.calm 1) s) = .ok () c ∧
      ¬ ∀ v, (IpAddr.v4 4).atPort ∈ c.state.subscribers v ↔ v ∈ [5] := by
  apply Exists.intro watchedByOne
  constructor
  · exact reachable_simulate 1 [] _ (by simp [Env.calm_allOk])
  · apply Exists.intro _
    constructor
    · rfl
    · intro h
      exact absurd ((h 5).mpr (by decide)) (by decide)

end PessiStreamer.Node
