import Mathlib.Data.List.Range
import PessiStreamer.Base.Transition
import PessiStreamer.Server.State

/-!
# What the subscribers of a video are sent

`run_client_socket` and `start_streaming_video` take turns on the entry of a video. What they make
of it is told by the history of the commands: an address is subscribed if its last command was a
request, and each packet goes to all who are.
-/

namespace PessiStreamer.Server
open Base Common

namespace Input

/-- The packets that the server sends. -/
def sent (s : State) : Input → List (SocketAddr × Packet)
  | .packet _ _ => []
  | .event e sendResult => (e.run sendResult s).2

/-- Every send succeeds. -/
def AllOk : Input → Prop
  | .packet _ _ => True
  | .event _ sendResult => ∀ k, sendResult k = .ok ()

/-- The video is entered anew. -/
def Enters (v : VideoId) : Input → Prop
  | .event (.addVideo u _) _ => u = v
  | _ => False

/-- A chunk of the video, with its data. -/
def chunk (v : VideoId) : Input → Option (List UInt8)
  | .event (.streamVideo u streamData) _ => if u = v then some streamData else none
  | _ => none

/-- The command for the video that is processed for an address: a request (`true`) or a stop. -/
def command (v : VideoId) (a : SocketAddr) : Input → Option Bool
  | .packet (.serverPacket (.requestVideo u)) addr => if u = v ∧ addr = a then some true else none
  | .packet (.serverPacket (.stopVideo u)) addr => if u = v ∧ addr = a then some false else none
  | _ => none

end Input

/-- The packet of the stream that this is. -/
def ofStream (v : VideoId) : Packet → Option VideoPacket
  | .videoPacket q => if q.streamId = v then some q else none
  | _ => none

/-- The packets of the stream that a turn sends to an address. -/
def packetsTo (v : VideoId) (a : SocketAddr) (p : State × Input) : List VideoPacket :=
  (p.2.sent p.1).filterMap fun message ↦ if message.1 = a then ofStream v message.2 else none

/-- The packet of the stream that a turn broadcasts. -/
def broadcasted (v : VideoId) (p : State × Input) : Option VideoPacket :=
  (p.2.sent p.1).findSome? fun message ↦ ofStream v message.2

/-- The packets of the stream that a run broadcasts, oldest first. -/
def broadcasts (v : VideoId) (tr : List (State × Input)) : List VideoPacket :=
  tr.filterMap (broadcasted v)

/-- The packets of the stream that a run sends to an address, oldest first. -/
def delivered (v : VideoId) (a : SocketAddr) (tr : List (State × Input)) : List VideoPacket :=
  tr.flatMap (packetsTo v a)

/-- The last command of the address was a request. -/
def Subscribed (v : VideoId) (a : SocketAddr) (tr : List (State × Input)) : Prop :=
  (tr.filterMap fun p ↦ p.2.command v a).getLast? = some true

instance (v : VideoId) (a : SocketAddr) (tr : List (State × Input)) :
    Decidable (Subscribed v a tr) := inferInstanceAs (Decidable (_ = _))

/-- Throughout the part `m` of a run, which follows `l`, the address is subscribed. -/
def Uninterrupted (v : VideoId) (a : SocketAddr) (l m : List (State × Input)) : Prop :=
  ∀ m₁ p m₂, m = m₁ ++ p :: m₂ → Subscribed v a (l ++ m₁)

/-- The packets are numbered by their places, from 1 on. -/
def Numbered (packets : List VideoPacket) : Prop :=
  packets.map VideoPacket.sequenceNumber =
    (List.range packets.length).map fun i ↦ UInt64.ofNat (i + 1)

/-- Delivery to the subscribers of a video, at the end of a run from its insertion. -/
structure FansOut (v : VideoId) (tr : List (State × Input)) (t : State) : Prop where
  nodup : (t.subscribers v).Nodup
  interested : ∀ a, a ∈ t.subscribers v ↔ Subscribed v a tr
  numbered : Numbered (broadcasts v tr)
  chunks : ∀ l p r, tr = l ++ p :: r →
    ((∃ a, Subscribed v a l) → (broadcasted v p).map VideoPacket.streamData = p.2.chunk v) ∧
      ((∀ a, ¬ Subscribed v a l) → broadcasted v p = none)
  copies : ∀ l p r, tr = l ++ p :: r → ∀ a,
    packetsTo v a p = if Subscribed v a l then (broadcasted v p).toList else []
  consecutive : ∀ l m r a, tr = l ++ m ++ r → Uninterrupted v a l m →
    delivered v a m = broadcasts v m ∧
      ((delivered v a m).map VideoPacket.sequenceNumber).IsChain fun x y ↦ y = x + 1

section Turns

variable {v u : VideoId} {a : SocketAddr} {s t : State} {turn : Input} {video : Video}

/-- What a turn makes of the entry of a video. -/
structure Turned (v : VideoId) (s : State) (turn : Input) (video video' : Video) : Prop where
  nodup : video.interested.Nodup → video'.interested.Nodup
  mem_iff : ∀ a, a ∈ video'.interested ↔
    (turn.command v a).elim (a ∈ video.interested) (· = true)
  number : video'.sequenceNumber =
    ((broadcasted v (s, turn)).map VideoPacket.sequenceNumber).getD video.sequenceNumber
  next : ∀ q, broadcasted v (s, turn) = some q → q.sequenceNumber = video.sequenceNumber + 1
  chunk : (broadcasted v (s, turn)).map VideoPacket.streamData =
    if video.interested = [] then none else turn.chunk v
  copies : video.interested.Nodup → ∀ a, packetsTo v a (s, turn) =
    if a ∈ video.interested then (broadcasted v (s, turn)).toList else []

/-- A turn that sends no packet of the stream broadcasts none. -/
theorem silent (h : ∀ message ∈ turn.sent s, ofStream v message.2 = none) :
    broadcasted v (s, turn) = none ∧ ∀ a, packetsTo v a (s, turn) = [] := by
  constructor
  · exact List.findSome?_eq_none_iff.mpr h
  · intro a
    apply List.filterMap_eq_nil_iff.mpr
    intro message hmessage
    split
    · exact h message hmessage
    · rfl

/-- A turn that only changes who is interested. -/
theorem turned_of_silent {interested : List SocketAddr}
    (h : ∀ message ∈ turn.sent s, ofStream v message.2 = none)
    (hchunk : video.interested = [] ∨ turn.chunk v = none)
    (hnodup : video.interested.Nodup → interested.Nodup)
    (hmem : ∀ a, a ∈ interested ↔
      (turn.command v a).elim (a ∈ video.interested) (· = true)) :
    Turned v s turn video { video with interested := interested } := by
  obtain ⟨hnone, hempty⟩ := silent h
  constructor
  · exact hnodup
  · exact hmem
  · rw [hnone]
    rfl
  · intro q hq
    rw [hnone] at hq
    cases hq
  · rw [hnone]
    rcases hchunk with hnil | hchunk
    · rw [if_pos hnil]
      rfl
    · rw [hchunk, ite_self]
      rfl
  · intro _ a
    rw [hempty, hnone]
    split
    · rfl
    · rfl

/-- A turn without a command for the video that sends no packet of it leaves its entry alone. -/
theorem turned_same (h : ∀ message ∈ turn.sent s, ofStream v message.2 = none)
    (hchunk : video.interested = [] ∨ turn.chunk v = none)
    (hcommand : ∀ a, turn.command v a = none) : Turned v s turn video video := by
  apply turned_of_silent h hchunk id
  intro a
  rw [hcommand]
  rfl

/-- A server answers packets by no packet of a stream. -/
theorem silent_packet (v : VideoId) (s : State) (p : Packet) (addr : SocketAddr) :
    ∀ message ∈ (Input.packet p addr).sent s, ofStream v message.2 = none := by
  intro message hmessage
  cases hmessage

/-- A request enters its sender. -/
theorem turned_request (v : VideoId) (s : State) (addr : SocketAddr) (video : Video) :
    Turned v s (.packet (.serverPacket (.requestVideo v)) addr) video
      (if addr ∈ video.interested then video
        else { video with interested := video.interested ++ [addr] }) := by
  have hcommand (a : SocketAddr) : (Input.packet (.serverPacket (.requestVideo v)) addr).command
      v a = if addr = a then some true else none := by
    simp [Input.command]
  split
  · next hmem =>
    apply turned_of_silent (silent_packet v s _ addr) (.inr rfl) id
    intro a
    rw [hcommand]
    by_cases ha : addr = a
    · simp [← ha, hmem]
    · simp [ha]
  · next hmem =>
    apply turned_of_silent (silent_packet v s _ addr) (.inr rfl)
    · intro hnodup
      exact List.nodup_append'.mpr ⟨hnodup, List.nodup_singleton addr,
        List.disjoint_singleton.mpr hmem⟩
    · intro a
      rw [hcommand]
      by_cases ha : addr = a
      · simp [ha]
      · simp [ha, Ne.symm ha]

/-- A stop takes its sender out. -/
theorem turned_stop (v : VideoId) (s : State) (addr : SocketAddr) (video : Video) :
    Turned v s (.packet (.serverPacket (.stopVideo v)) addr) video
      { video with interested := video.interested.filter (· ≠ addr) } := by
  apply turned_of_silent (silent_packet v s _ addr) (.inr rfl)
  · exact fun hnodup ↦ hnodup.filter _
  · intro a
    by_cases ha : addr = a
    · simp [Input.command, ha]
    · simp [Input.command, ha, Ne.symm ha]

/-- Copies for a list of addresses without duplicates. -/
theorem copies_of_nodup {addrs : List SocketAddr} (h : addrs.Nodup) (q : VideoPacket)
    (a : SocketAddr) : addrs.filterMap (fun addr ↦ if addr = a then some q else none) =
      if a ∈ addrs then [q] else [] := by
  induction addrs with
  | nil => rfl
  | cons addr addrs ih =>
    obtain ⟨hnew, hrest⟩ := List.nodup_cons.mp h
    by_cases ha : addr = a
    · simp only [List.filterMap_cons, if_pos ha, ih hrest]
      simp [← ha, hnew]
    · simp only [List.filterMap_cons, if_neg ha, ih hrest]
      simp [Ne.symm ha]

section Chunks

variable {streamData : List UInt8} {sendResult : Nat → Except ReliableUdpSocketError Unit}

/-- A chunk of a video that somebody wants is broadcast under the next number. -/
theorem streamVideo_of_interested (hvideo : s.videos.lookup v = some video)
    (hsome : video.interested ≠ []) :
    s.streamVideo v streamData sendResult =
      ({ s with videos := s.videos.modify v fun w ↦
          { w with sequenceNumber := video.sequenceNumber + 1 } },
        (broadcast sendResult (.videoPacket ⟨v, video.sequenceNumber + 1, streamData⟩) 0
          video.interested).1) := by
  simp only [State.streamVideo, hvideo, if_neg hsome]

/-- A chunk of a video that nobody wants, or that has no entry, is dropped. -/
theorem streamVideo_of_idle (h : ∀ w, s.videos.lookup v = some w → w.interested = []) :
    s.streamVideo v streamData sendResult = (s, []) := by
  simp only [State.streamVideo]
  split
  · rfl
  · next w hw => rw [if_pos (h w hw)]

/-- Data of the video are broadcast under the next number. -/
theorem turned_stream (hok : ∀ k, sendResult k = .ok ()) (hvideo : s.videos.lookup v = some video)
    (hsome : video.interested ≠ []) :
    Turned v s (.event (.streamVideo v streamData) sendResult) video
      { video with sequenceNumber := video.sequenceNumber + 1 } := by
  have hsent : (Input.event (.streamVideo v streamData) sendResult).sent s =
      video.interested.map (·, .videoPacket ⟨v, video.sequenceNumber + 1, streamData⟩) := by
    show (s.streamVideo v streamData sendResult).2 = _
    rw [streamVideo_of_interested hvideo hsome, broadcast_of_ok hok]
  have hbroadcasted : broadcasted v (s, .event (.streamVideo v streamData) sendResult) =
      some ⟨v, video.sequenceNumber + 1, streamData⟩ := by
    obtain ⟨addr, addrs, hcons⟩ := List.exists_cons_of_ne_nil hsome
    rw [broadcasted, hsent, hcons]
    simp [ofStream]
  constructor
  · exact id
  · exact fun a ↦ .rfl
  · rw [hbroadcasted]
    rfl
  · intro q hq
    rw [hbroadcasted] at hq
    cases hq
    rfl
  · rw [hbroadcasted, if_neg hsome]
    exact (if_pos rfl).symm
  · intro hnodup a
    rw [packetsTo, hsent, hbroadcasted, List.filterMap_map]
    simp only [Function.comp_def, ofStream, if_pos, Option.toList_some]
    exact copies_of_nodup hnodup _ a

/-- A chunk, of this or of another video. -/
theorem exists_turned_stream (hok : ∀ k, sendResult k = .ok ())
    (hvideo : s.videos.lookup v = some video) :
    ∃ video', (s.streamVideo u streamData sendResult).1.videos.lookup v = some video' ∧
      Turned v s (.event (.streamVideo u streamData) sendResult) video video' := by
  by_cases hidle : ∀ w, s.videos.lookup u = some w → w.interested = []
  · have hrun : s.streamVideo u streamData sendResult = (s, []) := streamVideo_of_idle hidle
    rw [hrun]
    refine ⟨video, hvideo, turned_same ?_ ?_ fun _ ↦ rfl⟩
    · intro message hmessage
      have hmessage : message ∈ (s.streamVideo u streamData sendResult).2 := hmessage
      rw [hrun] at hmessage
      cases hmessage
    · by_cases hu : u = v
      · exact .inl (hidle video (hu ▸ hvideo))
      · exact .inr (if_neg hu)
  · simp only [not_forall] at hidle
    obtain ⟨w, hw, hsome⟩ := hidle
    by_cases hu : u = v
    · subst hu
      obtain rfl : video = w := Option.some.inj (hvideo.symm.trans hw)
      refine ⟨_, ?_, turned_stream hok hvideo hsome⟩
      rw [streamVideo_of_interested hvideo hsome]
      simp [hvideo]
    · refine ⟨video, ?_, turned_same ?_ (.inr (if_neg hu)) fun _ ↦ rfl⟩
      · rw [streamVideo_of_interested hw hsome]
        simp [Ne.symm hu, hvideo]
      · intro message hmessage
        have hmessage : message ∈ (s.streamVideo u streamData sendResult).2 := hmessage
        rw [streamVideo_of_interested hw hsome] at hmessage
        rw [(mem_broadcast hmessage).1]
        exact if_neg hu

end Chunks

/-- Every turn that does not enter the video anew. -/
theorem exists_turned (hvideo : s.videos.lookup v = some video) (hok : turn.AllOk)
    (hnew : ¬ turn.Enters v) :
    ∃ video', (turn.run s).videos.lookup v = some video' ∧ Turned v s turn video video' := by
  cases turn with
  | packet p addr =>
    -- a packet that is no command for the video
    have hsame (hvideos : (s.handlePacket p addr).videos.lookup v = some video)
        (hcommand : ∀ a, (Input.packet p addr).command v a = none) :
        ∃ video', (s.handlePacket p addr).videos.lookup v = some video' ∧
          Turned v s (.packet p addr) video video' :=
      ⟨video, hvideos, turned_same (silent_packet v s p addr) (.inr rfl) hcommand⟩
    rcases p with q | (⟨n, requested⟩ | _ | q) | (u | u) | q
    · exact hsame hvideo fun _ ↦ rfl
    · exact hsame hvideo fun _ ↦ rfl
    · exact hsame hvideo fun _ ↦ rfl
    · exact hsame hvideo fun _ ↦ rfl
    · by_cases hu : u = v
      · subst hu
        exact ⟨_, by simp [Input.run, State.handlePacket, hvideo], turned_request u s addr video⟩
      · apply hsame
        · simp [State.handlePacket, Ne.symm hu, hvideo]
        · simp [Input.command, hu]
    · by_cases hu : u = v
      · subst hu
        exact ⟨_, by simp [Input.run, State.handlePacket, hvideo], turned_stop u s addr video⟩
      · apply hsame
        · simp [State.handlePacket, Ne.symm hu, hvideo]
        · simp [Input.command, hu]
    · exact hsame hvideo fun _ ↦ rfl
  | event e sendResult =>
    cases e with
    | addVideo u name =>
      have hu : v ≠ u := fun h ↦ hnew h.symm
      refine ⟨video, (AList.lookup_insert_ne hu).trans hvideo,
        turned_same ?_ (.inr rfl) fun _ ↦ rfl⟩
      intro message hmessage
      cases hmessage
    | streamVideo u streamData => exact exists_turned_stream hok hvideo
    | flood now =>
      refine ⟨video, hvideo, turned_same ?_ (.inr rfl) fun _ ↦ rfl⟩
      intro message hmessage
      rw [(mem_broadcast hmessage).1]
      rfl

end Turns

section Numbers

variable {packets : List VideoPacket} {q : VideoPacket}

private theorem numbered_nil : Numbered [] := rfl

private theorem Numbered.concat (h : Numbered packets)
    (hq : q.sequenceNumber = UInt64.ofNat packets.length + 1) : Numbered (packets ++ [q]) := by
  unfold Numbered at *
  rw [List.map_append, h, List.length_append, List.length_singleton, List.range_succ,
    List.map_append, List.map_singleton, List.map_singleton, hq, UInt64.ofNat_add]
  rfl

/-- Numbers by place are consecutive. -/
theorem Numbered.consecutive (h : Numbered packets) :
    (packets.map VideoPacket.sequenceNumber).IsChain fun x y ↦ y = x + 1 := by
  rw [h, List.isChain_map]
  apply (List.isChain_range _ _).mpr
  intro i _
  rw [UInt64.ofNat_add]
  rfl

end Numbers

section Runs

variable {v : VideoId} {s t : State} {name : String} {tr l r : List (State × Input)}
  {p : State × Input}

/-- The hypotheses on a run: it starts when the entry is inserted by the only task that streams the
video, and all sends succeed. -/
structure FromInsertion (v : VideoId) (s : State) (tr : List (State × Input)) : Prop where
  inserted : ∃ u name, s = State.addVideo u v name
  single : ∀ p ∈ tr, ¬ p.2.Enters v
  allOk : ∀ p ∈ tr, p.2.AllOk

private theorem FromInsertion.left (h : FromInsertion v s (l ++ r)) : FromInsertion v s l where
  inserted := h.inserted
  single p hp := h.single p (List.mem_append_left r hp)
  allOk p hp := h.allOk p (List.mem_append_left r hp)

/-- The entry of a video at the end of a run. -/
structure Entry (v : VideoId) (tr : List (State × Input)) (t : State) (video : Video) : Prop where
  entered : t.videos.lookup v = some video
  nodup : video.interested.Nodup
  mem_iff : ∀ a, a ∈ video.interested ↔ Subscribed v a tr
  number : video.sequenceNumber = UInt64.ofNat (broadcasts v tr).length
  numbered : Numbered (broadcasts v tr)

private theorem subscribed_concat (v : VideoId) (a : SocketAddr) (tr : List (State × Input))
    (p : State × Input) : Subscribed v a (tr ++ [p]) ↔
      (p.2.command v a).elim (Subscribed v a tr) (· = true) := by
  unfold Subscribed
  rw [List.filterMap_append]
  cases hc : p.2.command v a with
  | none => simp [hc]
  | some b => simp [hc]

/-- One more turn. -/
theorem Entry.turn {video video' : Video} {turn : Input} (h : Entry v tr s video)
    (hentered : (turn.run s).videos.lookup v = some video')
    (hturn : Turned v s turn video video') :
    Entry v (tr ++ [(s, turn)]) (turn.run s) video' := by
  have hbroadcasts : broadcasts v (tr ++ [(s, turn)]) =
      broadcasts v tr ++ (broadcasted v (s, turn)).toList := by
    unfold broadcasts
    rw [List.filterMap_append]
    cases hb : broadcasted v (s, turn) with
    | none => simp [hb]
    | some q => simp [hb]
  constructor
  · exact hentered
  · exact hturn.nodup h.nodup
  · intro a
    rw [hturn.mem_iff, subscribed_concat, h.mem_iff]
  · rw [hbroadcasts, hturn.number]
    cases hb : broadcasted v (s, turn) with
    | none => simpa using h.number
    | some q =>
      have hnext := hturn.next q hb
      simp only [Option.map_some, Option.getD_some, Option.toList_some, List.length_append,
        List.length_singleton]
      rw [hnext, h.number, UInt64.ofNat_add]
      rfl
  · rw [hbroadcasts]
    cases hb : broadcasted v (s, turn) with
    | none => simpa using h.numbered
    | some q =>
      apply h.numbered.concat
      rw [hturn.next q hb, h.number]

/-- The entry at the end of a run from its insertion. -/
theorem exists_entry (h : FromInsertion v s tr) (hrun : Run Step s tr t) :
    ∃ video, Entry v tr t video := by
  induction hrun with
  | refl =>
    obtain ⟨u, name, rfl⟩ := h.inserted
    refine ⟨⟨name, [], 0⟩, ?_⟩
    constructor
    · exact AList.lookup_insert _
    · exact List.nodup_nil
    · intro a
      simp [Subscribed]
    · rfl
    · exact numbered_nil
  | @tail t u tr turn _ hstep ih =>
    obtain ⟨video, hvideo⟩ := ih h.left
    have hmem : (t, turn) ∈ tr ++ [(t, turn)] := by simp
    obtain ⟨video', hentered, hturn⟩ := exists_turned hvideo.entered (h.allOk _ hmem)
      (h.single _ hmem)
    obtain rfl : u = turn.run t := hstep
    exact ⟨video', hvideo.turn hentered hturn⟩

/-- The turn at any place of a run. -/
theorem turned_at (h : FromInsertion v s tr) (hrun : Run Step s tr t) (htr : tr = l ++ p :: r) :
    ∃ video video', Entry v l p.1 video ∧ Turned v p.1 p.2 video video' := by
  subst htr
  obtain ⟨hbefore, u, -, -⟩ := hrun.split
  obtain ⟨video, hvideo⟩ := exists_entry h.left hbefore
  have hmem : p ∈ l ++ p :: r := by simp
  obtain ⟨video', -, hturn⟩ := exists_turned hvideo.entered (h.allOk p hmem) (h.single p hmem)
  exact ⟨video, video', hvideo, hturn⟩

/-- Who is sent a packet, at any place of a run. -/
theorem packetsTo_eq (h : FromInsertion v s tr) (hrun : Run Step s tr t) (htr : tr = l ++ p :: r)
    (a : SocketAddr) :
    packetsTo v a p = if Subscribed v a l then (broadcasted v p).toList else [] := by
  obtain ⟨video, video', hvideo, hturn⟩ := turned_at h hrun htr
  rw [hturn.copies hvideo.nodup a]
  simp only [hvideo.mem_iff]

/-- While its subscription is not interrupted an address is sent each packet that is broadcast. -/
theorem delivered_eq {m : List (State × Input)} {a : SocketAddr} (h : FromInsertion v s tr)
    (hrun : Run Step s tr t) (htr : tr = l ++ m ++ r) (hsub : Uninterrupted v a l m) :
    delivered v a m = broadcasts v m := by
  unfold delivered broadcasts
  rw [List.filterMap_eq_flatMap_toList]
  apply List.flatMap_congr
  intro p hp
  obtain ⟨m₁, m₂, hm⟩ := List.append_of_mem hp
  rw [packetsTo_eq (l := l ++ m₁) (r := m₂ ++ r) h hrun (by simp [htr, hm]),
    if_pos (hsub m₁ p m₂ hm)]

/-- The server delivers every packet of a video to its subscribers of the moment, once. -/
theorem fansOut (h : FromInsertion v s tr) (hrun : Run Step s tr t) : FansOut v tr t := by
  obtain ⟨video, hvideo⟩ := exists_entry h hrun
  have hsubscribers : t.subscribers v = video.interested := by
    rw [State.subscribers, hvideo.entered]
    rfl
  constructor
  · rw [hsubscribers]
    exact hvideo.nodup
  · rw [hsubscribers]
    exact hvideo.mem_iff
  · exact hvideo.numbered
  · intro l p r htr
    obtain ⟨before, after, hbefore, hturn⟩ := turned_at h hrun htr
    have hchunk := hturn.chunk
    constructor
    · rintro ⟨a, ha⟩
      rw [if_neg (List.ne_nil_of_mem ((hbefore.mem_iff a).mpr ha))] at hchunk
      exact hchunk
    · intro hnone
      have hnil : before.interested = [] :=
        List.eq_nil_iff_forall_not_mem.mpr fun a ha ↦ hnone a ((hbefore.mem_iff a).mp ha)
      rw [if_pos hnil] at hchunk
      exact Option.map_eq_none_iff.mp hchunk
  · intro l p r htr a
    exact packetsTo_eq h hrun htr a
  · intro l m r a htr hsub
    have hdelivered := delivered_eq h hrun htr hsub
    constructor
    · exact hdelivered
    · rw [hdelivered]
      apply hvideo.numbered.consecutive.infix
      refine ⟨(broadcasts v l).map VideoPacket.sequenceNumber,
        (broadcasts v r).map VideoPacket.sequenceNumber, ?_⟩
      rw [htr, broadcasts, broadcasts, broadcasts, broadcasts, List.filterMap_append,
        List.filterMap_append, List.map_append, List.map_append]

/-- Turns that follow each other, each with the state it is taken in. -/
def history (s : State) : List Input → List (State × Input)
  | [] => []
  | turn :: turns => (s, turn) :: history (turn.run s) turns

private theorem run_history (s : State) (turns : List Input) :
    ∃ t, Run Step s (history s turns) t := by
  induction turns generalizing s with
  | nil => exact ⟨s, .refl s⟩
  | cons turn turns ih =>
    obtain ⟨t, ht⟩ := ih (turn.run s)
    have hstep : Step s turn (turn.run s) := rfl
    exact ⟨t, Run.head hstep ht⟩

private theorem mem_of_mem_history {s : State} {turns : List Input} {p : State × Input}
    (h : p ∈ history s turns) : p.2 ∈ turns := by
  induction turns generalizing s with
  | nil => cases h
  | cons turn turns ih =>
    rcases List.mem_cons.mp h with rfl | h
    · exact List.mem_cons_self
    · exact List.mem_cons_of_mem turn (ih h)

/-- Two addresses request video 5 and stop it, one of them twice, while data of it arrive. -/
def watched : List Input :=
  let a : SocketAddr := (IpAddr.v4 1).atPort
  let b : SocketAddr := (IpAddr.v4 2).atPort
  let request (addr : SocketAddr) : Input := .packet (.serverPacket (.requestVideo 5)) addr
  let stop (addr : SocketAddr) : Input := .packet (.serverPacket (.stopVideo 5)) addr
  let data (byte : UInt8) : Input := .event (.streamVideo 5 [byte]) fun _ ↦ .ok ()
  [request a, data 10, request a, request b, data 11, stop a, data 12, stop b, data 13, request a,
    data 14]

/-- The first address misses the packet that was sent while it was not subscribed, and no number is
used while nobody is. -/
theorem fansOut_watched :
    (∃ t, FansOut 5 (history ((State.new 1 []).addVideo 5 "") watched) t) ∧
    (delivered 5 (IpAddr.v4 1).atPort
      (history ((State.new 1 []).addVideo 5 "") watched)).map VideoPacket.sequenceNumber =
        [1, 2, 4] := by
  constructor
  · obtain ⟨t, hrun⟩ := run_history ((State.new 1 []).addVideo 5 "") watched
    have hturns : ∀ turn ∈ watched, ¬ turn.Enters 5 ∧ turn.AllOk := by
      simp [watched, Input.Enters, Input.AllOk]
    refine ⟨t, fansOut ?_ hrun⟩
    constructor
    · exact ⟨_, _, rfl⟩
    · exact fun p hp ↦ (hturns p.2 (mem_of_mem_history hp)).1
    · exact fun p hp ↦ (hturns p.2 (mem_of_mem_history hp)).2
  · decide +kernel

end Runs
end PessiStreamer.Server
