import PessiStreamer.Base.Transition
import PessiStreamer.Server.State

/-!
# Streaming tasks of a server

`watch_video_folder` looks at the files of the folder again and again and spawns a task for
each file that no entry has the name of. A task enters its video when its child process runs,
and ends when the child does; between the two the other tasks go on.
-/

namespace PessiStreamer.Server
open Base Common

/-- The components of a path. -/
abbrev Path := List String

/-- `Path::file_stem` of a file name: all before the last dot, unless that is nothing. -/
def fileStem (name : String) : String :=
  if name = ".." then name
  else match name.toList.reverse.span (· ≠ '.') with
    | (_, []) => name
    | (_, _ :: before) => if before = [] then name else String.ofList before.reverse

/-- A file name without its extension, up to and with the dot before it. -/
def tillDot (name : String) : String :=
  if name = ".." then name
  else match name.toList.reverse.span (· ≠ '.') with
    | (_, []) => name
    | (_, dot :: before) => if before = [] then name else String.ofList (dot :: before).reverse

/-- `Path::with_extension("")`: the extension is cut off, and of what remains the stem is kept. -/
def withoutExtension (path : Path) : Path :=
  match path.getLast? with
  | some name => path.dropLast ++ [fileStem (tillDot name)]
  | none => path

/-- `State::get_video_name_from_path`; `server/src/server.rs:41`. The components are joined again
as they stood in the path. -/
def getVideoNameFromPath (videoPath videoFolder : Path) : Option String :=
  ((videoFolder.isPrefixOf? (withoutExtension videoPath))).map fun rest ↦
    String.intercalate "/" rest

/-- `State::contains_video`; `server/src/server.rs:53` -/
def State.containsVideo (s : State) (videoPath videoFolder : Path) : Bool :=
  match getVideoNameFromPath videoPath videoFolder with
  | none => false
  | some videoName => s.videos.entries.any fun e ↦ e.2.name = videoName

/-- Where a run of `start_streaming_video` stands. -/
inductive Stage where
  /-- the child process is not running yet -/
  | starting
  /-- the entry was inserted, and the child process runs -/
  | streaming (videoId : VideoId)
  | ended
  deriving DecidableEq, Repr

/-- A streaming task: the path that it is for, and how far it has come. -/
structure Task where
  videoPath : Path
  stage : Stage
  deriving DecidableEq, Repr

/-- A server and its streaming tasks in the order they were spawned. -/
structure Process where
  server : State
  tasks : List Task
  deriving DecidableEq

/-- What happens to a server while it streams. -/
inductive Happening where
  /-- `watch_video_folder` looks at a file; `server/src/server.rs:228` -/
  | look (videoPath : Path)
  /-- `start_streaming_video` has its child process and inserts the entry -/
  | insert (task : Nat)
  /-- `start_streaming_video` cannot start its child process -/
  | abandon (task : Nat)
  /-- the child process of a task produces data -/
  | data (task : Nat) (streamData : List UInt8)
      (sendResult : Nat → Except ReliableUdpSocketError Unit)
  /-- the child process of a task ends -/
  | childEnds (task : Nat)
  /-- a packet reaches the server -/
  | packet (p : Packet) (addr : SocketAddr)

namespace Process

/-- A task goes on. -/
def setTask (s : Process) (task : Nat) (t : Task) : Process :=
  { s with tasks := s.tasks.set task t }

section Steps

-- `folder` is the watched folder, `getVideoId` the hash `State::get_video_id`
variable (folder : Path) (getVideoId : String → VideoId)

/-- The step of a happening, where it is possible; `server/src/server.rs:83`. -/
def step? (s : Process) : Happening → Option Process
  | .look videoPath =>
    if s.server.containsVideo videoPath folder then some s
    else some { s with tasks := s.tasks ++ [⟨videoPath, .starting⟩] }
  | .insert task =>
    match s.tasks[task]? with
    | some ⟨videoPath, .starting⟩ =>
      match getVideoNameFromPath videoPath folder with
      | some videoName => some ({ s with
          server := s.server.addVideo (getVideoId videoName) videoName }.setTask task
            ⟨videoPath, .streaming (getVideoId videoName)⟩)
      | none => some (s.setTask task ⟨videoPath, .ended⟩)
    | _ => none
  | .abandon task =>
    match s.tasks[task]? with
    | some ⟨videoPath, .starting⟩ => some (s.setTask task ⟨videoPath, .ended⟩)
    | _ => none
  | .data task streamData sendResult =>
    match s.tasks[task]? with
    | some ⟨_, .streaming videoId⟩ =>
      some { s with server := (s.server.streamVideo videoId streamData sendResult).1 }
    | _ => none
  | .childEnds task =>
    match s.tasks[task]? with
    -- the entry of the video stays
    | some ⟨videoPath, .streaming _⟩ => some (s.setTask task ⟨videoPath, .ended⟩)
    | _ => none
  | .packet p addr => some { s with server := s.server.handlePacket p addr }

/-- One step of the server with its tasks. -/
def Step (s : Process) (h : Happening) (t : Process) : Prop :=
  s.step? folder getVideoId h = some t

/-- The video that an insertion by the task enters. -/
def entering (s : Process) (task : Nat) : Option VideoId :=
  match s.tasks[task]? with
  | some ⟨videoPath, .starting⟩ => (getVideoNameFromPath videoPath folder).map getVideoId
  | _ => none

/-- A step that inserts nothing over another entry and ends no stream. -/
def Orderly (s : Process) : Happening → Prop
  | .insert task => ∀ videoId ∈ s.entering folder getVideoId task, videoId ∉ s.server.videos
  | .childEnds _ => False
  | _ => True

instance (s : Process) (h : Happening) : Decidable (s.Orderly folder getVideoId h) :=
  match h with
  | .insert task =>
    decidable_of_iff ((s.entering folder getVideoId task).all (· ∉ s.server.videos)) (by
      simp [Orderly, Option.all_eq_true])
  | .childEnds _ => .isFalse id
  | .look _ | .abandon _ | .data _ _ _ | .packet _ _ => .isTrue trivial

end Steps

/-- The number of running tasks that inserted the video. -/
def streamers (s : Process) (videoId : VideoId) : Nat :=
  s.tasks.countP fun t ↦ t.stage = .streaming videoId

/-- Each advertised video has exactly one running task that inserted it. -/
def OneToOne (s : Process) : Prop :=
  ∀ videoId ∈ s.server.getVideoList.map Prod.fst, s.streamers videoId = 1

instance (s : Process) : Decidable s.OneToOne :=
  List.decidableBAll (fun videoId ↦ s.streamers videoId = 1) (s.server.getVideoList.map Prod.fst)

/-- An insertion keeps the subscribers and the sequence number of every entry. -/
def KeepsEntries (folder : Path) (getVideoId : String → VideoId) (s : Process) (h : Happening) :
    Prop :=
  ∀ task, h = .insert task → ∀ t, s.Step folder getVideoId h t →
    ∀ videoId video, s.server.videos.lookup videoId = some video →
      ∃ video', t.server.videos.lookup videoId = some video' ∧
        video'.interested = video.interested ∧ video'.sequenceNumber = video.sequenceNumber

/-- Each running task finds the entry that it inserted. -/
def Entered (s : Process) : Prop := ∀ videoId, 0 < s.streamers videoId → videoId ∈ s.server.videos

end Process

namespace State

variable {s : State} {v : VideoId}

private theorem mem_getVideoList : v ∈ s.getVideoList.map Prod.fst ↔ v ∈ s.videos := by
  simp only [getVideoList, List.map_map, AList.mem_keys, AList.keys, List.keys]
  rfl

/-- A packet enters no video and takes none away. -/
theorem mem_videos_handlePacket {p : Packet} {addr : SocketAddr} :
    v ∈ (s.handlePacket p addr).videos ↔ v ∈ s.videos := by
  unfold handlePacket
  split
  · exact Map.mem_modify
  · exact Map.mem_modify
  all_goals exact Iff.rfl

/-- Neither does the data of a child process. -/
theorem mem_videos_streamVideo {w : VideoId} {streamData : List UInt8}
    {sendResult : Nat → Except ReliableUdpSocketError Unit} :
    v ∈ (s.streamVideo w streamData sendResult).1.videos ↔ v ∈ s.videos := by
  unfold streamVideo
  split
  · exact Iff.rfl
  · split
    · exact Iff.rfl
    · exact Map.mem_modify

private theorem hosts_iff : s.Hosts v ↔ v ∈ s.videos := AList.lookup_isSome

/-- A server keeps its videos when it handles a packet. -/
theorem Hosts.handlePacket (h : s.Hosts v) (p : Packet) (addr : SocketAddr) :
    (s.handlePacket p addr).Hosts v := by
  rw [hosts_iff] at h ⊢
  exact mem_videos_handlePacket.mpr h

/-- So it does when it acts. -/
theorem Hosts.run (h : s.Hosts v) (e : Event)
    (sendResult : Nat → Except ReliableUdpSocketError Unit) :
    (e.run sendResult s).1.Hosts v := by
  rw [hosts_iff] at h ⊢
  cases e with
  | addVideo u name => exact AList.mem_insert _ |>.mpr (.inr h)
  | streamVideo u data => exact mem_videos_streamVideo.mpr h
  | flood now => exact h

/-- A server announces only what it has. -/
theorem hosts_of_sent {e : Event} {sendResult : Nat → Except ReliableUdpSocketError Unit}
    {a : SocketAddr} {q : FloodPacket}
    (hsent : (a, .nodePacket (.floodPacket q)) ∈ (e.run sendResult s).2)
    (hv : v ∈ q.videosAvailable.map Prod.fst) : s.Hosts v := by
  rcases Event.sent_cases hsent with ⟨packet, hp⟩ | ⟨now, -, hp⟩
  · cases hp
  · cases hp
    exact hosts_iff.mpr (mem_getVideoList.mp hv)

end State

namespace Process

variable {folder : Path} {getVideoId : String → VideoId} {s t : Process} {h : Happening}

private theorem oneToOne_iff : s.OneToOne ↔ ∀ v ∈ s.server.videos, s.streamers v = 1 := by
  simp only [OneToOne, State.mem_getVideoList]

/-- A change of one task counts for what the task was and for what it becomes. -/
theorem streamers_setTask {i : Nat} {a b : Task} (ha : s.tasks[i]? = some a) (v : VideoId) :
    (s.setTask i b).streamers v + (if a.stage = .streaming v then 1 else 0) =
      s.streamers v + if b.stage = .streaming v then 1 else 0 := by
  obtain ⟨hi, rfl⟩ := List.getElem?_eq_some_iff.mp ha
  have hle := List.boole_getElem_le_countP (p := fun t : Task ↦ decide (t.stage = .streaming v)) hi
  simp only [streamers, setTask, List.countP_set hi, decide_eq_true_eq] at hle ⊢
  omega

/-- The streamers of a video where a task changes that neither streamed nor will stream. -/
theorem streamers_setTask_same {i : Nat} {a b : Task} (ha : s.tasks[i]? = some a)
    (hna : ∀ v, a.stage ≠ .streaming v) (hnb : ∀ v, b.stage ≠ .streaming v) (v : VideoId) :
    (s.setTask i b).streamers v = s.streamers v := by
  have hcount := streamers_setTask (b := b) ha v
  rw [if_neg (hna v), if_neg (hnb v)] at hcount
  exact hcount

/-- What a step does to the videos and to the tasks that stream them. -/
theorem Step.cases (hstep : s.Step folder getVideoId h t) :
    ((∀ v, v ∈ t.server.videos ↔ v ∈ s.server.videos) ∧ (∀ v, t.streamers v = s.streamers v) ∧
      (∀ task, h ≠ .childEnds task) ∧
      ∀ task, h = .insert task → s.entering folder getVideoId task = none ∧ t.server = s.server) ∨
    (∃ task v videoName, h = .insert task ∧ s.entering folder getVideoId task = some v ∧
      t.server = s.server.addVideo v videoName ∧
      ∀ w, t.streamers w = s.streamers w + if w = v then 1 else 0) ∨
    ∃ task v, h = .childEnds task ∧ t.server = s.server ∧
      ∀ w, t.streamers w + (if w = v then 1 else 0) = s.streamers w := by
  cases h with
  | look videoPath =>
    apply Or.inl
    simp only [Step, step?] at hstep
    split at hstep
    · cases hstep
      simp
    · cases hstep
      simp [streamers]
  | insert task =>
    simp only [Step, step?] at hstep
    split at hstep
    · next videoPath htask =>
      split at hstep
      · next videoName hname =>
        cases hstep
        apply Or.inr ∘ Or.inl
        refine ⟨task, getVideoId videoName, videoName, rfl, ?_, rfl, ?_⟩
        · simp [entering, htask, hname]
        · intro w
          show (s.setTask task ⟨videoPath, .streaming (getVideoId videoName)⟩).streamers w = _
          have hcount := streamers_setTask (b := ⟨videoPath, .streaming (getVideoId videoName)⟩)
            htask w
          simpa [eq_comm] using hcount
      · next hname =>
        cases hstep
        apply Or.inl
        refine ⟨fun v ↦ Iff.rfl, ?_, by simp, ?_⟩
        · exact streamers_setTask_same htask (by simp) (by simp)
        · intro i hi
          cases hi
          exact ⟨by simp [entering, htask, hname], rfl⟩
    · cases hstep
  | abandon task =>
    simp only [Step, step?] at hstep
    split at hstep
    · next videoPath htask =>
      cases hstep
      apply Or.inl
      exact ⟨fun v ↦ Iff.rfl, streamers_setTask_same htask (by simp) (by simp), by simp, by simp⟩
    · cases hstep
  | data task streamData sendResult =>
    simp only [Step, step?] at hstep
    split at hstep
    · cases hstep
      apply Or.inl
      exact ⟨fun v ↦ State.mem_videos_streamVideo, fun v ↦ rfl, by simp, by simp⟩
    · cases hstep
  | childEnds task =>
    simp only [Step, step?] at hstep
    split at hstep
    · next videoPath v htask =>
      cases hstep
      apply Or.inr ∘ Or.inr
      refine ⟨task, v, rfl, rfl, fun w ↦ ?_⟩
      have hcount := streamers_setTask (b := ⟨videoPath, .ended⟩) htask w
      simpa [eq_comm] using hcount
    · cases hstep
  | packet p addr =>
    cases hstep
    apply Or.inl
    exact ⟨fun v ↦ State.mem_videos_handlePacket, fun v ↦ rfl, by simp, by simp⟩

private theorem Step.entered (hstep : s.Step folder getVideoId h t) (hs : s.Entered) :
    t.Entered := by
  intro w hw
  rcases hstep.cases with ⟨hvideos, hcount, -⟩ | ⟨task, v, videoName, -, -, hserver, hcount⟩ |
    ⟨task, v, -, hserver, hcount⟩
  · rw [hcount] at hw
    exact (hvideos w).mpr (hs w hw)
  · rw [hserver]
    show w ∈ s.server.videos.insert v _
    rw [AList.mem_insert]
    by_cases hwv : w = v
    · exact .inl hwv
    · rw [hcount, if_neg hwv] at hw
      exact .inr (hs w hw)
  · rw [hserver]
    apply hs w
    have := hcount w
    omega

/-- A step keeps the correspondence and all entries just if it is an orderly one. -/
theorem Step.oneToOne_iff (hstep : s.Step folder getVideoId h t) (hentered : s.Entered)
    (hs : s.OneToOne) : s.KeepsEntries folder getVideoId h ∧ t.OneToOne ↔
      s.Orderly folder getVideoId h := by
  rw [Process.oneToOne_iff] at hs ⊢
  rcases hstep.cases with ⟨hvideos, hcount, hends, hinsert⟩ |
    ⟨task, v, videoName, rfl, hentering, hserver, hcount⟩ | ⟨task, v, rfl, hserver, hcount⟩
  · constructor
    · intro _
      cases h with
      | insert task =>
        intro v hv
        rw [(hinsert task rfl).1] at hv
        cases hv
      | childEnds task => exact (hends task rfl).elim
      | _ => trivial
    · intro _
      constructor
      · intro task htask u hu v video hvideo
        cases Option.some.inj (hstep.symm.trans hu)
        rw [(hinsert task htask).2]
        exact ⟨video, hvideo, rfl, rfl⟩
      · intro v hv
        rw [hcount]
        exact hs v ((hvideos v).mp hv)
  · have hmem (w : VideoId) : w ∈ t.server.videos ↔ w = v ∨ w ∈ s.server.videos := by
      rw [hserver]
      exact AList.mem_insert _
    constructor
    · -- the task and the one that entered the video before would both stream it
      intro h w hw hold
      rw [hentering] at hw
      cases hw
      have hnew := h.2 v ((hmem v).mpr (.inl rfl))
      rw [hcount, hs v hold, if_pos rfl] at hnew
      omega
    · intro horderly
      have hnew : v ∉ s.server.videos := horderly v hentering
      have hidle : s.streamers v = 0 := by
        apply Nat.eq_zero_of_not_pos
        exact fun hpos ↦ hnew (hentered v hpos)
      constructor
      · intro i _ u hu w video hvideo
        cases Option.some.inj (hstep.symm.trans hu)
        have hne : w ≠ v := by
          rintro rfl
          exact hnew (AList.lookup_isSome.mp (by rw [hvideo]; rfl))
        apply Exists.intro video
        rw [hserver]
        exact ⟨(AList.lookup_insert_ne hne).trans hvideo, rfl, rfl⟩
      · intro w hw
        by_cases hwv : w = v
        · rw [hcount, hwv, hidle, if_pos rfl]
        · rw [hcount, if_neg hwv]
          exact hs w (((hmem w).mp hw).resolve_left hwv)
  · constructor
    · -- the entry of the video stays without a task
      intro h
      have hstream := hcount v
      rw [if_pos rfl] at hstream
      have hold : v ∈ s.server.videos := hentered v (by omega)
      have hleft := h.2 v (by rw [hserver]; exact hold)
      have hone := hs v hold
      omega
    · exact fun horderly ↦ horderly.elim

/-- From an empty server on, each advertised video has its one running task throughout a run and
no entry is lost to an insertion, if and only if all steps of the run are orderly. -/
theorem one_to_one_iff {id : NodeId} {neighbours : List SocketAddr}
    {tr : List (Process × Happening)}
    (h : Run (Step folder getVideoId) ⟨.new id neighbours, []⟩ tr t) :
    (∀ p ∈ tr, p.1.OneToOne ∧ p.1.KeepsEntries folder getVideoId p.2) ∧ t.OneToOne ↔
      ∀ p ∈ tr, p.1.Orderly folder getVideoId p.2 := by
  apply Run.invariant_iff (J := Entered) _ _ h
  · intro v hv
    exact absurd hv (Nat.lt_irrefl 0)
  · intro v hv
    cases hv
  · exact fun _ _ _ hs hstep ↦ hstep.entered hs
  · exact fun _ _ _ hentered hs hstep ↦ hstep.oneToOne_iff hentered hs

/-- A server without videos and its folder; the length of a name stands for its hash. -/
def idle : Process := ⟨.new 9 [], []⟩

/-- The folder of videos. -/
def watched : Path := ["videos"]

/-- A hash of names. -/
def lengthHash (videoName : String) : VideoId := videoName.length.toUInt64

/-- A file in the folder. -/
def film : Path := ["videos", "film.mp4"]

/-- The first file of a folder is found and streamed, and a node asks for it. -/
def started : List Happening :=
  [.look film, .insert 0, .packet (.serverPacket (.requestVideo 4)) (IpAddr.v4 1).atPort]

/-- The film is streamed by one task. -/
theorem one_to_one_started : (trace (step? watched lengthHash) idle started).2.OneToOne := by
  apply ((one_to_one_iff (run_trace (step? watched lengthHash) idle started)).mpr _).2
  decide

/-- A child process ends; another sweep comes before the first task enters its video, and a node
asks for it in between; two files differ in their extensions only. -/
theorem not_one_to_one :
    (∃ tr t, Run (Step watched lengthHash) idle tr t ∧ ¬ t.OneToOne) ∧
    (∃ tr s h, Run (Step watched lengthHash) idle tr s ∧
      ¬ s.KeepsEntries watched lengthHash h) ∧
    ∃ tr t, Run (Step watched lengthHash) idle tr t ∧ ¬ t.OneToOne := by
  constructor
  · apply Exists.intro _
    apply Exists.intro _
    constructor
    · exact run_trace (step? watched lengthHash) idle [.look film, .insert 0, .childEnds 0]
    · decide
  constructor
  · apply Exists.intro _
    apply Exists.intro _
    apply Exists.intro (.insert 1)
    constructor
    · exact run_trace (step? watched lengthHash) idle (.look film :: started)
    · intro h
      obtain ⟨video, hvideo, hinterested, -⟩ := h 1 rfl _ rfl 4 _ rfl
      cases hvideo
      cases hinterested
  · apply Exists.intro _
    apply Exists.intro _
    constructor
    · exact run_trace (step? watched lengthHash) idle
        [.look film, .look ["videos", "film.mkv"], .insert 0, .insert 1]
    · decide

end Process
end PessiStreamer.Server
