import HopToDesk.Laws.Transfer.Telling
import HopToDesk.Transfer.Serving

/-!
# Nothing is sent unconfirmed

Three fields say how far a job has come with its file: what is open, whether the digest is out, and
whether the file is confirmed. They are reset in many places, and one is forgotten: a job that
passes a marker keeps open what a confirmation has opened for it. That is a directory, or a file
that is open for writing, and no read of it comes to anything (`Dead`).

So what is open is dead or belongs to the file the job is at, and with `file_confirmed` set a
confirmation of that file has come since it was opened (`Watched`).
-/

set_option autoImplicit false

namespace HopToDesk.Transfer

open Kit UnixPath
open TransferJob (Io Yield Confirm)

/-! ## What is open -/

/-- Open, and never to be read. -/
def Dead (d : Disk) (h : Handle) : Prop := h.ino < d.next ∧ d.Unreadable h

section Disk

variable {d d' : Disk} {h : Handle}

theorem Dead.evolves (hdead : Dead d h) (hd : Serving.Evolves d d') : Dead d' h :=
  ⟨hdead.1.trans_le hd.next, hdead.2.imp_right (hd.gone h.ino hdead.1)⟩

theorem Dead.congr (hdead : Dead d h) (hd : Disk.SameTree d d') : Dead d' h :=
  ⟨hdead.1.trans_le hd.next, hdead.2.congr hd⟩

theorem evolves_of_sameTree (hd : Disk.SameTree d d') : Serving.Evolves d d' where
  inodes := hd.inodes
  next := hd.next
  gone ino _ hnone := (hd.placeOf ino).trans hnone

/-- What is opened for reading is the file, or dead. -/
theorem openRead_cases (hi : d.Inodes) {s : PathStr} (ho : d.openRead s = .ok (h, d')) :
    Disk.SameTree d d' ∧ (h.ino < d'.next) ∧
      ((∃ data, d.stat s = some (.file h.ino data)) ∨ Dead d' h) := by
  obtain ⟨hd, -, -, hfile⟩ := Disk.openRead_spec hi ho
  have hino : h.ino < d'.next := by
    unfold Disk.openRead at ho
    split at ho
    next ino data hstat =>
      cases ho
      exact hi.fresh (Disk.stat_file hstat)
    next =>
      cases ho
      exact Nat.lt_succ_self _
    next => cases ho
  exact ⟨hd, hino, hfile.imp_right fun hu => ⟨hino, hu.congr hd⟩⟩

theorem openWrite_dead (hi : d.Inodes) {s : PathStr} (hs : d.pathExists s = true)
    (ho : d.openWrite s = .ok (h, d')) : Disk.SameTree d d' ∧ Dead d' h := by
  obtain ⟨hd, hwritable⟩ := Disk.openWrite_spec hs ho
  refine ⟨hd, ?_, .inl hwritable⟩
  unfold Disk.openWrite at ho
  split at ho
  next ino data hstat =>
    cases ho
    exact hi.fresh (Disk.stat_file hstat)
  next =>
    obtain ⟨-, -, -, ⟨data, hget, rfl⟩ | ⟨-, -, hino, rfl⟩⟩ := Disk.createFile_cases ho
    · exact hi.fresh hget
    · exact hino ▸ Nat.lt_succ_self _

/-- What a confirmation opens is dead, or the file of an entry that is no marker. -/
theorem seekable_cases (hi : d.Inodes) {p : PathStr} {e : FileEntry}
    (ho : TransferJob.seekable p e d = .ok (h, d')) :
    Disk.SameTree d d' ∧ (Dead d' h ∨ isMarker e.name = false) := by
  unfold TransferJob.seekable at ho
  dsimp only at ho
  split_ifs at ho with hpartial hthere
  · rw [Bool.and_eq_true] at hpartial
    exact (openWrite_dead hi hpartial.1 ho).imp_right .inl
  · obtain ⟨hd, -, hfile⟩ := openRead_cases hi ho
    refine ⟨hd, ?_⟩
    rcases hfile with ⟨data, hstat⟩ | hdead
    · refine .inr (Bool.eq_false_iff.mpr fun hmarker => ?_)
      have hends : endsAsDir (TransferJob.join p e.name) = true := by
        rw [endsAsDir_eq, show tip (TransferJob.join p e.name) = [] from tip_marker hmarker]
        rfl
      exact Disk.stat_ne_file hends hstat
    · exact .inl hdead

end Disk

/-! ## What has been noted -/

/-- The log of a job whose files are confirmed before they are sent. -/
structure Proper (notes : List Note) : Prop where
  /-- Data of a file was sent when it had been opened, and confirmed since. -/
  data : Each notes Note.Carries fun before note => ∀ b, note = .sent (.block b) →
    Since before (· = .opened b.fileNum) fun after => .confirmed b.fileNum ∈ after
  /-- A digest was sent when something had been opened, and none had been sent since. -/
  asks : Each notes Note.Asks fun before _ =>
    Since before Note.Opens fun after => ∀ note ∈ after, ¬ note.Asks

/-- The file the job is at has been opened, and if the job takes it for confirmed, it has been
confirmed since. -/
def Current (job : TransferJob) (notes : List Note) : Prop :=
  (∃ e, Regular job.files (asUsize job.fileNum) e) ∧
    Since notes (· = .opened job.fileNum) fun after =>
      job.fileConfirmed = true → .confirmed job.fileNum ∈ after

/-- What is noted of a job with files that asks before it sends, and how that matches its fields. -/
structure Watched (job : TransferJob) (disk : Disk) (notes : List Note) : Prop where
  generic : job.jobType = .generic
  detects : job.enableOverwriteDetection = true
  source : ∃ p, job.dataSource = .filePath p
  inodes : disk.Inodes
  waits : job.fileIsWaiting = true →
    ∃ e, Regular job.files (asUsize job.fileNum) e
  stream : ∀ {stream}, job.dataStream = some stream →
    ∃ h, stream = .fileStream h ∧ (Dead disk h ∨ Current job notes)
  asked : job.dataStream ≠ none → job.fileIsWaiting = false →
    Since notes Note.Opens fun after => ∀ note ∈ after, ¬ note.Asks
  proper : Proper notes

section Watched

variable {z : Zstd} {job job' : TransferJob} {disk disk' : Disk} {notes : List Note} {note : Note}
  {io : Io}

theorem Proper.snoc (h : Proper notes) (hdata : ¬ note.Carries) (hasks : ¬ note.Asks) :
    Proper (notes ++ [note]) := ⟨h.data.snoc hdata, h.asks.snoc hasks⟩

theorem Current.snoc (h : Current job notes) (hopens : ¬ note.Opens) :
    Current job (notes ++ [note]) := by
  refine ⟨h.1, h.2.snoc ?_ fun after hafter hconfirmed =>
    List.mem_append_left _ (hafter hconfirmed)⟩
  intro heq
  rw [heq] at hopens
  exact hopens trivial

/-- Something is noted that opens nothing and asks for nothing. -/
theorem Watched.say (h : Watched job disk notes) (hproper : Proper (notes ++ [note]))
    (hasks : ¬ note.Asks) (hopens : ¬ note.Opens) : Watched job disk (notes ++ [note]) := by
  refine { h with stream := ?_, asked := ?_, proper := hproper }
  · intro stream hopen
    obtain ⟨handle, hhandle, hfile⟩ := h.stream hopen
    exact ⟨handle, hhandle, hfile.imp_right fun hcurrent => hcurrent.snoc hopens⟩
  · intro hopen hwaiting
    refine (h.asked hopen hwaiting).snoc hopens fun after hafter => ?_
    exact List.forall_mem_append.mpr ⟨hafter, List.forall_mem_singleton.mpr hasks⟩

theorem Watched.neutral (h : Watched job disk notes) (hdata : ¬ note.Carries) (hasks : ¬ note.Asks)
    (hopens : ¬ note.Opens) : Watched job disk (notes ++ [note]) :=
  h.say (h.proper.snoc hdata hasks) hasks hopens

/-- The job has nothing open and waits for nothing. -/
theorem Watched.close (h : Watched job disk notes) (htype : job'.jobType = job.jobType)
    (hdetects : job'.enableOverwriteDetection = job.enableOverwriteDetection)
    (hsource : job'.dataSource = job.dataSource) (hwaits : job'.fileIsWaiting = false)
    (hclosed : job'.dataStream = none) : Watched job' disk notes where
  generic := htype.trans h.generic
  detects := hdetects.trans h.detects
  source := h.source.imp fun _ hp => hsource.trans hp
  inodes := h.inodes
  waits hwaiting := by
    rw [hwaits] at hwaiting
    cases hwaiting
  stream hopen := by
    rw [hclosed] at hopen
    cases hopen
  asked hopen := absurd hclosed hopen
  proper := h.proper

theorem Watched.evolves (h : Watched job disk notes) (hd : Serving.Evolves disk disk') :
    Watched job disk' notes := by
  refine { h with inodes := hd.inodes h.inodes, stream := ?_ }
  intro stream hopen
  obtain ⟨handle, hhandle, hfile⟩ := h.stream hopen
  exact ⟨handle, hhandle, hfile.imp_left (·.evolves hd)⟩

/-! ### `read` -/

/-- The messages go out. -/
def sentNotes (notes : List Note) (result : Except JobError Yield) (job : TransferJob) :
    List Note := notes ++ (messagesOf result job).map .sent

/-- A read that fails leaves the file. -/
theorem Watched.fails (h : Watched job disk notes) (err : JobError)
    (htype : job'.jobType = job.jobType)
    (hdetects : job'.enableOverwriteDetection = job.enableOverwriteDetection)
    (hsource : job'.dataSource = job.dataSource) (hwaits : job'.fileIsWaiting = false)
    (hclosed : job'.dataStream = none) : Watched job' disk (sentNotes notes (.error err) job') :=
  (h.close htype hdetects hsource hwaits hclosed).neutral id id id

/-- A block of the file that is open, and confirmed. -/
theorem Watched.readBlock (h : Watched job disk notes) {stream : DataStream}
    (hopen : job.dataStream = some stream) (hconfirmed : job.fileConfirmed = true)
    (name : PathStr) : Watched (job.readBlock z name stream disk io).2.1 disk
      (sentNotes notes (job.readBlock z name stream disk io).1
        (job.readBlock z name stream disk io).2.1) := by
  obtain ⟨handle, rfl, hfile⟩ := h.stream hopen
  obtain ⟨p, hsource⟩ := h.source
  unfold TransferJob.readBlock
  dsimp only
  split
  next err hfails => exact h.fails err rfl rfl rfl rfl rfl
  next buf stream hreads =>
    have hfill := ReadJob.orFails_ok hreads
    obtain ⟨handle', rfl⟩ := fill_fileStream hfill
    -- What is dead gives no block.
    have hcurrent : Current job notes := by
      refine hfile.resolve_left fun hdead => ?_
      obtain ⟨err, herr⟩ := ReadJob.fill_unreadable hdead.2 job.bufSize job.bufSize
      cases herr.symm.trans hfill
    split
    next =>
      split
      next hmemory => cases hmemory.symm.trans hsource
      next =>
        have hclosed : Watched { job.nextFile with dataStream := none } disk notes :=
          h.close rfl rfl rfl rfl rfl
        refine hclosed.neutral ?_ ?_ ?_
        · exact fun hdata => hdata rfl
        · exact id
        · exact id
    next =>
      generalize TransferJob.pack z _ name buf = packed
      obtain ⟨data, compressed⟩ := packed
      have hmore : Watched { job with
          dataStream := some (.fileStream handle')
          finishedSize := job.finishedSize + buf.length
          transferred := job.transferred + data.length } disk notes := by
        refine { h with stream := ?_, asked := ?_ }
        · intro stream hstream
          cases hstream
          exact ⟨handle', rfl, .inr hcurrent⟩
        · intro _ hwaiting
          exact h.asked (by rw [hopen]; exact Option.some_ne_none _) hwaiting
      refine hmore.say ⟨?_, h.proper.asks.snoc ?_⟩ ?_ ?_
      · refine each_snoc.mpr ⟨h.proper.data, fun _ b hb => ?_⟩
        cases hb
        exact hcurrent.2.imp fun after hafter => hafter hconfirmed
      · exact id
      · exact id
      · exact id

/-- The middle of `read`, with a file open. -/
theorem Watched.readConfirmed (h : Watched job disk notes) {stream : DataStream}
    (hopen : job.dataStream = some stream) {e : FileEntry}
    (he : Regular job.files (asUsize job.fileNum) e) :
    Watched (job.readConfirmed z e.name stream disk io).2.1 disk
      (sentNotes notes (job.readConfirmed z e.name stream disk io).1
        (job.readConfirmed z e.name stream disk io).2.1) := by
  unfold TransferJob.readConfirmed
  split
  next hasks =>
    split
    next =>
      rw [sentNotes, messagesOf, List.map_nil, List.append_nil]
      exact h
    next hwaiting =>
      rw [Bool.not_eq_true] at hwaiting
      split
      next err _ => exact h.neutral id id id
      next digest _ =>
        have hasked := h.asked (by rw [hopen]; exact Option.some_ne_none _) hwaiting
        refine {
          generic := h.generic
          detects := h.detects
          source := h.source
          inodes := h.inodes
          waits := fun _ => ⟨e, he⟩
          stream := ?_
          asked := fun _ hwaits => by cases hwaits
          proper := ⟨h.proper.data.snoc id, each_snoc.mpr ⟨h.proper.asks, fun _ => hasked⟩⟩ }
        intro stream' hstream
        obtain ⟨handle, hhandle, hfile⟩ := h.stream hstream
        exact ⟨handle, hhandle, hfile.imp_right fun hcurrent => hcurrent.snoc id⟩
  next hasks =>
    have hconfirmed : job.fileConfirmed = true := by
      simpa [h.generic, h.detects] using hasks
    exact h.readBlock hopen hconfirmed e.name

/-- It is the same job, at the same file. -/
structure AtSame (job job' : TransferJob) : Prop where
  jobType : job'.jobType = job.jobType
  detects : job'.enableOverwriteDetection = job.enableOverwriteDetection
  source : job'.dataSource = job.dataSource
  files : job'.files = job.files
  fileNum : job'.fileNum = job.fileNum
  waits : job'.fileIsWaiting = true → job.fileIsWaiting = true

/-- The file the job is at has just been opened. -/
theorem Watched.opened (h : Watched job disk notes) (hsame : AtSame job job')
    (hd : Serving.Evolves disk disk') {handle : Handle}
    (hhandle : Dead disk' handle ∨ ∃ e, Regular job.files (asUsize job.fileNum) e)
    (hopen : job'.dataStream = some (.fileStream handle))
    (hconfirmed : job'.fileConfirmed = false) :
    Watched job' disk' (notes ++ [.opened job.fileNum]) where
  generic := hsame.jobType.trans h.generic
  detects := hsame.detects.trans h.detects
  source := h.source.imp fun _ hp => hsame.source.trans hp
  inodes := hd.inodes h.inodes
  waits hwaits := by
    rw [hsame.files, hsame.fileNum]
    exact h.waits (hsame.waits hwaits)
  stream hstream := by
    cases hopen.symm.trans hstream
    refine ⟨handle, rfl, hhandle.imp_right fun he => ?_⟩
    rw [Current, hsame.files, hsame.fileNum]
    refine ⟨he, Since.start rfl fun hset => ?_⟩
    rw [hconfirmed] at hset
    cases hset
  asked _ _ := Since.start trivial (List.forall_mem_nil _)
  proper := h.proper.snoc id id

/-- A marker: the job goes on, and what is open stays open. -/
theorem Watched.marker (h : Watched job disk notes) {e : FileEntry}
    (he : job.files[asUsize job.fileNum]? = some e) (hmarker : isMarker e.name = true) :
    Watched job.nextFile disk notes := by
  have hirregular : ¬ ∃ e, Regular job.files (asUsize job.fileNum) e := by
    intro hregular
    obtain ⟨e', he', hfile⟩ := hregular
    cases he.symm.trans he'
    rw [hmarker] at hfile
    cases hfile
  have hwaits : job.fileIsWaiting = false := Bool.eq_false_iff.mpr (mt h.waits hirregular)
  refine {
    generic := h.generic
    detects := h.detects
    source := h.source
    inodes := h.inodes
    waits := fun hwaiting => by cases hwaiting
    stream := ?_
    asked := fun hopen _ => h.asked hopen hwaits
    proper := h.proper }
  intro stream hopen
  obtain ⟨handle, hhandle, hfile⟩ := h.stream hopen
  exact ⟨handle, hhandle, .inl (hfile.resolve_right fun hcurrent => hirregular hcurrent.1)⟩

section Cases

variable (z disk io) {p : PathStr} (hsource : job.dataSource = .filePath p)
include hsource

theorem reads_none (he : job.files[asUsize job.fileNum]? = none) :
    job.read z disk io = (.ok .nothing, { job with dataStream := none }, disk) ∧
      job.opens disk io = false := by
  simp only [TransferJob.read, TransferJob.opens, hsource, he, and_self]

variable {e : FileEntry} (he : job.files[asUsize job.fileNum]? = some e)
include he

theorem reads_marker (hmarker : isMarker e.name = true) :
    job.read z disk io =
        (.ok (.block ⟨job.id, job.fileNum, [], false⟩), job.nextFile, disk) ∧
      job.opens disk io = false := by
  simp [TransferJob.read, TransferJob.opens, hsource, he, hmarker]

theorem reads_open (hfile : isMarker e.name = false) {stream : DataStream}
    (hopen : job.dataStream = some stream) :
    job.read z disk io = job.readConfirmed z e.name stream disk io ∧
      job.opens disk io = false := by
  simp [TransferJob.read, TransferJob.opens, hsource, he, hfile, hopen]

theorem reads_closed_fails (hfile : isMarker e.name = false) (hclosed : job.dataStream = none)
    {err : JobError} (hfails : TransferJob.orFails io.openFails
      (disk.openRead (TransferJob.join p e.name)) = .error err) :
    job.read z disk io = (.error err, { job.nextFile with fileError := some err }, disk) ∧
      job.opens disk io = false := by
  simp [TransferJob.read, TransferJob.opens, hsource, he, hfile, hclosed, hfails, Except.isOk,
    Except.toBool]

theorem reads_closed (hfile : isMarker e.name = false) (hclosed : job.dataStream = none)
    {handle : Handle} (hopened : TransferJob.orFails io.openFails
      (disk.openRead (TransferJob.join p e.name)) = .ok (handle, disk')) :
    job.read z disk io = { job with
        dataStream := some (.fileStream handle)
        fileConfirmed := false
        fileIsWaiting := false }.readConfirmed z e.name (.fileStream handle) disk' io ∧
      job.opens disk io = true := by
  constructor
  · simp [TransferJob.read, hsource, he, hfile, hclosed, hopened]
  · simp [TransferJob.opens, hsource, he, hfile, hclosed, hopened, Except.isOk, Except.toBool]

end Cases

/-- **A call of `read`.** -/
theorem Watched.read (h : Watched job disk notes) (io : Io) :
    Watched (job.read z disk io).2.1 (job.read z disk io).2.2
      (sentNotes (notes ++ if job.opens disk io then [.opened job.fileNum] else [])
        (job.read z disk io).1 (job.read z disk io).2.1) := by
  obtain ⟨p, hsource⟩ := h.source
  cases he : job.files[asUsize job.fileNum]? with
  | none =>
    obtain ⟨hread, hopens⟩ :=
        reads_none z disk io hsource he
    have hwaits : job.fileIsWaiting = false := by
      refine Bool.eq_false_iff.mpr (mt h.waits fun hregular => ?_)
      obtain ⟨e, he', -⟩ := hregular
      cases he.symm.trans he'
    rw [hread, hopens, if_neg Bool.false_ne_true, List.append_nil, sentNotes, messagesOf,
      List.map_nil, List.append_nil]
    exact h.close rfl rfl rfl hwaits rfl
  | some e =>
    cases hmarker : isMarker e.name with
    | true =>
      obtain ⟨hread, hopens⟩ :=
        reads_marker z disk io hsource he hmarker
      rw [hread, hopens, if_neg Bool.false_ne_true, List.append_nil]
      refine (h.marker he hmarker).neutral ?_ id id
      exact fun hdata => hdata rfl
    | false =>
      cases hopen : job.dataStream with
      | some stream =>
        obtain ⟨hread, hopens⟩ :=
        reads_open z disk io hsource he hmarker hopen
        rw [hread, hopens, if_neg Bool.false_ne_true, List.append_nil,
          (ReadJob.same_readConfirmed job e.name stream io).2]
        exact h.readConfirmed hopen ⟨he, hmarker⟩
      | none =>
        cases hopened : TransferJob.orFails io.openFails
            (disk.openRead (TransferJob.join p e.name)) with
        | error err =>
          obtain ⟨hread, hopens⟩ :=
            reads_closed_fails z disk io hsource he hmarker hopen hopened
          rw [hread, hopens, if_neg Bool.false_ne_true, List.append_nil]
          exact h.fails err rfl rfl rfl rfl hopen
        | ok x =>
          obtain ⟨handle, disk'⟩ := x
          obtain ⟨hread, hopens⟩ :=
            reads_closed z disk io hsource he hmarker hopen hopened
          obtain ⟨hd, -, -⟩ := openRead_cases h.inodes (ReadJob.orFails_ok hopened)
          have hthere : ∃ e, Regular job.files (asUsize job.fileNum) e := ⟨e, he, hmarker⟩
          have hsame : AtSame job { job with
              dataStream := some (.fileStream handle)
              fileConfirmed := false
              fileIsWaiting := false } :=
            ⟨rfl, rfl, rfl, rfl, rfl, fun hwaits => by cases hwaits⟩
          have hnow := h.opened hsame (evolves_of_sameTree hd) (.inr hthere) rfl rfl
          rw [hread, hopens, if_pos rfl, (ReadJob.same_readConfirmed _ e.name _ io).2]
          exact hnow.readConfirmed rfl ⟨he, hmarker⟩

/-! ### `confirm` -/

/-- The file the job is at is confirmed. -/
theorem Watched.confirmed (h : Watched job disk notes) :
    Watched (job.setFileConfirmed true) disk (notes ++ [.confirmed job.fileNum]) := by
  refine { h with stream := ?_, asked := ?_, proper := h.proper.snoc id id }
  · intro stream hopen
    obtain ⟨handle, hhandle, hfile⟩ := h.stream hopen
    refine ⟨handle, hhandle, hfile.imp_right fun hcurrent => ⟨hcurrent.1, ?_⟩⟩
    refine hcurrent.2.snoc Note.noConfusion fun after _ _ => ?_
    exact List.mem_append_right _ List.mem_cons_self
  · intro hopen hwaiting
    refine (h.asked hopen hwaiting).snoc id fun after hafter => ?_
    exact List.forall_mem_append.mpr ⟨hafter, List.forall_mem_singleton.mpr id⟩

theorem setStreamOffset_eq {p : PathStr} (hsource : job.dataSource = .filePath p)
    {e : FileEntry} {i : Nat} (he : job.files[i]? = some e) (offset : Nat) :
    job.setStreamOffset i offset disk =
      match TransferJob.seekable p e disk with
      | .error _ => some (job, disk)
      | .ok (h, disk) => some ({ job with
          dataStream := some (.fileStream { h with offset })
          transferred := job.transferred + offset
          finishedSize := job.finishedSize + offset }, disk) := by
  cases hopened : TransferJob.seekable p e disk with
  | error err =>
    simp only [TransferJob.seekable] at hopened
    simp only [TransferJob.setStreamOffset, hsource, he, hopened]
  | ok x =>
    simp only [TransferJob.seekable] at hopened
    simp only [TransferJob.setStreamOffset, hsource, he, hopened]

/-- **A confirmation.** -/
theorem Watched.confirm (h : Watched job disk notes) {fileNum : Int} {union : Option Confirm}
    (hconfirm : job.confirm fileNum union disk = some (job', disk')) :
    Watched job' disk' (notes ++ job.confirmNotes fileNum union disk) := by
  obtain ⟨p, hsource⟩ := h.source
  unfold TransferJob.confirm at hconfirm
  unfold TransferJob.confirmNotes
  split_ifs at hconfirm ⊢ with hnum
  · cases hconfirm
    rwa [List.append_nil]
  rw [ne_eq, not_not] at hnum
  subst hnum
  split at hconfirm
  next =>
    cases hconfirm
    rw [List.append_nil]
    exact h.close rfl rfl rfl rfl rfl
  next =>
    cases hconfirm
    exact h.confirmed
  next offset =>
    dsimp only at hconfirm ⊢
    split_ifs at hconfirm with hpos
    · cases he : job.files[asUsize job.fileNum]? with
      | none =>
        simp only [TransferJob.setStreamOffset, TransferJob.setFileConfirmed, hsource, he]
          at hconfirm
        cases hconfirm
      | some e =>
        have hsource' : (job.setFileConfirmed true).dataSource = .filePath p := hsource
        rw [setStreamOffset_eq hsource' he] at hconfirm
        cases hseek : TransferJob.seekable p e disk with
        | error err =>
          have hsame : job.reopens job.fileNum offset disk = false := by
            simp [TransferJob.reopens, hsource, he, hseek, Except.isOk, Except.toBool]
          rw [hseek] at hconfirm
          cases hconfirm
          rw [hsame]
          exact h.confirmed
        | ok x =>
          obtain ⟨handle, disk₁⟩ := x
          have hnew : job.reopens job.fileNum offset disk = true := by
            simp [TransferJob.reopens, hsource, he, hseek, hpos, Except.isOk, Except.toBool]
          rw [hseek] at hconfirm
          cases hconfirm
          obtain ⟨hd, hfile⟩ := seekable_cases h.inodes hseek
          have hsame : AtSame job { job with
              dataStream := some (.fileStream { handle with offset })
              fileConfirmed := false
              transferred := job.transferred + offset
              finishedSize := job.finishedSize + offset } := ⟨rfl, rfl, rfl, rfl, rfl, id⟩
          have hthere : Dead disk' { handle with offset } ∨
              ∃ e, Regular job.files (asUsize job.fileNum) e :=
            hfile.imp_right fun hregular => ⟨e, he, hregular⟩
          have hnow := h.opened hsame (evolves_of_sameTree hd) hthere rfl rfl
          rw [hnew, if_pos rfl, List.append_cons]
          exact hnow.confirmed
    · cases hconfirm
      have hsame : job.reopens job.fileNum offset disk = false := by
        unfold TransferJob.reopens
        rw [hsource]
        dsimp only
        split
        · rfl
        · simp [hpos]
      rw [hsame]
      exact h.confirmed
  next =>
    cases hconfirm
    rwa [List.append_nil]

end Watched

/-! ## A run -/

namespace Serving

variable {z : Zstd} {s s' : Serving} {job : TransferJob}

theorem run_turn {events : List ServeEvent} (h : (system z job).Run events s)
    (hs : s.removed = false) (io : Io) :
    (system z job).Run (events ++ [.turn io]) (s.turn z io) := h.snoc ⟨hs, rfl⟩

theorem run_confirm {events : List ServeEvent} (h : (system z job).Run events s)
    (hs : s.removed = false) (fileNum : Int) (union : Option Confirm) {job' : TransferJob}
    {disk : Disk} (hconfirm : s.job.confirm fileNum union s.disk = some (job', disk)) :
    (system z job).Run (events ++ [.confirm fileNum union])
      ⟨job', disk, s.notes ++ s.job.confirmNotes fileNum union s.disk, s.removed⟩ :=
  h.snoc ⟨hs, job', disk, hconfirm, rfl⟩

/-- The last message is no block and no digest. -/
theorem lastMessage_cases (job : TransferJob) :
    (∃ err, lastMessage job = .error job.id job.fileNum err) ∨
      lastMessage job = .done job.id job.fileNum := by
  unfold lastMessage
  split
  · exact .inl ⟨_, rfl⟩
  · exact .inr rfl

theorem watched_turn (h : Watched s.job s.disk s.notes) (io : Io) :
    Watched (s.turn z io).job (s.turn z io).disk (s.turn z io).notes := by
  have hread := h.read (z := z) io
  have hturn : (s.turn z io).notes =
      sentNotes (s.notes ++ if s.job.opens s.disk io then [.opened s.job.fileNum] else [])
        (s.job.read z s.disk io).1 (s.turn z io).job ++
          if (s.turn z io).removed then [.sent (lastMessage (s.turn z io).job)] else [] := rfl
  rw [hturn]
  cases (s.turn z io).removed with
  | false =>
    rw [if_neg Bool.false_ne_true, List.append_nil]
    exact hread
  | true =>
    rw [if_pos rfl]
    rcases lastMessage_cases (s.turn z io).job with ⟨err, hlast⟩ | hlast
    · rw [hlast]
      refine Watched.neutral hread ?_ ?_ ?_
      · exact id
      · exact id
      · exact id
    · rw [hlast]
      refine Watched.neutral hread ?_ ?_ ?_
      · exact id
      · exact id
      · exact id

/-- A step keeps to the order. -/
theorem watched_step {event : ServeEvent} (h : Watched s.job s.disk s.notes)
    (hs : step z s event s') : Watched s'.job s'.disk s'.notes := by
  cases event with
  | turn io =>
    obtain ⟨-, rfl⟩ := hs
    exact watched_turn h io
  | confirm fileNum union =>
    obtain ⟨-, job, disk, hconfirm, rfl⟩ := hs
    exact h.confirm hconfirm
  | changed disk =>
    obtain ⟨hd, rfl⟩ := hs
    exact h.evolves hd

/-- A job with files that asks before it sends, and has done nothing yet. -/
structure Asking (job : TransferJob) : Prop where
  generic : job.jobType = .generic
  detects : job.enableOverwriteDetection = true
  source : ∃ p, job.dataSource = .filePath p
  closed : job.dataStream = none
  idle : job.fileIsWaiting = false

theorem watched_of_run {events : List ServeEvent} (hjob : Asking job)
    (h : (system z job).Run events s) : Watched s.job s.disk s.notes := by
  refine h.invariant (I := fun s => Watched s.job s.disk s.notes) ?_ ?_
  · intro s hs
    obtain ⟨disk, hi, rfl⟩ := hs
    exact {
      generic := hjob.generic
      detects := hjob.detects
      source := hjob.source
      inodes := hi
      waits := fun hwaits => by cases hjob.idle.symm.trans hwaits
      stream := fun hopen => by cases hjob.closed.symm.trans hopen
      asked := fun hopen => absurd hjob.closed hopen
      proper := ⟨each_nil, each_nil⟩ }
  · intro s event s' hs hstep
    exact watched_step hs hstep

/-- **Asked, opened, confirmed, sent.** In every run of turns and confirmations, data of a file is
sent only when the file has been opened and confirmed since, and each file that is opened is asked
for at most once. -/
theorem proper_of_run {events : List ServeEvent} (hjob : Asking job)
    (h : (system z job).Run events s) : Proper s.notes := (watched_of_run hjob h).proper

/-- A job of `/a`, which asks before it sends. -/
def asksA : TransferJob := .new 1 .generic (.filePath ['/']) 0 [⟨['a'], 1, 0⟩] true

/-- `/a` is opened, asked for, confirmed and sent. -/
theorem proper_of_run_asksA : ∃ s, (system ⟨some, some⟩ asksA).Run
      [.turn (.fine ⟨1, 0⟩), .confirm 0 (some (.skip false)), .turn (.fine ⟨1, 0⟩)] s ∧
    s.notes = [.opened 0, .sent (.digest ⟨1, 0, 0, 1, false, false, 0, false⟩), .confirmed 0,
      .sent (.block ⟨1, 0, [104], false⟩)] ∧ Proper s.notes := by
  have hi : (Disk.blank.withFile [['a']] [104]).Inodes :=
    (Disk.sound_blank.withFile rfl rfl).inodes
  have hstart : (system ⟨some, some⟩ asksA).Run []
      (start asksA (Disk.blank.withFile [['a']] [104])) := .start ⟨_, hi, rfl⟩
  have hasked := run_turn hstart rfl (.fine ⟨1, 0⟩)
  have hconfirmed := run_confirm hasked rfl 0 (some (.skip false)) rfl
  have hsent := run_turn hconfirmed rfl (.fine ⟨1, 0⟩)
  exact ⟨_, hsent, by decide +kernel, proper_of_run ⟨rfl, rfl, ⟨_, rfl⟩, rfl, rfl⟩ hsent⟩

/-! ## A tick -/

theorem sentMessages_append (notes notes' : List Note) :
    sentMessages (notes ++ notes') = sentMessages notes ++ sentMessages notes' :=
  List.filterMap_append

theorem sentMessages_sent (msgs : List Message) : sentMessages (msgs.map .sent) = msgs := by
  rw [sentMessages, List.filterMap_map]
  exact List.filterMap_some

theorem sentMessages_turn (s : Serving) (io : Io) :
    sentMessages (s.turn z io).notes = sentMessages s.notes ++
      messagesOf (s.job.read z s.disk io).1 (s.turn z io).job ++
        if (s.turn z io).removed then [lastMessage (s.turn z io).job] else [] := by
  have hopened : sentMessages
      (if s.job.opens s.disk io then [.opened s.job.fileNum] else []) = [] := by
    split
    · rfl
    · rfl
  have hlast : sentMessages
      (if (s.turn z io).removed then [.sent (lastMessage (s.turn z io).job)] else []) =
        if (s.turn z io).removed then [lastMessage (s.turn z io).job] else [] := by
    split
    · rfl
    · rfl
  have hturn : (s.turn z io).notes =
      sentNotes (s.notes ++ if s.job.opens s.disk io then [.opened s.job.fileNum] else [])
        (s.job.read z s.disk io).1 (s.turn z io).job ++
          if (s.turn z io).removed then [.sent (lastMessage (s.turn z io).job)] else [] := rfl
  rw [hturn, sentNotes, sentMessages_append, sentMessages_append, sentMessages_append, hopened,
    hlast, sentMessages_sent, List.append_nil]

/-- When `read` has returned `Ok(None)`, a job that is complete is finished with its last
message. -/
theorem served_last (r : ReadJob) (disk : Disk) (asked : List Message) :
    (if r.job.jobCompleted = true then (⟨r, disk, asked ++ [lastMessage r.job], true⟩ : Served)
      else ⟨r, disk, asked, false⟩) =
        ⟨r, disk, asked ++ if r.job.jobCompleted = true then [lastMessage r.job] else [],
          r.job.jobCompleted⟩ := by
  cases r.job.jobCompleted with
  | true => rfl
  | false =>
    rw [if_neg Bool.false_ne_true, if_neg Bool.false_ne_true, List.append_nil]

/-- The loop of `handle_read_jobs` over a job is some turns. -/
theorem serve_run (maxBytes blocks bytesSent : Nat) (ios : Nat → Io) {r : ReadJob} {disk : Disk}
    {notes : List Note} {events : List ServeEvent}
    (h : (system z job).Run events ⟨r.job, disk, notes, false⟩) :
    ∃ turns s', (system z job).Run (events ++ turns) s' ∧
      (∀ event ∈ turns, ∃ io, event = .turn io) ∧
      s'.job = (serve z maxBytes blocks bytesSent ios r disk).job.job ∧
      s'.disk = (serve z maxBytes blocks bytesSent ios r disk).disk ∧
      s'.removed = (serve z maxBytes blocks bytesSent ios r disk).finished ∧
      sentMessages s'.notes =
        sentMessages notes ++ (serve z maxBytes blocks bytesSent ios r disk).sent := by
  induction blocks generalizing bytesSent ios r disk notes events with
  | zero =>
    refine ⟨[], ⟨r.job, disk, notes, false⟩, ?_, List.forall_mem_nil _, rfl, rfl, rfl, ?_⟩
    · rwa [List.append_nil]
    · exact (List.append_nil _).symm
  | succ blocks ih =>
    obtain ⟨⟨result, job', disk'⟩, hread⟩ : ∃ out, r.job.read z disk (ios 0) = out := ⟨_, rfl⟩
    have hone : ∀ event ∈ [ServeEvent.turn (ios 0)], ∃ io, event = .turn io := by
      intro event hevent
      exact ⟨_, List.mem_singleton.mp hevent⟩
    have hturn : (system z job).Run (events ++ [.turn (ios 0)])
        (turn z ⟨r.job, disk, notes, false⟩ (ios 0)) := run_turn h rfl (ios 0)
    have hsent := sentMessages_turn (z := z) ⟨r.job, disk, notes, false⟩ (ios 0)
    have hstate : turn z ⟨r.job, disk, notes, false⟩ (ios 0) =
        ⟨job', disk', (turn z ⟨r.job, disk, notes, false⟩ (ios 0)).notes,
          readsNone result && job'.jobCompleted⟩ := by
      simp only [turn, hread]
    rw [hstate] at hturn hsent
    generalize (turn z ⟨r.job, disk, notes, false⟩ (ios 0)).notes = notes' at hturn hsent
    simp only [hread] at hsent
    simp only [serve, ReadJob.read, hread]
    cases result with
    | error err =>
      dsimp only
      refine ⟨_, _, hturn, hone, (ReadJob.job_record _ _ _).symm, rfl, rfl, ?_⟩
      rw [hsent, ReadJob.job_record]
      exact List.append_nil _
    | ok result =>
      cases result with
      | block block =>
        dsimp only
        split
        next =>
          refine ⟨_, _, hturn, hone, (ReadJob.job_record _ _ _).symm, rfl, rfl, ?_⟩
          rw [hsent]
          exact List.append_nil _
        next =>
          have hjob : (r.record z (.ok (.block block)) job').job = job' :=
            ReadJob.job_record _ _ _
          rw [← hjob] at hturn
          obtain ⟨turns, s', hrun, hturns, hjob', hdisk, hremoved, hmsgs⟩ :=
            ih (bytesSent + block.data.length) (fun n => ios (n + 1)) hturn
          refine ⟨.turn (ios 0) :: turns, s', ?_, ?_, hjob', hdisk, hremoved, ?_⟩
          · rwa [List.append_cons]
          · intro event hevent
            rcases List.mem_cons.mp hevent with rfl | hevent
            · exact ⟨_, rfl⟩
            · exact hturns event hevent
          · rw [hmsgs, hsent]
            simp [readsNone, messagesOf]
      -- nothing, or a digest: the tick ends with it
      | _ =>
        dsimp only
        rw [served_last]
        refine ⟨_, _, hturn, hone, (ReadJob.job_record _ _ _).symm, rfl, ?_, ?_⟩
        · rw [ReadJob.job_record]
          rfl
        · rw [hsent, ReadJob.job_record, List.append_assoc]
          rfl

end Serving

end HopToDesk.Transfer

/-!
## Confirmations of files that are not there

A confirmation names a file by its number, and `confirm` compares it with the number the job is at
before it looks the file up. Nobody has to wait for the confirmation, and a job can be at a number
that no file has: it was asked for with such a number, or it has passed its last file, and no tick
has come yet to remove it.
-/

namespace HopToDesk.Transfer

open Kit UnixPath
open TransferJob (Io Yield Confirm)

namespace TransferJob

variable {z : Zstd} {self : TransferJob} {d : Disk}

/-- `set_stream_offset` looks up a file that is there. -/
theorem setStreamOffset_eq_none_iff {i offset : Nat} :
    self.setStreamOffset i offset d = none ↔
      ∃ p, self.dataSource = .filePath p ∧ self.files.length ≤ i := by
  unfold setStreamOffset
  split
  next c hsource => simp [hsource]
  next p hsource =>
    split
    next hnone => simpa [hsource] using hnone
    next entry hentry =>
      have hlt := (List.getElem?_eq_some_iff.mp hentry).1
      simp only [hsource, DataSource.filePath.injEq, exists_eq_left', Nat.not_le.mpr hlt, iff_false]
      split <;> exact Option.some_ne_none _

/-- The confirmation makes the job look up a file that is not there. -/
def StrayFor (self : TransferJob) (fileNum : Int) (union : Option Confirm) : Prop :=
  self.fileNum = fileNum ∧ (∃ p, self.dataSource = .filePath p) ∧
    self.files.length ≤ asUsize fileNum ∧ ∃ offset, 0 < offset ∧ union = some (.offsetBlk offset)

theorem confirm_eq_none_iff {fileNum : Int} {union : Option Confirm} :
    self.confirm fileNum union d = none ↔ self.StrayFor fileNum union := by
  unfold confirm StrayFor
  by_cases hnum : self.fileNum = fileNum
  · rw [if_neg (not_not_intro hnum)]
    cases union with
    | none => simp
    | some union =>
      cases union with
      | skip s => cases s <;> simp
      | offsetBlk offset =>
        dsimp only
        split
        next hpos =>
          rw [setStreamOffset_eq_none_iff]
          simp [setFileConfirmed, hnum, hpos]
        next hpos =>
          simp [hnum, hpos]
  · rw [if_pos hnum]
    simp [hnum]

end TransferJob

namespace Reader

/-- The request is a confirmation that makes the job it names look up a file that is not there. -/
def Stray (self : Reader) : FileRequest → Prop
  | .sendConfirm id fileNum union =>
    ∃ r, self.getJob id = some r ∧ r.job.StrayFor fileNum.toInt union
  | _ => False

theorem confirmJob_eq_none_iff {id fileNum : Int} {union : Option Confirm} {d : Disk}
    {jobs : List ReadJob} :
    confirmJob id fileNum union d jobs = none ↔
      ∃ r, jobs.find? (fun r => decide (r.job.id = id)) = some r ∧
        r.job.StrayFor fileNum union := by
  induction jobs with
  | nil => simp [confirmJob]
  | cons r rest ih =>
    unfold confirmJob
    split
    next hid =>
      rw [Option.map_eq_none_iff, ReadJob.confirm, Option.map_eq_none_iff,
        TransferJob.confirm_eq_none_iff]
      simp [hid]
    next hid =>
      rw [Option.map_eq_none_iff, ih]
      simp [hid]

variable {z : Zstd} {self : Reader}

/-- **A panic is a stray confirmation.** -/
theorem handle_eq_none_iff {request : FileRequest} :
    self.handle z request = none ↔ self.Stray request := by
  cases request with
  | sendConfirm id fileNum union =>
    rw [handle, Option.map_eq_none_iff, confirmJob_eq_none_iff]
    exact Iff.rfl
  | send | sendPrinter | cancel | tick | changed =>
    simp only [handle, Stray, reduceCtorEq]

/-- A connection goes through a run without a panic exactly when no confirmation of it is stray. -/
theorem never_panics_iff {tr : List (Option Reader × FileRequest)} {s : Option Reader}
    (h : (requests z).Trace tr s) :
    System.Always (· ≠ none) tr s ↔ ∀ x ∈ tr, ∀ self, x.1 = some self → ¬ self.Stray x.2 := by
  refine h.always_iff (G := (· ≠ none)) (I := (· ≠ none))
    (P := fun s request => ∀ self, s = some self → ¬ self.Stray request) ?_ id ?_ ?_
  · intro s hs
    obtain ⟨disk, rfl⟩ := hs
    exact Option.some_ne_none _
  · intro s request s' _ hs hstray
    obtain ⟨self, rfl, rfl⟩ := hs
    exact mt handle_eq_none_iff.mp (hstray self rfl)
  · intro s request s' _ hs hne self hself
    obtain ⟨self', rfl, rfl⟩ := hs
    cases hself
    exact mt handle_eq_none_iff.mpr hne

/-! ### Two runs -/

/-- A job of one file is asked for, and confirmed before it has asked. -/
def confirmedEarly (fileNum : Int32) : List (Option Reader × FileRequest) :=
  [(some ⟨[], .blank, [], []⟩, .send 1 ['s'] fileNum [⟨[], 1, 0⟩] true),
    (some ⟨[.new (.new 1 .generic (.filePath ['s']) fileNum.toInt [⟨[], 1, 0⟩] true)],
      .blank, [], []⟩, .sendConfirm 1 fileNum (some (.offsetBlk 1)))]

theorem trace_confirmedEarly (fileNum : Int32) :
    ∃ s, (requests ⟨some, some⟩).Trace (confirmedEarly fileNum) s ∧
      s = Reader.handle ⟨some, some⟩ ⟨[.new (.new 1 .generic (.filePath ['s']) fileNum.toInt
        [⟨[], 1, 0⟩] true)], .blank, [], []⟩ (.sendConfirm 1 fileNum (some (.offsetBlk 1))) := by
  have hstart : (requests ⟨some, some⟩).Trace [] (some ⟨[], .blank, [], []⟩) := .start ⟨_, rfl⟩
  have hsend := hstart.snoc (a := .send 1 ['s'] fileNum [⟨[], 1, 0⟩] true) ⟨_, rfl, rfl⟩
  exact ⟨_, hsend.snoc ⟨_, rfl, rfl⟩, rfl⟩

/-- The job is asked for from its start. -/
theorem never_panics_iff_first :
    ∃ s, (requests ⟨some, some⟩).Trace (confirmedEarly 0) s ∧
      System.Always (· ≠ none) (confirmedEarly 0) s := by
  obtain ⟨s, htr, -⟩ := trace_confirmedEarly 0
  refine ⟨s, htr, (never_panics_iff htr).mpr ?_⟩
  intro x hx self hself hstray
  rcases List.mem_cons.mp hx with rfl | hx
  · exact hstray
  · obtain rfl := List.mem_singleton.mp hx
    cases hself
    obtain ⟨r, hr, -, -, hlen, -⟩ := hstray
    cases hr
    revert hlen
    decide

/-- The job is asked for from before its start. -/
theorem panics_before_start :
    ¬ ∀ (tr : List (Option Reader × FileRequest)) (s : Option Reader),
      (requests ⟨some, some⟩).Trace tr s → System.Always (· ≠ none) tr s := by
  intro hall
  obtain ⟨s, htr, hs⟩ := trace_confirmedEarly (-1)
  exact (hall _ _ htr).2 (hs.trans (by decide))

end Reader

end HopToDesk.Transfer
