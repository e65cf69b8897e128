import Mathlib.Data.List.TakeWhile
import HopToDesk.Laws.Transfer.Sending
import HopToDesk.Laws.Transfer.Writing
import HopToDesk.Transfer.Reading

/-!
# No file is passed over

A job's number moves on for one reason at a time: the file it is at has been sent to its end, was
skipped, or could not be opened or read. So what has become of the files, in order, is one outcome
for each number from the first to the one before the current (`Keeps`). `read` returns nothing
either past the end of the list or while the job waits, and a job that waits is not complete; so a
job that is removed is past the end.

One error leaves the number where it is: a digest that cannot be sent. The file gets an error and
will get another outcome later, so the law holds of the jobs none of whose digests has failed, and
of no others (`ended_settled_iff`).
-/

set_option autoImplicit false

namespace HopToDesk.Transfer

open Kit UnixPath
open TransferJob (Io Yield Confirm payload)

/-- The number of the file it is about. -/
def Outcome.index : Outcome → Nat
  | .emitted i _ _ | .skipped i | .reported i _ => i

/-- The job went on to the next file. -/
def Outcome.passed : Outcome → Bool
  | .reported _ passed => passed
  | _ => true

namespace ReadJob

/-- What was sent of the emitted files is all there is from where they were entered. -/
def Whole (d : Disk) (src : PathStr) (r : ReadJob) : Prop :=
  ∀ i entered body e, .emitted i entered body ∈ r.past → Regular r.job.files i e →
    ∃ ino data, d.stat (TransferJob.join src e.name) = some (.file ino data) ∧
      body = data.drop entered

/-- Every file from the first on has come to one end, in order. -/
structure Settled (d : Disk) (src : PathStr) (r : ReadJob) : Prop where
  order : r.past.map Outcome.index = List.range' r.start (r.job.files.length - r.start)
  whole : r.Whole d src

/-- What is open: nothing, something that cannot be read, or the file the job is at, read from where
it was entered up to what has been sent. -/
def StreamOk (d : Disk) (src : PathStr) (r : ReadJob) (n : Nat) : Prop :=
  match r.job.dataStream with
  | none => n < r.job.files.length → r.entered = 0 ∧ r.body = []
  | some (.bufStream _ _) => False
  | some (.fileStream h) => d.Unreadable h ∨ ∃ e data, Regular r.job.files n e ∧
      d.stat (TransferJob.join src e.name) = some (.file h.ino data) ∧ h.writable = false ∧
        h.offset = r.entered + r.body.length ∧ r.body = (data.drop r.entered).take r.body.length

/-- The invariant of a job that is at the number `n`. -/
structure Keeps (d : Disk) (src : PathStr) (r : ReadJob) (n : Nat) : Prop where
  source : r.job.dataSource = .filePath src
  num : r.job.fileNum = (n : Int)
  start : r.start ≤ n
  first : r.start < r.job.files.length
  order : (r.past.filter Outcome.passed).map Outcome.index =
    List.range' r.start (min n r.job.files.length - r.start)
  whole : r.Whole d src
  stream : r.StreamOk d src n

section Keeps

variable {z : Zstd} {d d' : Disk} {src : PathStr} {r : ReadJob} {n : Nat} {job : TransferJob}
  {io : Io}

theorem Whole.congr (h : r.Whole d src) (hd : Disk.SameTree d d') : r.Whole d' src := by
  intro i entered body e hpast hr
  obtain ⟨ino, data, hstat, hbody⟩ := h i entered body e hpast hr
  exact ⟨ino, data, (hd.stat _).trans hstat, hbody⟩

theorem StreamOk.congr (h : r.StreamOk d src n) (hd : Disk.SameTree d d') :
    r.StreamOk d' src n := by
  unfold StreamOk at h ⊢
  split
  · simpa only [*] using h
  · simp only [*] at h
  · rename_i handle hopen
    rw [hopen] at h
    rcases h with hunreadable | ⟨e, data, hr, hstat, hfile⟩
    · exact .inl (hunreadable.congr hd)
    · exact .inr ⟨e, data, hr, (hd.stat _).trans hstat, hfile⟩

theorem Keeps.congr (h : r.Keeps d src n) (hd : Disk.SameTree d d') : r.Keeps d' src n :=
  { h with whole := h.whole.congr hd, stream := h.stream.congr hd }

/-- The job changes in nothing the invariant is about. -/
theorem Keeps.set (h : r.Keeps d src n) (hsource : job.dataSource = r.job.dataSource)
    (hnum : job.fileNum = r.job.fileNum) (hfiles : job.files = r.job.files)
    (hstream : job.dataStream = r.job.dataStream) : ({ r with job } : ReadJob).Keeps d src n := by
  refine {
    source := hsource.trans h.source
    num := hnum.trans h.num
    start := h.start
    first := hfiles ▸ h.first
    order := hfiles ▸ h.order
    whole := fun i entered body e hpast hr => h.whole i entered body e hpast (hfiles ▸ hr)
    stream := ?_ }
  have hopen := h.stream
  unfold StreamOk at hopen ⊢
  rw [hstream]
  dsimp only
  rwa [hfiles]

/-- The job leaves its file for the next. -/
theorem Keeps.leave (h : r.Keeps d src n) (hn : n < r.job.files.length) {outcome : Outcome}
    (hindex : outcome.index = n) (hpassed : outcome.passed = true)
    (hwhole : ∀ {i entered body e}, outcome = .emitted i entered body → Regular r.job.files i e →
      ∃ ino data, d.stat (TransferJob.join src e.name) = some (.file ino data) ∧
        body = data.drop entered)
    (hsource : job.dataSource = r.job.dataSource) (hnum : job.fileNum = r.job.fileNum + 1)
    (hfiles : job.files = r.job.files)
    (hstream : ∀ {stream}, job.dataStream = some stream →
      ∃ handle, stream = .fileStream handle ∧ d.Unreadable handle) :
    (r.leave job outcome).Keeps d src (n + 1) := by
  refine {
    source := hsource.trans h.source
    num := ?_
    start := h.start.trans (Nat.le_succ n)
    first := hfiles ▸ h.first
    order := ?_
    whole := ?_
    stream := ?_ }
  · show job.fileNum = ((n + 1 : Nat) : Int)
    rw [hnum, h.num, Nat.cast_succ]
  · have hstart := h.start
    have hmore : min (n + 1) r.job.files.length - r.start = min n r.job.files.length - r.start + 1 := by
      omega
    have hlast : r.start + (min n r.job.files.length - r.start) = n := by omega
    show ((r.past ++ [outcome]).filter Outcome.passed).map Outcome.index =
      List.range' r.start (min (n + 1) job.files.length - r.start)
    rw [List.filter_append, List.map_append, h.order, List.filter_singleton, hpassed, hfiles, hmore,
      List.range'_1_concat, hlast, ← hindex]
    rfl
  · intro i entered body e hpast hr
    rcases List.mem_append.mp hpast with hpast | hlast
    · exact h.whole i entered body e hpast (hfiles ▸ hr)
    · exact hwhole (List.mem_singleton.mp hlast).symm (hfiles ▸ hr)
  · unfold StreamOk
    show match job.dataStream with
      | none => n + 1 < job.files.length → (0 : Nat) = 0 ∧ ([] : Content) = []
      | some (.bufStream _ _) => False
      | some (.fileStream handle) => d.Unreadable handle ∨ _
    cases hopen : job.dataStream with
    | none => exact fun _ => ⟨rfl, rfl⟩
    | some stream =>
      obtain ⟨handle, rfl, hunreadable⟩ := hstream hopen
      exact .inl hunreadable

/-- The job leaves a file that has not been sent to its end. -/
theorem Keeps.pass (h : r.Keeps d src n) (hn : n < r.job.files.length) {outcome : Outcome}
    (hindex : outcome.index = n) (hpassed : outcome.passed = true)
    (hnot : ∀ i entered body, outcome ≠ .emitted i entered body)
    (hsource : job.dataSource = r.job.dataSource) (hnum : job.fileNum = r.job.fileNum + 1)
    (hfiles : job.files = r.job.files) (hclosed : job.dataStream = none) :
    (r.leave job outcome).Keeps d src (n + 1) := by
  apply h.leave hn hindex hpassed _ hsource hnum hfiles
  · intro stream hopen
    cases hclosed.symm.trans hopen
  · intro i entered body e heq
    exact absurd heq (hnot i entered body)

/-- A skip past the end of the list is of no file. -/
theorem Keeps.beyond (h : r.Keeps d src n) (hn : ¬ n < r.job.files.length) :
    ({ r with job := r.job.setFileSkipped } : ReadJob).Keeps d src (n + 1) := by
  refine {
    source := h.source
    num := ?_
    start := h.start.trans (Nat.le_succ n)
    first := h.first
    order := ?_
    whole := h.whole
    stream := ?_ }
  · show r.job.fileNum + 1 = ((n + 1 : Nat) : Int)
    rw [h.num, Nat.cast_succ]
  · have hend : min (n + 1) r.job.files.length = min n r.job.files.length := by omega
    show _ = List.range' r.start (min (n + 1) r.job.files.length - r.start)
    rw [hend]
    exact h.order
  · intro hlt
    exact absurd ((Nat.lt_succ_self n).trans hlt) hn

/-- An error that leaves the job at its file. -/
theorem Keeps.stays (h : r.Keeps d src n) (i : Nat) :
    ({ r with past := r.past ++ [.reported i false] } : ReadJob).Keeps d src n := by
  refine { h with order := ?_, whole := ?_ }
  · rw [List.filter_append, List.map_append, h.order, List.filter_singleton]
    exact List.append_nil _
  · intro j entered body e hpast hr
    rcases List.mem_append.mp hpast with hpast | hlast
    · exact h.whole j entered body e hpast hr
    · cases List.mem_singleton.mp hlast

/-! ## One call of `read` -/

theorem orFails_ok {α : Type} {failure : Option JobError} {result : Except DiskError α} {x : α}
    (h : TransferJob.orFails failure result = .ok x) : result = .ok x := by
  unfold TransferJob.orFails at h
  split at h
  · cases h
  · cases h
  · exact congrArg _ (Except.ok.inj h)

/-- What cannot be read gives an error. -/
theorem fill_unreadable {handle : Handle} (hu : d.Unreadable handle) (bufSize turns : Nat) :
    ∃ e, TransferJob.fill d bufSize (turns + 1) (.fileStream handle) [] = .error e := by
  obtain ⟨e, he⟩ := hu.read (bufSize - ([] : Content).length)
  refine ⟨e, ?_⟩
  rw [TransferJob.fill]
  simp only [TransferJob.readStream, he]

/-- `read` has returned `Ok(None)`. -/
def Quiet : Except JobError Yield → Prop
  | .ok .nothing | .ok (.digest _) => True
  | _ => False

/-- What a call of `read` comes to: the tree is the same, and the job keeps its record. When it
returns nothing and leaves the job complete, the job is past its list. -/
structure Comes (d : Disk) (src : PathStr) (out : Except JobError Yield × ReadJob × Disk) :
    Prop where
  tree : Disk.SameTree d out.2.2
  keeps : ∃ n, out.2.1.Keeps out.2.2 src n ∧ (Quiet out.1 → out.2.1.job.jobCompleted = true →
    out.2.1.job.files.length ≤ n)

/-- A call that does not return nothing. -/
theorem Keeps.comes {out : Except JobError Yield × ReadJob × Disk} (h : out.2.1.Keeps d src n)
    (hd : out.2.2 = d) (hloud : ¬ Quiet out.1) : Comes d src out where
  tree := hd ▸ .refl d
  keeps := ⟨n, hd ▸ h, fun hquiet => absurd hquiet hloud⟩

/-- What the record makes of `readBlock`. -/
def readBlock (z : Zstd) (r : ReadJob) (name : PathStr) (stream : DataStream) (d : Disk) (io : Io) :
    Except JobError Yield × ReadJob × Disk :=
  let out := r.job.readBlock z name stream d io
  (out.1, r.record z out.1 out.2.1, out.2.2)

section Block

variable {e : FileEntry} (h : r.Keeps d src n) (hr : Regular r.job.files n e)
include h hr

/-- A read that fails. -/
theorem Keeps.readBlock_fails {stream : DataStream} {err : JobError}
    (hfails : TransferJob.orFails io.readFails
      (TransferJob.fill d r.job.bufSize (r.job.bufSize + 1) stream []) = .error err) :
    Comes d src (r.readBlock z e.name stream d io) := by
  have hn : n < r.job.files.length := (List.getElem?_eq_some_iff.mp hr.1).1
  have hindex : asUsize r.job.fileNum = n := by rw [h.num, asUsize_natCast]
  have hmoved : r.job.fileNum + 1 ≠ r.job.fileNum := by omega
  simp only [ReadJob.readBlock, TransferJob.readBlock, hfails, record]
  rw [if_neg (by exact hmoved)]
  refine Keeps.comes (n := n + 1) (h.pass hn ?_ rfl ?_ rfl rfl rfl rfl) rfl id
  · exact hindex
  · intro i entered body heq
    cases heq

section Readable

variable {ino : Nat} {data buf : Content}
  (hstat : d.stat (TransferJob.join src e.name) = some (.file ino data))
  (hbody : r.body = (data.drop r.entered).take r.body.length)
  (hbuf : (data.drop (r.entered + r.body.length)).take r.job.bufSize = buf)
  (hfill : TransferJob.orFails io.readFails
    (TransferJob.fill d r.job.bufSize (r.job.bufSize + 1)
      (.fileStream ⟨ino, r.entered + r.body.length, false⟩) []) =
        .ok (buf, .fileStream ⟨ino, r.entered + r.body.length + buf.length, false⟩))
include hstat hbody hbuf hfill

/-- A read at the end of the file: all of it has been sent. -/
theorem Keeps.readBlock_end (hend : buf.length = 0) : Comes d src
    (r.readBlock z e.name (.fileStream ⟨ino, r.entered + r.body.length, false⟩) d io) := by
  have hn : n < r.job.files.length := (List.getElem?_eq_some_iff.mp hr.1).1
  have hindex : asUsize r.job.fileNum = n := by rw [h.num, asUsize_natCast]
  have hmoved : r.job.fileNum + 1 ≠ r.job.fileNum := by omega
  have hall : r.body = data.drop r.entered := by
    have hpos := bufSize_pos r.job
    have hlen := congrArg List.length hbuf
    rw [hend, List.length_take, ← List.drop_drop, List.length_drop] at hlen
    have hnone : (data.drop r.entered).length ≤ r.body.length := by omega
    rw [List.take_of_length_le hnone] at hbody
    exact hbody
  have hblock : r.job.readBlock z e.name
      (.fileStream ⟨ino, r.entered + r.body.length, false⟩) d io =
        (.ok (.block ⟨r.job.id, r.job.fileNum, [], false⟩),
          { r.job.nextFile with dataStream := none }, d) := by
    simp only [TransferJob.readBlock, hfill, hend, if_true]
    split
    · rename_i hsource
      cases hsource.symm.trans h.source
    · rfl
  simp only [ReadJob.readBlock, hblock, record]
  rw [if_neg (by exact hmoved)]
  refine Keeps.comes (n := n + 1) (h.leave hn hindex rfl ?_ rfl rfl rfl ?_) rfl id
  · intro i entered body e' heq hr'
    cases heq
    rw [hindex] at hr'
    obtain rfl : e = e' := Option.some.inj (hr.1.symm.trans hr'.1)
    exact ⟨ino, data, hstat, hall⟩
  · intro stream hopen
    cases hopen

/-- A read that gives some more of it. -/
theorem Keeps.readBlock_more (hz : z.RoundTrip) (hmore : ¬ buf.length = 0) : Comes d src
    (r.readBlock z e.name (.fileStream ⟨ino, r.entered + r.body.length, false⟩) d io) := by
  simp only [ReadJob.readBlock, TransferJob.readBlock, hfill, hmore, if_false, record, if_true,
    payload_pack hz]
  refine Keeps.comes (n := n) ?_ rfl id
  refine {
    source := h.source
    num := h.num
    start := h.start
    first := h.first
    order := h.order
    whole := h.whole
    stream := .inr ⟨e, data, hr, hstat, rfl, ?_, ?_⟩ }
  · rw [List.length_append, Nat.add_assoc]
  · have hlen : buf.length =
        min r.job.bufSize (data.drop (r.entered + r.body.length)).length := by
      rw [← hbuf, List.length_take]
    have htaken : (data.drop (r.entered + r.body.length)).take buf.length = buf := by
      rw [hlen, ← List.take_take, List.take_length, hbuf]
    rw [List.length_append, List.take_add, ← hbody, List.drop_drop, htaken]

end Readable

/-- A file that is read from where it is open. -/
theorem Keeps.readBlock (hz : z.RoundTrip) (hi : d.Inodes) {stream : DataStream}
    (hopen : r.job.dataStream = some stream) (io : Io) :
    Comes d src (r.readBlock z e.name stream d io) := by
  have hstreamOk := h.stream
  unfold StreamOk at hstreamOk
  rw [hopen] at hstreamOk
  cases stream with
  | bufStream data pos => exact hstreamOk.elim
  | fileStream handle =>
    cases hfill : TransferJob.orFails io.readFails
        (TransferJob.fill d r.job.bufSize (r.job.bufSize + 1) (.fileStream handle) []) with
    | error err => exact h.readBlock_fails hr hfill
    | ok x =>
      have hfilled := orFails_ok hfill
      rcases hstreamOk with hunreadable | ⟨e', data, hr', hstat, hwritable, hoffset, hbody⟩
      · obtain ⟨err, herr⟩ := fill_unreadable hunreadable r.job.bufSize r.job.bufSize
        cases hfilled.symm.trans herr
      · obtain rfl : e = e' := Option.some.inj (hr.1.symm.trans hr'.1)
        obtain ⟨ino, k, w⟩ := handle
        obtain rfl : w = false := hwritable
        obtain rfl : k = r.entered + r.body.length := hoffset
        obtain ⟨buf, hbuf⟩ :
            ∃ buf, (data.drop (r.entered + r.body.length)).take r.job.bufSize = buf := ⟨_, rfl⟩
        have hpos := bufSize_pos r.job
        have hturns : r.job.bufSize + 1 = (r.job.bufSize - 1) + 2 := by omega
        have hread := fill_file hi (Disk.stat_file hstat) r.job.bufSize _ (r.job.bufSize - 1) hbuf
        rw [← hturns] at hread
        obtain rfl := Except.ok.inj (hread.symm.trans hfilled)
        by_cases hend : buf.length = 0
        · exact h.readBlock_end hr hstat hbody hbuf hfill hend
        · exact h.readBlock_more hr hstat hbody hbuf hfill hz hend

end Block

/-- A job that waits for a confirmation is not complete. -/
theorem jobCompleted_waiting (hdetects : job.enableOverwriteDetection = true)
    (hwaits : job.fileIsWaiting = true) : job.jobCompleted = false := by
  unfold TransferJob.jobCompleted
  rw [hdetects, hwaits, Bool.not_true, Bool.and_false, Bool.or_false]

/-- A file that is open is sent when it is confirmed, and asked about when it is not. -/
theorem Keeps.readConfirmed (hz : z.RoundTrip) (hi : d.Inodes) (h : r.Keeps d src n)
    {e : FileEntry} (hr : Regular r.job.files n e) {stream : DataStream}
    (hopen : r.job.dataStream = some stream) (io : Io) : Comes d src
      (let out := r.job.readConfirmed z e.name stream d io
       (out.1, r.record z out.1 out.2.1, out.2.2)) := by
  unfold TransferJob.readConfirmed
  split
  · rename_i hasks
    split
    · rename_i hwaits
      refine ⟨.refl d, n, h.set rfl rfl rfl rfl, fun _ hcompleted => ?_⟩
      exact absurd hcompleted (Bool.eq_false_iff.mp (jobCompleted_waiting hasks.2.1 hwaits))
    · cases hdigest : r.job.currentDigest stream io with
      | error err =>
        simp only [record, if_true]
        exact Keeps.comes (n := n) ((h.stays _).set rfl rfl rfl rfl) rfl id
      | ok digest =>
        refine ⟨.refl d, n, h.set rfl rfl rfl rfl, fun _ hcompleted => ?_⟩
        exact absurd hcompleted (Bool.eq_false_iff.mp (jobCompleted_waiting hasks.2.1 rfl))
  · exact h.readBlock hr hz hi hopen io

/-- Nothing is open, and nothing of the file has been sent. -/
theorem Keeps.closed (h : r.Keeps d src n) (hn : n < r.job.files.length)
    (hclosed : r.job.dataStream = none) : r.entered = 0 ∧ r.body = [] := by
  have hstream := h.stream
  unfold StreamOk at hstream
  rw [hclosed] at hstream
  exact hstream hn

/-- What is open at a marker cannot be read. -/
theorem Keeps.unreadable (h : r.Keeps d src n) {e : FileEntry} (hn : r.job.files[n]? = some e)
    (hmarker : isMarker e.name = true) {stream : DataStream}
    (hopen : r.job.dataStream = some stream) :
    ∃ handle, stream = .fileStream handle ∧ d.Unreadable handle := by
  have hstream := h.stream
  unfold StreamOk at hstream
  rw [hopen] at hstream
  cases stream with
  | bufStream data pos => exact hstream.elim
  | fileStream handle =>
    rcases hstream with hunreadable | ⟨e', data, hr, -⟩
    · exact ⟨handle, rfl, hunreadable⟩
    · obtain rfl := Option.some.inj (hn.symm.trans hr.1)
      cases hmarker.symm.trans hr.2

section At

variable (hsource : job.dataSource = .filePath src) (hnum : job.fileNum = (n : Int))
include hsource hnum

theorem read_past (hn : job.files[n]? = none) :
    job.read z d io = (.ok .nothing, { job with dataStream := none }, d) := by
  simp only [TransferJob.read, hsource, hnum, asUsize_natCast, hn]

theorem read_at_marker {e : FileEntry} (hn : job.files[n]? = some e)
    (hmarker : isMarker e.name = true) :
    job.read z d io = (.ok (.block ⟨job.id, n, [], false⟩), job.nextFile, d) := by
  simp only [TransferJob.read, hsource, hnum, asUsize_natCast, hn, hmarker, if_true]

theorem read_at_open {e : FileEntry} (hr : Regular job.files n e) {stream : DataStream}
    (hopen : job.dataStream = some stream) :
    job.read z d io = job.readConfirmed z e.name stream d io := by
  simp only [TransferJob.read, hsource, hnum, asUsize_natCast, hr.1, hr.2, Bool.false_eq_true,
    if_false, hopen]

theorem read_at_closed {e : FileEntry} (hr : Regular job.files n e)
    (hclosed : job.dataStream = none) : job.read z d io =
      match TransferJob.orFails io.openFails (d.openRead (TransferJob.join src e.name)) with
      | .ok (h, d) =>
        { job with
          dataStream := some (.fileStream h)
          fileConfirmed := false
          fileIsWaiting := false }.readConfirmed z e.name (.fileStream h) d io
      | .error err => (.error err, { job.nextFile with fileError := some err }, d) := by
  have hfile : job.files[asUsize job.fileNum]? = some e := by
    rw [hnum, asUsize_natCast]
    exact hr.1
  simp only [TransferJob.read, hfile, hr.2, hclosed, Bool.false_eq_true, if_false]
  split
  · rename_i p hp
    obtain rfl := DataSource.filePath.inj (hp.symm.trans hsource)
    rfl
  · rename_i hmemory
    cases hmemory.symm.trans hsource

end At

/-- A file that has just been opened: nothing of it has been sent. -/
theorem Keeps.opened (h : r.Keeps d src n) {e : FileEntry} (hr : Regular r.job.files n e)
    (hclosed : r.job.dataStream = none) (hi : d.Inodes) {handle : Handle}
    (hopen : d.openRead (TransferJob.join src e.name) = .ok (handle, d')) :
    Disk.SameTree d d' ∧ ({ r with job := { r.job with
      dataStream := some (.fileStream handle)
      fileConfirmed := false
      fileIsWaiting := false } } : ReadJob).Keeps d' src n := by
  obtain ⟨hd, hoffset, hwritable, hfile⟩ := Disk.openRead_spec hi hopen
  have hn : n < r.job.files.length := (List.getElem?_eq_some_iff.mp hr.1).1
  obtain ⟨hentered, hbody⟩ := h.closed hn hclosed
  refine ⟨hd, { h.congr hd with stream := ?_ }⟩
  rcases hfile with ⟨data, hstat⟩ | hunreadable
  · refine .inr ⟨e, data, hr, (hd.stat _).trans hstat, hwritable, ?_, ?_⟩
    · simp only [hoffset, hentered, hbody, List.length_nil]
    · simp only [hbody, List.length_nil, List.take_zero]
  · exact .inl (hunreadable.congr hd)

/-- **What one call of `read` preserves.** -/
theorem Keeps.read (hz : z.RoundTrip) (hi : d.Inodes) (h : r.Keeps d src n) (io : Io) :
    Comes d src (r.read z d io) := by
  have hindex : asUsize r.job.fileNum = n := by rw [h.num, asUsize_natCast]
  have hmoved : r.job.fileNum + 1 ≠ r.job.fileNum := by omega
  cases hn : r.job.files[n]? with
  | none =>
    have hpast : r.job.files.length ≤ n := List.getElem?_eq_none_iff.mp hn
    simp only [ReadJob.read, read_past h.source h.num hn, record]
    refine ⟨.refl d, n, { h with stream := ?_ }, fun _ _ => hpast⟩
    exact fun hlt => absurd hlt hpast.not_gt
  | some e =>
    have hlt : n < r.job.files.length := (List.getElem?_eq_some_iff.mp hn).1
    cases hmarker : isMarker e.name with
    | true =>
      simp only [ReadJob.read, read_at_marker h.source h.num hn hmarker, record]
      rw [if_neg (by exact hmoved)]
      refine Keeps.comes (n := n + 1) (h.leave hlt hindex rfl ?_ rfl rfl rfl ?_) rfl id
      · intro i entered body e' heq hr
        cases heq
        rw [hindex] at hr
        obtain rfl := Option.some.inj (hn.symm.trans hr.1)
        cases hmarker.symm.trans hr.2
      · intro stream hopen
        exact h.unreadable hn hmarker hopen
    | false =>
      have hr : Regular r.job.files n e := ⟨hn, hmarker⟩
      cases hopen : r.job.dataStream with
      | some stream =>
        simp only [ReadJob.read, read_at_open h.source h.num hr hopen]
        exact h.readConfirmed hz hi hr hopen io
      | none =>
        simp only [ReadJob.read, read_at_closed h.source h.num hr hopen]
        cases hopened : TransferJob.orFails io.openFails (d.openRead (TransferJob.join src e.name)) with
        | error err =>
          simp only [record]
          rw [if_neg (by exact hmoved)]
          refine Keeps.comes (n := n + 1) (h.pass hlt hindex rfl ?_ rfl rfl rfl hopen) rfl id
          intro i entered body heq
          cases heq
        | ok x =>
          obtain ⟨handle, d'⟩ := x
          obtain ⟨hd, hkeeps⟩ := h.opened hr hopen hi (orFails_ok hopened)
          obtain ⟨hd', hcomes⟩ := hkeeps.readConfirmed hz (hd.inodes hi) hr rfl io
          exact ⟨hd.trans hd', hcomes⟩

/-! ## A confirmation -/

/-- `set_stream_offset` opens the file at the offset, or something that cannot be read, or does
nothing. -/
theorem setStreamOffset_cases (hi : d.Inodes) (hsource : job.dataSource = .filePath src) {i : Nat}
    {offset : Nat} {job' : TransferJob} (h : job.setStreamOffset i offset d = some (job', d')) :
    Disk.SameTree d d' ∧ (job' = job ∨ ∃ handle transferred finishedSize,
      job' = { job with dataStream := some (.fileStream handle), transferred, finishedSize } ∧
        (d.Unreadable handle ∨ ∃ e data, Regular job.files i e ∧
          d.stat (TransferJob.join src e.name) = some (.file handle.ino data) ∧
            handle.writable = false ∧ handle.offset = offset)) := by
  unfold TransferJob.setStreamOffset at h
  split at h
  · rename_i hmemory
    cases hmemory.symm.trans hsource
  rename_i p hp
  obtain rfl := DataSource.filePath.inj (hsource.symm.trans hp)
  split at h
  · cases h
  · rename_i e he
    dsimp only at h
    split at h
    · cases h
      exact ⟨.refl d, .inl rfl⟩
    · rename_i handle d₁ hopened
      cases h
      split_ifs at hopened with hpartial hthere
      · rw [Bool.and_eq_true] at hpartial
        obtain ⟨hd, hwritable⟩ := Disk.openWrite_spec hpartial.1 hopened
        exact ⟨hd, .inr ⟨{ handle with offset }, _, _, rfl, .inl (.inl hwritable)⟩⟩
      · obtain ⟨hd, -, hwritable, hfile⟩ := Disk.openRead_spec hi hopened
        refine ⟨hd, .inr ⟨{ handle with offset }, _, _, rfl, ?_⟩⟩
        rcases hfile with ⟨data, hstat⟩ | hunreadable
        · cases hmarker : isMarker e.name with
          | false => exact .inr ⟨e, data, ⟨he, hmarker⟩, hstat, hwritable, rfl⟩
          | true =>
            have hends : endsAsDir (TransferJob.join src e.name) = true := by
              rw [endsAsDir_eq, show tip (TransferJob.join src e.name) = [] from tip_marker hmarker]
              rfl
            exact absurd hstat (Disk.stat_ne_file hends)
        · exact .inl hunreadable

/-- A confirmation that asks for the file from a position on. -/
theorem Keeps.offset (hi : d.Inodes) (h : r.Keeps d src n) {offset : Nat} {job : TransferJob}
    (hjob : (r.job.setFileConfirmed true).setStreamOffset n offset d = some (job, d')) :
    Disk.SameTree d d' ∧
      (if job.dataStream = r.job.dataStream then { r with job }
        else { r with job, entered := offset, body := [] } : ReadJob).Keeps d' src n := by
  have hsource : (r.job.setFileConfirmed true).dataSource = .filePath src := h.source
  obtain ⟨hd, rfl | ⟨handle, transferred, finishedSize, rfl, hhandle⟩⟩ :=
    setStreamOffset_cases hi hsource hjob
  · refine ⟨hd, ?_⟩
    rw [if_pos (by rfl)]
    exact (h.congr hd).set rfl rfl rfl rfl
  · refine ⟨hd, ?_⟩
    split_ifs with hsame
    · exact (h.congr hd).set rfl rfl rfl hsame
    · have hopened : ({ r with
          job := { r.job.setFileConfirmed true with
            dataStream := some (.fileStream handle), transferred, finishedSize }
          entered := offset
          body := [] } : ReadJob).Keeps d src n := by
        refine {
          source := h.source
          num := h.num
          start := h.start
          first := h.first
          order := h.order
          whole := h.whole
          stream := ?_ }
        rcases hhandle with hunreadable | ⟨e, data, hr, hstat, hwritable, hoffset⟩
        · exact .inl hunreadable
        · refine .inr ⟨e, data, hr, hstat, hwritable, hoffset, ?_⟩
          rw [List.length_nil, List.take_zero]
      exact hopened.congr hd

/-- A confirmation of the file the job is at. -/
theorem Keeps.confirm (hi : d.Inodes) (h : r.Keeps d src n) {fileNum : Int}
    {union : Option Confirm} {r' : ReadJob} (hr : r.confirm fileNum union d = some (r', d')) :
    Disk.SameTree d d' ∧ ∃ n', r'.Keeps d' src n' := by
  unfold ReadJob.confirm at hr
  rw [Option.map_eq_some_iff] at hr
  obtain ⟨⟨job, d₁⟩, hconfirm, heq⟩ := hr
  cases heq
  unfold TransferJob.confirm at hconfirm
  by_cases hsame : r.job.fileNum = fileNum
  · subst hsame
    have hindex : asUsize r.job.fileNum = n := by rw [h.num, asUsize_natCast]
    rw [if_neg (not_not.mpr rfl), hindex] at hconfirm
    simp only [recordConfirm, hindex, ne_eq, not_true, if_false]
    match union with
    | none =>
      cases hconfirm
      exact ⟨.refl d, n, h⟩
    | some (.skip false) =>
      cases hconfirm
      exact ⟨.refl d, n, h.set rfl rfl rfl rfl⟩
    | some (.skip true) =>
      cases hconfirm
      refine ⟨.refl d, n + 1, ?_⟩
      dsimp only
      split_ifs with hn
      · refine h.pass hn rfl rfl ?_ rfl rfl rfl rfl
        intro i entered body heq
        cases heq
      · exact h.beyond hn
    | some (.offsetBlk offset) =>
      dsimp only at hconfirm ⊢
      by_cases hzero : 0 < offset
      · rw [if_pos hzero] at hconfirm
        obtain ⟨hd, hkeeps⟩ := h.offset hi hconfirm
        exact ⟨hd, n, hkeeps⟩
      · rw [if_neg hzero] at hconfirm
        cases hconfirm
        refine ⟨.refl d, n, ?_⟩
        rw [if_pos (by rfl)]
        exact h.set rfl rfl rfl rfl
  · rw [if_pos hsame] at hconfirm
    cases hconfirm
    refine ⟨.refl d, n, ?_⟩
    unfold recordConfirm
    rw [if_pos hsame]
    exact h

/-- **When every file of a job that is over has come to one end.** No error may have left the job
at its file. -/
theorem Keeps.settled_iff (h : r.Keeps d src n) (hn : r.job.files.length ≤ n) :
    r.Settled d src ↔ ∀ outcome ∈ r.past, outcome.passed = true := by
  have horder := h.order
  rw [min_eq_right hn] at horder
  constructor
  · intro hsettled
    rw [← List.length_filter_eq_length_iff]
    have hlength := congrArg List.length horder
    have hall := congrArg List.length hsettled.order
    rw [List.length_map] at hlength hall
    omega
  · intro hall
    rw [List.filter_eq_self.mpr hall] at horder
    exact ⟨horder, h.whole⟩

end Keeps

/-! ## What no call changes -/

section Frame

variable {z : Zstd} {d d' : Disk}

@[simp]
theorem job_record (r : ReadJob) (result : Except JobError Yield) (job : TransferJob) :
    (r.record z result job).job = job := by
  unfold record leave
  split
  · split_ifs <;> rfl
  · split_ifs <;> rfl
  · rfl

@[simp]
theorem job_recordConfirm (r : ReadJob) (fileNum : Int) (union : Option Confirm)
    (job : TransferJob) : (r.recordConfirm fileNum union job).job = job := by
  by_cases hother : r.job.fileNum ≠ fileNum
  · simp only [recordConfirm, if_pos hother]
  · simp only [recordConfirm, if_neg hother, leave]
    split
    · split_ifs <;> rfl
    · split_ifs <;> rfl
    · rfl

/-- It is the same job. -/
structure Same (job job' : TransferJob) : Prop where
  id : job'.id = job.id
  last : job'.isLastJob = job.isLastJob
  source : ∀ {src}, job'.dataSource = .filePath src → job.dataSource = .filePath src

theorem Same.refl (job : TransferJob) : Same job job := ⟨rfl, rfl, fun h => h⟩

theorem Same.trans {job job' job'' : TransferJob} (h : Same job job') (h' : Same job' job'') :
    Same job job'' := ⟨h'.id.trans h.id, h'.last.trans h.last, h.source ∘ h'.source⟩

theorem same_readBlock (job : TransferJob) (name : PathStr) (stream : DataStream) (io : Io) :
    Same job (job.readBlock z name stream d io).2.1 ∧
      (job.readBlock z name stream d io).2.2 = d := by
  unfold TransferJob.readBlock
  dsimp only
  split
  · exact ⟨⟨rfl, rfl, fun h => h⟩, rfl⟩
  · split_ifs
    · split
      · exact ⟨⟨rfl, rfl, fun h => h⟩, rfl⟩
      · exact ⟨⟨rfl, rfl, fun h => h⟩, rfl⟩
    · exact ⟨⟨rfl, rfl, fun h => h⟩, rfl⟩

theorem same_readConfirmed (job : TransferJob) (name : PathStr) (stream : DataStream) (io : Io) :
    Same job (job.readConfirmed z name stream d io).2.1 ∧
      (job.readConfirmed z name stream d io).2.2 = d := by
  unfold TransferJob.readConfirmed
  split_ifs
  · exact ⟨.refl job, rfl⟩
  · split
    · exact ⟨.refl job, rfl⟩
    · exact ⟨⟨rfl, rfl, fun h => h⟩, rfl⟩
  · exact same_readBlock job name stream io

theorem same_read (hi : d.Inodes) (job : TransferJob) (io : Io) :
    Same job (job.read z d io).2.1 ∧ Disk.SameTree d (job.read z d io).2.2 := by
  have hconfirmed {d' : Disk} (job' : TransferJob) (h : Same job job') (hd : Disk.SameTree d d')
      (name : PathStr) (stream : DataStream) :
      Same job (job'.readConfirmed z name stream d' io).2.1 ∧
        Disk.SameTree d (job'.readConfirmed z name stream d' io).2.2 := by
    obtain ⟨hsame, hdisk⟩ := same_readConfirmed (z := z) (d := d') job' name stream io
    rw [hdisk]
    exact ⟨h.trans hsame, hd⟩
  unfold TransferJob.read
  split
  · split
    · exact ⟨⟨rfl, rfl, fun h => h⟩, .refl d⟩
    · split_ifs
      · exact ⟨⟨rfl, rfl, fun h => h⟩, .refl d⟩
      · split
        · exact hconfirmed job (.refl job) (.refl d) _ _
        · split
          · rename_i hopened
            have hd := (Disk.openRead_spec hi (orFails_ok hopened)).1
            refine hconfirmed _ ?_ hd _ _
            exact ⟨rfl, rfl, fun h => h⟩
          · exact ⟨⟨rfl, rfl, fun h => h⟩, .refl d⟩
  · rename_i hmemory
    split
    · exact hconfirmed job (.refl job) (.refl d) _ _
    · refine hconfirmed _ ?_ (.refl d) _ _
      refine ⟨rfl, rfl, ?_⟩
      intro src hsource
      cases hsource

theorem same_confirm (hi : d.Inodes) {job job' : TransferJob} {fileNum : Int}
    {union : Option Confirm} (h : job.confirm fileNum union d = some (job', d')) :
    Same job job' ∧ Disk.SameTree d d' := by
  unfold TransferJob.confirm at h
  split_ifs at h
  · cases h
    exact ⟨.refl job, .refl d⟩
  · split at h
    · cases h
      exact ⟨⟨rfl, rfl, fun h => h⟩, .refl d⟩
    · cases h
      exact ⟨⟨rfl, rfl, fun h => h⟩, .refl d⟩
    · rename_i offset
      dsimp only at h
      split_ifs at h
      · cases hsource : job.dataSource with
        | memoryCursor c =>
          unfold TransferJob.setStreamOffset at h
          split at h
          · cases h
            exact ⟨⟨rfl, rfl, fun h => h⟩, .refl d⟩
          · rename_i hpath
            cases hpath.symm.trans hsource
        | filePath src =>
          have hsource' : (job.setFileConfirmed true).dataSource = .filePath src := hsource
          obtain ⟨hd, rfl | ⟨handle, transferred, finishedSize, rfl, -⟩⟩ :=
            setStreamOffset_cases hi hsource' h
          · exact ⟨⟨rfl, rfl, fun h => h⟩, hd⟩
          · exact ⟨⟨rfl, rfl, fun h => h⟩, hd⟩
      · cases h
        exact ⟨⟨rfl, rfl, fun h => h⟩, .refl d⟩
    · cases h
      exact ⟨.refl job, .refl d⟩

end Frame

/-! ## A tick -/

/-- What a tick comes to, for the job it serves. -/
structure ServedOk (d : Disk) (r : ReadJob) (served : Served) : Prop where
  tree : Disk.SameTree d served.disk
  same : Same r.job served.job.job
  keeps : ∀ {src n}, r.Keeps d src n → ∃ n', served.job.Keeps served.disk src n' ∧
    (served.finished = true → served.job.job.files.length ≤ n')

section Serve

variable {z : Zstd} {d : Disk} {r : ReadJob}

/-- A call after which the tick goes no further. -/
theorem ServedOk.of_read (hz : z.RoundTrip) (hi : d.Inodes) (io : Io) (sent : List Message)
    {finished : Bool} (hfinished : finished = true → Quiet (r.read z d io).1 ∧
      (r.read z d io).2.1.job.jobCompleted = true) :
    ServedOk d r ⟨(r.read z d io).2.1, (r.read z d io).2.2, sent, finished⟩ := by
  obtain ⟨hsame, hd⟩ := same_read (z := z) hi r.job io
  refine ⟨hd, ?_, ?_⟩
  · show Same r.job (r.record z _ _).job
    rw [job_record]
    exact hsame
  · intro src n h
    obtain ⟨-, n', hkeeps, hpast⟩ := h.read hz hi io
    exact ⟨n', hkeeps, fun hf => hpast (hfinished hf).1 (hfinished hf).2⟩

/-- One tick after another call. -/
theorem ServedOk.trans {job : ReadJob} {d' : Disk} {sent : List Message} {served : Served}
    (h : ServedOk d r ⟨job, d', sent, false⟩) (h' : ServedOk d' job served) (sent' : List Message) :
    ServedOk d r { served with sent := sent' } where
  tree := h.tree.trans h'.tree
  same := h.same.trans h'.same
  keeps hkeeps := by
    obtain ⟨n', hkeeps', -⟩ := h.keeps hkeeps
    exact h'.keeps hkeeps'

/-- **What a tick preserves.** -/
theorem servedOk_serve (hz : z.RoundTrip) (maxBytes blocks bytesSent : Nat) (ios : Nat → Io)
    (r : ReadJob) {d : Disk} (hi : d.Inodes) :
    ServedOk d r (serve z maxBytes blocks bytesSent ios r d) := by
  induction blocks generalizing bytesSent ios r d with
  | zero =>
    refine ⟨.refl d, .refl r.job, fun h => ⟨_, h, ?_⟩⟩
    intro hfinished
    cases hfinished
  | succ blocks ih =>
    have hread (sent : List Message) (finished : Bool) (hfinished : finished = true →
        Quiet (r.read z d (ios 0)).1 ∧ (r.read z d (ios 0)).2.1.job.jobCompleted = true) :=
      ServedOk.of_read hz hi (ios 0) sent hfinished
    unfold serve
    split
    · rename_i err job d' hcall
      rw [hcall] at hread
      exact hread _ false (absurd · Bool.false_ne_true)
    · rename_i block job d' hcall
      rw [hcall] at hread
      dsimp only
      split_ifs
      · exact hread _ false (absurd · Bool.false_ne_true)
      · have hfirst := hread [] false (absurd · Bool.false_ne_true)
        exact hfirst.trans (ih _ _ job (hfirst.tree.inodes hi)) _
    · rename_i result job d' hloud hcall
      rw [hcall] at hread
      dsimp only
      split_ifs with hcompleted
      · refine hread _ true fun _ => ⟨?_, hcompleted⟩
        cases result with
        | nothing => trivial
        | digest digest => trivial
        | block block => exact absurd rfl (hloud block)
      · exact hread _ false (absurd · Bool.false_ne_true)

end Serve

end ReadJob

/-! ## A run -/

namespace Reader

open ReadJob

/-- The invariant of a run. -/
structure Inv (s : Reader) : Prop where
  jobs : ∀ r ∈ s.jobs, ∀ src, r.job.dataSource = .filePath src → ∃ n, r.Keeps s.disk src n
  ids : s.jobs.Pairwise fun r r' => r.job.isLastJob = true → r.job.id ≠ r'.job.id
  inodes : s.disk.Inodes
  ended : ∀ r ∈ s.ended, ∀ src, r.job.dataSource = .filePath src →
    ∃ n, r.Keeps s.disk src n ∧ r.job.files.length ≤ n

section Run

variable {z : Zstd} {s s' : Reader}

theorem Starts.inv (h : s.Starts) : s.Inv where
  jobs := by
    intro r hr src hsource
    obtain ⟨hnew, ⟨n, hn, hnum⟩, hclosed, -⟩ := h.fresh r hr src hsource
    have hstart : r.start = n := by
      rw [hnew]
      show asUsize r.job.fileNum = n
      rw [hnum, asUsize_natCast]
    have hpast : r.past = [] := by
      rw [hnew]
      rfl
    refine ⟨n, {
      source := hsource
      num := hnum
      start := hstart.le
      first := hstart ▸ hn
      order := ?_
      whole := ?_
      stream := ?_ }⟩
    · rw [hpast, hstart, min_eq_left hn.le, Nat.sub_self]
      rfl
    · intro i entered body e hmem
      rw [hpast] at hmem
      cases hmem
    · unfold ReadJob.StreamOk
      rw [hclosed, hnew]
      exact fun _ => ⟨rfl, rfl⟩
  ids := h.ids
  inodes := h.inodes
  ended r hr := by
    rw [h.ended] at hr
    cases hr

/-- A job of the list has come to another state. -/
theorem Inv.replace {r r' : ReadJob} {before after : List ReadJob} {disk : Disk}
    (h : s.Inv) (sent : List Message) (hjobs : s.jobs = before ++ r :: after)
    (hd : Disk.SameTree s.disk disk) (hsame : Same r.job r'.job)
    (hkeeps : ∀ {src n}, r.Keeps s.disk src n → ∃ n', r'.Keeps disk src n') :
    ({ s with jobs := before ++ r' :: after, disk, sent } : Reader).Inv where
  jobs := by
    intro r₁ hr₁ src hsource
    have hother (hr₁ : r₁ ∈ s.jobs) : ∃ n, r₁.Keeps disk src n := by
      obtain ⟨n, hkeeps⟩ := h.jobs r₁ hr₁ src hsource
      exact ⟨n, hkeeps.congr hd⟩
    simp only [List.mem_append, List.mem_cons] at hr₁
    rcases hr₁ with hr₁ | rfl | hr₁
    · exact hother (by simp [hjobs, hr₁])
    · obtain ⟨n, hr⟩ := h.jobs r (by simp [hjobs]) src (hsame.source hsource)
      exact hkeeps hr
    · exact hother (by simp [hjobs, hr₁])
  ids := by
    have hids := h.ids
    rw [hjobs] at hids
    simp only [List.pairwise_append, List.pairwise_cons, List.mem_cons, forall_eq_or_imp] at hids ⊢
    rw [hsame.id, hsame.last]
    exact hids
  inodes := hd.inodes h.inodes
  ended r₁ hr₁ src hsource := by
    obtain ⟨n, hkeeps, hpast⟩ := h.ended r₁ hr₁ src hsource
    exact ⟨n, hkeeps.congr hd, hpast⟩

/-- The first job of its number is the one that is served: those before it wait to be resumed. -/
theorem find_served {r : ReadJob} {waiting rest : List ReadJob}
    (hids : (waiting ++ r :: rest).Pairwise fun r r' =>
      r.job.isLastJob = true → r.job.id ≠ r'.job.id)
    (hwaiting : ∀ w ∈ waiting, w.job.isLastJob = true) :
    (waiting ++ r :: rest).find? (fun r' : ReadJob => decide (r'.job.id = r.job.id)) = some r := by
  have hnone : waiting.find? (fun r' : ReadJob => decide (r'.job.id = r.job.id)) = none := by
    rw [List.find?_eq_none]
    intro w hw
    have hother := (List.pairwise_append.mp hids).2.2 w hw r List.mem_cons_self (hwaiting w hw)
    rwa [decide_eq_true_eq]
  rw [List.find?_append, hnone, Option.none_or]
  exact List.find?_cons_of_pos (decide_eq_true rfl)

/-- **`handle_read_jobs` keeps the record of every job.** -/
theorem Inv.tick (hz : z.RoundTrip) (h : s.Inv) (direct : Bool) (ios : Nat → Io) :
    (s.handleReadJobs z direct ios).Inv := by
  have hsplit : s.jobs = s.jobs.takeWhile (fun r => r.job.isLastJob) ++
      s.jobs.dropWhile (fun r => r.job.isLastJob) := List.takeWhile_append_dropWhile.symm
  have hwaiting : ∀ w ∈ s.jobs.takeWhile (fun r => r.job.isLastJob), w.job.isLastJob = true :=
    fun w hw => List.mem_takeWhile_imp (p := fun r : ReadJob => r.job.isLastJob) hw
  unfold handleReadJobs
  rw [List.span_eq_takeWhile_dropWhile]
  generalize s.jobs.takeWhile (fun r => r.job.isLastJob) = waiting at hsplit hwaiting ⊢
  generalize s.jobs.dropWhile (fun r => r.job.isLastJob) = active at hsplit ⊢
  cases active with
  | nil => exact h
  | cons r rest =>
    dsimp only
    have hserved := servedOk_serve hz (maxBytesPerTick direct) (maxBlocksPerTick direct) 0 ios r
      h.inodes
    generalize serve z (maxBytesPerTick direct) (maxBlocksPerTick direct) 0 ios r s.disk = served
      at hserved ⊢
    have hreplaced (sent : List Message) := h.replace sent hsplit hserved.tree hserved.same
      fun hr => (hserved.keeps hr).imp fun _ hkeeps => hkeeps.1
    split_ifs with hfinished
    · have hinv := hreplaced (s.sent ++ served.sent)
      refine {
        jobs := fun r' hr' => hinv.jobs r' (List.mem_of_mem_eraseP hr')
        ids := hinv.ids.sublist List.eraseP_sublist
        inodes := hinv.inodes
        ended := ?_ }
      intro r' hr' src hsource
      rw [find_served hinv.ids hwaiting] at hr'
      rcases List.mem_append.mp hr' with hr' | hr'
      · exact hinv.ended r' hr' src hsource
      · obtain rfl := List.mem_singleton.mp hr'
        obtain ⟨n, hr⟩ := h.jobs r (by simp [hsplit]) src (hserved.same.source hsource)
        obtain ⟨n', hkeeps, hpast⟩ := hserved.keeps hr
        exact ⟨n', hkeeps, hpast hfinished⟩
    · exact hreplaced _

/-- What a confirmation does to the jobs. -/
theorem confirmJob_cases {id fileNum : Int} {union : Option Confirm} {d d' : Disk}
    {jobs jobs' : List ReadJob} (h : confirmJob id fileNum union d jobs = some (jobs', d')) :
    jobs' = jobs ∧ d' = d ∨ ∃ before r r' after, jobs = before ++ r :: after ∧
      jobs' = before ++ r' :: after ∧ r.confirm fileNum union d = some (r', d') := by
  induction jobs generalizing jobs' with
  | nil =>
    cases h
    exact .inl ⟨rfl, rfl⟩
  | cons r rest ih =>
    unfold confirmJob at h
    split_ifs at h
    · obtain ⟨⟨r', d₁⟩, hconfirm, heq⟩ := Option.map_eq_some_iff.mp h
      cases heq
      exact .inr ⟨[], r, r', rest, rfl, rfl, hconfirm⟩
    · obtain ⟨⟨rest', d₁⟩, hrest, heq⟩ := Option.map_eq_some_iff.mp h
      cases heq
      rcases ih hrest with ⟨rfl, rfl⟩ | ⟨before, r₁, r₂, after, rfl, rfl, hconfirm⟩
      · exact .inl ⟨rfl, rfl⟩
      · exact .inr ⟨r :: before, r₁, r₂, after, rfl, rfl, hconfirm⟩

theorem Inv.confirm (h : s.Inv) {id fileNum : Int} {union : Option Confirm} {jobs : List ReadJob}
    {disk : Disk} (hconfirm : confirmJob id fileNum union s.disk s.jobs = some (jobs, disk)) :
    ({ s with jobs, disk } : Reader).Inv := by
  rcases confirmJob_cases hconfirm with ⟨rfl, rfl⟩ | ⟨before, r, r', after, hjobs, rfl, hr⟩
  · exact h
  · have hjob : ∃ job, r.job.confirm fileNum union s.disk = some (job, disk) ∧
        r' = r.recordConfirm fileNum union job := by
      obtain ⟨⟨job, d⟩, hjob, heq⟩ := Option.map_eq_some_iff.mp hr
      cases heq
      exact ⟨job, hjob, rfl⟩
    obtain ⟨job, hjob, hr'⟩ := hjob
    obtain ⟨hsame, hd⟩ := same_confirm h.inodes hjob
    refine h.replace s.sent hjobs hd ?_ fun hkeeps => (hkeeps.confirm h.inodes hr).2
    rw [hr', job_recordConfirm]
    exact hsame

/-- **What a step preserves.** -/
theorem Inv.next (hz : z.RoundTrip) (h : s.Inv) {event : ReadEvent}
    (hs : s.next z event = some s') : s'.Inv := by
  cases event with
  | tick direct ios =>
    cases hs
    exact h.tick hz direct ios
  | confirm id fileNum union =>
    obtain ⟨⟨jobs, disk⟩, hconfirm, heq⟩ := Option.map_eq_some_iff.mp hs
    cases heq
    exact h.confirm hconfirm

end Run

/-- A sender with the file `/a`, which is to send `/a` and `/b`. -/
def sendsAB : Reader where
  jobs := [.new (.new 1 .generic (.filePath ['/']) 0 [⟨['a'], 1, 0⟩, ⟨['b'], 1, 0⟩] true)]
  disk := Disk.blank.withFile [['a']] [104]
  sent := []
  ended := []

theorem starts_sendsAB : sendsAB.Starts where
  fresh := by
    intro r hr src _
    obtain rfl := List.mem_singleton.mp hr
    exact ⟨rfl, ⟨0, by decide, rfl⟩, rfl, rfl, rfl⟩
  ids := List.pairwise_singleton _ _
  inodes := (Disk.sound_blank.withFile rfl rfl).inodes
  ended := rfl

/-- A tick in which nothing fails but what the disk says. -/
def fineTick : ReadEvent := .tick false fun _ => .fine ⟨0, 0⟩

end Reader


end HopToDesk.Transfer
