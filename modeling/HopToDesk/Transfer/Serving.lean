import HopToDesk.Kit.Log
import HopToDesk.Transfer.Reading

/-!
# A job that is served

One job of `read_jobs`, call by call: each turn of the loop of `handle_read_jobs` calls `read` and
sends what it comes to, and the confirmations come between. A tick is some turns without a
confirmation between them. What happens to the job is noted, oldest first.

The disk is the sender's. What others do to it meanwhile leaves the numbers of files alone: a number
that has been given out and is no file's is no file's later.
-/

set_option autoImplicit false

namespace HopToDesk.Transfer

open Kit UnixPath
open TransferJob (Io Yield Confirm)

/-- What happens to a job. A confirmation is noted where its number is that of the job and it
confirms the file. -/
inductive Note
  | opened (fileNum : Int)
  | confirmed (fileNum : Int)
  | sent (msg : Message)
deriving DecidableEq, Repr

/-- A file was opened. -/
def Note.Opens : Note → Prop
  | .opened _ => True
  | _ => False

/-- A digest was sent. -/
def Note.Asks : Note → Prop
  | .sent (.digest _) => True
  | _ => False

/-- A block with data was sent. -/
def Note.Carries : Note → Prop
  | .sent (.block b) => b.data ≠ []
  | _ => False

/-- It is an error. -/
def Message.isError : Message → Bool
  | .error _ _ _ => true
  | _ => false

namespace TransferJob

/-- What `read` opens: the file the job is at, when nothing is open. -/
def opens (self : TransferJob) (d : Disk) (io : Io) : Bool :=
  match self.dataSource with
  | .filePath p =>
    match self.files[asUsize self.fileNum]? with
    | none => false
    | some entry =>
      !isMarker entry.name && self.dataStream.isNone &&
        (orFails io.openFails (d.openRead (join p entry.name))).isOk
  | .memoryCursor _ => self.dataStream.isNone

/-- The file that `set_stream_offset` opens, of this entry. -/
def seekable (p : PathStr) (entry : FileEntry) (d : Disk) : Except DiskError (Handle × Disk) :=
  let filePath := join p entry.name
  let downloadPath := filePath ++ downloadSuffix
  let digestPath := filePath ++ digestSuffix
  if d.pathExists downloadPath && d.pathExists digestPath then d.openWrite downloadPath
  else if d.pathExists filePath then d.openRead filePath
  else .error .notFound

/-- Whether a confirmation with this offset opens a file. -/
def reopens (self : TransferJob) (fileNum : Int) (offset : Nat) (d : Disk) : Bool :=
  match self.dataSource with
  | .memoryCursor _ => false
  | .filePath p =>
    match self.files[asUsize fileNum]? with
    | none => false
    | some entry => decide (0 < offset) && (seekable p entry d).isOk

/-- What is noted of a confirmation, if its number is the job's. -/
def confirmNotes (self : TransferJob) (fileNum : Int) (union : Option Confirm) (d : Disk) :
    List Note :=
  if self.fileNum ≠ fileNum then []
  else
    match union with
    | some (.skip false) => [.confirmed fileNum]
    | some (.offsetBlk offset) =>
      if self.reopens fileNum offset d then [.opened fileNum, .confirmed fileNum]
      else [.confirmed fileNum]
    | _ => []

end TransferJob

/-- What was sent, of what is noted. -/
def sentMessages (notes : List Note) : List Message :=
  notes.filterMap fun
    | .sent msg => some msg
    | _ => none

/-- What a call of `read` makes the loop send. -/
def messagesOf (result : Except JobError Yield) (job : TransferJob) : List Message :=
  match result with
  | .error err => [.error job.id job.fileNum err]
  | .ok (.block b) => [.block b]
  | .ok (.digest asked) => [.digest asked]
  | .ok .nothing => []

/-- `read` has returned `Ok(None)`. -/
def readsNone : Except JobError Yield → Bool
  | .ok .nothing | .ok (.digest _) => true
  | _ => false

structure Serving where
  job : TransferJob
  disk : Disk
  notes : List Note
  removed : Bool

inductive ServeEvent
  | turn (io : Io)
  | confirm (fileNum : Int) (union : Option Confirm)
  | changed (disk : Disk)

namespace Serving

/-- A turn of the loop. A job that is complete gets its last message and is removed. -/
def turn (z : Zstd) (s : Serving) (io : Io) : Serving :=
  let out := s.job.read z s.disk io
  let opened := if s.job.opens s.disk io then [.opened s.job.fileNum] else []
  let notes := s.notes ++ opened ++ (messagesOf out.1 out.2.1).map .sent
  let removed := readsNone out.1 && out.2.1.jobCompleted
  { job := out.2.1, disk := out.2.2,
    notes := notes ++ if removed then [.sent (lastMessage out.2.1)] else [], removed }

/-- What others do to a disk. -/
structure Evolves (d d' : Disk) : Prop where
  inodes : d.Inodes → d'.Inodes
  next : d.next ≤ d'.next
  gone : ∀ ino, ino < d.next → d.placeOf ino = none → d'.placeOf ino = none

/-- One step, of a job that is still there. -/
def step (z : Zstd) (s : Serving) : ServeEvent → Serving → Prop
  | .turn io, s' => s.removed = false ∧ s' = s.turn z io
  | .confirm fileNum union, s' => s.removed = false ∧
    ∃ job disk, s.job.confirm fileNum union s.disk = some (job, disk) ∧
      s' = { s with
        job, disk, notes := s.notes ++ s.job.confirmNotes fileNum union s.disk }
  | .changed disk, s' => Evolves s.disk disk ∧ s' = { s with disk }

/-- The digest of a file can be made and sent, and a read from memory does not fail. -/
def Works (job : TransferJob) (io : Io) : Prop :=
  (∃ digest, io.digest = .ok digest) ∧
    ∀ data, job.dataSource = .memoryCursor data → io.readFails = none

/-- Digests go out, and each is confirmed once: the confirmations are answers. -/
def Answered (s : Serving) : ServeEvent → Prop
  | .turn io => Works s.job io
  | .confirm fileNum union =>
    s.job.fileIsWaiting = true ∧ s.job.fileConfirmed = false ∧ fileNum = s.job.fileNum ∧
      union ≠ none
  | .changed _ => True

/-- The number of errors sent. -/
def errors (s : Serving) : Nat := (sentMessages s.notes).countP Message.isError

/-- A job that has done nothing yet. -/
def start (job : TransferJob) (disk : Disk) : Serving := ⟨job, disk, [], false⟩

/-- Any turns and confirmations of such a job, on a disk with its numbers in order. -/
def system (z : Zstd) (job : TransferJob) : System Serving ServeEvent where
  init s := ∃ disk : Disk, disk.Inodes ∧ s = start job disk
  step := step z

/-- A run that goes on as long as the job is there. Nobody else changes the disk; the ticks go on,
and each digest is answered at some time. -/
structure Fair (z : Zstd) (job : TransferJob) (run : Nat → Serving) (events : Nat → ServeEvent) :
    Prop where
  init : (system z job).init (run 0)
  step : ∀ n, (run n).removed = false →
    step z (run n) (events n) (run (n + 1)) ∧ (run n).Answered (events n)
  quiet : ∀ n disk, events n ≠ .changed disk
  turns : ∀ n, ∃ m ≥ n, ∃ io, events m = .turn io
  answers : ∀ n, (run n).job.fileIsWaiting = true → (run n).job.fileConfirmed = false →
    ∃ m ≥ n, ∃ fileNum union, events m = .confirm fileNum union

end Serving

end HopToDesk.Transfer

/-!
## Requests for files

What a connection makes of the requests of its peer that are about reading files (`FileAction` of
`src/server/connection.rs`): `Send` makes a job, with whatever number the peer asks for, a
`SendConfirm` goes to the job it names, and `Cancel` removes one. The ticks come between them. A
`SendConfirm` for a job that is not there is passed on to the jobs that write, which are elsewhere.

The numbers are `i32`, and so is the number of a job: a skip that takes it past the largest leaves
it at the smallest, as in a release build.
-/

namespace HopToDesk.Transfer

open Kit UnixPath
open TransferJob (Io Confirm)

inductive FileRequest
  /-- With the files that `get_recursive_files` finds. -/
  | send (id : Int32) (path : PathStr) (fileNum : Int32) (files : List FileEntry)
    (overwriteDetection : Bool)
  /-- Of a printer job, with its data. -/
  | sendPrinter (id fileNum : Int32) (data : Content) (overwriteDetection : Bool)
  | sendConfirm (id fileNum : Int32) (union : Option Confirm)
  | cancel (id : Int32)
  | tick (direct : Bool) (ios : Nat → Io)
  /-- Somebody else does something to the disk. -/
  | changed (disk : Disk)

/-- The job's number is an `i32`. -/
def ReadJob.wrapped (self : ReadJob) : ReadJob :=
  { self with job := { self.job with fileNum := (Int32.ofInt self.job.fileNum).toInt } }

namespace Reader

/-- The job of an id. -/
def getJob (self : Reader) (id : Int32) : Option ReadJob :=
  self.jobs.find? fun r => decide (r.job.id = id.toInt)

/-- One request, or a tick. `none` is a panic. -/
def handle (z : Zstd) (self : Reader) : FileRequest → Option Reader
  | .send id path fileNum files overwriteDetection =>
    some { self with
      jobs := self.jobs ++ [.new (.new id.toInt .generic (.filePath path) fileNum.toInt files
        overwriteDetection)] }
  | .sendPrinter id fileNum data overwriteDetection =>
    some { self with
      jobs := self.jobs ++ [.new (.new id.toInt .printer (.memoryCursor data) fileNum.toInt []
        overwriteDetection)] }
  | .sendConfirm id fileNum union =>
    (confirmJob id.toInt fileNum.toInt union self.disk self.jobs).map fun (jobs, disk) =>
      { self with jobs := jobs.map ReadJob.wrapped, disk }
  | .cancel id => some { self with jobs := self.jobs.eraseP fun r => r.job.id = id.toInt }
  | .tick direct ios => some (self.handleReadJobs z direct ios)
  | .changed disk => some { self with disk }

/-- A connection that reads files: any requests in any order, until one of them panics. -/
def requests (z : Zstd) : System (Option Reader) FileRequest where
  init s := ∃ disk, s = some ⟨[], disk, [], []⟩
  step s e s' := ∃ self, s = some self ∧ s' = self.handle z e

end Reader

end HopToDesk.Transfer
