import HopToDesk.Kit.DiskTree
import HopToDesk.Transfer.HandleFs

/-!
# The reading end

`handle_read_jobs` of `libs/hbb_common/src/fs.rs`, and the confirmations that come between its
ticks. A tick serves one job, the first that does not wait to be resumed: it sends blocks until the
tick's share is used up, the job has to wait, or a file fails. When `read` returns nothing and the
job is complete, the last message goes out and the job is removed.

The disk is the sender's, and nothing else changes it. A message that cannot be sent ends the
connection and with it the run.
-/

set_option autoImplicit false

namespace HopToDesk.Transfer

open Kit UnixPath
open TransferJob (Io Yield Confirm payload)

/-- What the reading end sends. -/
inductive Message
  | digest (digest : FileTransferDigest)
  | block (block : FileTransferBlock)
  | done (id fileNum : Int)
  | error (id fileNum : Int) (err : JobError)
deriving DecidableEq, Repr

/-- What has become of a file: all of it was sent from the position it was entered at, and this is
what was sent; or its confirmation skipped it; or an error was sent for it, and the job went on to
the next file or stayed. -/
inductive Outcome
  | emitted (i : Nat) (entered : Nat) (body : Content)
  | skipped (i : Nat)
  | reported (i : Nat) (passed : Bool)
deriving DecidableEq, Repr

/-- A job of `read_jobs`. Beside the job stands what has come of it, which no step looks at: the
number it started from, where the open file was entered and what was sent of it since, and what has
become of the files. -/
structure ReadJob where
  job : TransferJob
  start : Nat
  entered : Nat
  body : Content
  past : List Outcome
deriving DecidableEq

namespace ReadJob

/-- A job that has done nothing yet. -/
def new (job : TransferJob) : ReadJob := ⟨job, asUsize job.fileNum, 0, [], []⟩

/-- The job has left its file. -/
def leave (self : ReadJob) (job : TransferJob) (outcome : Outcome) : ReadJob :=
  { self with job, entered := 0, body := [], past := self.past ++ [outcome] }

/-- The record of a call of `read`. -/
def record (z : Zstd) (self : ReadJob) (result : Except JobError Yield) (job : TransferJob) :
    ReadJob :=
  let i := asUsize self.job.fileNum
  match result with
  | .error _ =>
    if job.fileNum = self.job.fileNum then
      { self with job, past := self.past ++ [.reported i false] }
    else self.leave job (.reported i true)
  | .ok (.block block) =>
    if job.fileNum = self.job.fileNum then { self with job, body := self.body ++ payload z block }
    else self.leave job (.emitted i self.entered self.body)
  | .ok _ => { self with job }

def read (z : Zstd) (self : ReadJob) (d : Disk) (io : Io) :
    Except JobError Yield × ReadJob × Disk :=
  let out := self.job.read z d io
  (out.1, self.record z out.1 out.2.1, out.2.2)

/-- The record of a confirmation. A number past the list names no file. -/
def recordConfirm (self : ReadJob) (fileNum : Int) (union : Option Confirm) (job : TransferJob) :
    ReadJob :=
  let i := asUsize fileNum
  if self.job.fileNum ≠ fileNum then { self with job }
  else
    match union with
    | some (.skip true) =>
      if i < self.job.files.length then self.leave job (.skipped i) else { self with job }
    | some (.offsetBlk offset) =>
      if job.dataStream = self.job.dataStream then { self with job }
      else { self with job, entered := offset, body := [] }
    | _ => { self with job }

def confirm (self : ReadJob) (fileNum : Int) (union : Option Confirm) (d : Disk) :
    Option (ReadJob × Disk) :=
  (self.job.confirm fileNum union d).map fun (job, d) =>
    (self.recordConfirm fileNum union job, d)

end ReadJob

/-! ## A tick -/

def maxBlocksPerTick (direct : Bool) : Nat := if direct then 128 else 32

def maxBytesPerTick (direct : Bool) : Nat :=
  if direct then 16 * 1024 * 1024 else 2 * 1024 * 1024

/-- What a tick makes of the job it serves. -/
structure Served where
  job : ReadJob
  disk : Disk
  sent : List Message
  finished : Bool

/-- The last message of a job that is complete. -/
def lastMessage (job : TransferJob) : Message :=
  match job.jobError with
  | some err => .error job.id job.fileNum err
  | none => .done job.id job.fileNum

/-- The loop of `handle_read_jobs` over one job: as many more blocks as may be sent, the bytes sent
so far, and what the outside does in each call. -/
def serve (z : Zstd) (maxBytes : Nat) : Nat → Nat → (Nat → Io) → ReadJob → Disk → Served
  | 0, _, _, job, d => ⟨job, d, [], false⟩
  | blocks + 1, bytesSent, ios, job, d =>
    match job.read z d (ios 0) with
    | (.error err, job, d) => ⟨job, d, [.error job.job.id job.job.fileNum err], false⟩
    | (.ok (.block block), job, d) =>
      let bytesSent := bytesSent + block.data.length
      if blocks = 0 ∨ maxBytes ≤ bytesSent then ⟨job, d, [.block block], false⟩
      else
        let served := serve z maxBytes blocks bytesSent (fun n => ios (n + 1)) job d
        { served with sent := .block block :: served.sent }
    | (.ok result, job, d) =>
      let asked := match result with
        | .digest digest => [.digest digest]
        | _ => []
      if job.job.jobCompleted then ⟨job, d, asked ++ [lastMessage job.job], true⟩
      else ⟨job, d, asked, false⟩

/-- The party that reads: its jobs, its disk, what it has sent, and the jobs that are over. -/
structure Reader where
  jobs : List ReadJob
  disk : Disk
  sent : List Message
  ended : List ReadJob

namespace Reader

/-- `handle_read_jobs`. -/
def handleReadJobs (z : Zstd) (direct : Bool) (ios : Nat → Io) (self : Reader) : Reader :=
  let (waiting, active) := self.jobs.span fun r => r.job.isLastJob
  match active with
  | [] => self
  | r :: rest =>
    let served := serve z (maxBytesPerTick direct) (maxBlocksPerTick direct) 0 ios r self.disk
    let jobs := waiting ++ served.job :: rest
    let self := { self with jobs, disk := served.disk, sent := self.sent ++ served.sent }
    if served.finished then
      let ofId := fun r : ReadJob => decide (r.job.id = served.job.job.id)
      { self with jobs := jobs.eraseP ofId, ended := self.ended ++ (jobs.find? ofId).toList }
    else self

/-- A confirmation goes to the first job of its id. -/
def confirmJob (id fileNum : Int) (union : Option Confirm) (d : Disk) :
    List ReadJob → Option (List ReadJob × Disk)
  | [] => some ([], d)
  | r :: rest =>
    if r.job.id = id then (r.confirm fileNum union d).map fun (r, d) => (r :: rest, d)
    else (confirmJob id fileNum union d rest).map fun (rest, d) => (r :: rest, d)

end Reader

inductive ReadEvent
  | tick (direct : Bool) (ios : Nat → Io)
  | confirm (id fileNum : Int) (union : Option Confirm)

namespace Reader

/-- One step. `none` is a panic. -/
def next (z : Zstd) (self : Reader) : ReadEvent → Option Reader
  | .tick direct ios => some (self.handleReadJobs z direct ios)
  | .confirm id fileNum union =>
    (confirmJob id fileNum union self.disk self.jobs).map fun (jobs, disk) =>
      { self with jobs, disk }

/-- A job of a list of files that has done nothing yet, at a number of the list. -/
structure Fresh (r : ReadJob) : Prop where
  new : r = .new r.job
  num : ∃ n, n < r.job.files.length ∧ r.job.fileNum = (n : Int)
  closed : r.job.dataStream = none
  idle : r.job.fileConfirmed = false ∧ r.job.fileIsWaiting = false

/-- Read jobs before their first step. Only a client has jobs that wait to be resumed, and it draws
its numbers from one counter (`get_next_job_id`), so none of them has the number of another. -/
structure Starts (s : Reader) : Prop where
  fresh : ∀ r ∈ s.jobs, ∀ src, r.job.dataSource = .filePath src → Fresh r
  ids : s.jobs.Pairwise fun r r' => r.job.isLastJob = true → r.job.id ≠ r'.job.id
  inodes : s.disk.Inodes
  ended : s.ended = []

/-- Read jobs, from their first states on. -/
def system (z : Zstd) : System Reader ReadEvent where
  init s := s.Starts
  step s event s' := s.next z event = some s'

end Reader

end HopToDesk.Transfer
