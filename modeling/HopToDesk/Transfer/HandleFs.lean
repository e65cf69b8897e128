import HopToDesk.Kit.System
import HopToDesk.Transfer.Job

/-!
# The receiving end

`handle_fs` of `src/ui_cm_interface.rs`, for the operations on write jobs: the peer's messages reach
it as `ipc::FS` values. The client receives files with the same jobs (`io_loop.rs`): its
`FileResponse::Block`, `Done` and `Error` do to the jobs what `WriteBlock`, `WriteDone` and
`WriteError` do here, its `Digest` what `CheckDigest` and `SendConfirm` do, its new job is a
`NewWrite` without files, and the list of the files comes after it (`Op.dir`).

What `is_write_need_confirmation` finds on the disk decides which message is sent and whether the
digest is kept. It changes nothing, and its answer stands in the operation.
-/

set_option autoImplicit false

namespace HopToDesk.Transfer

open Kit UnixPath

inductive DigestCheckResult
  | isSame
  | needConfirm (digest : FileTransferDigest)
  | noSuchFile
deriving DecidableEq, Repr

/-- The operations of `ipc::FS` on write jobs. -/
inductive FS
  | newWrite (path : PathStr) (id fileNum : Int) (files : List (PathStr × Nat))
      (overwriteDetection : Bool)
  | cancelWrite (id : Int)
  | writeDone (id fileNum : Int)
  | writeError (id fileNum : Int) (err : String)
  | writeBlock (id fileNum : Int) (data : Content) (compressed : Bool)
  | checkDigest (id fileNum : Int) (fileSize lastModified : Nat) (isUpload : Bool)
      (check : Except JobError DigestCheckResult)
  | sendConfirm (id fileNum : Int) (union : Option TransferJob.Confirm)
deriving Repr

/-- What the receiver sends back. -/
inductive Reply
  | done (id fileNum : Int)
  | error (id fileNum : Int) (err : JobError)
  | confirm (id fileNum : Int) (union : TransferJob.Confirm)
  | digest (digest : FileTransferDigest)
deriving DecidableEq, Repr

inductive Op
  | fs (fs : FS)
  /-- `FileResponse::Dir` at the client. -/
  | dir (id : Int) (files : List FileEntry)
deriving Repr

structure Receiver where
  writeJobs : List TransferJob
  disk : Disk
  sent : List Reply

/-- `get_job`. -/
def getJob (id : Int) (jobs : List TransferJob) : Option TransferJob :=
  jobs.find? fun job => job.id = id

/-- What `get_job` lent, put back. -/
def setJob (id : Int) (job' : TransferJob) : List TransferJob → List TransferJob
  | [] => []
  | job :: jobs => if job.id = id then job' :: jobs else job :: setJob id job' jobs

/-- `remove_job`. -/
def removeJob (id : Int) (jobs : List TransferJob) : Option TransferJob × List TransferJob :=
  (getJob id jobs, jobs.eraseP fun job => job.id = id)

namespace Receiver

/-- What `CheckDigest` sends. -/
def digestReply (id fileNum : Int) (isUpload : Bool) : DigestCheckResult → Reply
  | .isSame => .confirm id fileNum (.skip true)
  | .needConfirm digest => .digest { digest with isUpload }
  | .noSuchFile => .confirm id fileNum (.offsetBlk 0)

def reply (self : Receiver) (r : Reply) : Receiver := { self with sent := self.sent ++ [r] }

/-- `handle_fs`. `none` is a panic. -/
def handleFs (z : Zstd) (self : Receiver) : FS → Option Receiver
  | .newWrite path id fileNum files overwriteDetection =>
    let files := files.map fun f => ({ name := f.1, size := 0, modifiedTime := f.2 } : FileEntry)
    -- the empty directories are made with `PathBuf::join`; their names are not empty
    let disk := TransferJob.createMarkers path (files.map (·.name)) self.disk
    let job := TransferJob.new id .generic (.filePath path) fileNum files overwriteDetection
    some { self with writeJobs := self.writeJobs ++ [job], disk }
  | .cancelWrite id =>
    match removeJob id self.writeJobs with
    | (some job, writeJobs) =>
      some { self with writeJobs, disk := job.removeDownloadFile self.disk }
    | (none, _) => some self
  | .writeDone id fileNum =>
    match removeJob id self.writeJobs with
    | (some job, writeJobs) =>
      some ({ self with writeJobs, disk := job.modifyTime self.disk }.reply (.done id fileNum))
    | (none, _) => some self
  | .writeError id fileNum err =>
    match removeJob id self.writeJobs with
    | (some job, writeJobs) =>
      some ({ self with writeJobs }.reply (.error job.id fileNum (.text err)))
    | (none, _) => some self
  | .writeBlock id fileNum data compressed =>
    match getJob id self.writeJobs with
    | some job =>
      let (outcome, job, disk) := job.write z { id, fileNum, data, compressed } self.disk
      let self := { self with writeJobs := setJob id job self.writeJobs, disk }
      match outcome with
      | .ok () => some self
      | .error err => some (self.reply (.error id fileNum err))
    | none => some self
  | .checkDigest id fileNum fileSize lastModified isUpload check =>
    match getJob id self.writeJobs with
    | some job =>
      match job.files[asUsize fileNum]?, job.dataSource with
      | some _, .filePath _ =>
        match check with
        | .ok result =>
          let job := job.setDigest fileSize lastModified
          some ({ self with writeJobs := setJob id job self.writeJobs }.reply
            (digestReply id fileNum isUpload result))
        | .error err => some (self.reply (.error id fileNum err))
      | _, _ => some self
    | none => some self
  | .sendConfirm id fileNum union =>
    match getJob id self.writeJobs with
    | some job =>
      (job.confirm fileNum union self.disk).map fun (job, disk) =>
        { self with writeJobs := setJob id job self.writeJobs, disk }
    | none => some self

/-- One operation. -/
def step (z : Zstd) (self : Receiver) : Op → Option Receiver
  | .fs fs => self.handleFs z fs
  | .dir id files =>
    match getJob id self.writeJobs with
    | some job =>
      let (job, disk) := job.setFiles files self.disk
      some { self with writeJobs := setJob id job self.writeJobs, disk }
    | none => some self

end Receiver

/-- The destination an operation names. -/
def Op.dest : Op → Option PathStr
  | .fs (.newWrite path _ _ _ _) => some path
  | _ => none

/-- The file names an operation brings. -/
def Op.names : Op → List PathStr
  | .fs (.newWrite _ _ _ files _) => files.map (·.1)
  | .dir _ files => files.map (·.name)
  | _ => []

/-- The operations one after the other. -/
def Receiver.run (z : Zstd) (self : Receiver) (ops : List Op) : Option Receiver :=
  ops.foldlM (Receiver.step z) self

/-- A receiver from its first state on. A panic ends it. -/
def receiving (z : Zstd) (start : Receiver) : System Receiver Op where
  init s := s = start
  step s op s' := s.step z op = some s'

/-- What a run of operations leaves is reached by it. -/
theorem run_receiving {z : Zstd} {start s : Receiver} {ops : List Op}
    (h : start.run z ops = some s) : (receiving z start).Run ops s :=
  (System.Run.start rfl).of_foldlM id h

end HopToDesk.Transfer
