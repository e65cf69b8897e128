import HopToDesk.Transfer.Reading
import HopToDesk.Transfer.Sending

/-!
# A transfer in which files fail

One job at the reading end, in which any file may fail to open or to be read, and the receiver that
takes every message the reading end has sent, in order. The receiver begins without temporary files,
so nothing is resumed and every file that is confirmed is confirmed from its start.

When a file fails, `read` moves the number on and `handle_read_jobs` sends the error with the number
it finds then. The receiver does with an error what it does with the end of a job, except to finish
the file it is at: it drops the job, and takes no block of it after that.
-/

set_option autoImplicit false

namespace HopToDesk.Transfer

open Kit UnixPath
open TransferJob (Confirm)

/-- A confirmation that does not ask for the rest of a file. -/
def Unresumed (union : Option Confirm) : Prop :=
  ∀ offset, union = some (.offsetBlk offset) → offset = 0

/-- What the receiver makes of a digest: what its check finds, and what it confirms of its own job.
It confirms nothing where the user answers at the other end. -/
structure Answer where
  isUpload : Bool
  check : Except JobError DigestCheckResult
  union : Option Confirm

/-- What a message is to the receiver. `text` is what an error is called. -/
def Message.ops (text : JobError → String) (answer : Answer) : Message → List FS
  | .digest asked =>
    [.checkDigest asked.id asked.fileNum asked.fileSize asked.lastModified answer.isUpload
      answer.check, .sendConfirm asked.id asked.fileNum answer.union]
  | .block b => [.writeBlock b.id b.fileNum b.data b.compressed]
  | .done id fileNum => [.writeDone id fileNum]
  | .error id fileNum err => [.writeError id fileNum (text err)]

namespace Receiver

variable (z : Zstd) (text : JobError → String)

/-- One message. `none` is a panic. -/
def take (self : Receiver) (x : Message × Answer) : Option Receiver :=
  self.run z ((x.1.ops text x.2).map Op.fs)

def takeAll (self : Receiver) (xs : List (Message × Answer)) : Option Receiver :=
  xs.foldlM (take z text) self

end Receiver

/-- The digests can be sent, and nothing is resumed. -/
def ReadEvent.FromStart : ReadEvent → Prop
  | .tick _ ios => ∀ n, ∃ digest, (ios n).digest = .ok digest
  | .confirm _ _ union => Unresumed union

namespace Trip

variable (T : Trip)

/-- The sender's job before its first step, at a number of the list. -/
structure Begins (start : Nat) (job : TransferJob) : Prop where
  id : job.id = T.id
  source : job.dataSource = .filePath T.src
  files : job.files = T.files
  num : job.fileNum = (start : Int)
  closed : job.dataStream = none
  fine : job.fileError = none

/-- The reading end with this job. A file fails where the disk or the outside says so. -/
def sending (job : TransferJob) : System Reader ReadEvent where
  init s := s = ⟨[.new job], T.source, [], []⟩
  step s event s' := event.FromStart ∧ s.next T.z event = some s'

/-- The receiver with its job, which is to begin at the same number. -/
def receiver (start : Nat) (overwrite : Bool) : Receiver :=
  ⟨[.new T.id .generic (.filePath T.p) start T.files overwrite], T.disk, []⟩

/-- What the failure of a file is to leave as it is. -/
structure Isolated (r : ReadJob) (sent : List Message) (d : Disk) : Prop where
  /-- A file of which everything was sent is at its final path. -/
  arrived : ∀ {i body e}, .emitted i 0 body ∈ r.past → T.Regular i e →
    d.view (T.final e) = some (.file body)
  /-- An error has the number of a file that failed. -/
  named : ∀ {id fileNum : Int} {err : JobError}, .error id fileNum err ∈ sent →
    ∃ (i : Nat) (passed : Bool), .reported i passed ∈ r.past ∧ fileNum = i

end Trip

/-- No file has failed. -/
def ReadJob.Spotless (r : ReadJob) : Prop := ∀ i passed, .reported i passed ∉ r.past

end HopToDesk.Transfer
