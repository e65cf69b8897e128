import HopToDesk.Transfer.HandleFs

/-!
# Remote printing

What is printed on the virtual printer of the host goes to the client as a transfer of its own:
`create_print_job_messages` of `src/server/printer_service.rs` makes a request, blocks and an end of
it, and the connection sends them one after the other. The client (`src/client/io_loop.rs`) takes
them into a job that writes to memory, which stands in one list with the jobs of the files it
receives. A job is found in this list by its id. The ids of the print jobs are counted by the host
and those of the other jobs by the client.

What has come in is printed at once if the user has allowed that. Otherwise it is stored
(`store_print_job`) for a dialog, and in this program nothing calls `take_print_job`.

`send_printer_data` sends all messages of a print job before the connection does anything else, and
the stream keeps their order. So other messages of the host come before or after them, while the
user of the client may do something in between.
-/

set_option autoImplicit false

namespace HopToDesk.Transfer

open Kit UnixPath

structure PrintJob where
  id : Int
  data : Content
deriving DecidableEq, Repr

/-- `FileTransferSendRequest`, as far as the client reads it. -/
structure SendRequest where
  id : Int
  fileNum : Int
  fileType : JobType
deriving DecidableEq, Repr

/-- What the host sends about jobs that the client writes. Where a digest comes in, `union` is what
the client answers at once, if it does not ask its user. -/
inductive FileMessage
  | send (request : SendRequest)
  | block (block : FileTransferBlock)
  | done (id fileNum : Int)
  | error (id fileNum : Int) (err : String)
  | dir (id : Int) (files : List FileEntry)
  | digest (id fileNum : Int) (fileSize lastModified : Nat) (union : Option TransferJob.Confirm)
deriving Repr

namespace PrintJob

/-- `BLOCK_SIZE`. -/
def blockSize : Nat := 65536

/-- The messages of the blocks, and of the end. -/
def body (job : PrintJob) : List FileMessage :=
  (job.data.toChunks blockSize).map (fun chunk =>
    .block { id := job.id, fileNum := 0, data := chunk, compressed := false }) ++ [.done job.id 0]

/-- `create_print_job_messages`. -/
def messages (job : PrintJob) : List FileMessage :=
  .send { id := job.id, fileNum := 0, fileType := .printer } :: job.body

end PrintJob

/-- `get_buf_data`. -/
def TransferJob.bufData (self : TransferJob) : Option Content :=
  match self.dataStream with
  | some (.bufStream data _) => some data
  | _ => none

/-- The client: its jobs that write, the disk, what it has given to the printer, and what
`PENDING_PRINT_JOBS` holds, which is a map and here the list of its entries. -/
structure PrintClient where
  writeJobs : List TransferJob
  disk : Disk
  /-- `OPTION_PRINTER_ALLOW_AUTO_PRINT` is set, and so is a printer. -/
  autoPrint : Bool
  printed : List Content
  pending : List (Int × Content)

namespace PrintClient

variable (z : Zstd) (self : PrintClient)

/-- `store_print_job`. -/
def storePrintJob (id : Int) (data : Content) : PrintClient :=
  { self with pending := self.pending.filter (fun entry => entry.1 ≠ id) ++ [(id, data)] }

/-- What becomes of the data of a print job that has come to its end. -/
def handOver (id : Int) (data : Content) : PrintClient :=
  if self.autoPrint then { self with printed := self.printed ++ [data] }
  else self.storePrintJob id data

/-- `FileResponse::Done`. -/
def onDone (id : Int) : PrintClient :=
  match removeJob id self.writeJobs with
  | (none, _) => self
  | (some job, writeJobs) =>
    let self := { self with writeJobs, disk := job.modifyTime self.disk }
    match job.jobType, job.jobError, job.bufData with
    | .printer, none, some data => self.handOver id data
    | _, _, _ => self

/-- A message of the host. `none` is a panic. -/
def handle : FileMessage → Option PrintClient
  | .send request =>
    match request.fileType with
    | .printer =>
      let job := TransferJob.new request.id .printer (.memoryCursor []) request.fileNum [] false
      some { self with writeJobs := self.writeJobs ++ [job] }
    | .generic => some self
  | .block block =>
    match getJob block.id self.writeJobs with
    | some job =>
      let (_, job, disk) := job.write z block self.disk
      some { self with writeJobs := setJob block.id job self.writeJobs, disk }
    | none => some self
  | .done id _ => some (self.onDone id)
  | .error id _ _ => some { self with writeJobs := (removeJob id self.writeJobs).2 }
  | .dir id files =>
    match getJob id self.writeJobs with
    | some job =>
      let (job, disk) := job.setFiles files self.disk
      some { self with writeJobs := setJob id job self.writeJobs, disk }
    | none => some self
  | .digest id fileNum fileSize lastModified union =>
    match getJob id self.writeJobs with
    | some job =>
      match job.files[asUsize fileNum]?, job.dataSource with
      | some _, .filePath _ =>
        ((job.setDigest fileSize lastModified).confirm fileNum union self.disk).map
          fun (job, disk) => { self with writeJobs := setJob id job self.writeJobs, disk }
      | _, _ => some self
    | none => some self

/-- What the user of the client does to the jobs that write: `SendFiles` and `AddJob`, `ResumeJob`,
`SetConfirmOverrideFile`, and `CancelJob`. -/
inductive UserAction
  | sendFiles (id : Int) (jobType : JobType) (target : PathStr) (fileNum : Int)
      (overwriteDetection isLastJob direct : Bool)
  | resumeJob (id : Int)
  | setConfirmOverrideFile (id fileNum : Int) (needOverride remember : Bool)
  | cancelJob (id : Int)
deriving DecidableEq, Repr

/-- `handle_msg_from_ui`. `none` is a panic. -/
def handleUser : UserAction → Option PrintClient
  | .sendFiles id jobType target fileNum overwriteDetection isLastJob direct =>
    let job := TransferJob.new id jobType (.filePath target) fileNum [] overwriteDetection
    some { self with writeJobs := self.writeJobs ++ [{ job with isLastJob, direct }] }
  | .resumeJob id =>
    match getJob id self.writeJobs with
    | some job =>
      let job := { job with isLastJob := false, isResume := true }
      some { self with writeJobs := setJob id job self.writeJobs }
    | none => some self
  | .setConfirmOverrideFile id fileNum needOverride remember =>
    match getJob id self.writeJobs with
    | some job =>
      let job :=
        if remember then { job with defaultOverwriteStrategy := some needOverride } else job
      (job.confirm fileNum (some (if needOverride then .offsetBlk 0 else .skip true))
        self.disk).map fun (job, disk) =>
          { self with writeJobs := setJob id job self.writeJobs, disk }
    | none => some self
  | .cancelJob id =>
    match removeJob id self.writeJobs with
    | (some job, writeJobs) =>
      some { self with writeJobs, disk := job.removeDownloadFile self.disk }
    | (none, _) => some self

end PrintClient

/-! ## Print jobs coming in -/

/-- The print job whose messages are coming in, with what has come of its data, and the messages
that are still to come. -/
structure Incoming where
  job : PrintJob
  taken : Content
  rest : List FileMessage

/-- The client, with what is coming in. `complete` are the print jobs that have come in whole and
were not empty, each with whether it was to be printed at once. -/
structure Printing where
  client : PrintClient
  coming : Option Incoming
  complete : List (PrintJob × Bool)

namespace Printing

inductive Event
  /-- The first message of a print job comes in. -/
  | print (job : PrintJob)
  /-- The next message of it does. -/
  | take
  /-- Another message does. -/
  | message (m : FileMessage)
  | user (action : PrintClient.UserAction)
  | setAutoPrint (autoPrint : Bool)
  /-- The connection is lost, and there is another, which begins without jobs. -/
  | reconnect

/-- What a message brings of the data of a print job. -/
def bytes : FileMessage → Content
  | .block block => block.data
  | _ => []

/-- The print job has come to its end. -/
def finish (job : PrintJob) (s : Printing) : Printing :=
  { s with
    coming := none
    complete := if job.data = [] then s.complete
      else s.complete ++ [(job, s.client.autoPrint)] }

/-- The messages of a print job come in one after the other, without others of the host. -/
def next (z : Zstd) (s : Printing) : Event → Option Printing
  | .print job =>
    match s.coming, job.messages with
    | none, m :: rest =>
      (s.client.handle z m).map fun client => { s with client, coming := some ⟨job, [], rest⟩ }
    | _, _ => none
  | .take =>
    match s.coming with
    | some ⟨job, taken, m :: rest⟩ =>
      (s.client.handle z m).map fun client =>
        if rest = [] then { finish job s with client }
        else { s with client, coming := some ⟨job, taken ++ bytes m, rest⟩ }
    | _ => none
  | .message m =>
    match s.coming, m with
    | some _, _ => none
    | none, .send { fileType := .printer, .. } => none
    | none, m => (s.client.handle z m).map fun client => { s with client }
  | .user action => (s.client.handleUser action).map fun client => { s with client }
  | .setAutoPrint autoPrint => some { s with client := { s.client with autoPrint } }
  | .reconnect => some { s with client := { s.client with writeJobs := [] }, coming := none }

/-- The client has started. -/
def Fresh (s : Printing) : Prop :=
  s.client.writeJobs = [] ∧ s.client.printed = [] ∧ s.client.pending = [] ∧
    s.coming = none ∧ s.complete = []

/-- Runs of a client. -/
def system (z : Zstd) : System Printing Event := .stepping Fresh (next z)

end Printing

end HopToDesk.Transfer
