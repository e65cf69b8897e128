import HopToDesk.Kit.MapValues
import HopToDesk.Kit.System
import HopToDesk.Transfer.ReadDir

/-!
# Jobs that delete a directory

The controlling side keeps a table of delete jobs (`remove_jobs` of `src/client/io_loop.rs`), for
directories of its own and of the peer. A job has the list of files to remove, one after the other.
With `no_confirm` set, every status under the job's id makes it ask for the next file, through the
same channel the user interface sends its wishes through.

Jobs are numbered in the order they were made, `made` keeps them as they were then, and what a job
asks for carries its number: this is for telling what was removed for which job, and nothing in
the steps depends on it. Of the write jobs only the ids and types are kept.
-/

set_option autoImplicit false

namespace HopToDesk.Transfer

open Kit UnixPath

structure RemoveJob where
  files : List FileEntry
  path : PathStr
  sep : PathStr
  isRemote : Bool
  noConfirm : Bool
  number : Nat
deriving DecidableEq

namespace RemoveJob

def new (files : List FileEntry) (path sep : PathStr) (isRemote : Bool) (number : Nat) : RemoveJob :=
  ⟨files, path, sep, isRemote, false, number⟩

/-- The path of a file of the list. -/
def filePath (job : RemoveJob) (name : PathStr) : PathStr := job.path ++ job.sep ++ name

end RemoveJob

/-- What the user interface asks for. `newJob` is `SendFiles` and `AddJob`. -/
inductive Data
  | setNoConfirm (id : Int)
  | confirmDeleteFiles (id fileNum : Int)
  | removeDirAll (id : Int) (path : PathStr) (isRemote includeHidden : Bool)
  | removeFile (id : Int) (path : PathStr) (fileNum : Int) (isRemote : Bool)
  | removeDir (id : Int) (path : PathStr)
  | createDir (id : Int) (path : PathStr) (isRemote : Bool)
  | renameFile (id : Int) (path newName : PathStr) (isRemote : Bool)
  | cancelJob (id : Int)
  | newJob (id : Int) (jobType : JobType) (isRemote : Bool)

/-- What the peer is asked for, of this. -/
inductive FileAction
  | allFiles (id : Int) (path : PathStr) (includeHidden : Bool)
  | removeFile (id : Int) (path : PathStr) (fileNum : Int)
  | removeDir (id : Int) (path : PathStr)
  | create (id : Int) (path : PathStr)
  | rename (id : Int) (path newName : PathStr)
  | cancel (id : Int)

/-- What the peer answers. -/
inductive FileResponse
  | dir (id : Int) (entries : List FileEntry)
  | done (id fileNum : Int)
  | error (id fileNum : Int) (err : String)
  | other

/-- What the user is told. The name to be confirmed is one of a job with this number. -/
inductive Told
  | jobDone (id fileNum : Int)
  | jobError (id : Int) (err : String) (fileNum : Int)
  | confirmDeleteFiles (number : Nat) (id fileNum : Int) (name : PathStr)
deriving DecidableEq

/-- A local file that was to be removed, by the user or for the job with a number. -/
structure Removal where
  path : PathStr
  fileNum : Int
  chain : Option Nat
deriving DecidableEq

/-- What the system answers: what is under the path to be listed, whether the files of a new job
can be read, the error of the operation on a file, the error of the write job that is done, and the
milliseconds since a job's status was last shown. -/
structure JobIo where
  found : Found
  newRead : Except String Unit
  error : Option String
  jobError : Option String
  elapsed : Nat

/-- `Remote`, as far as it deletes. `receiver` is the channel from the user interface. -/
structure Remote where
  peerWindows : Bool
  writeJobs : List (Int × JobType)
  removeJobs : AList fun _ : Int => RemoveJob
  receiver : List (Option Nat × Data)
  made : List RemoveJob
  removed : List Removal
  told : List Told
  sent : List FileAction

namespace Remote

def new (peerWindows : Bool) : Remote := ⟨peerWindows, [], ∅, [], [], [], [], []⟩

/-- `get_path_sep`. -/
def getPathSep (s : Remote) (isRemote : Bool) : PathStr :=
  if isRemote && s.peerWindows then ['\\'] else ['/']

def transformWindowsPath (entries : List FileEntry) : List FileEntry :=
  entries.map fun entry =>
    { entry with name := entry.name.map fun c => if c = '\\' then '/' else c }

def send (s : Remote) (chain : Option Nat) (data : Data) : Remote :=
  { s with receiver := s.receiver ++ [(chain, data)] }

def tell (s : Remote) (told : Told) : Remote := { s with told := s.told ++ [told] }

def ask (s : Remote) (action : FileAction) : Remote := { s with sent := s.sent ++ [action] }

def setRemoveJob (s : Remote) (id : Int) (job : RemoveJob) : Remote :=
  { s with removeJobs := s.removeJobs.insert id job }

def dropRemoveJob (s : Remote) (id : Int) : Remote :=
  { s with removeJobs := s.removeJobs.erase id }

/-- `remove_job`, of the write jobs. -/
def dropWriteJob (s : Remote) (id : Int) : Remote :=
  { s with writeJobs := s.writeJobs.eraseP (·.1 = id) }

def writeJob (s : Remote) (id : Int) : Option (Int × JobType) := s.writeJobs.find? (·.1 = id)

def tellStatus (s : Remote) (id fileNum : Int) : Option String → Remote
  | some err => s.tell (.jobError id err fileNum)
  | none => s.tell (.jobDone id fileNum)

/-- A status that comes while the next file is asked for is shown once in a second. -/
def handleJobStatus (s : Remote) (id fileNum : Int) (err : Option String) (elapsed : Nat) : Remote :=
  match s.removeJobs.lookup id with
  | some job =>
    if job.noConfirm then
      let next := asUsize (fileNum + 1)
      match job.files[next]? with
      | some entry =>
        let s := s.send (some job.number) (.removeFile id (job.filePath entry.name) next job.isRemote)
        if 1000 ≤ elapsed then s.tellStatus id fileNum err else s
      | none => (s.dropRemoveJob id).tellStatus id fileNum err
    else s.tellStatus id fileNum err
  | none => s.tellStatus id fileNum err

/-- A new delete job, with the files to be removed. -/
def addRemoveJob (s : Remote) (id : Int) (files : List FileEntry) (path : PathStr)
    (isRemote : Bool) : Remote :=
  let job := RemoveJob.new files path (s.getPathSep isRemote) isRemote s.made.length
  { s.setRemoveJob id job with made := s.made ++ [job] }

/-- `handle_msg_from_ui`, of what was sent for the job with a number, or by the user. -/
def handleMsgFromUi (io : JobIo) (s : Remote) (chain : Option Nat) : Data → Remote
  | .setNoConfirm id =>
    match s.removeJobs.lookup id with
    | some job => s.setRemoveJob id { job with noConfirm := true }
    | none => s
  | .confirmDeleteFiles id fileNum =>
    match s.removeJobs.lookup id with
    | some job =>
      match job.files[asUsize fileNum]? with
      | some entry => s.tell (.confirmDeleteFiles job.number id fileNum entry.name)
      | none => s
    | none => s
  | .removeDirAll id path isRemote includeHidden =>
    if isRemote then
      (s.ask (.allFiles id path includeHidden)).addRemoveJob id [] path isRemote
    else
      match getRecursiveFiles path includeHidden io.found with
      | .ok entries => s.addRemoveJob id entries path isRemote
      | .error err => s.handleJobStatus id (-1) (some err) io.elapsed
  | .removeFile id path fileNum isRemote =>
    if isRemote then s.ask (.removeFile id path fileNum)
    else
      ({ s with removed := s.removed ++ [⟨path, fileNum, chain⟩] } : Remote).handleJobStatus id
        fileNum io.error io.elapsed
  | .removeDir id path => s.ask (.removeDir id path)
  | .createDir id path isRemote =>
    if isRemote then s.ask (.create id path)
    else s.handleJobStatus id (-1) io.error io.elapsed
  | .renameFile id path newName isRemote =>
    if isRemote then s.ask (.rename id path newName)
    else s.handleJobStatus id (-1) io.error io.elapsed
  | .cancelJob id => ((s.ask (.cancel id)).dropWriteJob id).dropRemoveJob id
  | .newJob id jobType isRemote =>
    if isRemote then { s with writeJobs := s.writeJobs ++ [(id, jobType)] }
    else
      match io.newRead with
      | .ok () => s
      | .error err => s.handleJobStatus id (-1) (some err) io.elapsed

/-- What comes with the `FileResponse` messages. -/
def handleFileResponse (io : JobIo) (s : Remote) : FileResponse → Remote
  | .dir id entries =>
    let entries := if s.peerWindows then transformWindowsPath entries else entries
    match s.writeJob id with
    | some _ => s
    | none =>
      match s.removeJobs.lookup id with
      | some job => s.setRemoveJob id { job with files := entries }
      | none => s
  | .done id fileNum =>
    match s.writeJob id with
    | some (_, .printer) => s.dropWriteJob id
    | some (_, .generic) => (s.dropWriteJob id).handleJobStatus id fileNum io.jobError io.elapsed
    | none => s.handleJobStatus id fileNum none io.elapsed
  | .error id fileNum err =>
    match s.writeJob id with
    | some (_, .printer) => s.dropWriteJob id
    | _ => (s.dropWriteJob id).handleJobStatus id fileNum (some err) io.elapsed
  | .other => s

/-- The user wishes something, the loop takes up a wish, or the peer sends a message: an answer, or
a document to be printed. -/
inductive JobEvent
  | wish (data : Data)
  | take (io : JobIo)
  | response (response : FileResponse) (io : JobIo)
  | print (id : Int)

def next (s : Remote) : JobEvent → Remote
  | .wish data => s.send none data
  | .take io =>
    match s.receiver with
    | [] => s
    | (chain, data) :: rest => handleMsgFromUi io { s with receiver := rest } chain data
  | .response response io => handleFileResponse io s response
  | .print id => { s with writeJobs := s.writeJobs ++ [(id, .printer)] }

def system : System Remote JobEvent where
  init s := ∃ peerWindows, s = new peerWindows
  step s a s' := s.next a = s'

end Remote

end HopToDesk.Transfer
