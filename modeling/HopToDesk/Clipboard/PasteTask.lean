import HopToDesk.Clipboard.FileContents
import HopToDesk.Kit.Disk
import HopToDesk.Kit.FileName
import HopToDesk.Kit.System

/-!
# The paste task

On macOS a paste asks the peer for the files of its list one after the other and writes them below
the directory that was pasted into. A file is downloaded under a name of its own and renamed when it
is complete; both names are searched for with a number when they are taken. The names come from the
peer and are joined to the directory as they are.

The worker and the calls take the task's lock, so every call, answer and timeout is one step. The
buffer of the writer is not kept: what is written is in the file at once. Setting times and extended
attributes are both `setMtime` accesses of the disk.
-/

set_option autoImplicit false

namespace HopToDesk.Clipboard.Paste

open Kit UnixPath

def recvRetryTimes : Nat := 3

/-- `DOWNLOAD_EXTENSION`, behind a dot. -/
def downloadSuffix : PathStr := ['.', 'r', 'd', 'd', 'o', 'w', 'n', 'l', 'o', 'a', 'd']

def blockSize : Nat := 4 * 1024 * 1024

inductive FileType
  | file
  | directory
  | symlink
deriving DecidableEq

structure FileDescription where
  connId : Int32
  name : PathStr
  kind : FileType
  size : Nat
deriving DecidableEq

structure FileContentsResponse where
  connId : Int32
  msgFlags : Int32
  streamId : Int32
  requestedData : List UInt8

inductive IoError
  | disk (e : DiskError)
  /-- `io::Error::new`, of the kind `NotFound`. -/
  | notFound (message : String)

inductive CliprdrError
  | invalidRequest (description : String)
  | commonError (description : String)
  | fileError (path : PathStr) (err : IoError)

/-- `PasteTaskProgress`, with the time of the last request left to the timeouts. -/
structure PasteTaskProgress where
  listIndex : Int
  offset : Nat
  totalSize : Nat
  currentSize : Nat
  downloadFileIndex : Int
  downloadFileSize : Nat
  downloadFilePath : PathStr
  downloadFileCurrentSize : Nat
  fileHandle : Option Kit.Handle
  error : Option CliprdrError
  isCanceled : Bool

structure PasteTaskHandle where
  progress : PasteTaskProgress
  targetDir : PathStr
  files : List FileDescription

/-- `files.get(i as usize)`. -/
def fileAt (files : List FileDescription) (i : Int) : Option FileDescription :=
  if i < 0 then none else files[i.toNat]?

/-! ## Names -/

/-- The `i`-th name to try when `path` is taken. -/
def candidate (path : PathStr) (type : FileType) (i : Nat) : Option PathStr :=
  match type with
  | .file =>
    match extension path with
    | some ext =>
      some (withFileName path
        ((fileStem path).getD [] ++ '-' :: (Nat.toDigits 10 i ++ '.' :: ext)))
    | none => some (path ++ ' ' :: '(' :: (Nat.toDigits 10 i ++ [')']))
  | .directory => some (path ++ ' ' :: '(' :: (Nat.toDigits 10 i ++ [')']))
  | .symlink => none

/-- The numbers are those of `1..9999999`. -/
def getFirstFilename (d : Disk) (path : PathStr) (type : FileType) : Option PathStr :=
  if d.pathExists path then
    (List.range' 1 9999998).findSome? fun i =>
      (candidate path type i).filter fun newPath => !d.pathExists newPath
  else some path

def getNewFilename (d : Disk) (targetDir : PathStr) (file : FileDescription) : Option PathStr :=
  let renameToPath := join targetDir file.name
  if d.pathExists renameToPath then getFirstFilename d renameToPath file.kind
  else some renameToPath

/-- The text of a parsed path. -/
def pathText (p : Parsed) : PathStr :=
  let names := p.comps.map fun
    | .up => ['.', '.']
    | .name n => n
  (if p.absolute then ['/'] else []) ++ ofPieces names

/-! ## Times and attributes -/

/-- `xattr::set` and `xattr::remove`. An empty path names nothing. -/
def setXattr (d : Disk) (path : PathStr) : Disk :=
  if path = [] then d else d.orSame (d.setFileMtime path)

/-- `set_times` of an open file. -/
def setTimes (d : Disk) (f : Kit.Handle) : Disk :=
  match d.placeOf f.ino with
  | some q => d.note (.setMtime q)
  | none => d

/-! ## A task -/

namespace PasteTaskHandle

variable (t : PasteTaskHandle) (d : Disk)

def isFinished : Bool :=
  t.progress.isCanceled || t.progress.error.isSome ||
    decide ((t.files.length : Int) ≤ t.progress.listIndex)

def onCancelled : PasteTaskHandle × Disk :=
  ({ t with progress := { t.progress with fileHandle := none } },
    d.orSame (d.removeFile t.progress.downloadFilePath))

def onError (error : CliprdrError) : PasteTaskHandle × Disk :=
  { t with progress := { t.progress with error := some error } }.onCancelled d

/-- The rename at the end of `on_done`. -/
def renameDownload (renameToPath : PathStr) : PasteTaskHandle × Disk :=
  let d :=
    match d.rename t.progress.downloadFilePath renameToPath with
    | .ok d => d.orSame (d.setFileMtime renameToPath)
    | .error _ => d
  ({ t with progress := { t.progress with downloadFilePath := [], downloadFileIndex := -1 } }, d)

def onDone : PasteTaskHandle × Disk :=
  let path := t.progress.downloadFilePath
  let d := setXattr (setXattr d path) path
  match t.progress.fileHandle with
  | none => (t, d)
  | some _ =>
    if t.progress.downloadFileIndex = -1 then (t, d)
    else
      let t := { t with progress := { t.progress with fileHandle := none } }
      match fileAt t.files t.progress.downloadFileIndex with
      | none => (t, d)
      | some file =>
        match getNewFilename d t.targetDir file with
        | none => (t, d)
        | some renameToPath => t.renameDownload d renameToPath

def onFinished : PasteTaskHandle × Disk :=
  let (t, d) := if t.progress.error.isSome then t.onCancelled d else t.onDone d
  if t.progress.currentSize ≠ t.progress.totalSize then
    ({ t with progress := { t.progress with
        error := some (.invalidRequest "Failed to download all files") } }, d)
  else (t, d)

/-- The directory a file is downloaded in is made when it is not there. -/
def makeParent (dir : Parsed) : Except DiskError Unit × Disk :=
  if (d.get (resolve d.cwd dir)).isSome then (.ok (), d) else d.createDirAll dir

/-- The file is created, and downloaded from now on. -/
def createDownload (file : FileDescription) (path : PathStr) : PasteTaskHandle × Disk :=
  match d.createFile path with
  | .ok (f, d) =>
    ({ t with progress := { t.progress with
        downloadFileIndex := t.progress.listIndex
        downloadFileSize := file.size
        downloadFilePath := path
        downloadFileCurrentSize := 0
        fileHandle := some f } }, setXattr (setTimes d f) path)
  | .error e =>
    ({ t with progress := { t.progress with error := some (.fileError path (.disk e)) } }, d)

def openNewWriter : Except CliprdrError Unit × PasteTaskHandle × Disk :=
  match fileAt t.files t.progress.listIndex with
  | none =>
    (.error (.invalidRequest
      s!"Invalid file index: {t.progress.listIndex}, file count: {t.files.length}"), t, d)
  | some file =>
    let originalFilePath := join t.targetDir file.name
    match getFirstFilename d (originalFilePath ++ downloadSuffix) file.kind with
    | none =>
      (.error (.commonError
        s!"Failed to get download file path: {String.ofList originalFilePath}"), t, d)
    | some path =>
      match parent (parse path) with
      | none =>
        (.error (.commonError
          s!"Failed to get parent of the download file path: {String.ofList originalFilePath}"),
          t, d)
      | some dir =>
        match makeParent d dir with
        | (.error e, d) => (.error (.fileError (pathText dir) (.disk e)), t, d)
        | (.ok (), d) => (.ok (), t.createDownload d file path)

/-- An empty file of the list is created in place. -/
def createEmpty (file : FileDescription) : Disk :=
  match getNewFilename d t.targetDir file with
  | none => d
  | some newFilePath =>
    match d.createFile newFilePath with
    | .ok (f, d) => setTimes d f
    | .error _ => d

def createDirectory (file : FileDescription) : Disk :=
  let path := join t.targetDir file.name
  if d.pathExists path then d else (d.createDirAll (parse path)).2

/-- The loop of `update_next`, from the `i`-th file on, up to one that is to be downloaded. -/
def nextFile (i : Nat) (d : Disk) :
    List FileDescription → Except CliprdrError Unit × PasteTaskHandle × Disk
  | [] => (.ok (), t, d)
  | file :: files =>
    match file.kind with
    | .file =>
      if file.size = 0 then nextFile (i + 1) (t.createEmpty d file) files
      else openNewWriter
        { t with progress := { t.progress with listIndex := i, offset := 0 } } d
    | .directory => nextFile (i + 1) (t.createDirectory d file) files
    | .symlink => nextFile (i + 1) d files

/-- The end of `update_next`: without an open file the list is done. -/
def endList : PasteTaskHandle :=
  if t.progress.fileHandle.isNone then
    { t with progress := { t.progress with
        listIndex := t.files.length
        offset := 0
        downloadFileSize := 0
        downloadFileCurrentSize := 0 } }
  else t

/-- What follows the loop, unless it has failed. -/
def afterLoop : Except CliprdrError Unit × PasteTaskHandle × Disk →
    Except CliprdrError Unit × PasteTaskHandle × Disk
  | (.error e, t, d) => (.error e, t, d)
  | (.ok (), t, d) => (.ok (), t.endList, d)

def updateNext (size : Nat) : Except CliprdrError Unit × PasteTaskHandle × Disk :=
  if t.isFinished then (.ok (), t, d)
  else
    let t := { t with progress := { t.progress with
      currentSize := (t.progress.currentSize + size) % 2 ^ 64 } }
    let isStart := decide (t.progress.listIndex = -1)
    if isStart || decide (t.progress.downloadFileSize ≤ t.progress.offset + size) then
      let (t, d) := if isStart then (t, d) else t.onDone d
      let i := (t.progress.listIndex + 1).toNat
      afterLoop (t.nextFile i d (t.files.drop i))
    else
      let t := { t with progress := { t.progress with
        offset := t.progress.offset + size
        downloadFileCurrentSize := t.progress.downloadFileCurrentSize + size } }
      (.ok (), t.endList, setXattr d t.progress.downloadFilePath)

/-- `send_file_contents_request`: what is sent, and to whom. -/
def fileContentsRequest : Except CliprdrError (Option (Int32 × ClipboardFile)) :=
  if t.isFinished then .ok none
  else
    match fileAt t.files t.progress.listIndex with
    | none => .error (.invalidRequest s!"Invalid file index: {t.progress.listIndex}")
    | some file =>
      let listIndex := Int32.ofInt t.progress.listIndex
      let offset := UInt64.ofNat t.progress.offset
      .ok (some (file.connId, .fileContentsRequest listIndex listIndex 2
        offset.toUInt32.toInt32 (offset >>> 32).toUInt32.toInt32
        (Int32.ofNat (min blockSize (file.size - t.progress.offset))) false 0))

def handleFileContentsResponse (data : List UInt8) :
    Except CliprdrError Unit × PasteTaskHandle × Disk :=
  let path := t.progress.downloadFilePath
  match t.progress.fileHandle with
  | none => (.error (.fileError path (.notFound "file handle is not opened")), t, d)
  | some f =>
    match d.writeAll f data with
    | .error e => (.error (.fileError path (.disk e)), t, d)
    | .ok (f, d) =>
      { t with progress := { t.progress with fileHandle := some f } }.updateNext d data.length

end PasteTaskHandle

/-! ## The task and its worker -/

structure PasteTask where
  handle : Option PasteTaskHandle
  /-- `retry_count` of the worker. -/
  retryCount : Nat
  disk : Disk
  sent : List (Int32 × ClipboardFile)

namespace PasteTask

variable (s : PasteTask)

def isFinished : Bool :=
  match s.handle with
  | some t => t.isFinished
  | none => true

/-- The task that has begun with the files of the list. -/
def newHandle (targetDir : PathStr) (files : List FileDescription) : PasteTaskHandle where
  progress :=
    { listIndex := -1
      offset := 0
      totalSize := (files.map (·.size)).sum % 2 ^ 64
      currentSize := 0
      downloadFileIndex := -1
      downloadFileSize := 0
      downloadFilePath := []
      downloadFileCurrentSize := 0
      fileHandle := none
      error := none
      isCanceled := false }
  targetDir := targetDir
  files := files

/-- The task is stored with what it has done to the disk. -/
def store (r : PasteTaskHandle × Disk) : PasteTask := { s with handle := some r.1, disk := r.2 }

/-- A request is sent for the file the task is at. One that cannot be sent is an error. -/
def request (t : PasteTaskHandle) (d : Disk) : PasteTask :=
  match t.fileContentsRequest with
  | .ok sent => { s with handle := some t, disk := d, sent := s.sent ++ sent.toList }
  | .error e => s.store (t.onError d e)

def start (targetDir : PathStr) (files : List FileDescription) : PasteTask :=
  if s.isFinished then
    let (_, t, d) := (newHandle targetDir files).updateNext s.disk 0
    if t.isFinished then s.store (t.onFinished d) else s.request t d
  else s

def cancel : PasteTask :=
  match s.handle with
  | none => s
  | some t =>
    s.store ({ t with progress := { t.progress with isCanceled := true } }.onCancelled s.disk)

/-- What the worker does with an answer that is not ignored has been done: it asks for more, or is
finished. -/
def continue_ (t : PasteTaskHandle) (d : Disk) : PasteTask :=
  if t.isFinished then { s with retryCount := 0 }.store (t.onFinished d) else s.request t d

def onFileContents (r : FileContentsResponse) : PasteTask :=
  match s.handle with
  | none => s
  | some t =>
    if t.isFinished then s
    else if (r.streamId.toInt : Int) ≠ t.progress.listIndex then s
    else if r.msgFlags ≠ 0x01 then
      let s := { s with retryCount := s.retryCount + 1 }
      let t :=
        if recvRetryTimes < s.retryCount then
          { t with progress := { t.progress with error := some (.invalidRequest
              (s!"Failed to read file contents, stream id: {r.streamId}, " ++
                s!"msg_flags: {r.msgFlags}")) } }
        else t
      s.continue_ t s.disk
    else
      match fileAt t.files r.streamId.toInt with
      | none => s
      | some file =>
        if file.connId ≠ r.connId then s
        else
          match t.handleFileContentsResponse s.disk r.requestedData with
          | (.ok (), t, d) => s.continue_ t d
          | (.error e, t, d) =>
            let (t, d) := t.onError d e
            s.continue_ t d

/-- No answer for a while. `late` is `last_sent_time.elapsed() > RECEIVE_WAIT_TIMEOUT`. -/
def onTimeout (late : Bool) : PasteTask :=
  match s.handle with
  | none => s
  | some t =>
    if t.isFinished = false ∧ late then
      let t := { t with progress := { t.progress with
        error := some (.invalidRequest "Failed to read file contents") } }
      { s with retryCount := 0 }.store (t.onFinished s.disk)
    else s

inductive Event
  | start (targetDir : PathStr) (files : List FileDescription)
  | cancel
  | fileContents (r : FileContentsResponse)
  | timeout (late : Bool)

def step : Event → PasteTask
  | .start targetDir files => s.start targetDir files
  | .cancel => s.cancel
  | .fileContents r => s.onFileContents r
  | .timeout late => s.onTimeout late

/-- The event does not begin another paste: `start` is ignored while one is not finished. -/
def Continues : Event → Prop
  | .start _ _ => s.isFinished = false
  | _ => True

/-- One paste: what happens from its start until another one begins. -/
def pasting (targetDir : PathStr) (files : List FileDescription) : System PasteTask Event :=
  .guarded (s.start targetDir files) Continues step

end PasteTask

end HopToDesk.Clipboard.Paste
