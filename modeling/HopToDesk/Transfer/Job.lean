import HopToDesk.Kit.Disk

/-!
# Transfer jobs

`TransferJob` of `libs/hbb_common/src/fs.rs`, on the side that writes and on the side that reads.
A job has a list of files and a number that says which of them it is at. A name that ends in a slash
stands for an empty directory. While a file comes in it is kept under its name with `.download`
behind it, with a `.digest` beside it, and it gets its own name (`modify_time`) when the first block
of another file arrives, or when the job is done.

`zstd` is a library and a parameter. A `file_num` is an `i32` in the source and an integer here; no
list is so long that it matters. What a job keeps for the log and the progress display only is left
out, as are flushing and syncing, which move no content here.
-/

set_option autoImplicit false

namespace HopToDesk.Transfer

open Kit UnixPath

inductive JobType
  | generic
  | printer
deriving DecidableEq, Repr

structure FileEntry where
  name : PathStr
  size : Nat
  modifiedTime : Nat
deriving DecidableEq, Repr

inductive DataSource
  | filePath (p : PathStr)
  | memoryCursor (data : Content)
deriving DecidableEq, Repr

/-- `DataStream`: an open file, or bytes in memory with a position. -/
inductive DataStream
  | fileStream (h : Handle)
  | bufStream (data : Content) (pos : Nat)
deriving DecidableEq, Repr

structure FileDigest where
  size : Nat
  modified : Nat
deriving DecidableEq, Repr

/-- An error of the disk, or one with a text of its own. -/
inductive JobError
  | disk (err : DiskError)
  | text (msg : String)
deriving DecidableEq, Repr

structure FileTransferBlock where
  id : Int
  fileNum : Int
  data : Content
  compressed : Bool
deriving DecidableEq, Repr

structure FileTransferDigest where
  id : Int
  fileNum : Int
  lastModified : Nat
  fileSize : Nat
  isUpload : Bool
  isIdentical : Bool
  transferredSize : Nat
  isResume : Bool
deriving DecidableEq, Repr

/-- `zstd`: both directions may fail. -/
structure Zstd where
  compress : Content → Option Content
  decodeAll : Content → Option Content

/-- `compress`, which gives an empty vector on failure. -/
def Zstd.compressOrEmpty (z : Zstd) (data : Content) : Content := (z.compress data).getD []

/-- `decompress`. -/
def Zstd.decompress (z : Zstd) (data : Content) : Content := (z.decodeAll data).getD []

structure TransferJob where
  id : Int
  jobType : JobType
  dataSource : DataSource
  fileNum : Int
  isLastJob : Bool
  isResume : Bool
  files : List FileEntry
  dataStream : Option DataStream
  finishedSize : Nat
  transferred : Nat
  enableOverwriteDetection : Bool
  fileConfirmed : Bool
  fileSkipped : Bool
  fileIsWaiting : Bool
  defaultOverwriteStrategy : Option Bool
  digest : FileDigest
  direct : Bool
  fileError : Option JobError
deriving DecidableEq, Repr

/-- `n as usize`. -/
def asUsize (n : Int) : Nat := if n < 0 then (n + 2 ^ 64).toNat else n.toNat

@[simp]
theorem asUsize_natCast (n : Nat) : asUsize (n : Int) = n := by simp [asUsize]

def downloadSuffix : PathStr := ['.', 'd', 'o', 'w', 'n', 'l', 'o', 'a', 'd']

def digestSuffix : PathStr := ['.', 'd', 'i', 'g', 'e', 's', 't']

/-- `name.ends_with('/')`: the entry of an empty directory. -/
def isMarker (name : PathStr) : Bool := name.getLast? = some '/'

/-- `get_ext`. -/
def getExt (name : PathStr) : PathStr :=
  if '.' ∈ name then (name.reverse.takeWhile (· ≠ '.')).reverse else []

/-- `is_compressed_file`. -/
def isCompressedFile (name : PathStr) : Bool :=
  [['x', 'z'], ['g', 'z'], ['z', 'i', 'p'], ['7', 'z'], ['r', 'a', 'r'], ['b', 'z', '2'],
    ['t', 'g', 'z'], ['p', 'n', 'g'], ['j', 'p', 'g']].contains (getExt name)

/-- `json!(digest).to_string()`. -/
def FileDigest.json (digest : FileDigest) : Content :=
  ("\x7b\"size\":".toList ++ Nat.toDigits 10 digest.size ++ ",\"modified\":".toList ++
    Nat.toDigits 10 digest.modified ++ "\x7d".toList).map fun c => UInt8.ofNat c.toNat

namespace TransferJob

/-- `new_write` and `new_read`, as far as they agree. -/
def new (id : Int) (jobType : JobType) (dataSource : DataSource) (fileNum : Int)
    (files : List FileEntry) (enableOverwriteDetection : Bool) : TransferJob :=
  { id, jobType, dataSource, fileNum, isLastJob := false, isResume := false, files,
    dataStream := none, finishedSize := 0, transferred := 0, enableOverwriteDetection,
    fileConfirmed := false, fileSkipped := false, fileIsWaiting := false,
    defaultOverwriteStrategy := none, digest := ⟨0, 0⟩, direct := false, fileError := none }

/-- `TransferJob::join`. -/
def join (p name : PathStr) : PathStr := if name = [] then p else UnixPath.join p name

/-- `std::fs::create_dir_all(..).ok()` on every entry that stands for a directory. -/
def createMarkers (p : PathStr) (names : List PathStr) (d : Disk) : Disk :=
  names.foldl (fun d name =>
    if isMarker name then (d.createDirAll (parse (join p name))).2 else d) d

def setFiles (self : TransferJob) (files : List FileEntry) (d : Disk) : TransferJob × Disk :=
  let d := match self.dataSource with
    | .filePath p => createMarkers p (files.map (·.name)) d
    | .memoryCursor _ => d
  ({ self with files }, d)

def setDigest (self : TransferJob) (size modified : Nat) : TransferJob :=
  { self with digest := ⟨size, modified⟩ }

/-- The destination and the entry the job is at, when it is a job that finishes files. -/
def current (self : TransferJob) : Option (PathStr × FileEntry) :=
  match self.jobType, self.dataSource with
  | .generic, .filePath p => (self.files[asUsize self.fileNum]?).map (p, ·)
  | _, _ => none

/-- `modify_time`: give the file the job is at its own name. -/
def modifyTime (self : TransferJob) (d : Disk) : Disk :=
  match self.current with
  | none => d
  | some (p, entry) =>
    let path := join p entry.name
    let downloadPath := path ++ downloadSuffix
    let digestPath := path ++ digestSuffix
    let d := d.orSame (d.removeFile digestPath)
    let d := d.orSame (d.rename downloadPath path)
    d.orSame (d.setFileMtime path)

def removeDownloadFile (self : TransferJob) (d : Disk) : Disk :=
  match self.current with
  | none => d
  | some (p, entry) =>
    let path := join p entry.name
    let downloadPath := path ++ downloadSuffix
    let digestPath := path ++ digestSuffix
    let d := d.orSame (d.removeFile downloadPath)
    d.orSame (d.removeFile digestPath)

/-- The paths a file is received under: its own, and that of its digest when it has one. -/
def receivePaths (self : TransferJob) (p : PathStr) (entry : FileEntry) (d : Disk) :
    PathStr × Option PathStr × Disk :=
  match self.jobType with
  | .printer => (p, none, d)
  | .generic =>
    let path := join p entry.name
    let d := match UnixPath.parent (parse path) with
      | some pp => (d.createDirAll pp).2
      | none => d
    (path ++ downloadSuffix, some (path ++ digestSuffix), d)

/-- `if Path::new(dp).exists() { remove_file(dp)? }`. -/
def removeDigest (d : Disk) : Option PathStr → Except DiskError Disk
  | some dp => if d.pathExists dp then d.removeFile dp else .ok d
  | none => .ok d

/-- The branch of `write` that turns to another file: finish the one before, and open this one. -/
def startFile (self : TransferJob) (p : PathStr) (fileNum : Int) (entry : FileEntry) (d : Disk) :
    Except JobError Unit × TransferJob × Disk :=
  let d := self.modifyTime d
  let self := { self with fileNum }
  let (path, digestPath, d) := self.receivePaths p entry d
  match removeDigest d digestPath with
  | .error e => (.error (.disk e), self, d)
  | .ok d =>
    match d.createFile path with
    | .error e => (.error (.disk e), self, d)
    | .ok (h, d) =>
      let d := match digestPath with
        | some dp => d.orSame (d.writeFile dp self.digest.json)
        | none => d
      (.ok (), { self with dataStream := some (.fileStream h) }, d)

/-- `write_all` on the stream. -/
def writeStream (stream : DataStream) (bytes : Content) (d : Disk) :
    Except DiskError (DataStream × Disk) :=
  match stream with
  | .fileStream h =>
    match d.writeAll h bytes with
    | .ok (h, d) => .ok (.fileStream h, d)
    | .error e => .error e
  | .bufStream data pos => .ok (.bufStream (Disk.splice data pos bytes) (pos + bytes.length), d)

/-- What a block carries, once it is decompressed. -/
def payload (z : Zstd) (block : FileTransferBlock) : Content :=
  if block.compressed then z.decompress block.data else block.data

/-- The end of `write`: the block's content goes to the stream. -/
def writeData (z : Zstd) (self : TransferJob) (block : FileTransferBlock) (d : Disk) :
    Except JobError Unit × TransferJob × Disk :=
  match self.dataStream with
  | none => (.error (.text "data stream is None"), self, d)
  | some stream =>
    let bytes := payload z block
    match writeStream stream bytes d with
    | .error e => (.error (.disk e), self, d)
    | .ok (stream, d) =>
      (.ok (), { self with
        dataStream := some stream
        finishedSize := self.finishedSize + bytes.length
        transferred := self.transferred + block.data.length }, d)

/-- `write`: the outcome, with the job and the disk as the call leaves them. -/
def write (z : Zstd) (self : TransferJob) (block : FileTransferBlock) (d : Disk) :
    Except JobError Unit × TransferJob × Disk :=
  if block.id ≠ self.id then (.error (.text "Wrong id"), self, d)
  else
    match self.dataSource with
    | .filePath p =>
      match self.files[asUsize block.fileNum]? with
      | none => (.error (.text "Wrong file number"), self, d)
      | some entry =>
        if isMarker entry.name then
          (.ok (), { self with fileNum := block.fileNum },
            (d.createDirAll (parse (join p entry.name))).2)
        else if asUsize block.fileNum ≠ asUsize self.fileNum ∨ self.dataStream.isNone then
          match self.startFile p block.fileNum entry d with
          | (.error e, self, d) => (.error e, self, d)
          | (.ok (), self, d) => self.writeData z block d
        else self.writeData z block d
    | .memoryCursor c =>
      match self.dataStream with
      | some _ => self.writeData z block d
      | none => { self with dataStream := some (.bufStream c 0) }.writeData z block d

/-! ## The reading side -/

/-- What the outside does in one call of `read` and the disk does not say: whether opening the file
or reading from it fails, and what its metadata are, or why its digest cannot be sent. -/
structure Io where
  openFails : Option JobError
  digest : Except JobError FileDigest
  readFails : Option JobError

/-- Nothing fails. -/
def Io.fine (digest : FileDigest) : Io := ⟨none, .ok digest, none⟩

/-- A call of the disk that may fail for another reason. -/
def orFails {α : Type} : Option JobError → Except DiskError α → Except JobError α
  | some err, _ => .error err
  | none, .error e => .error (.disk e)
  | none, .ok x => .ok x

/-- What a call of `read` comes to, with the digest it has sent, if it has: `Ok(None)` is the first
or the second. -/
inductive Yield
  | nothing
  | digest (digest : FileTransferDigest)
  | block (block : FileTransferBlock)
deriving DecidableEq, Repr

/-- `self.file_num += 1`, and nothing is confirmed or waited for. -/
def nextFile (self : TransferJob) : TransferJob :=
  { self with fileNum := self.fileNum + 1, fileConfirmed := false, fileIsWaiting := false }

/-- `read` on the stream. -/
def readStream (stream : DataStream) (n : Nat) (d : Disk) :
    Except DiskError (Content × DataStream) :=
  match stream with
  | .fileStream h =>
    match d.read h n with
    | .ok (bytes, h) => .ok (bytes, .fileStream h)
    | .error e => .error e
  | .bufStream data pos =>
    let bytes := (data.drop pos).take n
    .ok (bytes, .bufStream data (pos + bytes.length))

/-- The loop of `read`: fill the buffer until it is full or a read gives nothing. Each turn but the
last gives at least a byte, so the buffer's size and one more bound the turns. -/
def fill (d : Disk) (bufSize : Nat) :
    Nat → DataStream → Content → Except DiskError (Content × DataStream)
  | 0, stream, buf => .ok (buf, stream)
  | turns + 1, stream, buf =>
    match readStream stream (bufSize - buf.length) d with
    | .error e => .error e
    | .ok (bytes, stream) =>
      let buf := buf ++ bytes
      if bytes.length = 0 ∨ buf.length = bufSize then .ok (buf, stream)
      else fill d bufSize turns stream buf

def bufSize (self : TransferJob) : Nat := if self.direct then 512 * 1024 else 64 * 1024

/-- The data of a block, compressed when that saves enough. -/
def pack (z : Zstd) (self : TransferJob) (name : PathStr) (buf : Content) : Content × Bool :=
  match self.dataSource with
  | .filePath _ =>
    if !isCompressedFile name && 16384 < buf.length then
      let tmp := z.compressOrEmpty buf
      if tmp.length + tmp.length / 5 < buf.length then (tmp, true) else (buf, false)
    else (buf, false)
  | .memoryCursor _ => (buf, false)

/-- The end of `read`, with an open stream and the file confirmed. -/
def readBlock (z : Zstd) (self : TransferJob) (name : PathStr) (stream : DataStream) (d : Disk)
    (io : Io) : Except JobError Yield × TransferJob × Disk :=
  let fileNum := self.fileNum
  match orFails io.readFails (fill d self.bufSize (self.bufSize + 1) stream []) with
  | .error err =>
    (.error err, { self.nextFile with dataStream := none, fileError := some err }, d)
  | .ok (buf, stream) =>
    let self := { self with dataStream := some stream }
    if buf.length = 0 then
      match self.dataSource with
      | .memoryCursor _ => (.ok .nothing, { self with dataStream := none }, d)
      | .filePath _ =>
        (.ok (.block { id := self.id, fileNum, data := [], compressed := false }),
          { self.nextFile with dataStream := none }, d)
    else
      let (data, compressed) := self.pack z name buf
      (.ok (.block { id := self.id, fileNum, data, compressed }),
        { self with
          finishedSize := self.finishedSize + buf.length
          transferred := self.transferred + data.length }, d)

/-- `send_current_digest`. -/
def currentDigest (self : TransferJob) (stream : DataStream) (io : Io) :
    Except JobError FileTransferDigest :=
  match stream with
  | .bufStream _ _ => .error (.text "No need to send digest for buf stream")
  | .fileStream _ =>
    match io.digest with
    | .error err => .error err
    | .ok digest =>
      .ok { id := self.id, fileNum := self.fileNum, lastModified := digest.modified,
            fileSize := digest.size, isUpload := false, isIdentical := false,
            transferredSize := 0, isResume := self.isResume }

/-- The middle of `read`: a generic job asks for each file's confirmation before it sends it. -/
def readConfirmed (z : Zstd) (self : TransferJob) (name : PathStr) (stream : DataStream) (d : Disk)
    (io : Io) : Except JobError Yield × TransferJob × Disk :=
  if self.jobType = .generic ∧ self.enableOverwriteDetection ∧ ¬ self.fileConfirmed then
    if self.fileIsWaiting then (.ok .nothing, self, d)
    else
      match self.currentDigest stream io with
      | .error err => (.error err, self, d)
      | .ok digest => (.ok (.digest digest), { self with fileIsWaiting := true }, d)
  else self.readBlock z name stream d io

/-- `read`. -/
def read (z : Zstd) (self : TransferJob) (d : Disk) (io : Io) :
    Except JobError Yield × TransferJob × Disk :=
  match self.dataSource with
  | .filePath p =>
    match self.files[asUsize self.fileNum]? with
    | none => (.ok .nothing, { self with dataStream := none }, d)
    | some entry =>
      if isMarker entry.name then
        (.ok (.block { id := self.id, fileNum := self.fileNum, data := [], compressed := false }),
          self.nextFile, d)
      else
        match self.dataStream with
        | some stream => self.readConfirmed z entry.name stream d io
        | none =>
          match orFails io.openFails (d.openRead (join p entry.name)) with
          | .ok (h, d) =>
            { self with
              dataStream := some (.fileStream h)
              fileConfirmed := false
              fileIsWaiting := false }.readConfirmed z entry.name (.fileStream h) d io
          | .error err => (.error err, { self.nextFile with fileError := some err }, d)
  | .memoryCursor c =>
    match self.dataStream with
    | some stream => self.readConfirmed z [] stream d io
    | none =>
      { self with
        dataSource := .memoryCursor []
        dataStream := some (.bufStream c 0) }.readConfirmed z [] (.bufStream c 0) d io

/-! ## Confirmation -/

/-- The `union` of a `FileTransferSendConfirmRequest`. -/
inductive Confirm
  | skip (s : Bool)
  | offsetBlk (offset : Nat)
deriving DecidableEq, Repr

def setFileConfirmed (self : TransferJob) (fileConfirmed : Bool) : TransferJob :=
  { self with fileConfirmed, fileSkipped := false }

def setFileSkipped (self : TransferJob) : TransferJob :=
  { { self with dataStream := none }.setFileConfirmed false with
    fileIsWaiting := false
    fileNum := self.fileNum + 1
    fileSkipped := true }

/-- `job_skipped`: the last file was skipped, and it is the only one. -/
def jobSkipped (self : TransferJob) : Bool := self.fileSkipped && self.files.length == 1

/-- `job_completed`, asked when `read` has returned `Ok(None)`. -/
def jobCompleted (self : TransferJob) : Bool :=
  !self.enableOverwriteDetection || (!self.fileConfirmed && !self.fileIsWaiting)

/-- `job_error`. -/
def jobError (self : TransferJob) : Option JobError :=
  if self.jobSkipped then some (.text "skipped") else self.fileError

/-- `set_stream_offset`. `none` is the panic of a file number that is out of range. -/
def setStreamOffset (self : TransferJob) (fileNum : Nat) (offset : Nat) (d : Disk) :
    Option (TransferJob × Disk) :=
  match self.dataSource with
  | .memoryCursor _ => some (self, d)
  | .filePath p =>
    match self.files[fileNum]? with
    | none => none
    | some entry =>
      let filePath := join p entry.name
      let downloadPath := filePath ++ downloadSuffix
      let digestPath := filePath ++ digestSuffix
      let opened :=
        if d.pathExists downloadPath && d.pathExists digestPath then d.openWrite downloadPath
        else if d.pathExists filePath then d.openRead filePath
        else .error .notFound
      match opened with
      | .error _ => some (self, d)
      | .ok (h, d) =>
        some ({ self with
          dataStream := some (.fileStream { h with offset })
          transferred := self.transferred + offset
          finishedSize := self.finishedSize + offset }, d)

/-- `confirm`, with the file number the request names. -/
def confirm (self : TransferJob) (fileNum : Int) (union : Option Confirm) (d : Disk) :
    Option (TransferJob × Disk) :=
  if self.fileNum ≠ fileNum then some (self, d)
  else
    match union with
    | some (.skip true) => some (self.setFileSkipped, d)
    | some (.skip false) => some (self.setFileConfirmed true, d)
    | some (.offsetBlk offset) =>
      let self := self.setFileConfirmed true
      if 0 < offset then self.setStreamOffset (asUsize fileNum) offset d else some (self, d)
    | none => some (self, d)

end TransferJob

end HopToDesk.Transfer
