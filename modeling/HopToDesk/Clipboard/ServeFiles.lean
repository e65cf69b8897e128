import HopToDesk.Kit.System
import HopToDesk.Clipboard.FileContents
import HopToDesk.Wire.FramedStream

/-!
# Serving the files of the clipboard

The side whose clipboard holds files answers requests for their sizes and bytes. A file stays open
between the requests with the position that reading is believed to be at, so that a read that goes
on where the last one ended needs no seek; it is closed when its end is reached. After each answer
the next file of the list is opened and read ahead.

The files on disk may be written to by others as long as their sizes stay the same. What opening,
reading ahead, seeking and reading come to is chosen by each request.
-/

set_option autoImplicit false

namespace HopToDesk.Clipboard

open Kit

/-! ## One file -/

/-- `BufReader<File>`: the position of the next byte, and what has been read ahead from there. -/
structure BufReader where
  pos : Nat
  buf : List UInt8
deriving DecidableEq, Repr

namespace BufReader

/-- `read_exact`. What is not read ahead is read from the file: after that some bytes are read
ahead, or reading failed after some bytes. -/
def readExact (contents : List UInt8) (io : Except (String × Nat) Nat) (len : Nat)
    (r : BufReader) : Except String (List UInt8) × BufReader :=
  if len ≤ r.buf.length then
    (.ok (r.buf.take len), { pos := r.pos + len, buf := r.buf.drop len })
  else
    match io with
    | .error (e, moved) => (.error e, { pos := r.pos + moved, buf := r.buf.drop moved })
    | .ok ahead =>
      let available := r.buf ++ contents.drop (r.pos + r.buf.length)
      if available.length < len then
        (.error "failed to fill whole buffer", { pos := r.pos + available.length, buf := [] })
      else
        (.ok (available.take len),
          { pos := r.pos + len, buf := (contents.drop (r.pos + len)).take ahead })

end BufReader

/-- What opening a file and reading ahead in it come to. -/
structure LoadIo where
  opens : Except String Unit
  fill : Except String Nat

/-- The fields of a `LocalFile` that serving uses. -/
structure LocalFile where
  path : String
  handle : Option BufReader
  offset : Nat
  size : UInt64
  isDir : Bool
deriving DecidableEq, Repr

/-- What a request's operations on the file it is about come to, and on the next one. -/
structure RequestIo where
  load : LoadIo
  seek : Except String Unit
  read : Except (String × Nat) Nat
  next : LoadIo

/-- The contents of the files by their paths. -/
abbrev Contents := String → List UInt8

namespace LocalFile

variable (disk : Contents)

def loadHandle (io : LoadIo) (f : LocalFile) : Except CliprdrError LocalFile :=
  if f.isDir = false ∧ f.handle = none then
    match io.opens with
    | .error e => .error (.fileError f.path e)
    | .ok () =>
      match io.fill with
      | .error e => .error (.fileError f.path e)
      | .ok ahead => .ok { f with handle := some ⟨0, (disk f.path).take ahead⟩ }
  else .ok f

/-- The reader at the offset: it seeks, and drops what it has read ahead, unless it is believed to
be there. -/
def seekTo (io : Except String Unit) (f : LocalFile) (offset : Nat) (r : BufReader) :
    Except String BufReader :=
  if offset ≠ f.offset then io.map fun _ => { pos := offset, buf := [] } else .ok r

def readExactAt (io : RequestIo) (len offset : Nat) (f : LocalFile) :
    Except CliprdrError (List UInt8) × LocalFile :=
  match f.loadHandle disk io.load with
  | .error e => (.error e, f)
  | .ok f =>
    match f.handle with
    | none => (.error (.fileError f.path "file handle not found"), f)
    | some r =>
      match f.seekTo io.seek offset r with
      | .error e => (.error (.fileError f.path e), f)
      | .ok r =>
        match r.readExact (disk f.path) io.read len with
        | (.error e, r) => (.error (.fileError f.path e), { f with handle := some r })
        | (.ok buf, r) =>
          let newOffset := offset + buf.length
          if f.size.toNat ≤ newOffset then (.ok buf, { f with handle := none, offset := 0 })
          else (.ok buf, { f with handle := some r, offset := newOffset })

end LocalFile

/-! ## The list -/

structure ClipFiles where
  fileList : List LocalFile
  firstFileIndex : UInt64

namespace ClipFiles

/-- What `sync_files` leaves, of the files it found. -/
def synced (fileList : List LocalFile) : ClipFiles where
  fileList := fileList
  firstFileIndex :=
    match fileList.findIdx? fun f => !f.isDir with
    | some i => UInt64.ofNat i
    | none => 0xffffffffffffffff

def getFilesForAudit (isFile : String → Bool) (s : ClipFiles) :
    FileContentsRequest → Option ClipboardFile
  | .range _ fileIdx offset _ =>
    if fileIdx = s.firstFileIndex ∧ offset = 0 then
      let files := (s.fileList.filter fun f => isFile f.path).map fun f => (f.path, f.size)
      if files = [] then none else some (.files files)
    else none
  | .size .. => none

/-- The next file that is no directory is loaded. -/
def hotReload (disk : Contents) (io : LoadIo) :
    List LocalFile → Except CliprdrError (List LocalFile)
  | [] => .ok []
  | f :: fs =>
    if f.isDir then (hotReload disk io fs).map (f :: ·)
    else (f.loadHandle disk io).map (· :: fs)

/-- The end of `serve_file_contents`. -/
def finish (disk : Contents) (io : LoadIo) (s : ClipFiles) (fileIdx : Nat) (resp : ClipboardFile) :
    Except CliprdrError ClipboardFile × ClipFiles :=
  match hotReload disk io (s.fileList.drop (fileIdx + 1)) with
  | .error e => (.error e, s)
  | .ok fs => (.ok resp, { s with fileList := s.fileList.take (fileIdx + 1) ++ fs })

def invalidIndex (connId : Int32) (fileIdx : UInt64) : CliprdrError :=
  .invalidRequest s!"invalid file index {fileIdx} requested from conn: {connId}"

/-- `none` where it panics: the sum of offset and length does not fit, or, where the build lets it
wrap, it is the length of no vector. -/
def serveFileContents (disk : Contents) (io : RequestIo) (connId : Int32) (s : ClipFiles) :
    FileContentsRequest → Option (Except CliprdrError ClipboardFile × ClipFiles)
  | .size streamId fileIdx =>
    match s.fileList[fileIdx.toNat]? with
    | none => some (.error (invalidIndex connId fileIdx), s)
    | some f =>
      some (s.finish disk io.next fileIdx.toNat
        (.fileContentsResponse 0x1 streamId (Wire.toLeBytes f.size)))
  | .range streamId fileIdx offset length =>
    match s.fileList[fileIdx.toNat]? with
    | none => some (.error (invalidIndex connId fileIdx), s)
    | some f =>
      if f.size < offset then
        some (.error (.invalidRequest s!"invalid reading offset requested from conn: {connId}"), s)
      else if 2 ^ 64 ≤ offset.toNat + length.toNat then none
      else
        let readSize := if f.size < offset + length then f.size - offset else length
        let (buf, f) := f.readExactAt disk io readSize.toNat offset.toNat
        let s := { s with fileList := s.fileList.set fileIdx.toNat f }
        match buf with
        | .error e => some (.error e, s)
        | .ok buf =>
          some (s.finish disk io.next fileIdx.toNat (.fileContentsResponse 0x1 streamId buf))

end ClipFiles

/-- The fields of a request, as they arrive. -/
structure RawRequest where
  connId : Int32
  streamId : Int32
  listIndex : Int32
  dwFlags : Int32
  nPositionLow : Int32
  nPositionHigh : Int32
  cbRequested : Int32

def RawRequest.decode (r : RawRequest) : Except CliprdrError FileContentsRequest :=
  decodeRequest r.streamId r.listIndex r.dwFlags r.nPositionLow r.nPositionHigh r.cbRequested

/-! ## Requests and writers -/

/-- `CLIP_FILES`, and the disk. -/
structure ClipServer where
  clipFiles : ClipFiles
  disk : Contents

namespace ClipServer

/-- `read_file_contents`, with what it returns; a panic leaves the files as they are. -/
def readFileContents (isFile : String → Bool) (io : RequestIo) (r : RawRequest) (s : ClipServer) :
    Option (List (Except CliprdrError ClipboardFile)) × ClipServer :=
  match r.decode with
  | .error e => (some [.error e], s)
  | .ok fcr =>
    match s.clipFiles.serveFileContents s.disk io r.connId fcr with
    | none => (none, s)
    | some (answer, clipFiles) =>
      (some (((s.clipFiles.getFilesForAudit isFile fcr).map .ok).toList ++ [answer]),
        { s with clipFiles := clipFiles })

/-- The answer to a request, which comes last. -/
def answer (isFile : String → Bool) (io : RequestIo) (r : RawRequest) (s : ClipServer) :
    Option (Except CliprdrError ClipboardFile) :=
  (s.readFileContents isFile io r).1.bind List.getLast?

inductive Event
  | request (isFile : String → Bool) (io : RequestIo) (r : RawRequest)
  | write (path : String) (bytes : List UInt8)

/-- Writing to a file does not change its size. -/
def next (s : ClipServer) : Event → Option ClipServer
  | .request isFile io r => some (s.readFileContents isFile io r).2
  | .write path bytes =>
    if bytes.length = (s.disk path).length then
      some { s with disk := Function.update s.disk path bytes }
    else none

/-- A list that has just been synchronized: no file is open, and the sizes are those on disk. -/
def starts (s : ClipServer) : Prop :=
  (∃ fileList, s.clipFiles = .synced fileList) ∧
    ∀ f ∈ s.clipFiles.fileList, f.handle = none ∧ f.offset = 0 ∧
      (f.isDir = false → (s.disk f.path).length = f.size.toNat)

def system : System ClipServer Event := System.stepping starts next

end ClipServer

end HopToDesk.Clipboard
