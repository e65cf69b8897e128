import HopToDesk.Clipboard.FileType
import HopToDesk.Kit.OsPath

/-!
# The files of one's own clipboard

The files and directories that were copied are listed with all that is in them, each with what the
system says of it, and the list is written as records of 592 bytes for the peer to read.

A path is bytes. In a record its text stands, as far as it is text, relative to the directory that
was copied from. The file system stands still while it is listed; the walk through it takes as much
fuel as it is deep. A result `none` is a panic.
-/

set_option autoImplicit false

namespace HopToDesk.Clipboard.Unix

open Kit OsPath

/-- `std::fs::Metadata`, as far as it is asked. A time that cannot be told is `none`. -/
structure Metadata where
  len : UInt64
  isDir : Bool
  readonly : Bool
  modified : Option SystemTime
  mode : UInt32

/-- What the system answers. -/
structure FileSystem where
  metadata : OsStr → Except Text Metadata
  /-- The names in a directory. -/
  readDir : OsStr → Except Text (List (Except Text OsStr))

/-- `std::fs::metadata`: a path with a NUL is not given to the system. -/
def FileSystem.stat (fs : FileSystem) (path : OsStr) : Except Text Metadata :=
  if 0 ∈ path then .error "file name contained an unexpected NUL byte".toList
  else fs.metadata path

/-- `LocalFile`, as far as it goes into a record. -/
structure LocalFile where
  relativeRoot : OsStr
  path : OsStr
  size : UInt64
  lastWriteTime : SystemTime
  isDir : Bool
  perm : UInt32
  readOnly : Bool
  hidden : Bool
  system : Bool
  archive : Bool
  normal : Bool
deriving DecidableEq

/-- An error about a path. -/
def errorAt (path : OsStr) (err : Text) : CliprdrError := .fileError (Text.fromUtf8Lossy path) err

namespace LocalFile

/-- `try_open`. -/
def tryOpen (fs : FileSystem) (relativeRoot path : OsStr) : Except CliprdrError LocalFile :=
  match fs.stat path with
  | .error err => .error (errorAt path err)
  | .ok mt =>
    let hidden := (Text.fromUtf8Lossy path).head? = some '.'
    .ok {
      relativeRoot
      path
      size := mt.len
      lastWriteTime := mt.modified.getD 0
      isDir := mt.isDir
      perm := mt.mode
      readOnly := mt.readonly
      hidden
      system := false
      archive := false
      normal := !(mt.isDir || mt.readonly || false || hidden || false) }

/-- `self.path.strip_prefix(&self.relative_root).unwrap_or(&self.path)`. -/
def relativePath (self : LocalFile) : OsStr :=
  (stripPrefix self.path self.relativeRoot).getD self.path

def fileAttributes (self : LocalFile) : Nat :=
  let readOnlyFlag := if self.readOnly then 0x1 else 0
  let hiddenFlag := if self.hidden then 0x2 else 0
  let systemFlag := if self.system then 0x4 else 0
  let directoryFlag := if self.isDir then 0x10 else 0
  let archiveFlag := if self.archive then 0x20 else 0
  let normalFlag := if self.normal then 0x80 else 0
  readOnlyFlag ||| hiddenFlag ||| systemFlag ||| directoryFlag ||| archiveFlag ||| normalFlag

/-- The time as Windows tells it; what is before 1970 is 1970. -/
def win32Time (self : LocalFile) : Nat :=
  self.lastWriteTime.toNat % 2 ^ 64 / 100 + ldapEpochDelta

/-- The flags of every record. -/
def flags : Nat :=
  flagsFdSize ||| flagsFdLastWrite ||| flagsFdAttributes ||| flagsFdProgressui ||| flagsFdUnixMode

def asBin (w : Utf16String) (self : LocalFile) : Option (List UInt8) :=
  let name := w.asBytes (Text.fromUtf8Lossy self.relativePath)
  -- `520 - name_len`
  if 520 < name.length then none
  else some (toLe 4 flags ++ List.replicate 32 0 ++ toLe 4 self.fileAttributes ++
    List.replicate 12 0 ++ toLe 4 self.perm.toNat ++ toLe 8 self.win32Time ++
    toLe 4 (self.size.toNat / 2 ^ 32) ++ toLe 4 (self.size.toNat % 2 ^ 32) ++
    (name ++ List.replicate (520 - name.length) 0))

end LocalFile

/-- `build_file_list_pdu`. -/
def buildFileListPdu (w : Utf16String) (fileList : List LocalFile) : Option (List UInt8) :=
  (fileList.mapM (LocalFile.asBin w)).map fun bins => toLe 4 fileList.length ++ bins.flatten

/-! ## Listing -/

/-- The files so far, and the paths that were visited. -/
abbrev Walk := List LocalFile × List (List OsComponent)

/-- `constr_file_lst`. An error `none` is a walk without fuel. -/
def constrFileLst (fs : FileSystem) (relativeRoot : OsStr) :
    Nat → OsStr → Walk → Except (Option CliprdrError) Walk
  | 0, _, _ => .error none
  | fuel + 1, path, (fileList, visited) =>
    if osComponents path ∈ visited then .ok (fileList, visited)
    else
      match LocalFile.tryOpen fs relativeRoot path with
      | .error err => .error (some err)
      | .ok localFile =>
        let walk := (fileList ++ [localFile], osComponents path :: visited)
        if localFile.isDir then
          match fs.readDir path with
          | .error err => .error (some (errorAt path err))
          | .ok dir => dir.foldlM (fun walk entry =>
              match entry with
              | .error err => .error (some (errorAt path err))
              | .ok name => constrFileLst fs relativeRoot fuel (join path name) walk) walk
        else .ok walk

def constructFileList (fs : FileSystem) (fuel : Nat) (paths : List OsStr) :
    Except (Option CliprdrError) (List LocalFile) :=
  match paths with
  | [] => .error (some (.invalidRequest "empty file list".toList))
  | first :: _ =>
    match parent first with
    | none => .error (some (.invalidRequest "empty parent".toList))
    | some relativeRoot =>
      (paths.foldlM (fun walk path => constrFileLst fs relativeRoot fuel path walk)
        (([], []) : Walk)).map (·.1)

end HopToDesk.Clipboard.Unix
