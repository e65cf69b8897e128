import HopToDesk.Kit.UnixPath
import Mathlib.Data.List.AList

/-!
# A disk

A tree of directories and files, as a map from places to what is there. A file has a number of its
own, so that an open file is still the same file when its place has been renamed, and keeps its
content. The operations are those of `std::fs`: each fails as the Unix call under it does, for
what it finds in the tree and for nothing else (no quota, no permissions, no failing device), and
leaves the tree as it was when it fails. Creating the directories of a path is the exception: the
ones made before the failure stay.

There are no links, hard or symbolic. Times are not kept; setting one only asks that the place
exists. Every operation that changes something writes the places it touches to `log`.
-/

set_option autoImplicit false

namespace Kit

open UnixPath

abbrev Content := List UInt8

inductive Entry
  | dir
  | file (ino : Nat) (data : Content)
deriving DecidableEq, Repr

/-- What an operation did to a place. -/
inductive Access
  | mkdir (q : Place)
  | create (q : Place)
  | write (q : Place)
  | rename (q q' : Place)
  | remove (q : Place)
  | setMtime (q : Place)
deriving DecidableEq, Repr

/-- The places an access touches. -/
def Access.places : Access → List Place
  | .mkdir q | .create q | .write q | .remove q | .setMtime q => [q]
  | .rename q q' => [q, q']

/-- `io::ErrorKind`, as far as it matters here. -/
inductive DiskError
  | notFound
  | isDirectory
  | notADirectory
  | directoryNotEmpty
  | invalidInput
  | badDescriptor
deriving DecidableEq, Repr

structure Disk where
  nodes : AList fun _ : Place => Entry
  cwd : Place
  next : Nat
  log : List Access

/-- An open file. -/
structure Handle where
  ino : Nat
  offset : Nat
  writable : Bool
deriving DecidableEq, Repr

namespace Disk

/-- The root directory and nothing else. -/
def blank : Disk := { nodes := AList.singleton [] .dir, cwd := [], next := 0, log := [] }

def get (d : Disk) (q : Place) : Option Entry := d.nodes.lookup q

def put (d : Disk) (q : Place) (e : Entry) : Disk := { d with nodes := d.nodes.insert q e }

def drop (d : Disk) (q : Place) : Disk := { d with nodes := d.nodes.erase q }

def note (d : Disk) (a : Access) : Disk := { d with log := d.log ++ [a] }

/-- The place a path names. -/
abbrev place (d : Disk) (s : PathStr) : Place := resolve d.cwd (parse s)

/-- What a path names. A path that ends as a directory names no file. -/
def stat (d : Disk) (s : PathStr) : Option Entry :=
  match d.get (d.place s) with
  | some (.file ino data) => if endsAsDir s then none else some (.file ino data)
  | e => e

/-- `Path::exists`. -/
def pathExists (d : Disk) (s : PathStr) : Bool := (d.stat s).isSome

/-- Make the directories of a walk, one after the other. -/
def createDirs (d : Disk) : List Place → Except DiskError Unit × Disk
  | [] => (.ok (), d)
  | q :: qs =>
    match d.get q with
    | some .dir => d.createDirs qs
    | none => ((d.put q .dir).note (.mkdir q)).createDirs qs
    | some (.file _ _) => (.error .notADirectory, d)

/-- `std::fs::create_dir_all`. -/
def createDirAll (d : Disk) (p : Parsed) : Except DiskError Unit × Disk :=
  d.createDirs (visited d.cwd p)

/-- `std::fs::remove_file`. -/
def removeFile (d : Disk) (s : PathStr) : Except DiskError Disk :=
  match d.stat s with
  | some (.file _ _) => .ok ((d.drop (d.place s)).note (.remove (d.place s)))
  | some .dir => .error .isDirectory
  | none => .error .notFound

/-- `File::create`: an empty file, new or in place of the content of the old one. -/
def createFile (d : Disk) (s : PathStr) : Except DiskError (Handle × Disk) :=
  let q := d.place s
  if endsAsDir s then .error .isDirectory
  else
    match d.get q with
    | some .dir => .error .isDirectory
    | some (.file ino _) => .ok (⟨ino, 0, true⟩, (d.put q (.file ino [])).note (.create q))
    | none =>
      if d.get q.dropLast = some .dir then
        .ok (⟨d.next, 0, true⟩,
          ({ d with next := d.next + 1 }.put q (.file d.next [])).note (.create q))
      else .error .notFound

/-- `OpenOptions::new().create(true).write(true).open`: the content stays. -/
def openWrite (d : Disk) (s : PathStr) : Except DiskError (Handle × Disk) :=
  match d.stat s with
  | some (.file ino _) => .ok (⟨ino, 0, true⟩, d.note (.write (d.place s)))
  | _ => d.createFile s

/-- `File::open`. A directory can be opened too; reading it is what fails. -/
def openRead (d : Disk) (s : PathStr) : Except DiskError (Handle × Disk) :=
  match d.stat s with
  | some (.file ino _) => .ok (⟨ino, 0, false⟩, d)
  | some .dir => .ok (⟨d.next, 0, false⟩, { d with next := d.next + 1 })
  | none => .error .notFound

/-- The place of a file by its number. -/
def placeOf (d : Disk) (ino : Nat) : Option Place :=
  (d.nodes.entries.find? fun e =>
    match e.2 with
    | .file i _ => i = ino
    | .dir => false).map (·.1)

/-- The content with `bytes` written at `offset`, with zeros where there was nothing before it. -/
def splice (data : Content) (offset : Nat) (bytes : Content) : Content :=
  data.take offset ++ List.replicate (offset - data.length) 0 ++ bytes ++
    data.drop (offset + bytes.length)

/-- `write_all` on an open file. A file that has lost its place takes the bytes with it. -/
def writeAll (d : Disk) (h : Handle) (bytes : Content) : Except DiskError (Handle × Disk) :=
  if h.writable then
    let h' := { h with offset := h.offset + bytes.length }
    match d.placeOf h.ino with
    | some q =>
      match d.get q with
      | some (.file ino data) =>
        .ok (h', (d.put q (.file ino (splice data h.offset bytes))).note (.write q))
      | _ => .ok (h', d)
    | none => .ok (h', d)
  else .error .badDescriptor

/-- `read` on an open file: what there is from its offset on, at most `n` bytes. What is open for
writing only cannot be read, and neither can a directory, which is what is open without a place. -/
def read (d : Disk) (h : Handle) (n : Nat) : Except DiskError (Content × Handle) :=
  if h.writable then .error .badDescriptor
  else
    match (d.placeOf h.ino).bind d.get with
    | some (.file _ data) =>
      let bytes := (data.drop h.offset).take n
      .ok (bytes, { h with offset := h.offset + bytes.length })
    | _ => .error .isDirectory

/-- `std::fs::write`. -/
def writeFile (d : Disk) (s : PathStr) (bytes : Content) : Except DiskError Disk :=
  match d.createFile s with
  | .ok (h, d) =>
    match d.writeAll h bytes with
    | .ok (_, d) => .ok d
    | .error e => .error e
  | .error e => .error e

/-- Where a place is after `src` has become `dst`. -/
def relocate (src dst q : Place) : Place := if src <+: q then dst ++ q.drop src.length else q

/-- Everything at and below `src`, at and below `dst`. -/
def moveTree (d : Disk) (src dst : Place) : Disk :=
  let moved := (d.nodes.erase dst).entries.foldr
    (fun e (nodes : AList fun _ : Place => Entry) => nodes.insert (relocate src dst e.1) e.2) ∅
  { d with nodes := moved }

def hasChild (d : Disk) (q : Place) : Bool :=
  d.nodes.entries.any fun e => q <+: e.1 && e.1 != q

/-- `std::fs::rename`. -/
def rename (d : Disk) (s s' : PathStr) : Except DiskError Disk :=
  let src := d.place s
  let dst := d.place s'
  match d.stat s with
  | none => .error .notFound
  | some (.file ino data) =>
    match d.get dst with
    | some .dir => .error .isDirectory
    | e =>
      if endsAsDir s' then .error .notADirectory
      else if src = dst then .ok d
      else if e.isNone && d.get dst.dropLast != some .dir then .error .notFound
      else .ok (((d.drop src).put dst (.file ino data)).note (.rename src dst))
  | some .dir =>
    if src = dst then .ok d
    else if src <+: dst then .error .invalidInput
    else
      match d.get dst with
      | some (.file _ _) => .error .notADirectory
      | some .dir =>
        if d.hasChild dst then .error .directoryNotEmpty
        else .ok ((d.moveTree src dst).note (.rename src dst))
      | none =>
        if d.get dst.dropLast = some .dir then .ok ((d.moveTree src dst).note (.rename src dst))
        else .error .notFound

/-- `filetime::set_file_mtime`. -/
def setFileMtime (d : Disk) (s : PathStr) : Except DiskError Disk :=
  match d.stat s with
  | some _ => .ok (d.note (.setMtime (d.place s)))
  | none => .error .notFound

/-- `.ok()`: the result is not looked at. -/
def orSame (d : Disk) : Except DiskError Disk → Disk
  | .ok d => d
  | .error _ => d

end Disk

end Kit
