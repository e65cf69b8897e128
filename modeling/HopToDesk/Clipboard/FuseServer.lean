import HopToDesk.Clipboard.FileType
import HopToDesk.Kit.BinarySearch
import HopToDesk.Kit.Log
import HopToDesk.Kit.System

/-!
# The mount

The files of the peer's clipboard, as a tree below a root. The nodes stand in a list: the root
first, then one for each file of the peer, in the peer's order. An inode is a place in this list,
counted from one; `index` is a place in the peer's list, counted from zero.

A file or directory that is opened gets a handle, from one counter for all of them. A node keeps its
handles in a list that is searched as a sorted one.

The times of the attributes are left out. A result `none` is a panic.
-/

set_option autoImplicit false

namespace HopToDesk.Clipboard.Unix

open Kit UnixPath

/-! ## Nodes -/

/-- `FUSE_ROOT_ID`. -/
def fuseRootId : Nat := 1

/-- `FileHandles`, without the condition variable that nothing waits on. -/
structure FileHandles where
  handlers : List Nat
  gc : Bool
deriving DecidableEq, Repr

namespace FileHandles

def new : FileHandles := ⟨[], false⟩

def marked (self : FileHandles) : Bool := self.gc

def addHandler (self : FileHandles) (fh : Nat) : Option FileHandles :=
  if self.marked then none else some { self with handlers := self.handlers ++ [fh] }

def haveHandler (self : FileHandles) (handler : Nat) : Bool :=
  (binarySearch self.handlers handler).isOk

/-- `unregister`; `none` is its error. -/
def unregister (self : FileHandles) (handler : Nat) : Option FileHandles :=
  match binarySearch self.handlers handler with
  | .ok idx => some { self with handlers := self.handlers.eraseIdx idx }
  | .error _ => none

end FileHandles

structure InodeAttributes where
  inode : Nat
  size : UInt64
  kind : FileType
  perm : UInt16
deriving DecidableEq, Repr

namespace InodeAttributes

def fromDescription (inode : Nat) (desc : FileDescription) : InodeAttributes :=
  { inode, size := desc.size, kind := desc.kind, perm := desc.perm }

def newRoot : InodeAttributes := ⟨fuseRootId, 0, .directory, permRwx⟩

end InodeAttributes

structure FuseNode where
  connId : Int32
  streamId : Int32
  index : Nat
  parent : Option Nat
  name : PathStr
  attributes : InodeAttributes
  children : List Nat
  fileHandlers : FileHandles
deriving DecidableEq, Repr

namespace FuseNode

/-- A node of a file; its stream id is a random number. -/
def fromDescription (streamId : Int32) (inode : Nat) (desc : FileDescription) : FuseNode where
  connId := desc.connId
  streamId
  index := inode - 2
  parent := none
  name := desc.name
  attributes := .fromDescription inode desc
  children := []
  fileHandlers := .new

def newRoot (streamId : Int32) : FuseNode where
  connId := 0
  streamId
  index := 0
  parent := none
  name := ['/']
  attributes := .newRoot
  children := []
  fileHandlers := .new

def addChild (self : FuseNode) (inode : Nat) : FuseNode :=
  { self with children := self.children ++ [inode] }

end FuseNode

/-! ## The tree -/

/-- `sub_root_map`: the inodes of the paths, the last one inserted first. -/
abbrev SubRootMap := List (List Component × Nat)

def SubRootMap.get (m : SubRootMap) (path : List Component) : Option Nat := m.lookup path

namespace FuseNode

/-- `tree_list[inode as usize - 1].add_child(..)`. -/
def addChildTo (treeList : List FuseNode) (parentInode inode : Nat) : Option (List FuseNode) :=
  if parentInode - 1 < treeList.length then
    some (treeList.modify (parentInode - 1) (·.addChild inode))
  else none

/-- The inode that a file is put below. -/
def parentInode (subRootMap : SubRootMap) (file : FileDescription) : Nat :=
  match Component.parent (components file.name) with
  | some parent => (subRootMap.get parent).getD fuseRootId
  | none => fuseRootId

/-- The loop of `build_tree`. -/
def buildFrom (rand : Nat → Int32) (treeList : List FuseNode) (subRootMap : SubRootMap) :
    List FileDescription → Option (Except CliprdrError (List FuseNode))
  | [] => some (.ok treeList)
  | file :: files =>
    let inode := treeList.length + fuseRootId
    let parent := parentInode subRootMap file
    match addChildTo treeList parent inode with
    | none => none
    | some treeList =>
      match Component.fileName (components file.name) with
      | none => some (.error (.fileError file.name ("invalid file name ".toList ++ file.name)))
      | some baseName =>
        let subRootMap :=
          if file.kind = .directory then (components file.name, inode) :: subRootMap
          else subRootMap
        let node := fromDescription (rand inode) inode { file with name := baseName }
        buildFrom rand (treeList ++ [{ node with parent := some parent }]) subRootMap files

/-- What the map has at first: the root, under both of its names. -/
def rootMap : SubRootMap := [(components [], fuseRootId), (components ['/'], fuseRootId)]

def buildTree (rand : Nat → Int32) (files : List FileDescription) :
    Option (Except CliprdrError (List FuseNode)) :=
  buildFrom rand [newRoot (rand 0)] rootMap files

end FuseNode

/-! ## The server -/

inductive Errno
  | enoent
  | enotdir
  | ebusy
  | ebadf
  | enfile
  | eio
  | enametoolong
deriving DecidableEq, Repr

/-- `FuseServer`, without the channel that reading waits on. -/
structure FuseServer where
  generation : Nat
  files : List FuseNode
  fileHandleCounter : Nat
deriving DecidableEq, Repr

/-- `fuser::FileAttr`, without the times and the owner. -/
structure FileAttr where
  ino : Nat
  size : UInt64
  blocks : UInt64
  kind : FileType
  perm : UInt16
deriving DecidableEq, Repr

/-- `BLOCK_SIZE`. -/
def blockSize : UInt64 := 4 * 1024 * 1024

def InodeAttributes.toFileAttr (value : InodeAttributes) : FileAttr where
  ino := value.inode
  size := value.size
  blocks := if value.size % blockSize = 0 then value.size / blockSize
    else value.size / blockSize + 1
  kind := value.kind
  perm := value.perm

/-- What `reply.entry` is given. -/
structure Entry where
  attr : FileAttr
  generation : Nat
deriving DecidableEq, Repr

/-- The length of a text in bytes. -/
def byteLength (t : PathStr) : Nat := (t.map Char.utf8Size).sum

namespace FuseServer

def new : FuseServer := ⟨0, [], 0⟩

/-- `self.files.get(ino as usize - 1)`. -/
def entry (self : FuseServer) : Nat → Option FuseNode
  | 0 => none
  | ino + 1 => self.files[ino]?

def init (self : FuseServer) (rand : Int32) : FuseServer :=
  if self.files = [] then { self with files := [.newRoot rand] } else self

/-- `load_file_list`. -/
def loadFileList (self : FuseServer) (rand : Nat → Int32) (files : List FileDescription) :
    Option (Except CliprdrError Unit × FuseServer) :=
  match FuseNode.buildTree rand files with
  | none => none
  | some (.error e) => some (.error e, self)
  | some (.ok tree) =>
    some (.ok (), { self with files := tree, generation := (self.generation + 1) % 2 ^ 64 })

/-- The loop of `lookup` over the children. -/
def lookupIn (self : FuseServer) (name : PathStr) : List Nat → Option (Except Errno Entry)
  | [] => some (.error .enoent)
  | inode :: inodes =>
    match self.entry inode with
    | none => none
    | some child =>
      if child.name = name then some (.ok ⟨child.attributes.toFileAttr, self.generation⟩)
      else self.lookupIn name inodes

def lookup (self : FuseServer) (parent : Nat) (name : PathStr) : Option (Except Errno Entry) :=
  if maxNameLen < byteLength name then some (.error .enametoolong)
  else
    match self.entry parent with
    | none => some (.error .enoent)
    | some parentEntry =>
      if parentEntry.attributes.kind ≠ .directory then some (.error .enotdir)
      else self.lookupIn name parentEntry.children

/-- A path is looked up name by name, from a node on. -/
def lookupPath (self : FuseServer) (parent : Nat) : List PathStr → Option (Except Errno Nat)
  | [] => some (.ok parent)
  | name :: names =>
    match self.lookup parent name with
    | none => none
    | some (.error e) => some (.error e)
    | some (.ok found) => self.lookupPath found.attr.ino names

/-- `list_root`. -/
def listRoot (self : FuseServer) : Option (List PathStr) :=
  match self.files[0]? with
  | none => none
  | some root => root.children.mapM fun inode => (self.entry inode).map (·.name)

/-! ### Handles -/

/-- `alloc_fd`: the counter wraps. -/
def allocFd (self : FuseServer) : Nat × FuseServer :=
  (self.fileHandleCounter,
    { self with fileHandleCounter := (self.fileHandleCounter + 1) % 2 ^ 64 })

/-- The node of an inode with other handles. -/
def setHandlers (self : FuseServer) (ino : Nat) (fileHandlers : FileHandles) : FuseServer :=
  { self with files := self.files.modify (ino - 1) ({ · with fileHandlers }) }

/-- The end of `open` and `opendir`. -/
def opened (self : FuseServer) (ino : Nat) (entry : FuseNode) :
    Option (Except Errno Nat × FuseServer) :=
  if entry.fileHandlers.marked then some (.error .ebusy, self)
  else
    let (fh, self) := self.allocFd
    (entry.fileHandlers.addHandler fh).map fun handles => (.ok fh, self.setHandlers ino handles)

def opendir (self : FuseServer) (ino : Nat) : Option (Except Errno Nat × FuseServer) :=
  match self.entry ino with
  | none => some (.error .enoent, self)
  | some entry =>
    if entry.attributes.kind ≠ .directory then some (.error .enotdir, self)
    else self.opened ino entry

/-- `open`. -/
def openFile (self : FuseServer) (ino : Nat) : Option (Except Errno Nat × FuseServer) :=
  match self.entry ino with
  | none => some (.error .enoent, self)
  | some entry =>
    if entry.attributes.kind ≠ .file then some (.error .enfile, self)
    else self.opened ino entry

def release (self : FuseServer) (ino : Nat) (fh : Nat) : Except Errno Unit × FuseServer :=
  match self.entry ino with
  | none => (.error .enoent, self)
  | some entry =>
    match entry.fileHandlers.unregister fh with
    | none => (.error .ebadf, self)
    | some handles => (.ok (), self.setHandlers ino handles)

def releasedir (self : FuseServer) (ino : Nat) (fh : Nat) : Except Errno Unit × FuseServer :=
  match self.entry ino with
  | none => (.error .enoent, self)
  | some entry =>
    if entry.attributes.kind ≠ .directory then (.error .enotdir, self)
    else if entry.fileHandlers.haveHandler fh then
      match entry.fileHandlers.unregister fh with
      | none => (.ok (), self)
      | some handles => (.ok (), self.setHandlers ino handles)
    else (.error .ebadf, self)

/-- `read`, with what `read_node` comes to. -/
def read (self : FuseServer) (readNode : FuseNode → Except PathStr (List UInt8)) (ino : Nat)
    (fh : Nat) : Except Errno (List UInt8) :=
  match self.entry ino with
  | none => .error .enoent
  | some entry =>
    if ¬ entry.fileHandlers.haveHandler fh then .error .ebadf
    else if entry.attributes.kind ≠ .file then .error .enfile
    else if entry.fileHandlers.marked then .error .ebusy
    else
      match readNode entry with
      | .ok bytes => .ok bytes
      | .error _ => .error .eio

/-- What `readdir` lists: the inode, the kind and the name. -/
abbrev DirEntry := Nat × FileType × PathStr

/-- `readdir`. The reply takes the entries from the offset on, as many as it has room for; each
comes with the offset of the next. -/
def readdir (self : FuseServer) (ino : Nat) (fh offset : Nat) :
    Option (Except Errno (List (DirEntry × Nat))) :=
  match self.entry ino with
  | none => some (.error .enoent)
  | some entry =>
    if ¬ entry.fileHandlers.haveHandler fh then some (.error .ebadf)
    else if entry.attributes.kind ≠ .directory then some (.error .enotdir)
    else
      let selfEntry : DirEntry := (ino, .directory, ['.'])
      let parentEntry := entry.parent.toList.map fun parent => (parent, .directory, ['.', '.'])
      let children := entry.children.mapM fun inode =>
        (self.entry inode).map fun child => (inode, child.attributes.kind, child.name)
      children.map fun children =>
        .ok (((selfEntry :: parentEntry ++ children).zipIdx 1).drop offset)

/-- The check of a handle that comes first in the operations on it. -/
def finds (self : FuseServer) (ino fh : Nat) : Bool :=
  match self.entry ino with
  | none => false
  | some entry => entry.fileHandlers.haveHandler fh

end FuseServer

/-! ## Runs -/

/-- The operations that handles are about. -/
inductive Operation
  | init (rand : Int32)
  | openFile (ino : Nat)
  | opendir (ino : Nat)
  | release (ino fh : Nat)
  | releasedir (ino fh : Nat)
  | loadFileList (rand : Nat → Int32) (files : List FileDescription)

/-- What has happened: a handle was given out or taken back, or the list was replaced. -/
inductive Note
  | opened (ino fh : Nat)
  | released (ino fh : Nat)
  | loaded
deriving DecidableEq, Repr

/-- A server, with what has happened so far, oldest first. -/
structure Mount where
  server : FuseServer
  notes : List Note

namespace Mount

def start : Mount := ⟨.new, []⟩

/-- What is noted of a result. -/
def noted {ε β : Type} (note : β → Note) : Except ε β → List Note
  | .ok b => [note b]
  | .error _ => []

def next (s : Mount) : Operation → Option Mount
  | .init rand => some { s with server := s.server.init rand }
  | .openFile ino => (s.server.openFile ino).map fun (r, server) =>
      ⟨server, s.notes ++ noted (.opened ino) r⟩
  | .opendir ino => (s.server.opendir ino).map fun (r, server) =>
      ⟨server, s.notes ++ noted (.opened ino) r⟩
  | .release ino fh =>
    let (r, server) := s.server.release ino fh
    some ⟨server, s.notes ++ noted (fun () => .released ino fh) r⟩
  | .releasedir ino fh =>
    let (r, server) := s.server.releasedir ino fh
    some ⟨server, s.notes ++ noted (fun () => .released ino fh) r⟩
  | .loadFileList rand files => (s.server.loadFileList rand files).map fun (r, server) =>
      ⟨server, s.notes ++ noted (fun () => .loaded) r⟩

/-- Any operations, one after the other. -/
def system : System Mount Operation := System.stepping (· = start) next

/-- The handles that were given out. -/
def given (notes : List Note) : List Nat :=
  notes.filterMap fun
    | .opened _ fh => some fh
    | _ => none

/-- The handle was given out for this inode and neither taken back since, nor was the list
replaced. -/
def Live (notes : List Note) (ino fh : Nat) : Prop :=
  Since notes (· = .opened ino fh) fun after => ∀ note ∈ after,
    note ≠ .loaded ∧ note ≠ .released ino fh

end Mount

end HopToDesk.Clipboard.Unix
