import HopToDesk.Kit.DiskTree
import HopToDesk.Transfer.Writing

/-!
# A whole transfer

The sender calls `read` until it returns nothing and waits for no confirmation; a file it waits for
is confirmed from its start. The receiver passes the blocks to `write` in their order and finishes
with `modify_time`.

A `Trip` is such a transfer with the disks it starts from. What has to come of it is `Delivered`.
It does when the list is `Plain`, the receiver's disk and the names leave `Room` for what is to be
made, and no file is directly before a marker (`Parted`): the marker's block moves the receiver's
number on and does not finish the file.
-/

set_option autoImplicit false

namespace HopToDesk.Transfer

open Kit UnixPath

/-- The blocks a sender emits until `read` returns nothing. No read fails, and every confirmation
asks for the whole file. -/
inductive Sends (z : Zstd) : TransferJob → Disk → List FileTransferBlock → Prop
  | done {job job' : TransferJob} {d d' : Disk} {digest : FileDigest}
      (h : job.read z d (.fine digest) = (.ok .nothing, job', d'))
      (hidle : job'.fileIsWaiting = false) : Sends z job d []
  | confirm {job job' job'' : TransferJob} {d d' d'' : Disk} {digest : FileDigest}
      {asked : FileTransferDigest} {blocks : List FileTransferBlock}
      (h : job.read z d (.fine digest) = (.ok (.digest asked), job', d'))
      (hconfirm : job'.confirm job'.fileNum (some (.offsetBlk 0)) d' = some (job'', d''))
      (hrest : Sends z job'' d'' blocks) : Sends z job d blocks
  | block {job job' : TransferJob} {d d' : Disk} {digest : FileDigest} {block : FileTransferBlock}
      {blocks : List FileTransferBlock}
      (h : job.read z d (.fine digest) = (.ok (.block block), job', d'))
      (hrest : Sends z job' d' blocks) : Sends z job d (block :: blocks)

/-- The sender's job, as it is when the transfer starts. -/
def sender (id : Int) (src : PathStr) (files : List FileEntry) (overwrite direct : Bool) :
    TransferJob :=
  { TransferJob.new id .generic (.filePath src) 0 files overwrite with direct }

/-- The receiver's disk after the blocks and the last `modify_time`. -/
def received (z : Zstd) (start : Writing) (blocks : List FileTransferBlock) : Disk :=
  let s := (blocks.map Event.block).foldl (Writing.next z) start
  s.job.modifyTime s.disk

/-- What `compress` makes, `decompress` undoes. -/
def Zstd.RoundTrip (z : Zstd) : Prop :=
  ∀ data, ∃ packed, z.compress data = some packed ∧ z.decodeAll packed = some data

/-- Every file of the list is at the sender, with its bytes. -/
def Readable (d : Disk) (src : PathStr) (files : List FileEntry) (bytes : Nat → Content) : Prop :=
  ∀ {i e}, Regular files i e → ∃ ino, d.stat (TransferJob.join src e.name) =
    some (.file ino (bytes i))

/-- There is a file at a place. -/
def IsFile (d : Disk) (q : Place) : Prop := ∃ ino data, d.get q = some (.file ino data)

/-- A transfer: the list, the sender's disk with the bytes of each file, and the receiver's. -/
structure Trip where
  z : Zstd
  id : Int
  src : PathStr
  p : PathStr
  files : List FileEntry
  source : Disk
  disk : Disk
  bytes : Nat → Content

namespace Trip

variable (T : Trip)

abbrev final (e : FileEntry) : Place := resolve T.disk.cwd (parse (finalPath T.p e))

abbrev download (e : FileEntry) : Place := resolve T.disk.cwd (parse (downloadPath T.p e))

abbrev digest (e : FileEntry) : Place := resolve T.disk.cwd (parse (digestPath T.p e))

abbrev Listed (i : Nat) (e : FileEntry) : Prop := T.files[i]? = some e

abbrev Regular (i : Nat) (e : FileEntry) : Prop := Transfer.Regular T.files i e

/-- The entry `e` is the marker at `i`. -/
def Marker (i : Nat) (e : FileEntry) : Prop := T.Listed i e ∧ isMarker e.name = true

/-- The receiver's job, as it is when the transfer starts. -/
def start (overwrite : Bool) : Writing :=
  ⟨TransferJob.new T.id .generic (.filePath T.p) 0 T.files overwrite, T.disk⟩

/-- What the receiver starts from: a disk that is a tree and has no temporary files, and a list
whose paths do not climb and whose markers stand for empty directories. -/
structure Accepts : Prop where
  sound : T.disk.Sound
  climbs : .up ∉ (parse T.p).comps
  names : ∀ {i e}, T.Listed i e → Descends e.name
  regular : ∀ {i e}, T.Regular i e → endsAsDir (finalPath T.p e) = false
  empty : ∀ {i j e e'}, T.Marker i e → T.Regular j e' → ¬ T.final e <+: T.final e'
  fresh : ∀ {i e}, T.Listed i e →
    ¬ IsFile T.disk (T.download e) ∧ ¬ IsFile T.disk (T.digest e)

/-- What the parties start from: the sender can read every file. -/
structure Valid : Prop extends T.Accepts where
  zstd : T.z.RoundTrip
  inodes : T.source.Inodes
  readable : Readable T.source T.src T.files T.bytes

/-- No entry comes twice, and a file's temporary paths are no directories when it starts: they are
none before the transfer, and no entry before it makes them. -/
structure Plain : Prop where
  alone : ∀ {i j e e'}, T.Regular i e → T.Listed j e' → T.final e = T.final e' → i = j
  vacant : ∀ {i e}, T.Regular i e →
    T.disk.get (T.download e) ≠ some .dir ∧ T.disk.get (T.digest e) ≠ some .dir
  unmade : ∀ {i j e e'}, T.Regular i e → j < i → T.Listed j e' →
    ¬ T.download e <+: T.final e' ∧ ¬ T.digest e <+: T.final e'

/-- No two entries need one place for different things, and nothing that is on the receiver's disk
is in the way. -/
structure Room : Prop where
  temporary : ∀ {i j e e'}, T.Regular i e → T.Regular j e' →
    T.final e' ≠ T.download e ∧ T.final e' ≠ T.digest e
  leaf : ∀ {i j e e'}, T.Regular i e → T.Listed j e' → i ≠ j →
    ¬ T.final e <+: T.final e'
  vacant : ∀ {i e}, T.Regular i e → T.disk.get (T.final e) ≠ some .dir
  way : ∀ {i e q}, T.Listed i e → q <+: T.final e → q ≠ T.final e → ¬ IsFile T.disk q
  marker : ∀ {i e}, T.Marker i e → ¬ IsFile T.disk (T.final e)

/-- No file is directly before a marker. -/
def Parted : Prop := ∀ {i e e'}, T.Regular i e → ¬ T.Marker (i + 1) e'

/-- What a transfer is for. -/
structure Delivered (d : Disk) : Prop where
  files : ∀ {i e}, T.Regular i e → d.view (T.final e) = some (.file (T.bytes i))
  temporary : ∀ {i e}, T.Regular i e →
    ¬ IsFile d (T.download e) ∧ ¬ IsFile d (T.digest e)
  markers : ∀ {i e}, T.Marker i e → d.get (T.final e) = some .dir

end Trip

end HopToDesk.Transfer
