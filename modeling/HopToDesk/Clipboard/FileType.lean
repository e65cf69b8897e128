import HopToDesk.Kit.Components
import HopToDesk.Kit.Unicode

/-!
# The files of the peer's clipboard

What the peer says of each file of its clipboard comes in a list of records of 592 bytes. Every name
is made from a `String`, so it is text. The UTF-16 strings are those of a crate (`Utf16String`).

Reading past the end of the data is a panic, and so is an overflow of the arithmetic, where overflow
is checked.
-/

set_option autoImplicit false

namespace HopToDesk.Clipboard.Unix

open Kit UnixPath

/-- Nanoseconds since 1970. -/
abbrev SystemTime := Int

inductive FileType
  | file
  | directory
  | symlink
deriving DecidableEq, Repr

structure FileDescription where
  connId : Int32
  name : PathStr
  kind : FileType
  atime : SystemTime
  lastModified : SystemTime
  lastMetadataChanged : SystemTime
  creationTime : SystemTime
  size : UInt64
  perm : UInt16
deriving DecidableEq, Repr

/-- `PERM_READ`. -/
def permRead : UInt16 := 0o444

/-- `PERM_RW`. -/
def permRw : UInt16 := 0o644

/-- `PERM_SELF_RO`. -/
def permSelfRo : UInt16 := 0o400

/-- `PERM_RWX`. -/
def permRwx : UInt16 := 0o755

/-- `MAX_NAME_LEN`. -/
def maxNameLen : Nat := 255

inductive CliprdrError
  | conversionFailure
  | invalidRequest (description : Text)
  /-- The error is that of the system, or a message. -/
  | fileError (path err : Text)
deriving DecidableEq, Repr

/-! ## Flags -/

/-- `FLAGS_FD_ATTRIBUTES`. -/
def flagsFdAttributes : Nat := 0x04

/-- `FLAGS_FD_SIZE`. -/
def flagsFdSize : Nat := 0x40

/-- `FLAGS_FD_LAST_WRITE`. -/
def flagsFdLastWrite : Nat := 0x20

/-- `FLAGS_FD_PROGRESSUI`. -/
def flagsFdProgressui : Nat := 0x4000

/-- `FLAGS_FD_UNIX_MODE`. -/
def flagsFdUnixMode : Nat := 0x08

/-- `LDAP_EPOCH_DELTA`: from 1601 to 1970, in units of 100 ns. -/
def ldapEpochDelta : Nat := 116444772610000000

/-! ## Reading the list -/

/-- `utf16string`. -/
structure Utf16String where
  /-- `WStr::from_utf16le` and `to_utf8`. -/
  fromUtf16le : List UInt8 → Option Text
  /-- `WString::from` and `as_bytes`. -/
  asBytes : Text → List UInt8

/-- A string is written in UTF-16, and what is so written is read as that string. -/
structure Utf16String.Standard (w : Utf16String) : Prop where
  asBytes : ∀ t, w.asBytes t = Text.utf16le t
  fromUtf16le : ∀ t, w.fromUtf16le (Text.utf16le t) = some t

/-- Why the reading stops: a panic, or an error that is returned. -/
inductive Stop
  | outOfBounds
  | overflow
  | error (e : CliprdrError)
deriving DecidableEq, Repr

def permOf (flags attributes perm : Nat) : UInt16 :=
  let fromUnix := flags &&& flagsFdUnixMode ≠ 0
  let directory := attributes &&& 0x10 ≠ 0
  let normal := attributes = 0x80
  let hidden := attributes &&& 0x02 ≠ 0
  let readonly := attributes &&& 0x01 ≠ 0
  if fromUnix then UInt16.ofNat perm
  else if normal then permRwx
  else if readonly then permRead
  else if hidden then permSelfRo
  else if directory then permRwx
  else permRw

def kindOf (attributes : Nat) : FileType :=
  if attributes &&& 0x10 ≠ 0 then .directory else .file

/-- `((file_size_high as u64) << 32) + file_size_low as u64`. -/
def sizeFrom (fileSizeHigh fileSizeLow : Nat) : Except Stop UInt64 :=
  let size := fileSizeHigh * 2 ^ 32 % 2 ^ 64 + fileSizeLow
  if size < 2 ^ 64 then .ok (UInt64.ofNat size) else .error .overflow

def lastModifiedOf (flags lastWriteTime : Nat) : Except Stop SystemTime :=
  if flags &&& flagsFdLastWrite ≠ 0 ∧ ldapEpochDelta ≤ lastWriteTime then
    let nanos := (lastWriteTime - ldapEpochDelta) * 100
    if nanos < 2 ^ 64 then .ok nanos else .error .overflow
  else .ok 0

/-- The name, without the NULs at its end. -/
def nameOf (wstr : Text) : PathStr :=
  (wstr.map fun c => if c = '\\' then '/' else c).rdropWhile (· = '\x00')

/-- `&block[..n]`. -/
def slice (block : List UInt8) (n : Nat) : Except Stop (List UInt8) :=
  if n ≤ block.length then .ok (block.take n) else .error .outOfBounds

/-- The text of a block. -/
def Utf16String.read (w : Utf16String) (block : List UInt8) : Except Stop Text :=
  match w.fromUtf16le block with
  | some wstr => .ok wstr
  | none => .error (.error .conversionFailure)

def parseFileDescriptor (w : Utf16String) (connId : Int32) :
    Fallible (List UInt8) Stop FileDescription := do
  let flags ← Cursor.getLe .outOfBounds 4
  Cursor.advance .outOfBounds 32
  let attributes ← Cursor.getLe .outOfBounds 4
  Cursor.advance .outOfBounds 12
  let perm ← Cursor.getLe .outOfBounds 4
  let lastWriteTime ← Cursor.getLe .outOfBounds 8
  let fileSizeHigh ← Cursor.getLe .outOfBounds 4
  let fileSizeLow ← Cursor.getLe .outOfBounds 4
  let block ← Fallible.get
  Cursor.advance .outOfBounds 520
  let block ← Fallible.ofExcept (slice block 520)
  let wstr ← Fallible.ofExcept (w.read block)
  if flags &&& flagsFdAttributes = 0 then
    Fallible.fail (.error (.invalidRequest
      "file description must have valid attributes".toList))
  else
    let size ← Fallible.ofExcept (sizeFrom fileSizeHigh fileSizeLow)
    let lastModified ← Fallible.ofExcept (lastModifiedOf flags lastWriteTime)
    pure {
      connId
      name := nameOf wstr
      kind := kindOf attributes
      atime := lastModified
      lastModified
      lastMetadataChanged := lastModified
      creationTime := lastModified
      size
      perm := permOf flags attributes perm }

/-! ## The records -/

/-- The fields of a record, as they lie in it. -/
structure Record where
  flags : Nat
  attributes : Nat
  perm : Nat
  lastWriteTime : Nat
  fileSizeHigh : Nat
  fileSizeLow : Nat
  block : List UInt8

/-- The first record of some bytes. -/
def Record.of (bytes : List UInt8) : Record where
  flags := ofLe (bytes.take 4)
  attributes := ofLe ((bytes.drop 36).take 4)
  perm := ofLe ((bytes.drop 52).take 4)
  lastWriteTime := ofLe ((bytes.drop 56).take 8)
  fileSizeHigh := ofLe ((bytes.drop 64).take 4)
  fileSizeLow := ofLe ((bytes.drop 68).take 4)
  block := (bytes.drop 72).take 520

/-- So many records of some bytes. -/
def records (bytes : List UInt8) (count : Nat) : List Record :=
  (List.range count).map fun i => .of (bytes.drop (592 * i))

/-- The loop of `parse_file_descriptors`. -/
def parseMany (w : Utf16String) (connId : Int32) :
    Nat → Fallible (List UInt8) Stop (List FileDescription)
  | 0 => pure []
  | count + 1 => do
    let desc ← parseFileDescriptor w connId
    let descs ← parseMany w connId count
    pure (desc :: descs)

def parseFileDescriptors (w : Utf16String) (fileDescriptorPdu : List UInt8) (connId : Int32) :
    Except Stop (List FileDescription) :=
  let parse : Fallible (List UInt8) Stop (List FileDescription) :=
    if fileDescriptorPdu.length < 4 then
      Fallible.fail (.error (.invalidRequest
        "file descriptor request with infficient length".toList))
    else do
      let count ← Cursor.getLe .outOfBounds 4
      let data ← Fallible.get
      if data.length = 0 ∧ count = 0 then pure []
      else if data.length ≠ 592 * count then
        Fallible.fail (.error (.invalidRequest
          "file descriptor request with invalid length".toList))
      else parseMany w connId count
  (parse fileDescriptorPdu).1

end HopToDesk.Clipboard.Unix
