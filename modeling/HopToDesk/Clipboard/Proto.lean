import Mathlib

/-!
# Clipboards on the wire

`mod proto` of `src/clipboard.rs`: what is on the clipboard, as the messages that carry it. Text,
RTF, HTML, pictures and special formats each have an encoder of their own, most of which send what
is compressed if that is shorter and what was there otherwise; `from_clipboard` reads them all.

The compression is a parameter. A `usize` has 64 bits, and a format that is not known is none.
-/

set_option autoImplicit false

namespace HopToDesk.Clipboard.Proto

inductive ClipboardFormat
  | text | rtf | html | imageRgba | imagePng | imageSvg | special
deriving DecidableEq, Repr

/-- `message Clipboard`. -/
structure ClipboardMsg where
  compress : Bool := false
  content : ByteArray
  width : Int32 := 0
  height : Int32 := 0
  format : Option ClipboardFormat
  specialName : String := ""
deriving DecidableEq

structure ImageRgba where
  width : UInt64
  height : UInt64
  bytes : ByteArray
deriving DecidableEq

inductive ImageData
  | rgba (rgba : ImageRgba)
  | png (png : ByteArray)
  | svg (svg : String)
deriving DecidableEq

def ImageData.bytes : ImageData → ByteArray
  | .rgba p => p.bytes
  | .png p => p
  | .svg s => s.toUTF8

/-- What is on the clipboard. -/
inductive ClipboardData
  | unsupported
  | text (s : String)
  | html (s : String)
  | rtf (s : String)
  | image (a : ImageData)
  | special (name : String) (data : ByteArray)
  | fileUrl (urls : List String)
  | none
deriving DecidableEq

/-- `as i32`, of a `usize`. -/
def asI32 (n : UInt64) : Int32 := n.toUInt32.toInt32

/-- `as usize`, of an `i32`. -/
def asUsize (i : Int32) : UInt64 := i.toInt64.toUInt64

/-- `hbb_common::compress`. -/
structure Compression where
  compress : ByteArray → ByteArray
  decompress : ByteArray → ByteArray

namespace Compression

variable (z : Compression)

def plainToProto (s : String) (format : ClipboardFormat) : ClipboardMsg :=
  let compressed := z.compress s.toUTF8
  let compress := decide (compressed.size < s.toUTF8.size)
  let content := if compress then compressed else s.toUTF8
  { compress, content, format := format }

def imageToProto (a : ImageData) : ClipboardMsg :=
  match a with
  | .rgba rgba =>
    let compressed := z.compress a.bytes
    let compress := decide (compressed.size < a.bytes.size)
    let content := if compress then compressed else a.bytes
    { compress, content, width := asI32 rgba.width, height := asI32 rgba.height,
      format := some .imageRgba }
  | .png png => { compress := false, content := png, format := some .imagePng }
  | .svg _ =>
    let compressed := z.compress a.bytes
    let compress := decide (compressed.size < a.bytes.size)
    let content := if compress then compressed else a.bytes
    { compress, content, format := some .imageSvg }

def specialToProto (d : ByteArray) (s : String) : ClipboardMsg :=
  let compressed := z.compress d
  let compress := decide (compressed.size < d.size)
  -- not the data but the name
  let content := if compress then compressed else s.toUTF8
  { compress, content, format := some .special, specialName := s }

def clipboardDataToProto : ClipboardData → Option ClipboardMsg
  | .text s => some (z.plainToProto s .text)
  | .rtf s => some (z.plainToProto s .rtf)
  | .html s => some (z.plainToProto s .html)
  | .image a => some (z.imageToProto a)
  | .special s d => some (z.specialToProto d s)
  | _ => none

/-- `create_multi_clipboards`: the clipboards of the message. -/
def createMultiClipboards (vecData : List ClipboardData) : List ClipboardMsg :=
  vecData.filterMap z.clipboardDataToProto

def fromClipboard (clipboard : ClipboardMsg) : Option ClipboardData :=
  let data := if clipboard.compress then z.decompress clipboard.content else clipboard.content
  match clipboard.format with
  | some .text => (String.fromUTF8? data).map .text
  | some .rtf => (String.fromUTF8? data).map .rtf
  | some .html => (String.fromUTF8? data).map .html
  | some .imageRgba =>
    some (.image (.rgba ⟨asUsize clipboard.width, asUsize clipboard.height, data⟩))
  | some .imagePng => some (.image (.png data))
  | some .imageSvg => some (.image (.svg ((String.fromUTF8? data).getD "")))
  | some .special => some (.special clipboard.specialName data)
  | none => none

def fromMultiClipbards (multiClipboards : List ClipboardMsg) : List ClipboardData :=
  multiClipboards.filterMap z.fromClipboard

end Compression

/-- A size that is the same as an `i32`, sign and all. -/
def FitsI32 (n : UInt64) : Prop := n.toNat < 2 ^ 31 ∨ 2 ^ 64 - 2 ^ 31 ≤ n.toNat

/-- What comes back as it was: a picture's sizes fit, and the data of a special format gets shorter
when compressed, or is its name. The last two are not sent at all, nor is what is not supported. -/
def ClipboardData.ComesBack (z : Compression) : ClipboardData → Prop
  | .text _ | .rtf _ | .html _ => True
  | .image (.rgba rgba) => FitsI32 rgba.width ∧ FitsI32 rgba.height
  | .image _ => True
  | .special name data => (z.compress data).size < data.size ∨ data = name.toUTF8
  | .unsupported | .fileUrl _ | .none => False

end HopToDesk.Clipboard.Proto

/-!
## What comes back of a clipboard

Each encoder sends its bytes compressed or as they are, and either way they are read as they were
(`read_sent`), except in a special format, whose plain form is its name. A list comes back exactly
when each of its items does (`fromMultiClipbards_createMultiClipboards_iff`).
-/

namespace HopToDesk.Clipboard.Proto

/-! ### Sizes -/

theorem toInt_asI32 (n : UInt64) : (asI32 n).toInt = (n.toNat : Int).bmod (2 ^ 32) := by
  have hbits : (asI32 n).toInt = ((n.toUInt32.toNat : Nat) : Int).bmod (2 ^ 32) :=
    BitVec.toInt_eq_toNat_bmod _
  rw [hbits, UInt64.toNat_toUInt32, Int.natCast_mod, Nat.cast_pow, Nat.cast_ofNat]
  exact Int.emod_bmod ..

theorem bmod_toNat_asUsize (i : Int32) : ((asUsize i).toNat : Int).bmod (2 ^ 64) = i.toInt := by
  rw [← Int32.toInt_toInt64]
  exact (BitVec.toInt_eq_toNat_bmod _).symm

/-- A size comes back exactly when it is the same as an `i32`. -/
theorem asUsize_asI32_iff {n : UInt64} : asUsize (asI32 n) = n ↔ FitsI32 n := by
  have hsame := (bmod_toNat_asUsize (asI32 n)).trans (toInt_asI32 n)
  have hlt := (asUsize (asI32 n)).toNat_lt
  have hlt' := n.toNat_lt
  rw [← UInt64.toNat_inj, FitsI32]
  simp only [Int.bmod_def] at hsame
  constructor
  · intro heq
    rw [heq] at hsame
    split_ifs at hsame <;> omega
  · intro hfits
    split_ifs at hsame <;> omega

/-! ### Items -/

theorem fromUTF8?_toUTF8 (s : String) : String.fromUTF8? s.toUTF8 = some s := by
  unfold String.fromUTF8?
  exact dif_pos s.isValidUTF8

namespace Compression

variable {z : Compression} (hz : ∀ data, z.decompress (z.compress data) = data)

include hz in
/-- What is sent compressed if that is shorter is read as it was. -/
theorem read_sent (data : ByteArray) (compress : Bool) :
    (if compress then z.decompress (if compress then z.compress data else data)
      else if compress then z.compress data else data) = data := by
  cases compress with
  | true => exact hz data
  | false => rfl

include hz in
/-- Of a special format that is not compressed the name is read. -/
theorem read_special (data : ByteArray) (name : String) :
    (if decide ((z.compress data).size < data.size) then
        z.decompress (if decide ((z.compress data).size < data.size) then z.compress data
          else name.toUTF8)
      else if decide ((z.compress data).size < data.size) then z.compress data
        else name.toUTF8) = data ↔
      (z.compress data).size < data.size ∨ data = name.toUTF8 := by
  by_cases h : (z.compress data).size < data.size
  · simp only [h, decide_true, if_true, hz, true_or]
  · simp only [h, decide_false, Bool.false_eq_true, if_false, false_or]
    exact eq_comm

include hz in
/-- **An item comes back** exactly when it is of a kind that is sent, its sizes fit, and its data is
not given up for its name. -/
theorem bind_fromClipboard_iff (d : ClipboardData) :
    (z.clipboardDataToProto d).bind z.fromClipboard = some d ↔ d.ComesBack z := by
  cases d with
  | unsupported | fileUrl urls | none => exact iff_of_false nofun id
  | text s | html s | rtf s =>
    refine iff_of_true ?_ trivial
    simp only [clipboardDataToProto, plainToProto, Option.bind_some, fromClipboard, read_sent hz,
      fromUTF8?_toUTF8, Option.map_some]
  | special name data =>
    simp only [clipboardDataToProto, specialToProto, Option.bind_some, fromClipboard,
      Option.some.injEq, ClipboardData.special.injEq, true_and, read_special hz,
      ClipboardData.ComesBack]
  | image a =>
    cases a with
    | png png => exact iff_of_true rfl trivial
    | svg svg =>
      refine iff_of_true ?_ trivial
      simp only [clipboardDataToProto, imageToProto, Option.bind_some, fromClipboard, read_sent hz]
      rw [ImageData.bytes, fromUTF8?_toUTF8, Option.getD_some]
    | rgba rgba =>
      obtain ⟨width, height, bytes⟩ := rgba
      simp only [clipboardDataToProto, imageToProto, Option.bind_some, fromClipboard, read_sent hz]
      simp only [ImageData.bytes, Option.some.injEq, ClipboardData.image.injEq,
        ImageData.rgba.injEq, ImageRgba.mk.injEq, and_true, asUsize_asI32_iff, ClipboardData.ComesBack]

end Compression

/-! ### Lists -/

/-- A list is the same once filtered exactly when each of its items is. -/
theorem filterMap_eq_self_iff {α : Type} {f : α → Option α} {as : List α} :
    as.filterMap f = as ↔ ∀ a ∈ as, f a = some a := by
  induction as with
  | nil => exact iff_of_true rfl fun a ha => nomatch ha
  | cons a as ih =>
    rw [List.filterMap_cons, List.forall_mem_cons, ← ih]
    cases ha : f a with
    | none =>
      refine iff_of_false (fun heq => ?_) (fun h => nomatch h.1)
      have hlength : (as.filterMap f).length = (a :: as).length := congrArg List.length heq
      have hle := List.length_filterMap_le f as
      rw [List.length_cons] at hlength
      omega
    | some b => simp only [List.cons.injEq, Option.some.injEq]

/-- **The round trip.** Where decompressing undoes compressing, what is read of the messages that
are made of a list is the list, with the contents, the names and the sizes, exactly when each of its
items comes back. -/
theorem fromMultiClipbards_createMultiClipboards_iff (z : Compression)
    (hz : ∀ data, z.decompress (z.compress data) = data) (vecData : List ClipboardData) :
    z.fromMultiClipbards (z.createMultiClipboards vecData) = vecData ↔
      ∀ d ∈ vecData, d.ComesBack z := by
  unfold Compression.fromMultiClipbards Compression.createMultiClipboards
  rw [List.filterMap_filterMap, filterMap_eq_self_iff]
  exact forall₂_congr fun d _ => Compression.bind_fromClipboard_iff hz d

/-- A compression that saves nothing. -/
def stored : Compression where
  compress data := data
  decompress data := data

theorem fromMultiClipbards_createMultiClipboards_iff_stored :
    stored.fromMultiClipbards (stored.createMultiClipboards [.text "a", .special "b" ⟨#[0]⟩]) =
        [.text "a", .special "b" ⟨#[0]⟩] ↔
      ∀ d ∈ [ClipboardData.text "a", .special "b" ⟨#[0]⟩], d.ComesBack stored :=
  fromMultiClipbards_createMultiClipboards_iff stored (fun _ => rfl) _

/-- A special format of one byte comes back as its name. -/
theorem special_reads_name : ¬ ∀ (z : Compression),
    (∀ data, z.decompress (z.compress data) = data) → ∀ vecData : List ClipboardData,
      (∀ d ∈ vecData, ∃ clipboard, z.clipboardDataToProto d = some clipboard) →
      z.fromMultiClipbards (z.createMultiClipboards vecData) = vecData := by
  intro hall
  have hsent : ∀ d ∈ [ClipboardData.special "XML Spreadsheet" ⟨#[0]⟩],
      ∃ clipboard, stored.clipboardDataToProto d = some clipboard := by
    intro d hd
    obtain rfl := List.mem_singleton.mp hd
    exact ⟨_, rfl⟩
  have h := hall stored (fun _ => rfl) _ hsent
  unfold Compression.fromMultiClipbards Compression.createMultiClipboards at h
  rw [List.filterMap_filterMap, filterMap_eq_self_iff] at h
  have hback := (Compression.bind_fromClipboard_iff (fun _ => rfl) _).mp
    (h _ (List.mem_singleton_self _))
  exact absurd hback (by unfold ClipboardData.ComesBack; decide)

end HopToDesk.Clipboard.Proto
