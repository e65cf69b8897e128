import HopToDesk.Clipboard.LocalFile
import HopToDesk.Laws.Clipboard.FileType

/-!
# Writing the list and reading it

A file is written as a record that says what the file is (`describe_asBin`): its kind, its size, the
bits of its mode and its time up to 100 ns come through. Its path comes through when it is text
without a backslash that has no more than 260 code units; a longer one cannot be written.
-/

set_option autoImplicit false

namespace HopToDesk.Clipboard.Unix

open Kit OsPath
open EcmaScript (utf16)

/-! ## Names -/

section Names

variable {t : Text}

/-- Separators are rewritten. -/
def slashes (t : Text) : Text := t.map fun c => if c = '\\' then '/' else c

theorem slashes_eq_self_iff : slashes t = t ↔ '\\' ∉ t := by
  constructor
  · intro h hmem
    rw [← h] at hmem
    obtain ⟨c, -, hc⟩ := List.mem_map.mp hmem
    split at hc
    · cases hc
    next hne => exact hne hc
  · intro h
    refine (List.map_congr_left fun c hc => if_neg ?_).trans (List.map_id' t)
    rintro rfl
    exact h hc

/-- The NULs behind a name are taken off. -/
theorem nameOf_append_nul (n : Nat) : nameOf (t ++ List.replicate n '\x00') = nameOf t := by
  induction n with
  | zero => rw [List.replicate_zero, List.append_nil]
  | succ n ih =>
    rw [← ih, List.replicate_succ', ← List.append_assoc, nameOf, List.map_append,
      List.map_singleton]
    exact List.rdropWhile_concat_pos _ _ _ rfl

theorem nameOf_eq (h : '\x00' ∉ t) : nameOf t = slashes t := by
  refine List.rdropWhile_eq_self_iff.mpr fun hne hnul => ?_
  have hlast := List.getLast_mem hne
  rw [of_decide_eq_true hnul] at hlast
  obtain ⟨c, hc, heq⟩ := List.mem_map.mp hlast
  split at heq
  · cases heq
  · exact h (heq ▸ hc)

end Names

/-! ## Records -/

/-- The fields are read back as they were written. -/
theorem record_of_fields {flags attributes perm time high low : Nat} {block : List UInt8}
    (hblock : block.length = 520) : Record.of (toLe 4 flags ++ List.replicate 32 0 ++
        toLe 4 attributes ++ List.replicate 12 0 ++ toLe 4 perm ++ toLe 8 time ++ toLe 4 high ++
        toLe 4 low ++ block) =
      ⟨flags % 256 ^ 4, attributes % 256 ^ 4, perm % 256 ^ 4, time % 256 ^ 8, high % 256 ^ 4,
        low % 256 ^ 4, block⟩ := by
  simp [Record.of, List.drop_append, ofLe_toLe, hblock, List.drop_eq_nil_of_le,
    List.take_of_length_le]

/-- A record is what its first 592 bytes are. -/
theorem record_of_append {bytes rest : List UInt8} (h : bytes.length = 592) :
    Record.of (bytes ++ rest) = Record.of bytes := by
  have hfield {k n : Nat} (hkn : k + n ≤ 592) :
      ((bytes ++ rest).drop k).take n = (bytes.drop k).take n := by
    rw [List.drop_append_of_le_length (by omega),
      List.take_append_of_le_length (by rw [List.length_drop]; omega)]
  have hflags := hfield (k := 0) (n := 4) (by decide)
  rw [List.drop_zero, List.drop_zero] at hflags
  unfold Record.of
  rw [hflags, hfield (by decide), hfield (by decide), hfield (by decide), hfield (by decide),
    hfield (by decide), hfield (by decide)]

/-- Records that stand one after the other. -/
theorem records_flatten {bins : List (List UInt8)} (h : ∀ bytes ∈ bins, bytes.length = 592) :
    records bins.flatten bins.length = bins.map Record.of := by
  induction bins with
  | nil => rfl
  | cons bytes bins ih =>
    obtain ⟨hbytes, hbins⟩ := List.forall_mem_cons.mp h
    rw [List.flatten_cons, List.length_cons, records_succ, record_of_append hbytes,
      List.drop_left' hbytes, ih hbins, List.map_cons]

namespace LocalFile

variable {w : Utf16String} {f : LocalFile} {bytes : List UInt8}

theorem kindOf_fileAttributes (f : LocalFile) :
    kindOf f.fileAttributes = if f.isDir then .directory else .file := by
  have hbits : ∀ readOnly hidden system isDir archive normal : Bool,
      kindOf ((if readOnly then 0x1 else 0) ||| (if hidden then 0x2 else 0) |||
        (if system then 0x4 else 0) ||| (if isDir then 0x10 else 0) |||
        (if archive then 0x20 else 0) ||| (if normal then 0x80 else 0)) =
      if isDir then .directory else .file := by decide
  exact hbits ..

theorem fileAttributes_lt (f : LocalFile) : f.fileAttributes < 256 ^ 4 := by
  have hbits : ∀ readOnly hidden system isDir archive normal : Bool,
      ((if readOnly then 0x1 else 0) ||| (if hidden then 0x2 else 0) |||
        (if system then 0x4 else 0) ||| (if isDir then 0x10 else 0) |||
        (if archive then 0x20 else 0) ||| (if normal then 0x80 else 0)) < 256 ^ 4 := by decide
  exact hbits ..

/-- The time that a record can hold: whole units of 100 ns since 1970. -/
def heldTime (f : LocalFile) : Nat := f.lastWriteTime.toNat % 2 ^ 64 / 100 * 100

theorem lastModifiedOf_win32Time (f : LocalFile) :
    lastModifiedOf (flags % 256 ^ 4) (f.win32Time % 256 ^ 8) = .ok (f.heldTime : Int) := by
  have htime : f.win32Time % 256 ^ 8 = f.win32Time := by
    refine Nat.mod_eq_of_lt ?_
    unfold win32Time ldapEpochDelta
    omega
  have hset : flags % 256 ^ 4 &&& flagsFdLastWrite ≠ 0 := by decide
  have hnanos : (f.win32Time - ldapEpochDelta) * 100 = f.heldTime := by
    rw [win32Time, Nat.add_sub_cancel]
    rfl
  rw [htime, lastModifiedOf, if_pos ⟨hset, Nat.le_add_left _ _⟩, hnanos]
  refine if_pos ?_
  unfold heldTime
  omega

/-- The halves of a size are put together again. -/
theorem size_halves (f : LocalFile) : UInt64.ofNat (f.size.toNat / 2 ^ 32 % 256 ^ 4 * 2 ^ 32 +
    f.size.toNat % 2 ^ 32 % 256 ^ 4) = f.size := by
  have hsize : f.size.toNat < 2 ^ 64 := f.size.toNat_lt
  have hsum : f.size.toNat / 2 ^ 32 % 256 ^ 4 * 2 ^ 32 + f.size.toNat % 2 ^ 32 % 256 ^ 4 =
      f.size.toNat := by omega
  rw [hsum, UInt64.ofNat_toNat]

/-- The mode is given, so its bits are the permissions. -/
theorem permOf_flags (f : LocalFile) (attributes : Nat) :
    permOf (flags % 256 ^ 4) attributes (f.perm.toNat % 256 ^ 4) = f.perm.toUInt16 := by
  have hset : flags % 256 ^ 4 &&& flagsFdUnixMode ≠ 0 := by decide
  unfold permOf
  dsimp only
  have hperm : f.perm.toNat % 256 ^ 4 = f.perm.toNat := Nat.mod_eq_of_lt f.perm.toNat_lt
  rw [if_pos hset, hperm]
  rfl

/-- What the other side makes of a file. -/
def described (f : LocalFile) (connId : Int32) : FileDescription where
  connId
  name := nameOf (Text.fromUtf8Lossy f.relativePath)
  kind := if f.isDir then .directory else .file
  atime := f.heldTime
  lastModified := f.heldTime
  lastMetadataChanged := f.heldTime
  creationTime := f.heldTime
  size := f.size
  perm := f.perm.toUInt16

/-- A name fits its block, and is read from it. -/
theorem fromUtf16le_block (hw : w.Standard) {t : Text} (h : (w.asBytes t).length ≤ 520) :
    (w.asBytes t ++ List.replicate (520 - (w.asBytes t).length) 0).length = 520 ∧
      w.fromUtf16le (w.asBytes t ++ List.replicate (520 - (w.asBytes t).length) 0) =
        some (t ++ List.replicate (260 - (utf16 t).length) '\x00') := by
  constructor
  · rw [List.length_append, List.length_replicate]
    omega
  · have hlength : (w.asBytes t).length = 2 * (utf16 t).length := by
      rw [hw.asBytes, Text.length_utf16le]
    have hrest : 520 - (w.asBytes t).length = 2 * (260 - (utf16 t).length) := by omega
    rw [hrest, ← Text.utf16le_replicate_nul, hw.asBytes, ← Text.utf16le_append, hw.fromUtf16le]

/-- **A record is read as the file it was written of.** -/
theorem describe_asBin (hw : w.Standard) (h : f.asBin w = some bytes) (connId : Int32) :
    bytes.length = 592 ∧ (Record.of bytes).describe w connId = .ok (f.described connId) := by
  unfold asBin at h
  dsimp only at h
  split at h
  next => cases h
  next hfits =>
    obtain ⟨hlength, hblock⟩ := fromUtf16le_block hw (Nat.not_lt.mp hfits)
    obtain rfl := Option.some.inj h
    constructor
    · simp only [List.length_append, length_toLe, List.length_replicate] at hlength ⊢
      omega
    · rw [record_of_fields hlength]
      have hsized (block : List UInt8) : Record.Sized ⟨flags % 256 ^ 4,
          f.fileAttributes % 256 ^ 4, f.perm.toNat % 256 ^ 4, f.win32Time % 256 ^ 8,
          f.size.toNat / 2 ^ 32 % 256 ^ 4, f.size.toNat % 2 ^ 32 % 256 ^ 4, block⟩ :=
        ⟨Nat.mod_lt _ (by decide), Nat.mod_lt _ (by decide)⟩
      have hattributes : flags % 256 ^ 4 &&& flagsFdAttributes ≠ 0 := by decide
      rw [Record.describe_eq (hsized _) hblock hattributes]
      dsimp only
      rw [lastModifiedOf_win32Time]
      have hkind : kindOf (f.fileAttributes % 256 ^ 4) = if f.isDir then .directory else .file := by
        rw [Nat.mod_eq_of_lt f.fileAttributes_lt, f.kindOf_fileAttributes]
      show Except.ok (Record.file _ _ _ _) = .ok (described f connId)
      unfold Record.file described
      rw [nameOf_append_nul, hkind, f.size_halves, f.permOf_flags]

end LocalFile

/-! ## The list -/

section List

variable {w : Utf16String} {files : List LocalFile} {bins : List (List UInt8)} {connId : Int32}

/-- Records have 592 bytes each. -/
theorem length_bins (hw : w.Standard)
    (h : List.Forall₂ (fun f bytes => LocalFile.asBin w f = some bytes) files bins) :
    (∀ bytes ∈ bins, bytes.length = 592) ∧ bins.flatten.length = 592 * files.length := by
  induction h with
  | nil => exact ⟨List.forall_mem_nil _, rfl⟩
  | cons hbytes hbins ih =>
    have hlength := (LocalFile.describe_asBin hw hbytes 0).1
    refine ⟨List.forall_mem_cons.mpr ⟨hlength, ih.1⟩, ?_⟩
    rw [List.flatten_cons, List.length_append, List.length_cons, hlength, ih.2, Nat.mul_succ,
      Nat.add_comm]

/-- **A list that is written is read, when its files can be counted.** -/
theorem parse_built (hw : w.Standard) (h : files.mapM (LocalFile.asBin w) = some bins)
    (connId : Int32) :
    parseFileDescriptors w (toLe 4 files.length ++ bins.flatten) connId =
      if files.length < 2 ^ 32 then .ok (files.map fun f => f.described connId)
      else .error (.error (.invalidRequest
        "file descriptor request with invalid length".toList)) := by
  have hbins := mapM_eq_some_iff.mp h
  obtain ⟨hsized, hlength⟩ := length_bins hw hbins
  have hcount : ofLe ((toLe 4 files.length ++ bins.flatten).take 4) = files.length % 2 ^ 32 := by
    rw [List.take_left' (length_toLe ..), ofLe_toLe]
    rfl
  have hdata : (toLe 4 files.length ++ bins.flatten).drop 4 = bins.flatten :=
    List.drop_left' (length_toLe ..)
  have hlong : ¬ (toLe 4 files.length ++ bins.flatten).length < 4 := by
    rw [List.length_append, length_toLe]
    omega
  rw [parseFileDescriptors_eq, if_neg hlong, hdata, hcount, hlength]
  by_cases hfew : files.length < 2 ^ 32
  · rw [Nat.mod_eq_of_lt hfew, if_neg (not_not_intro rfl), if_pos hfew, hbins.length_eq,
      records_flatten hsized]
    refine mapM_eq_ok (List.forall₂_map_left_iff.mpr (List.forall₂_map_right_iff.mpr ?_))
    exact hbins.flip.imp fun _ _ hbytes => (LocalFile.describe_asBin hw hbytes connId).2
  · have hmany : 592 * files.length ≠ 592 * (files.length % 2 ^ 32) := by
      have hlt : files.length % 2 ^ 32 < 2 ^ 32 := Nat.mod_lt _ (by decide)
      omega
    rw [if_pos hmany, if_neg hfew]

/-- Each file was told of by the system under its path. -/
def Told (fs : FileSystem) (files : List LocalFile) : Prop :=
  ∀ f ∈ files, ∃ mt, fs.stat f.path = .ok mt

variable {fs : FileSystem}

theorem told_constrFileLst {relativeRoot : OsStr} {fuel : Nat} {path : OsStr} {walk walk' : Walk}
    (h : constrFileLst fs relativeRoot fuel path walk = .ok walk') (hwalk : Told fs walk.1) :
    Told fs walk'.1 := by
  induction fuel generalizing path walk walk' with
  | zero => cases h
  | succ fuel ih =>
    unfold constrFileLst LocalFile.tryOpen at h
    split at h
    next =>
      cases h
      exact hwalk
    next =>
      cases hstat : fs.stat path with
      | error err =>
        rw [hstat] at h
        cases h
      | ok mt =>
        rw [hstat] at h
        dsimp only at h
        have hpushed {f : LocalFile} (hf : f.path = path) : Told fs (walk.1 ++ [f]) := by
          refine List.forall_mem_append.mpr ⟨hwalk, List.forall_mem_singleton.mpr ⟨mt, ?_⟩⟩
          rw [hf, hstat]
        split at h
        next =>
          split at h
          next => cases h
          next dir hdir =>
            refine foldlM_keeps (I := fun walk => Told fs walk.1) ?_ h (hpushed rfl)
            intro entry s s' hs hI
            cases entry with
            | error err => cases hs
            | ok name => exact ih hs hI
        next =>
          cases h
          exact hpushed rfl

/-- What is listed is there. -/
theorem told_constructFileList {fuel : Nat} {paths : List OsStr}
    (h : constructFileList fs fuel paths = .ok files) : Told fs files := by
  unfold constructFileList at h
  split at h
  next => cases h
  next first rest =>
    split at h
    next => cases h
    next relativeRoot hparent =>
      cases hwalk : (first :: rest).foldlM
          (fun walk path => constrFileLst fs relativeRoot fuel path walk) (([], []) : Walk) with
      | error err =>
        rw [hwalk] at h
        cases h
      | ok walk =>
        rw [hwalk] at h
        obtain rfl := Except.ok.inj h
        exact foldlM_keeps (I := fun walk => Told fs walk.1)
          (fun hs hI => told_constrFileLst hs hI) hwalk fun _ hf => absurd hf List.not_mem_nil

end List

/-! ## The paths -/

namespace LocalFile

variable {f : LocalFile}

/-- No path that the system knows has a NUL in it. -/
theorem nul_not_mem_relativePath {fs : FileSystem} {mt : Metadata} (h : fs.stat f.path = .ok mt) :
    0 ∉ f.relativePath := by
  have hpath : 0 ∉ f.path := by
    intro hnul
    rw [FileSystem.stat, if_pos hnul] at h
    cases h
  unfold relativePath
  cases hrest : stripPrefix f.path f.relativeRoot with
  | none => exact hpath
  | some rest => exact fun hnul => hpath (mem_of_stripPrefix hrest hnul (by decide))

/-- The path is text, has no backslash and fits its block. -/
def Plain (f : LocalFile) : Prop :=
  ∃ t, f.relativePath = Text.utf8 t ∧ (utf16 t).length ≤ 260 ∧ '\\' ∉ t

/-- This is the file, as far as a record tells it. -/
structure Describes (f : LocalFile) (d : FileDescription) : Prop where
  name : Text.utf8 d.name = f.relativePath
  kind : d.kind = if f.isDir then .directory else .file
  size : d.size = f.size
  perm : d.perm = f.perm.toUInt16
  lastModified : d.lastModified = f.lastWriteTime / 100 * 100

/-- Modified from 1970 on, and before the year 2500. -/
def Timely (f : LocalFile) : Prop :=
  0 ≤ f.lastWriteTime ∧ f.lastWriteTime < 16725225600 * 10 ^ 9

variable {w : Utf16String}

theorem asBin_isSome_iff (hw : w.Standard) :
    (∃ bytes, f.asBin w = some bytes) ↔
      (utf16 (Text.fromUtf8Lossy f.relativePath)).length ≤ 260 := by
  have hlength : (w.asBytes (Text.fromUtf8Lossy f.relativePath)).length =
      2 * (utf16 (Text.fromUtf8Lossy f.relativePath)).length := by
    rw [hw.asBytes, Text.length_utf16le]
  unfold asBin
  dsimp only
  split
  next hlong =>
    refine iff_of_false ?_ (by omega)
    rintro ⟨bytes, hbytes⟩
    cases hbytes
  next hfits => exact iff_of_true ⟨_, rfl⟩ (by omega)

/-- The path comes back, and fits, where it is plain. -/
theorem plain_iff (hnul : 0 ∉ f.relativePath) :
    f.Plain ↔ (utf16 (Text.fromUtf8Lossy f.relativePath)).length ≤ 260 ∧
      Text.utf8 (nameOf (Text.fromUtf8Lossy f.relativePath)) = f.relativePath := by
  constructor
  · rintro ⟨t, ht, hfits, hplain⟩
    have hends : '\x00' ∉ t := by
      intro hmem
      refine hnul (ht ▸ List.mem_flatMap.mpr ⟨_, hmem, ?_⟩)
      decide
    rw [ht, Text.fromUtf8Lossy_utf8, nameOf_eq hends, slashes_eq_self_iff.mpr hplain]
    exact ⟨hfits, rfl⟩
  · rintro ⟨hfits, hback⟩
    have hname : Text.fromUtf8Lossy f.relativePath =
        nameOf (Text.fromUtf8Lossy f.relativePath) := by
      conv_lhs => rw [← hback, Text.fromUtf8Lossy_utf8]
    refine ⟨_, hback.symm, hname ▸ hfits, ?_⟩
    intro hmem
    obtain ⟨c, -, hc⟩ := List.mem_map.mp ((List.rdropWhile_prefix _ _).subset hmem)
    split at hc
    · cases hc
    next hne => exact hne hc

/-- Of what is read of a file, only the name may be wrong. -/
theorem describes_described_iff (htime : f.Timely) (connId : Int32) :
    f.Describes (f.described connId) ↔
      Text.utf8 (nameOf (Text.fromUtf8Lossy f.relativePath)) = f.relativePath := by
  refine ⟨Describes.name, fun hname => ⟨hname, rfl, rfl, rfl, ?_⟩⟩
  have hheld (t : Int) (hfrom : 0 ≤ t) (hbefore : t < 16725225600 * 10 ^ 9) :
      ((t.toNat % 2 ^ 64 / 100 * 100 : Nat) : Int) = t / 100 * 100 := by omega
  exact hheld f.lastWriteTime htime.1 htime.2

end LocalFile

/-- The list is written, and read as those files in that order. -/
def RoundTrips (w : Utf16String) (connId : Int32) (files : List LocalFile) : Prop :=
  ∃ pdu descs, buildFileListPdu w files = some pdu ∧
    parseFileDescriptors w pdu connId = .ok descs ∧ List.Forall₂ LocalFile.Describes files descs

section RoundTrip

variable {w : Utf16String} {files : List LocalFile}

/-- **Exactly the lists of plain paths that can be counted are read as they were written.** -/
theorem round_trips_iff (hw : w.Standard) {fs : FileSystem} {fuel : Nat} {paths : List OsStr}
    (h : constructFileList fs fuel paths = .ok files) (htime : ∀ f ∈ files, f.Timely)
    (connId : Int32) :
    RoundTrips w connId files ↔ files.length < 2 ^ 32 ∧ ∀ f ∈ files, f.Plain := by
  have hnul : ∀ f ∈ files, 0 ∉ f.relativePath := by
    intro f hf
    obtain ⟨mt, hmt⟩ := told_constructFileList h f hf
    exact LocalFile.nul_not_mem_relativePath hmt
  have hfits : (∃ bins, files.mapM (LocalFile.asBin w) = some bins) ↔
      ∀ f ∈ files, (utf16 (Text.fromUtf8Lossy f.relativePath)).length ≤ 260 :=
    exists_mapM_iff.trans (forall₂_congr fun f _ => LocalFile.asBin_isSome_iff hw)
  constructor
  · rintro ⟨pdu, descs, hpdu, hdescs, hall⟩
    obtain ⟨bins, hbins, rfl⟩ := Option.map_eq_some_iff.mp hpdu
    rw [parse_built hw hbins] at hdescs
    split at hdescs
    next hfew =>
      obtain rfl := Except.ok.inj hdescs
      refine ⟨hfew, fun f hf => (LocalFile.plain_iff (hnul f hf)).mpr ?_⟩
      exact ⟨hfits.mp ⟨bins, hbins⟩ f hf,
        (LocalFile.describes_described_iff (htime f hf) connId).mp
          (List.forall₂_same.mp (List.forall₂_map_right_iff.mp hall) f hf)⟩
    next => cases hdescs
  · rintro ⟨hfew, hplain⟩
    have hback (f : LocalFile) (hf : f ∈ files) :=
      (LocalFile.plain_iff (hnul f hf)).mp (hplain f hf)
    obtain ⟨bins, hbins⟩ := hfits.mpr fun f hf => (hback f hf).1
    refine ⟨_, _, Option.map_eq_some_iff.mpr ⟨bins, hbins, rfl⟩,
      (parse_built hw hbins connId).trans (if_pos hfew),
      List.forall₂_map_right_iff.mpr (List.forall₂_same.mpr fun f hf => ?_)⟩
    exact (LocalFile.describes_described_iff (htime f hf) connId).mpr (hback f hf).2

/-- A directory under the root with an empty file in it, made in 1970. -/
def oneDirectory (dir name : OsStr) : FileSystem where
  metadata path := .ok ⟨0, path = slash :: dir, false, some 0, 0o644⟩
  readDir _ := .ok [.ok name]

/-- The directory and the file. -/
def oneListing (dir name : OsStr) : List LocalFile :=
  [⟨[slash], slash :: dir, 0, 0, true, 0o644, false, false, false, false, false⟩,
    ⟨[slash], slash :: dir ++ slash :: name, 0, 0, false, 0o644, false, false, false, false, true⟩]

theorem timely_oneListing (dir name : OsStr) : ∀ f ∈ oneListing dir name, f.Timely := by
  have hnow : (0 : Int) ≤ 0 ∧ (0 : Int) < 16725225600 * 10 ^ 9 := by decide
  exact List.forall_mem_cons.mpr ⟨hnow, List.forall_mem_singleton.mpr hnow⟩

/-- A directory `a` with a file `b`. -/
theorem round_trips_short : RoundTrips utf16String 1 (oneListing [97] [98]) := by
  have hlist : constructFileList (oneDirectory [97] [98]) 2 [[slash, 97]] =
      .ok (oneListing [97] [98]) := by decide +kernel
  refine (round_trips_iff standard_utf16String hlist (timely_oneListing _ _) 1).mpr
    ⟨by decide, ?_⟩
  intro f hf
  fin_cases hf
  · exact ⟨['a'], by decide, by decide, by decide⟩
  · exact ⟨['a', '/', 'b'], by decide, by decide, by decide⟩

/-- The list of a directory and a file in it, each with a name of 130 letters, is not written. -/
theorem long_path_panics : ¬ ∀ (fs : FileSystem) (fuel : Nat) (paths : List OsStr)
    (files : List LocalFile) (connId : Int32), constructFileList fs fuel paths = .ok files →
      (∀ f ∈ files, f.Timely) → RoundTrips utf16String connId files := by
  intro hall
  have hlist : constructFileList (oneDirectory (List.replicate 130 97) (List.replicate 130 97)) 2
      [slash :: List.replicate 130 97] =
        .ok (oneListing (List.replicate 130 97) (List.replicate 130 97)) := by decide +kernel
  have hpanic : buildFileListPdu utf16String
      (oneListing (List.replicate 130 97) (List.replicate 130 97)) = none := by decide +kernel
  obtain ⟨pdu, descs, hpdu, -⟩ := hall _ _ _ _ 1 hlist (timely_oneListing _ _)
  cases hpanic.symm.trans hpdu

end RoundTrip

end HopToDesk.Clipboard.Unix
