import HopToDesk.Clipboard.FileType

/-!
# Reading the peer's list

The list is as long as its records, so nothing is read that is not there. What a record is read as
depends on its fields only (`Record.describe`), and the one thing that may go wrong is its time: a
time that is given in units of 100 ns may be too large for nanoseconds.
-/

set_option autoImplicit false

namespace HopToDesk.Clipboard.Unix

open Kit UnixPath

/-! ## One record -/

namespace Record

/-- What a record says. -/
def describe (w : Utf16String) (connId : Int32) (r : Record) : Except Stop FileDescription := do
  let wstr ← w.read r.block
  if r.flags &&& flagsFdAttributes = 0 then
    .error (.error (.invalidRequest "file description must have valid attributes".toList))
  else
    let size ← sizeFrom r.fileSizeHigh r.fileSizeLow
    let lastModified ← lastModifiedOf r.flags r.lastWriteTime
    pure {
      connId
      name := nameOf wstr
      kind := kindOf r.attributes
      atime := lastModified
      lastModified
      lastMetadataChanged := lastModified
      creationTime := lastModified
      size
      perm := permOf r.flags r.attributes r.perm }

end Record

variable {w : Utf16String} {connId : Int32} {s : List UInt8}

/-- **A record is read as what it says**, and nothing outside it is read. -/
theorem parseFileDescriptor_eq (h : 592 ≤ s.length) :
    parseFileDescriptor w connId s = ((Record.of s).describe w connId, s.drop 592) := by
  unfold parseFileDescriptor
  rw [Fallible.bind_of_eq (Cursor.getLe_eq (by omega)),
    Fallible.bind_of_eq (Cursor.advance_eq (by rw [List.length_drop]; omega)), List.drop_drop,
    Fallible.bind_of_eq (Cursor.getLe_eq (by rw [List.length_drop]; omega)), List.drop_drop,
    Fallible.bind_of_eq (Cursor.advance_eq (by rw [List.length_drop]; omega)), List.drop_drop,
    Fallible.bind_of_eq (Cursor.getLe_eq (by rw [List.length_drop]; omega)), List.drop_drop,
    Fallible.bind_of_eq (Cursor.getLe_eq (by rw [List.length_drop]; omega)), List.drop_drop,
    Fallible.bind_of_eq (Cursor.getLe_eq (by rw [List.length_drop]; omega)), List.drop_drop,
    Fallible.bind_of_eq (Cursor.getLe_eq (by rw [List.length_drop]; omega)), List.drop_drop]
  have hget : (Fallible.get : Fallible (List UInt8) Stop (List UInt8)) (s.drop 72) =
      (.ok (s.drop 72), s.drop 72) := rfl
  have hblock : 520 ≤ (s.drop 72).length := by
    rw [List.length_drop]
    omega
  have hslice : slice (s.drop 72) 520 = .ok ((s.drop 72).take 520) := if_pos hblock
  rw [Fallible.bind_of_eq hget, Fallible.bind_of_eq (Cursor.advance_eq hblock), List.drop_drop,
    hslice, Fallible.bind_of_eq (m := Fallible.ofExcept _) rfl]
  refine Fallible.bind_ofExcept fun wstr => ?_
  have hflags : (Record.of s).flags = ofLe (s.take 4) := rfl
  rw [hflags]
  by_cases hattributes : ofLe (s.take 4) &&& flagsFdAttributes = 0
  · rw [if_pos hattributes, if_pos hattributes]
    rfl
  · rw [if_neg hattributes, if_neg hattributes]
    refine Fallible.bind_ofExcept fun size => ?_
    refine Fallible.bind_ofExcept fun lastModified => ?_
    rfl

/-- Whatever the bytes are, and however the reading ends, it only moves on. -/
theorem keeps_parseFileDescriptor (w : Utf16String) (connId : Int32) (bytes : List UInt8) :
    Fallible.Keeps (· <:+ bytes) (parseFileDescriptor w connId) := by
  unfold parseFileDescriptor
  refine (Cursor.keeps_getLe _ _ bytes).bind fun flags => ?_
  refine (Cursor.keeps_advance _ _ bytes).bind fun _ => ?_
  refine (Cursor.keeps_getLe _ _ bytes).bind fun attributes => ?_
  refine (Cursor.keeps_advance _ _ bytes).bind fun _ => ?_
  refine (Cursor.keeps_getLe _ _ bytes).bind fun perm => ?_
  refine (Cursor.keeps_getLe _ _ bytes).bind fun lastWriteTime => ?_
  refine (Cursor.keeps_getLe _ _ bytes).bind fun fileSizeHigh => ?_
  refine (Cursor.keeps_getLe _ _ bytes).bind fun fileSizeLow => ?_
  refine Fallible.keeps_get.bind fun block => ?_
  refine (Cursor.keeps_advance _ _ bytes).bind fun _ => ?_
  refine (Fallible.keeps_ofExcept _).bind fun block => ?_
  refine (Fallible.keeps_ofExcept _).bind fun wstr => ?_
  split
  · exact Fallible.keeps_fail _
  · refine (Fallible.keeps_ofExcept _).bind fun size => ?_
    refine (Fallible.keeps_ofExcept _).bind fun lastModified => ?_
    exact Fallible.keeps_pure _

/-- So does the reading of the list. -/
theorem keeps_parseMany (w : Utf16String) (connId : Int32) (count : Nat) (bytes : List UInt8) :
    Fallible.Keeps (· <:+ bytes) (parseMany w connId count) := by
  induction count with
  | zero => exact Fallible.keeps_pure _
  | succ count ih =>
    refine (keeps_parseFileDescriptor w connId bytes).bind fun desc => ?_
    exact ih.bind fun descs => Fallible.keeps_pure _

theorem records_succ (bytes : List UInt8) (count : Nat) :
    records bytes (count + 1) = .of bytes :: records (bytes.drop 592) count := by
  rw [records, records, List.range_succ_eq_map, List.map_cons, List.map_map]
  refine congrArg₂ List.cons rfl (List.map_congr_left fun i _ => ?_)
  rw [Function.comp_apply, List.drop_drop, Nat.mul_succ, Nat.add_comm]

/-- **The records are read one after the other.** -/
theorem parseMany_eq {count : Nat} (h : 592 * count ≤ s.length) :
    (parseMany w connId count s).1 = (records s count).mapM (Record.describe w connId) := by
  induction count generalizing s with
  | zero => rfl
  | succ count ih =>
    have hfirst : parseFileDescriptor w connId s =
        ((Record.of s).describe w connId, s.drop 592) := parseFileDescriptor_eq (by omega)
    have hrest := ih (s := s.drop 592) (by rw [List.length_drop]; omega)
    rw [parseMany, records_succ, List.mapM_cons, ← hrest]
    show (Fallible.bind _ _ s).1 = _
    unfold Fallible.bind
    rw [hfirst]
    cases (Record.of s).describe w connId with
    | error stop => rfl
    | ok desc =>
      show (Fallible.bind _ _ (s.drop 592)).1 = _
      unfold Fallible.bind
      rcases parseMany w connId count (s.drop 592) with ⟨_ | descs, s'⟩
      · rfl
      · rfl

/-- **The list is its records**, where its length is right. -/
theorem parseFileDescriptors_eq (w : Utf16String) (pdu : List UInt8) (connId : Int32) :
    parseFileDescriptors w pdu connId =
      if pdu.length < 4 then
        .error (.error (.invalidRequest "file descriptor request with infficient length".toList))
      else if (pdu.drop 4).length ≠ 592 * ofLe (pdu.take 4) then
        .error (.error (.invalidRequest "file descriptor request with invalid length".toList))
      else (records (pdu.drop 4) (ofLe (pdu.take 4))).mapM (Record.describe w connId) := by
  unfold parseFileDescriptors
  dsimp only
  by_cases hshort : pdu.length < 4
  · rw [if_pos hshort, if_pos hshort]
    rfl
  · have hget : (Fallible.get : Fallible (List UInt8) Stop (List UInt8)) (pdu.drop 4) =
        (.ok (pdu.drop 4), pdu.drop 4) := rfl
    rw [if_neg hshort, if_neg hshort,
      Fallible.bind_of_eq (Cursor.getLe_eq (Nat.not_lt.mp hshort)), Fallible.bind_of_eq hget]
    by_cases hempty : (pdu.drop 4).length = 0 ∧ ofLe (pdu.take 4) = 0
    · rw [if_pos hempty, hempty.1, hempty.2]
      rfl
    · rw [if_neg hempty]
      by_cases hlength : (pdu.drop 4).length ≠ 592 * ofLe (pdu.take 4)
      · rw [if_pos hlength, if_pos hlength]
        rfl
      · rw [if_neg hlength, if_neg hlength]
        exact parseMany_eq (not_ne_iff.mp hlength).ge

/-! ## What may go wrong -/

/-- It returns: no panic. -/
def Returns {α : Type} (r : Except Stop α) : Prop := ∀ stop, r = .error stop → ∃ e, stop = .error e

section Returns

variable {α : Type}

theorem returns_ok (a : α) : Returns (.ok a : Except Stop α) := by
  intro stop hstop
  cases hstop

theorem returns_error (e : CliprdrError) : Returns (.error (.error e) : Except Stop α) := by
  intro stop hstop
  cases hstop
  exact ⟨e, rfl⟩

theorem not_returns_overflow : ¬ Returns (.error .overflow : Except Stop α) := by
  intro h
  obtain ⟨e, he⟩ := h _ rfl
  cases he

end Returns

namespace Record

/-- The name is UTF-16, and the attributes are there. -/
def Reads (w : Utf16String) (r : Record) : Prop :=
  w.fromUtf16le r.block ≠ none ∧ r.flags &&& flagsFdAttributes ≠ 0

/-- The time, if there is one, is in nanoseconds a number of 64 bits. -/
def TimeFits (r : Record) : Prop :=
  r.flags &&& flagsFdLastWrite ≠ 0 → ldapEpochDelta ≤ r.lastWriteTime →
    (r.lastWriteTime - ldapEpochDelta) * 100 < 2 ^ 64

/-- The sizes are numbers of 32 bits. -/
def Sized (r : Record) : Prop := r.fileSizeHigh < 2 ^ 32 ∧ r.fileSizeLow < 2 ^ 32

theorem sized_of (bytes : List UInt8) : (of bytes).Sized := by
  have hfour {bs : List UInt8} : ofLe (bs.take 4) < 2 ^ 32 := by
    refine (ofLe_lt _).trans_le ?_
    calc 256 ^ (bs.take 4).length
        ≤ 256 ^ 4 := Nat.pow_le_pow_right (by decide) (List.length_take_le _ _)
      _ = 2 ^ 32 := by decide
  exact ⟨hfour, hfour⟩

end Record

/-- The halves of a size are put together without overflow. -/
theorem sizeFrom_eq {high low : Nat} (hhigh : high < 2 ^ 32) (hlow : low < 2 ^ 32) :
    sizeFrom high low = .ok (UInt64.ofNat (high * 2 ^ 32 + low)) := by
  have hshift : high * 2 ^ 32 % 2 ^ 64 = high * 2 ^ 32 := Nat.mod_eq_of_lt (by omega)
  rw [sizeFrom, hshift]
  exact if_pos (by omega)

theorem lastModifiedOf_eq_overflow_iff (flags lastWriteTime : Nat) :
    lastModifiedOf flags lastWriteTime = .error .overflow ↔
      flags &&& flagsFdLastWrite ≠ 0 ∧ ldapEpochDelta ≤ lastWriteTime ∧
        2 ^ 64 ≤ (lastWriteTime - ldapEpochDelta) * 100 := by
  unfold lastModifiedOf
  split
  next h =>
    dsimp only
    split
    next hlt =>
      exact iff_of_false (fun hok => by cases hok) fun hover => Nat.not_lt.mpr hover.2.2 hlt
    next hge => exact iff_of_true rfl ⟨h.1, h.2, Nat.not_lt.mp hge⟩
  next h => exact iff_of_false (fun hok => by cases hok) fun hover => h ⟨hover.1, hover.2.1⟩

theorem lastModifiedOf_cases (flags lastWriteTime : Nat) :
    (∃ t, lastModifiedOf flags lastWriteTime = .ok t) ∨
      lastModifiedOf flags lastWriteTime = .error .overflow := by
  unfold lastModifiedOf
  split
  · dsimp only
    split
    · exact .inl ⟨_, rfl⟩
    · exact .inr rfl
  · exact .inl ⟨_, rfl⟩

namespace Record

variable {r : Record}

theorem timeFits_iff :
    r.TimeFits ↔ lastModifiedOf r.flags r.lastWriteTime ≠ .error .overflow := by
  rw [Ne, lastModifiedOf_eq_overflow_iff, TimeFits]
  simp only [not_and, not_le]

/-- The file of a record, changed at this time. -/
def file (r : Record) (connId : Int32) (wstr : Text) (lastModified : SystemTime) :
    FileDescription where
  connId
  name := nameOf wstr
  kind := kindOf r.attributes
  atime := lastModified
  lastModified
  lastMetadataChanged := lastModified
  creationTime := lastModified
  size := UInt64.ofNat (r.fileSizeHigh * 2 ^ 32 + r.fileSizeLow)
  perm := permOf r.flags r.attributes r.perm

theorem describe_eq (hsized : r.Sized) {wstr : Text} (hblock : w.fromUtf16le r.block = some wstr)
    (hattributes : r.flags &&& flagsFdAttributes ≠ 0) : r.describe w connId =
      (lastModifiedOf r.flags r.lastWriteTime).map (r.file connId wstr) := by
  unfold describe Utf16String.read
  rw [sizeFrom_eq hsized.1 hsized.2, hblock]
  show (if r.flags &&& flagsFdAttributes = 0 then _ else _) = _
  rw [if_neg hattributes]
  cases lastModifiedOf r.flags r.lastWriteTime with
  | error stop => rfl
  | ok lastModified => rfl

theorem describe_of_not_reads (h : ¬ r.Reads w) :
    ∃ e, r.describe w connId = .error (.error e) := by
  unfold describe Utf16String.read
  cases hblock : w.fromUtf16le r.block with
  | none => exact ⟨_, rfl⟩
  | some wstr =>
    have hattributes : r.flags &&& flagsFdAttributes = 0 := by
      by_contra hne
      exact h ⟨by rw [hblock]; exact Option.some_ne_none _, hne⟩
    refine ⟨.invalidRequest "file description must have valid attributes".toList, ?_⟩
    show (if r.flags &&& flagsFdAttributes = 0 then _ else _) = _
    rw [if_pos hattributes]

/-- What is read of a record: an error that is returned, a file, or an overflow. -/
theorem describe_cases (w : Utf16String) (connId : Int32) (hsized : r.Sized) :
    (¬ r.Reads w ∧ ∃ e, r.describe w connId = .error (.error e)) ∨
      (r.Reads w ∧ r.TimeFits ∧ ∃ desc, r.describe w connId = .ok desc) ∨
      (r.Reads w ∧ ¬ r.TimeFits ∧ r.describe w connId = .error .overflow) := by
  by_cases hreads : r.Reads w
  · obtain ⟨wstr, hblock⟩ := Option.ne_none_iff_exists'.mp hreads.1
    rw [describe_eq hsized hblock hreads.2, timeFits_iff]
    rcases lastModifiedOf_cases r.flags r.lastWriteTime with ⟨t, ht⟩ | hover
    · rw [ht]
      exact .inr (.inl ⟨hreads, (fun hover => by cases hover), _, rfl⟩)
    · rw [hover]
      exact .inr (.inr ⟨hreads, fun hne => hne rfl, rfl⟩)
  · exact .inl ⟨hreads, describe_of_not_reads hreads⟩

end Record

/-- Each record behind records that are read, if it is read up to its time, has a time that fits. -/
def TimesFit (w : Utf16String) (rs : List Record) : Prop :=
  ∀ (i : Nat) (r : Record), rs[i]? = some r →
    (∀ r' ∈ rs.take i, r'.Reads w ∧ r'.TimeFits) → r.Reads w → r.TimeFits

/-- What a list of records is read as. -/
theorem returns_mapM_iff {rs : List Record} (hsized : ∀ r ∈ rs, r.Sized) :
    Returns (rs.mapM (Record.describe w connId)) ↔ TimesFit w rs := by
  induction rs with
  | nil =>
    refine iff_of_true (returns_ok []) ?_
    intro i r hr
    cases hr
  | cons r rs ih =>
    obtain ⟨hfirst, hrest⟩ := List.forall_mem_cons.mp hsized
    have hcons : TimesFit w (r :: rs) ↔
        (r.Reads w → r.TimeFits) ∧ (r.Reads w ∧ r.TimeFits → TimesFit w rs) := by
      constructor
      · intro h
        refine ⟨h 0 r rfl (List.forall_mem_nil _), fun hok i r' hr' hbefore => ?_⟩
        exact h (i + 1) r' hr' (List.forall_mem_cons.mpr ⟨hok, hbefore⟩)
      · rintro ⟨h, hlater⟩ i r' hr' hbefore
        cases i with
        | zero =>
          cases hr'
          exact h
        | succ i =>
          obtain ⟨hok, hbefore⟩ := List.forall_mem_cons.mp hbefore
          exact hlater hok i r' hr' hbefore
    rw [hcons, List.mapM_cons]
    rcases Record.describe_cases w connId hfirst with
      ⟨hreads, e, he⟩ | ⟨hreads, hfits, desc, hok⟩ | ⟨hreads, hfits, hover⟩
    · rw [he]
      exact iff_of_true (returns_error e)
        ⟨fun h => absurd h hreads, fun h => absurd h.1 hreads⟩
    · rw [hok, ← ih hrest]
      have hthen : Returns (do
          let desc ← (Except.ok desc : Except Stop FileDescription)
          let descs ← rs.mapM (Record.describe w connId)
          pure (desc :: descs)) ↔ Returns (rs.mapM (Record.describe w connId)) := by
        show Returns (Except.bind _ _) ↔ _
        cases rs.mapM (Record.describe w connId) with
        | error stop => rfl
        | ok descs =>
          exact iff_of_true (returns_ok _) (returns_ok _)
      rw [hthen]
      exact ⟨fun h => ⟨fun _ => hfits, fun _ => h⟩, fun h => h.2 ⟨hreads, hfits⟩⟩
    · rw [hover]
      exact iff_of_false not_returns_overflow fun h => hfits (h.1 hreads)

/-- **Reading the peer's list returns, unless a time is too large.** -/
theorem returns_iff_times_fit (w : Utf16String) (pdu : List UInt8) (connId : Int32) :
    Returns (parseFileDescriptors w pdu connId) ↔
      (4 ≤ pdu.length → (pdu.drop 4).length = 592 * ofLe (pdu.take 4) →
        TimesFit w (records (pdu.drop 4) (ofLe (pdu.take 4)))) := by
  rw [parseFileDescriptors_eq]
  split
  next hshort =>
    exact iff_of_true (returns_error _) fun hlong => absurd hlong (Nat.not_le.mpr hshort)
  next hlong =>
    split
    next hlength =>
      exact iff_of_true (returns_error _) fun _ heq => absurd heq hlength
    next hlength =>
      rw [returns_mapM_iff]
      · exact ⟨fun h _ _ => h, fun h => h (Nat.not_lt.mp hlong) (not_ne_iff.mp hlength)⟩
      · intro r hr
        obtain ⟨i, -, rfl⟩ := List.mem_map.mp hr
        exact Record.sized_of _

/-- A crate for UTF-16. -/
def utf16String : Utf16String := ⟨Text.fromUtf16le, Text.utf16le⟩

theorem standard_utf16String : utf16String.Standard := ⟨fun _ => rfl, Text.fromUtf16le_utf16le⟩

/-- A list of one file without a name, that was changed as late as can be said. -/
def lastPdu : List UInt8 :=
  toLe 4 1 ++ (toLe 4 0x24 ++ List.replicate 52 0 ++ toLe 8 (2 ^ 64 - 1) ++ List.replicate 528 0)

/-- The time of a record may overflow. -/
theorem time_overflows : ¬ ∀ (w : Utf16String) (pdu : List UInt8) (connId : Int32),
    Returns (parseFileDescriptors w pdu connId) := by
  intro hall
  have hover : parseFileDescriptors utf16String lastPdu 0 = .error .overflow := by decide +kernel
  exact not_returns_overflow (hover ▸ hall utf16String lastPdu 0)

end HopToDesk.Clipboard.Unix
