import HopToDesk.Clipboard.ServeFiles

/-!
# What the cached readers are good for

A file that is served is sound when its reader is where it is believed to be and what it has read
ahead is what stands there on disk (`LocalFile.Sound`). Every request keeps all files sound, except
one: when reading fails after the reader has moved, the believed position stays behind. Writing
keeps them sound where nothing that was read ahead changes. These two conditions make up `Kept`.

From sound files an answer is right unless the request ends in a panic, because offset and length do
not fit in a `u64` together, or in the error of the next file (`Served`). That is all it takes:
along runs that keep the files sound, `meets_iff_served`.
-/

set_option autoImplicit false

namespace HopToDesk.Clipboard

open Kit

/-! ## Reading one file -/

namespace BufReader

variable {contents : List UInt8} {r : BufReader}

theorem buf_append_drop (hbuf : r.buf <+: contents.drop r.pos) :
    r.buf ++ contents.drop (r.pos + r.buf.length) = contents.drop r.pos := by
  obtain ⟨rest, hrest⟩ := hbuf
  rw [← List.drop_drop, ← hrest, List.drop_left]

theorem drop_prefix {n : Nat} (hbuf : r.buf <+: contents.drop r.pos) :
    r.buf.drop n <+: contents.drop (r.pos + n) := by
  rw [← List.drop_drop]
  exact hbuf.drop n

/-- What is read are the bytes from the position on, or reading has failed and moved the reader. -/
theorem readExact_spec (io : Except (String × Nat) Nat) {len : Nat}
    (hbuf : r.buf <+: contents.drop r.pos) (hlen : r.pos + len ≤ contents.length) :
    ∃ answer r', r.readExact contents io len = (answer, r') ∧ r'.buf <+: contents.drop r'.pos ∧
      ((answer = .ok ((contents.drop r.pos).take len) ∧ r'.pos = r.pos + len) ∨
        ∃ e moved, io = .error (e, moved) ∧ answer = .error e ∧ r'.pos = r.pos + moved) := by
  have hall := buf_append_drop hbuf
  unfold readExact
  split
  next hin =>
    refine ⟨_, _, rfl, drop_prefix hbuf, .inl ⟨?_, rfl⟩⟩
    rw [← hall, List.take_append_of_le_length hin]
  next =>
    cases io with
    | error x =>
      obtain ⟨e, moved⟩ := x
      exact ⟨_, _, rfl, drop_prefix hbuf, .inr ⟨e, moved, rfl, rfl, rfl⟩⟩
    | ok ahead =>
      simp only [hall]
      rw [if_neg (by rw [List.length_drop]; omega)]
      exact ⟨_, _, rfl, List.take_prefix _ _, .inl ⟨rfl, rfl⟩⟩

end BufReader

def LoadIo.Works (io : LoadIo) : Prop := io.opens = .ok () ∧ ∃ ahead, io.fill = .ok ahead

/-- What a request does with the file it is about does not fail. -/
structure RequestIo.Readable (io : RequestIo) : Prop where
  load : io.load.Works
  seek : io.seek = .ok ()
  read : ∃ ahead, io.read = .ok ahead

namespace LocalFile

variable {disk : Contents} {f f' : LocalFile}

structure Sound (disk : Contents) (f : LocalFile) : Prop where
  size : f.isDir = false → (disk f.path).length = f.size.toNat
  dir : f.isDir = true → f.handle = none
  closed : f.handle = none → f.offset = 0
  reader : ∀ r, f.handle = some r → r.pos = f.offset ∧ r.buf <+: (disk f.path).drop r.pos

/-- The same file, perhaps with another reader. -/
structure Same (f f' : LocalFile) : Prop where
  path : f'.path = f.path
  size : f'.size = f.size
  isDir : f'.isDir = f.isDir

theorem Same.refl (f : LocalFile) : Same f f := ⟨rfl, rfl, rfl⟩

theorem Sound.withReader {r : BufReader} {offset : Nat} (h : f.Sound disk)
    (hfile : f.isDir = false) (hpos : r.pos = offset)
    (hbuf : r.buf <+: (disk f.path).drop r.pos) :
    Sound disk { f with handle := some r, offset := offset } where
  size := h.size
  dir hdir := by
    rw [hfile] at hdir
    cases hdir
  closed hnone := by cases hnone
  reader r' hr' := by
    cases hr'
    exact ⟨hpos, hbuf⟩

theorem Sound.close (h : f.Sound disk) : Sound disk { f with handle := none, offset := 0 } where
  size := h.size
  dir _ := rfl
  closed _ := rfl
  reader r hr := by cases hr

theorem Sound.loadHandle {io : LoadIo} (h : f.Sound disk) (hload : f.loadHandle disk io = .ok f') :
    f'.Sound disk ∧ Same f f' ∧ f'.offset = f.offset ∧ (f.isDir = false → f'.handle ≠ none) := by
  unfold LocalFile.loadHandle at hload
  split at hload
  next hclosed =>
    split at hload
    next => cases hload
    next =>
    split at hload
    next => cases hload
    next ahead _ =>
      cases hload
      refine ⟨h.withReader hclosed.1 (h.closed hclosed.2).symm ?_, ⟨rfl, rfl, rfl⟩, rfl, by simp⟩
      exact List.take_prefix _ _
  next hopen =>
    cases hload
    exact ⟨h, .refl f, rfl, fun hfile hnone => hopen ⟨hfile, hnone⟩⟩

/-- Loading fails only where it has to open the file. -/
theorem loadHandle_isOk_iff {io : LoadIo} :
    (∃ f', f.loadHandle disk io = .ok f') ↔
      (f.isDir = false → f.handle = none → io.Works) := by
  unfold LocalFile.loadHandle LoadIo.Works
  by_cases hclosed : f.isDir = false ∧ f.handle = none
  · rw [if_pos hclosed]
    cases hopens : io.opens with
    | error e => simp [hclosed.1, hclosed.2]
    | ok _ =>
      cases hfill : io.fill with
      | error e => simp [hclosed.1, hclosed.2]
      | ok ahead => simp
  · rw [if_neg hclosed]
    exact iff_of_true ⟨f, rfl⟩ fun hfile hnone => absurd ⟨hfile, hnone⟩ hclosed

theorem seekTo_spec (io : Except String Unit) (offset : Nat) {r : BufReader}
    (hpos : r.pos = f.offset) (hbuf : r.buf <+: (disk f.path).drop r.pos) :
    (∃ r', f.seekTo io offset r = .ok r' ∧ r'.pos = offset ∧
      r'.buf <+: (disk f.path).drop r'.pos) ∨
      ∃ e, f.seekTo io offset r = .error e ∧ io = .error e := by
  unfold seekTo
  split
  next =>
    cases io with
    | error e => exact .inr ⟨e, rfl, rfl⟩
    | ok _ => exact .inl ⟨⟨offset, []⟩, rfl, rfl, List.nil_prefix⟩
  next hsame => exact .inl ⟨r, rfl, hpos.trans (not_not.mp hsame).symm, hbuf⟩

/-- Reading gives the bytes at the offset, or an error where something failed. -/
theorem Sound.readExactAt (io : RequestIo) {len offset : Nat} (h : f.Sound disk)
    (hfile : f.isDir = false) (hlen : offset + len ≤ f.size.toNat) :
    ∃ answer f', f.readExactAt disk io len offset = (answer, f') ∧
      ((∀ e moved, io.read = .error (e, moved) → offset + moved = f.offset) → f'.Sound disk) ∧
      (answer = .ok (((disk f.path).drop offset).take len) ∨
        (∃ e, answer = .error e) ∧ ¬ io.Readable) := by
  unfold LocalFile.readExactAt
  cases hload : f.loadHandle disk io.load with
  | error e =>
    refine ⟨_, _, rfl, fun _ => h, .inr ⟨⟨e, rfl⟩, ?_⟩⟩
    intro hreadable
    obtain ⟨f', hf'⟩ := loadHandle_isOk_iff.mpr fun _ _ => hreadable.load
    cases hload.symm.trans hf'
  | ok f₁ =>
  obtain ⟨hs₁, hsame, hoffset, hopen⟩ := h.loadHandle hload
  have hfile₁ : f₁.isDir = false := hsame.isDir.trans hfile
  simp only
  cases hhandle : f₁.handle with
  | none => exact absurd hhandle (hopen hfile)
  | some r =>
  obtain ⟨hpos, hbuf⟩ := hs₁.reader r hhandle
  simp only
  rcases seekTo_spec io.seek offset hpos hbuf with
    ⟨r₁, hseek, hpos₁, hbuf₁⟩ | ⟨e, hseek, hfails⟩
  · have hfits : r₁.pos + len ≤ (disk f₁.path).length := by
      rw [hpos₁, hs₁.size hfile₁, hsame.size]
      exact hlen
    obtain ⟨answer, r₂, hread, hbuf₂, ⟨rfl, hpos₂⟩ | ⟨e, moved, hio, rfl, hpos₂⟩⟩ :=
      BufReader.readExact_spec io.read hbuf₁ hfits
    · have hbytes : (((disk f₁.path).drop r₁.pos).take len).length = len := by
        rw [List.length_take, List.length_drop]
        omega
      simp only [hseek, hread, hbytes]
      rw [← hsame.path, ← hpos₁]
      split
      · exact ⟨_, _, rfl, fun _ => hs₁.close, .inl rfl⟩
      · exact ⟨_, _, rfl, fun _ => hs₁.withReader hfile₁ hpos₂ hbuf₂, .inl rfl⟩
    · simp only [hseek, hread]
      refine ⟨_, _, rfl, ?_, .inr ⟨⟨_, rfl⟩, ?_⟩⟩
      · intro hkept
        refine hs₁.withReader hfile₁ ?_ hbuf₂
        rw [hpos₂, hpos₁, hkept e moved hio, hoffset]
      · intro hreadable
        obtain ⟨ahead, hahead⟩ := hreadable.read
        cases hahead.symm.trans hio
  · simp only [hseek]
    refine ⟨_, _, rfl, fun _ => hs₁, .inr ⟨⟨_, rfl⟩, ?_⟩⟩
    intro hreadable
    cases hreadable.seek.symm.trans hfails

/-- A directory has no handle. -/
theorem Sound.readExactAt_dir (io : RequestIo) (len offset : Nat) (h : f.Sound disk)
    (hdir : f.isDir = true) :
    ∃ e, f.readExactAt disk io len offset = (.error e, f) := by
  have hload : f.loadHandle disk io.load = .ok f := by
    unfold LocalFile.loadHandle
    rw [if_neg (by simp [hdir])]
  refine ⟨.fileError f.path "file handle not found", ?_⟩
  simp only [LocalFile.readExactAt, hload, h.dir hdir]

/-- A file that is written to is sound when what was read ahead still stands there. -/
theorem Sound.write {path : String} {bytes : List UInt8} (h : f.Sound disk)
    (hlen : bytes.length = (disk path).length)
    (hkept : f.path = path → ∀ r, f.handle = some r → r.buf <+: bytes.drop r.pos) :
    f.Sound (Function.update disk path bytes) := by
  by_cases hpath : f.path = path
  · subst hpath
    refine ⟨?_, h.dir, h.closed, ?_⟩
    · intro hfile
      rw [Function.update_self, hlen]
      exact h.size hfile
    · intro r hr
      rw [Function.update_self]
      exact ⟨(h.reader r hr).1, hkept rfl r hr⟩
  · refine ⟨?_, h.dir, h.closed, ?_⟩
    · rw [Function.update_of_ne hpath]
      exact h.size
    · rw [Function.update_of_ne hpath]
      exact h.reader

end LocalFile

/-! ## Serving the list -/

namespace ClipFiles

variable {disk : Contents} {s : ClipFiles}

def Sound (disk : Contents) (s : ClipFiles) : Prop := ∀ f ∈ s.fileList, f.Sound disk

/-- The next file that is no directory is open, or can be opened. -/
def NextLoads (io : LoadIo) (fs : List LocalFile) : Prop :=
  ∀ f, fs.find? (fun f => !f.isDir) = some f → f.handle = none → io.Works

theorem hotReload_sound {io : LoadIo} {fs fs' : List LocalFile} (h : ∀ f ∈ fs, f.Sound disk)
    (hload : hotReload disk io fs = .ok fs') : ∀ f ∈ fs', f.Sound disk := by
  induction fs generalizing fs' with
  | nil =>
    cases hload
    exact h
  | cons f fs ih =>
    rw [List.forall_mem_cons] at h
    simp only [hotReload] at hload
    split at hload
    · cases hrest : hotReload disk io fs with
      | error e =>
        rw [hrest] at hload
        cases hload
      | ok rest =>
        rw [hrest] at hload
        cases hload
        exact List.forall_mem_cons.mpr ⟨h.1, ih h.2 hrest⟩
    · cases hfirst : f.loadHandle disk io with
      | error e =>
        rw [hfirst] at hload
        cases hload
      | ok f' =>
        rw [hfirst] at hload
        cases hload
        exact List.forall_mem_cons.mpr ⟨(h.1.loadHandle hfirst).1, h.2⟩

theorem isOk_map_iff {ε α β : Type} {x : Except ε α} {g : α → β} :
    (∃ b, x.map g = .ok b) ↔ ∃ a, x = .ok a := by
  cases x with
  | error e => simp [Except.map]
  | ok a => simp [Except.map]

theorem hotReload_isOk_iff (disk : Contents) (io : LoadIo) (fs : List LocalFile) :
    (∃ fs', hotReload disk io fs = .ok fs') ↔ NextLoads io fs := by
  induction fs with
  | nil => simp [hotReload, NextLoads]
  | cons f fs ih =>
    simp only [hotReload]
    cases hdir : f.isDir with
    | true =>
      rw [if_pos rfl, isOk_map_iff, ih]
      simp only [NextLoads, List.find?_cons, hdir, Bool.not_true]
    | false =>
      rw [if_neg (by simp), isOk_map_iff, LocalFile.loadHandle_isOk_iff]
      simp [NextLoads, hdir]

theorem Sound.set {i : Nat} {f : LocalFile} (h : s.Sound disk) (hf : f.Sound disk) :
    Sound disk { s with fileList := s.fileList.set i f } := by
  intro g hg
  rcases List.mem_or_eq_of_mem_set hg with hg | rfl
  · exact h g hg
  · exact hf

/-- The answer that was made is given exactly when the next file loads. -/
theorem finish_spec (disk : Contents) (io : LoadIo) (s : ClipFiles) (i : Nat)
    (resp : ClipboardFile) :
    ∃ answer s', s.finish disk io i resp = (answer, s') ∧ (s.Sound disk → s'.Sound disk) ∧
      (answer = .ok resp ∧ NextLoads io (s.fileList.drop (i + 1)) ∨
        (∃ e, answer = .error e) ∧ ¬ NextLoads io (s.fileList.drop (i + 1))) := by
  have hiff := hotReload_isOk_iff disk io (s.fileList.drop (i + 1))
  unfold ClipFiles.finish
  cases hload : hotReload disk io (s.fileList.drop (i + 1)) with
  | error e =>
    rw [hload] at hiff
    refine ⟨_, _, rfl, id, .inr ⟨⟨e, rfl⟩, ?_⟩⟩
    intro hnext
    obtain ⟨fs', hfs'⟩ := hiff.mpr hnext
    cases hfs'
  | ok fs =>
    refine ⟨_, _, rfl, ?_, .inl ⟨rfl, hiff.mp ⟨fs, hload⟩⟩⟩
    intro h f hf
    rcases List.mem_append.mp hf with hf | hf
    · exact h f (List.mem_of_mem_take hf)
    · exact hotReload_sound (fun f hf => h f (List.mem_of_mem_drop hf)) hload f hf

/-! ## Right answers -/

/-- The bytes from `lo` up to `hi`. -/
def between (contents : List UInt8) (lo hi : Nat) : List UInt8 := (contents.take hi).drop lo

/-- The answer is an error; no answer at all is none. -/
def Fails (answer : Option (Except CliprdrError ClipboardFile)) : Prop :=
  ∃ e, answer = some (.error e)

/-- What the answer should be: for a range of a regular file the bytes of the range that the file
has, or an error if the file cannot be read; for its size the size; otherwise an error. -/
def Meets (disk : Contents) (io : RequestIo) (s : ClipFiles)
    (answer : Option (Except CliprdrError ClipboardFile)) : FileContentsRequest → Prop
  | .size streamId fileIdx =>
    match s.fileList[fileIdx.toNat]? with
    | none => Fails answer
    | some f => answer = some (.ok (.fileContentsResponse 0x1 streamId (Wire.toLeBytes f.size)))
  | .range streamId fileIdx offset length =>
    match s.fileList[fileIdx.toNat]? with
    | none => Fails answer
    | some f =>
      if f.isDir = true ∨ f.size < offset then Fails answer
      else
        answer = some (.ok (.fileContentsResponse 0x1 streamId
          (between (disk f.path) offset.toNat
            (min (offset.toNat + length.toNat) f.size.toNat)))) ∨
          ¬ io.Readable ∧ Fails answer

/-- Offset and length fit in a `u64` together, and the next file does not fail what was done. -/
def Served (io : RequestIo) (s : ClipFiles) : FileContentsRequest → Prop
  | .size _ fileIdx =>
    fileIdx.toNat < s.fileList.length → NextLoads io.next (s.fileList.drop (fileIdx.toNat + 1))
  | .range _ fileIdx offset length =>
    ∀ f, s.fileList[fileIdx.toNat]? = some f → offset ≤ f.size →
      offset.toNat + length.toNat < 2 ^ 64 ∧
        (f.isDir = false → io.Readable →
          NextLoads io.next (s.fileList.drop (fileIdx.toNat + 1)))

/-- Reading the file does not fail, or it fails where the reader is believed to be. -/
def Kept (io : RequestIo) (s : ClipFiles) : FileContentsRequest → Prop
  | .size .. => True
  | .range _ fileIdx offset _ =>
    ∀ f, s.fileList[fileIdx.toNat]? = some f → f.isDir = false → offset ≤ f.size →
      ∀ e moved, io.read = .error (e, moved) → offset.toNat + moved = f.offset

theorem readSize_eq {size offset length : UInt64} (hin : ¬ size < offset)
    (hfits : ¬ 2 ^ 64 ≤ offset.toNat + length.toNat) :
    (if size < offset + length then size - offset else length).toNat =
      min (offset.toNat + length.toNat) size.toNat - offset.toNat := by
  have hsum : (offset + length).toNat = offset.toNat + length.toNat := by
    rw [UInt64.toNat_add, Nat.mod_eq_of_lt (by omega)]
  have hle : offset ≤ size := UInt64.not_lt.mp hin
  split
  next hlt =>
    rw [UInt64.lt_iff_toNat_lt, hsum] at hlt
    rw [UInt64.toNat_sub_of_le _ _ hle]
    omega
  next hge =>
    rw [UInt64.lt_iff_toNat_lt, hsum] at hge
    omega

theorem between_eq (contents : List UInt8) (lo hi : Nat) :
    between contents lo hi = (contents.drop lo).take (hi - lo) := List.drop_take

theorem fails_error (e : CliprdrError) : Fails (some (.error e)) := ⟨e, rfl⟩

theorem not_fails_none : ¬ Fails none := by
  rintro ⟨e, he⟩
  cases he

theorem serve_size {io : RequestIo} {connId streamId : Int32} {fileIdx : UInt64}
    (h : s.Sound disk) :
    (∀ x ∈ s.serveFileContents disk io connId (.size streamId fileIdx), x.2.Sound disk) ∧
      (Meets disk io s
          ((s.serveFileContents disk io connId (.size streamId fileIdx)).map Prod.fst)
          (.size streamId fileIdx) ↔
        Served io s (.size streamId fileIdx)) := by
  simp only [ClipFiles.serveFileContents, Meets, Served]
  cases hf : s.fileList[fileIdx.toNat]? with
  | none =>
    refine ⟨?_, iff_of_true (fails_error _) ?_⟩
    · rintro x ⟨⟩
      exact h
    · intro hin
      have hout := List.getElem?_eq_none_iff.mp hf
      omega
  | some f =>
    have hin : fileIdx.toNat < s.fileList.length := by
      obtain ⟨hin, -⟩ := List.getElem?_eq_some_iff.mp hf
      exact hin
    obtain ⟨answer, s', heq, hsound, ⟨rfl, hnext⟩ | ⟨⟨e, rfl⟩, hnext⟩⟩ :=
      finish_spec disk io.next s fileIdx.toNat
        (.fileContentsResponse 0x1 streamId (Wire.toLeBytes f.size))
    · simp only [heq]
      refine ⟨?_, iff_of_true rfl fun _ => hnext⟩
      rintro x ⟨⟩
      exact hsound h
    · simp only [heq]
      refine ⟨?_, iff_of_false ?_ fun hserved => hnext (hserved hin)⟩
      · rintro x ⟨⟩
        exact hsound h
      · intro hmeets
        cases hmeets

theorem serve_range {io : RequestIo} {connId streamId : Int32} {fileIdx offset length : UInt64}
    (h : s.Sound disk) :
    (Kept io s (.range streamId fileIdx offset length) →
        ∀ x ∈ s.serveFileContents disk io connId (.range streamId fileIdx offset length),
          x.2.Sound disk) ∧
      (Meets disk io s
          ((s.serveFileContents disk io connId (.range streamId fileIdx offset length)).map Prod.fst)
          (.range streamId fileIdx offset length) ↔
        Served io s (.range streamId fileIdx offset length)) := by
  simp only [ClipFiles.serveFileContents, Meets, Served, Kept]
  cases hf : s.fileList[fileIdx.toNat]? with
  | none =>
    refine ⟨?_, iff_of_true (fails_error _) ?_⟩
    · rintro - x ⟨⟩
      exact h
    · intro f hsome
      cases hsome
  | some f =>
  have hfs : f.Sound disk := h f (List.mem_of_getElem? hf)
  simp only [Option.some.injEq, forall_eq']
  by_cases hout : f.size < offset
  · rw [if_pos hout, if_pos (.inr hout)]
    refine ⟨?_, iff_of_true (fails_error _) ?_⟩
    · rintro - x ⟨⟩
      exact h
    · intro hin
      exact absurd hout (UInt64.not_lt.mpr hin)
  have hin : offset ≤ f.size := UInt64.not_lt.mp hout
  rw [if_neg hout]
  by_cases hover : 2 ^ 64 ≤ offset.toNat + length.toNat
  · rw [if_pos hover]
    refine ⟨?_, iff_of_false ?_ fun hserved => absurd (hserved hin).1 (by omega)⟩
    · rintro - x ⟨⟩
    · intro hmeets
      split at hmeets
      · exact not_fails_none hmeets
      · rcases hmeets with hmeets | ⟨-, hmeets⟩
        · cases hmeets
        · exact not_fails_none hmeets
  rw [if_neg hover]
  have hsize := readSize_eq hout hover
  cases hdir : f.isDir with
  | true =>
    obtain ⟨e, heq⟩ := hfs.readExactAt_dir io
      (if f.size < offset + length then f.size - offset else length).toNat offset.toNat hdir
    simp only [heq]
    rw [if_pos (.inl trivial)]
    refine ⟨?_, iff_of_true (fails_error _) ?_⟩
    · rintro - x ⟨⟩
      exact h.set hfs
    · intro _
      refine ⟨by omega, ?_⟩
      intro hfile
      cases hfile
  | false =>
    have hle := UInt64.le_iff_toNat_le.mp hin
    have hfits : offset.toNat +
        (if f.size < offset + length then f.size - offset else length).toNat ≤ f.size.toNat := by
      rw [hsize]
      omega
    obtain ⟨buf, f', heq, hsound, hbuf⟩ := hfs.readExactAt io hdir hfits
    rw [hsize, ← between_eq] at hbuf
    simp only [heq]
    rw [if_neg (by simp [hout])]
    rcases hbuf with rfl | ⟨⟨e, rfl⟩, hbad⟩
    · have hdrop : (s.fileList.set fileIdx.toNat f').drop (fileIdx.toNat + 1) =
          s.fileList.drop (fileIdx.toNat + 1) := List.drop_set_of_lt (Nat.lt_succ_self _)
      obtain ⟨answer, s', hfinish, hsound', hanswer⟩ :=
        finish_spec disk io.next { s with fileList := s.fileList.set fileIdx.toNat f' }
          fileIdx.toNat (.fileContentsResponse 0x1 streamId
            (between (disk f.path) offset.toNat
              (min (offset.toNat + length.toNat) f.size.toNat)))
      simp only [hdrop] at hanswer
      simp only [hfinish]
      refine ⟨?_, ?_⟩
      · rintro hkept x ⟨⟩
        exact hsound' (h.set (hsound (hkept trivial hin)))
      rcases hanswer with ⟨rfl, hnext⟩ | ⟨⟨e, rfl⟩, hnext⟩
      · exact iff_of_true (.inl rfl) fun _ => ⟨by omega, fun _ _ => hnext⟩
      · constructor
        · rintro (hmeets | ⟨hbad, -⟩) -
          · cases hmeets
          · exact ⟨by omega, fun _ hreadable => absurd hreadable hbad⟩
        · intro hserved
          exact .inr ⟨fun hreadable => hnext ((hserved hin).2 trivial hreadable), fails_error _⟩
    · refine ⟨?_, iff_of_true (.inr ⟨hbad, fails_error _⟩) ?_⟩
      · rintro hkept x ⟨⟩
        exact h.set (hsound (hkept trivial hin))
      · intro _
        exact ⟨by omega, fun _ hreadable => absurd hreadable hbad⟩

/-- One request: the files stay sound, and the answer is right exactly when it is served. -/
theorem Sound.serveFileContents {io : RequestIo} (h : s.Sound disk) (connId : Int32)
    (fcr : FileContentsRequest) :
    (Kept io s fcr → ∀ x ∈ s.serveFileContents disk io connId fcr, x.2.Sound disk) ∧
      (Meets disk io s ((s.serveFileContents disk io connId fcr).map Prod.fst) fcr ↔
        Served io s fcr) := by
  cases fcr with
  | size streamId fileIdx => exact ⟨fun _ => (serve_size h).1, (serve_size h).2⟩
  | range streamId fileIdx offset length => exact serve_range h

end ClipFiles

/-! ## Every request of a run -/

namespace ClipServer

variable {s s' : ClipServer} {a : Event}

def Sound (s : ClipServer) : Prop := s.clipFiles.Sound s.disk

/-- What the answer should be; a request that does not decode gets an error. -/
def Meets (s : ClipServer) (io : RequestIo) (r : RawRequest)
    (answer : Option (Except CliprdrError ClipboardFile)) : Prop :=
  match r.decode with
  | .error _ => ClipFiles.Fails answer
  | .ok fcr => s.clipFiles.Meets s.disk io answer fcr

def Served (s : ClipServer) (io : RequestIo) (r : RawRequest) : Prop :=
  ∀ fcr, r.decode = .ok fcr → s.clipFiles.Served io fcr

/-- A read that fails does so where the reader is believed to be; what is written to a file leaves
what was read ahead as it is. -/
def Kept (s : ClipServer) : Event → Prop
  | .request _ io r => ∀ fcr, r.decode = .ok fcr → s.clipFiles.Kept io fcr
  | .write path bytes => ∀ f ∈ s.clipFiles.fileList, f.path = path →
      ∀ r, f.handle = some r → r.buf <+: bytes.drop r.pos

theorem answer_of_decode {isFile : String → Bool} {io : RequestIo} {r : RawRequest}
    {fcr : FileContentsRequest} (h : r.decode = .ok fcr) :
    s.answer isFile io r =
      (s.clipFiles.serveFileContents s.disk io r.connId fcr).map Prod.fst := by
  simp only [answer, readFileContents, h]
  cases s.clipFiles.serveFileContents s.disk io r.connId fcr with
  | none => rfl
  | some x => simp

/-- From sound files an answer is right exactly when the request is served. -/
theorem Sound.meets_iff (h : s.Sound) (isFile : String → Bool) (io : RequestIo) (r : RawRequest) :
    s.Meets io r (s.answer isFile io r) ↔ s.Served io r := by
  unfold Meets Served
  cases hdecode : r.decode with
  | error e =>
    have hfails : s.answer isFile io r = some (.error e) := by
      simp only [answer, readFileContents, hdecode]
      rfl
    rw [hfails]
    refine iff_of_true (ClipFiles.fails_error e) ?_
    intro fcr hfcr
    cases hfcr
  | ok fcr =>
    rw [answer_of_decode hdecode]
    simp only [Except.ok.injEq, forall_eq']
    exact (h.serveFileContents r.connId fcr).2

theorem Sound.next (h : s.Sound) (hkept : s.Kept a) (hstep : s.next a = some s') : s'.Sound := by
  cases a with
  | request isFile io r =>
    simp only [ClipServer.next, Option.some.injEq] at hstep
    subst hstep
    unfold readFileContents
    cases hdecode : r.decode with
    | error e => exact h
    | ok fcr =>
      have hserve := (h.serveFileContents r.connId fcr).1 (hkept fcr hdecode)
      simp only
      cases hx : s.clipFiles.serveFileContents s.disk io r.connId fcr with
      | none => exact h
      | some x => exact hserve x hx
  | write path bytes =>
    simp only [ClipServer.next] at hstep
    split at hstep
    next hlen =>
      cases hstep
      intro f hf
      exact (h f hf).write hlen (hkept f hf)
    next => cases hstep

theorem Sound.starts (h : s.starts) : s.Sound := by
  intro f hf
  obtain ⟨hclosed, hoffset, hsize⟩ := h.2 f hf
  refine ⟨hsize, fun _ => hclosed, fun _ => hoffset, ?_⟩
  intro r hr
  cases hclosed.symm.trans hr

/-- **In every run in which no read fails behind the believed position and nothing that was read
ahead is overwritten, a request is answered as it should be exactly when its offset and length fit in
a `u64` together and the next file does not fail what was done.** -/
theorem meets_iff_served (h : (system.restrict Kept).Reachable s) (isFile : String → Bool)
    (io : RequestIo) (r : RawRequest) :
    s.Meets io r (s.answer isFile io r) ↔ s.Served io r := by
  have hsound : s.Sound := by
    refine h.invariant Sound.starts ?_
    intro s a s' hs hstep
    exact hs.next hstep.1 hstep.2
  exact hsound.meets_iff isFile io r

/-! Two files, of which the second cannot be opened. -/

def twoFiles : ClipServer where
  clipFiles := .synced [⟨"/a", none, 0, 3, false⟩, ⟨"/b", none, 0, 1, false⟩]
  disk path := if path = "/a" then [1, 2, 3] else [4]

theorem starts_twoFiles : twoFiles.starts := by
  refine ⟨⟨_, rfl⟩, ?_⟩
  intro f hf
  simp only [twoFiles, ClipFiles.synced, List.mem_cons, List.not_mem_nil, or_false] at hf
  rcases hf with rfl | rfl
  · exact ⟨rfl, rfl, fun _ => rfl⟩
  · exact ⟨rfl, rfl, fun _ => rfl⟩

def works : LoadIo := ⟨.ok (), .ok 8⟩

def allWorks : RequestIo := ⟨works, .ok (), .ok 0, works⟩

/-- A request for bytes of the first file. -/
def asksA (offset length : Int32) : RawRequest := ⟨1, 5, 0, 2, offset, 0, length⟩

theorem meets_iff_served_twoFiles :
    (twoFiles.readFileContents (fun _ => true) allWorks (asksA 0 1)).2.Meets allWorks (asksA 1 9)
      ((twoFiles.readFileContents (fun _ => true) allWorks (asksA 0 1)).2.answer (fun _ => true)
        allWorks (asksA 1 9)) := by
  have hkept : twoFiles.Kept (.request (fun _ => true) allWorks (asksA 0 1)) := by
    intro fcr hfcr
    cases hfcr
    intro f hf hfile hin e moved hfails
    cases hfails
  have hrun := (System.Run.start (S := system.restrict Kept) starts_twoFiles).stepping_snoc
    (.request (fun _ => true) allWorks (asksA 0 1)) hkept rfl
  refine (meets_iff_served ⟨_, hrun⟩ _ _ _).mpr ?_
  intro fcr hfcr
  cases hfcr
  intro f hf hin
  refine ⟨by decide, ?_⟩
  intro hfile hreadable g hg hclosed
  exact ⟨rfl, 8, rfl⟩

/-- The first file is read, and the second cannot be opened. -/
def nextFails : RequestIo := { allWorks with next := ⟨.error "Permission denied", .ok 0⟩ }

theorem not_meets : ¬ ∀ s : ClipServer, system.Reachable s → ∀ isFile io r,
    s.Meets io r (s.answer isFile io r) := by
  intro hall
  have hmeets := hall twoFiles ⟨_, .start starts_twoFiles⟩ (fun _ => true) nextFails (asksA 0 1)
  rcases hmeets with hmeets | ⟨hbad, -⟩
  · cases hmeets
  · exact hbad ⟨⟨rfl, 8, rfl⟩, rfl, 0, rfl⟩

def readFails : RequestIo := { allWorks with read := .error ("Input/output error", 0) }

/-- A read that fails after a seek leaves the reader where it is not believed to be, and the next
request gets the third byte for the second. -/
example :
    (((twoFiles.readFileContents (fun _ => true) allWorks (asksA 0 1)).2.readFileContents
      (fun _ => true) readFails (asksA 2 1)).2.answer (fun _ => true) allWorks (asksA 1 1)) =
      some (.ok (.fileContentsResponse 0x1 5 [3])) := rfl

end ClipServer

end HopToDesk.Clipboard
