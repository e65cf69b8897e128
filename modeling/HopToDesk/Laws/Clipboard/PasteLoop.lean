import HopToDesk.Kit.DiskTree
import HopToDesk.Clipboard.PasteSession
import HopToDesk.Laws.Clipboard.PasteTask

/-!
# What the loop of a paste leaves

Up to the file that is downloaded, every entry of the list has been produced (`Produced`): a file
under one of its names with the bytes it has at the peer, a directory under its own. The loop makes
what needs no download where it can be made (`Clear`), and the errors of what cannot are dropped.
An answer appends the bytes it was asked for, and when they are all there the file has one of its
names (`handleFileContentsResponse_ok`).
-/

set_option autoImplicit false

namespace HopToDesk.Clipboard.Paste

open Kit UnixPath
open Disk (Adds Alike StaysPut Within)

variable {target path : PathStr} {file : FileDescription} {d d' : Disk}

/-! ## Names -/

/-- A path a file can have in the end: its own, or one with a number. -/
def Named (target : PathStr) (file : FileDescription) (path : PathStr) : Prop :=
  path = join target file.name ∨ ∃ i, candidate (join target file.name) file.kind i = some path

theorem getNewFilename_named (h : getNewFilename d target file = some path) :
    Named target file path ∧ d.pathExists path = false := by
  unfold getNewFilename at h
  dsimp only at h
  split_ifs at h with hexists
  · refine ⟨.inr ?_, (getFirstFilename_spec h).1⟩
    unfold getFirstFilename at h
    rw [if_pos hexists] at h
    obtain ⟨i, -, hi⟩ := List.exists_of_findSome?_eq_some h
    exact ⟨i, (Option.filter_eq_some_iff.mp hi).1⟩
  · cases h
    exact ⟨.inl rfl, Bool.eq_false_iff.mpr hexists⟩

theorem getNewFilename_alike (h : Alike d d') :
    getNewFilename d' target file = getNewFilename d target file := by
  simp only [getNewFilename, getFirstFilename, h.pathExists]

theorem setXattr_adds (d : Disk) (path : PathStr) : Adds d (setXattr d path) := by
  unfold setXattr
  split_ifs
  · exact .refl d
  · exact .setFileMtime d path

theorem get_setXattr (d : Disk) (path : PathStr) (q : Place) :
    (setXattr d path).get q = d.get q := by
  unfold setXattr
  split_ifs
  · rfl
  · exact Disk.get_setFileMtime d path q

theorem setTimes_adds (d : Disk) (f : Kit.Handle) : Adds d (setTimes d f) := by
  unfold setTimes
  split
  · exact .note nofun
  · exact .refl d

/-! ## What has been produced -/

/-- An entry of the list at its place. A link is never made. -/
def Stands (target : PathStr) (d : Disk) (file : FileDescription) (bytes : Content) (q : Place) :
    Prop :=
  match file.kind with
  | .file => (∃ path, Named target file path ∧ q = d.place path) ∧
      ∃ ino, d.get q = some (.file ino bytes)
  | .directory => q = d.place (join target file.name) ∧ d.get q = some .dir
  | .symlink => True

/-- The first `n` entries of the list are at their places, and no two files at one. -/
structure Produced (target : PathStr) (files : List FileDescription) (remote : Nat → Content)
    (n : Nat) (d : Disk) (place : Nat → Place) : Prop where
  stands : ∀ {i file}, i < n → files[i]? = some file → Stands target d file (remote i) (place i)
  own : ∀ {i j file file'}, i < n → j < n → files[i]? = some file → files[j]? = some file' →
    file.kind = .file → file'.kind = .file → place i = place j → i = j

/-- More is there. -/
def Keeps (d d' : Disk) : Prop := d'.cwd = d.cwd ∧ ∀ q e, d.get q = some e → d'.get q = some e

theorem Keeps.of_adds (h : Adds d d') : Keeps d d' := ⟨h.cwd, fun _ _ => h.entries⟩

theorem Keeps.trans {d'' : Disk} (h : Keeps d d') (h' : Keeps d' d'') : Keeps d d'' :=
  ⟨h'.1.trans h.1, fun q e hq => h'.2 q e (h.2 q e hq)⟩

/-- What is beside a place is beside it when there is something else at it. -/
theorem Keeps.drop_put (d : Disk) (q : Place) (e : Entry) (a : Access) :
    Keeps (d.drop q) (((d.put q e).note a).drop q) := by
  refine ⟨rfl, fun q' e' hq => ?_⟩
  by_cases heq : q' = q
  · subst heq
    rw [Disk.get_drop_self] at hq
    cases hq
  · rw [Disk.get_drop_of_ne _ heq] at hq ⊢
    rw [Disk.get_note, Disk.get_put_of_ne _ heq]
    exact hq

theorem Keeps.drop_adds (h : Adds d d') (q : Place) : Keeps (d.drop q) (d'.drop q) := by
  refine ⟨h.cwd, fun q' e hq => ?_⟩
  by_cases heq : q' = q
  · subst heq
    rw [Disk.get_drop_self] at hq
    cases hq
  · rw [Disk.get_drop_of_ne _ heq] at hq ⊢
    exact h.entries hq

section Produced

variable {files : List FileDescription} {remote : Nat → Content} {n : Nat} {place : Nat → Place}
  {bytes : Content} {q : Place}

theorem Stands.keeps (h : Keeps d d') (hs : Stands target d file bytes q) :
    Stands target d' file bytes q := by
  have hplace (s : PathStr) : d'.place s = d.place s := by
    unfold Disk.place
    rw [h.1]
  unfold Stands at *
  split
  · rename_i hkind
    rw [hkind] at hs
    obtain ⟨⟨path, hnamed, hq⟩, ino, hget⟩ := hs
    exact ⟨⟨path, hnamed, hq.trans (hplace path).symm⟩, ino, h.2 _ _ hget⟩
  · rename_i hkind
    rw [hkind] at hs
    exact ⟨hs.1.trans (hplace _).symm, h.2 _ _ hs.2⟩
  · trivial

/-- Where a file stands there is something. -/
theorem Stands.some (hs : Stands target d file bytes q) (hkind : file.kind = .file) :
    d.get q ≠ none := by
  unfold Stands at hs
  rw [hkind] at hs
  obtain ⟨-, ino, hget⟩ := hs
  rw [hget]
  exact Option.some_ne_none _

theorem Produced.keeps (h : Keeps d d') (hp : Produced target files remote n d place) :
    Produced target files remote n d' place :=
  ⟨fun hi hfile => (hp.stands hi hfile).keeps h, hp.own⟩

theorem Produced.zero : Produced target files remote 0 d place :=
  ⟨fun hi => absurd hi (Nat.not_lt_zero _), fun hi => absurd hi (Nat.not_lt_zero _)⟩

/-- The next entry, which is a file only where nothing was. -/
theorem Produced.succ (h : Keeps d d') (hp : Produced target files remote n d place)
    (hfile : files[n]? = some file) (hs : Stands target d' file (remote n) q)
    (hnew : file.kind = .file → d.get q = none) :
    Produced target files remote (n + 1) d' (Function.update place n q) where
  stands {i file'} hi hfile' := by
    rcases Nat.lt_succ_iff_lt_or_eq.mp hi with hlt | rfl
    · rw [Function.update_of_ne hlt.ne]
      exact (hp.stands hlt hfile').keeps h
    · rw [Function.update_self]
      obtain rfl := Option.some.inj (hfile.symm.trans hfile')
      exact hs
  own {i j file₁ file₂} hi hj hi' hj' hk hk' heq := by
    -- the place of an earlier file is not free
    have hne {k : Nat} {file' : FileDescription} (hk : k < n) (hk' : files[k]? = some file')
        (hkind : file'.kind = .file) (hkindn : file.kind = .file) : place k ≠ q := by
      rintro rfl
      exact (hp.stands hk hk').some hkind (hnew hkindn)
    rcases Nat.lt_succ_iff_lt_or_eq.mp hi with hlt | rfl
    · rcases Nat.lt_succ_iff_lt_or_eq.mp hj with hlt' | rfl
      · rw [Function.update_of_ne hlt.ne, Function.update_of_ne hlt'.ne] at heq
        exact hp.own hlt hlt' hi' hj' hk hk' heq
      · obtain rfl := Option.some.inj (hfile.symm.trans hj')
        rw [Function.update_of_ne hlt.ne, Function.update_self] at heq
        exact absurd heq (hne hlt hi' hk hk')
    · rcases Nat.lt_succ_iff_lt_or_eq.mp hj with hlt' | rfl
      · obtain rfl := Option.some.inj (hfile.symm.trans hi')
        rw [Function.update_of_ne hlt'.ne, Function.update_self] at heq
        exact absurd heq.symm (hne hlt' hj' hk' hk)
      · rfl

/-- The entries of the list up to the `n`-th are there. -/
def Made (target : PathStr) (files : List FileDescription) (remote : Nat → Content) (n : Nat)
    (d : Disk) : Prop := ∃ place, Produced target files remote n d place

theorem Made.keeps (h : Keeps d d') (hm : Made target files remote n d) :
    Made target files remote n d' := by
  obtain ⟨place, hp⟩ := hm
  exact ⟨place, hp.keeps h⟩

theorem Made.adds (h : Adds d d') (hm : Made target files remote n d) :
    Made target files remote n d' := hm.keeps (.of_adds h)

theorem Made.succ (h : Keeps d d') (hm : Made target files remote n d)
    (hfile : files[n]? = some file) (hs : Stands target d' file (remote n) q)
    (hnew : file.kind = .file → d.get q = none) : Made target files remote (n + 1) d' := by
  obtain ⟨place, hp⟩ := hm
  exact ⟨_, hp.succ h hfile hs hnew⟩

/-- There are no more entries than the list has. -/
theorem Made.all (hm : Made target files remote n d) (hn : files.length ≤ n) :
    Made target files remote files.length d := by
  obtain ⟨place, hp⟩ := hm
  exact ⟨place, fun hi => hp.stands (hi.trans_le hn),
    fun hi hj => hp.own (hi.trans_le hn) (hj.trans_le hn)⟩

end Produced

/-! ## What needs no download -/

/-- A free name is found for the file, in a directory that is there. -/
def HasRoom (target : PathStr) (d : Disk) (file : FileDescription) : Prop :=
  ∃ path ∈ getNewFilename d target file,
    endsAsDir path = false ∧ d.get (d.place path).dropLast = some .dir

instance : Decidable (HasRoom target d file) := inferInstanceAs (Decidable (∃ _ ∈ _, _))

theorem HasRoom.alike (h : Alike d d') (hroom : HasRoom target d file) :
    HasRoom target d' file := by
  obtain ⟨path, hpath, hends, hparent⟩ := hroom
  refine ⟨path, ?_, hends, ?_⟩
  · rw [getNewFilename_alike h]
    exact hpath
  · rw [h.place, h.dir]
    exact hparent

/-- The directory is there, or can be made: there is no file on its way. -/
def DirRoom (target : PathStr) (d : Disk) (file : FileDescription) : Prop :=
  let path := join target file.name
  d.get (d.place path) = some .dir ∨
    d.place path ∈ visited d.cwd (parse path) ∧
      ∀ q ∈ visited d.cwd (parse path), d.get q = none ∨ d.get q = some .dir

instance : Decidable (DirRoom target d file) := inferInstanceAs (Decidable (_ ∨ _))

/-- An empty file of the list, created in place. -/
def emptyAt (target : PathStr) (d : Disk) (file : FileDescription) : Disk :=
  (PasteTask.newHandle target []).createEmpty d file

/-- A directory of the list, made. -/
def directoryAt (target : PathStr) (d : Disk) (file : FileDescription) : Disk :=
  (PasteTask.newHandle target []).createDirectory d file

/-- What the loop comes to before the next download can be made, each on the disk it finds. -/
def Clear (target : PathStr) : Disk → List FileDescription → Prop
  | _, [] => True
  | d, file :: files =>
    match file.kind with
    | .file => file.size = 0 → HasRoom target d file ∧ Clear target (emptyAt target d file) files
    | .directory => DirRoom target d file ∧ Clear target (directoryAt target d file) files
    | .symlink => Clear target d files

instance decidableClear (target : PathStr) :
    (d : Disk) → (files : List FileDescription) → Decidable (Clear target d files)
  | _, [] => inferInstanceAs (Decidable True)
  | d, ⟨connId, name, .file, size⟩ :: files =>
    have := decidableClear target (emptyAt target d ⟨connId, name, .file, size⟩) files
    inferInstanceAs (Decidable (size = 0 → _ ∧ _))
  | d, ⟨connId, name, .directory, size⟩ :: files =>
    have := decidableClear target (directoryAt target d ⟨connId, name, .directory, size⟩) files
    inferInstanceAs (Decidable (_ ∧ _))
  | d, ⟨_, _, .symlink, _⟩ :: files => decidableClear target d files

theorem emptyAt_spec (hroom : HasRoom target d file) : Adds d (emptyAt target d file) ∧
    ∃ q, d.get q = none ∧ (∃ path, Named target file path ∧ q = d.place path) ∧
      ∃ ino, (emptyAt target d file).get q = some (.file ino []) := by
  obtain ⟨path, hpath, hends, hparent⟩ := hroom
  obtain ⟨hnamed, hfree⟩ := getNewFilename_named hpath
  obtain ⟨d₁, hc⟩ := Disk.createFile_of_room hfree hends hparent
  obtain ⟨hadds, hnone⟩ := Adds.createFile (stat_ne_file_of_free hfree) hc
  have heq : emptyAt target d file = setTimes d₁ ⟨d.next, 0, true⟩ := by
    have hnew : getNewFilename d (PasteTask.newHandle target []).targetDir file = some path := hpath
    simp only [emptyAt, PasteTaskHandle.createEmpty, hnew, hc]
  have htimes := setTimes_adds d₁ ⟨d.next, 0, true⟩
  rw [heq]
  exact ⟨hadds.trans htimes, _, hnone, ⟨path, hnamed, rfl⟩, _,
    htimes.entries (Disk.createFile_at hc)⟩

theorem directoryAt_spec (hroom : DirRoom target d file) : Adds d (directoryAt target d file) ∧
    (directoryAt target d file).get (d.place (join target file.name)) = some .dir := by
  have hdir : (PasteTask.newHandle target []).targetDir = target := rfl
  unfold directoryAt PasteTaskHandle.createDirectory
  dsimp only
  rw [hdir]
  split_ifs with hexists
  · refine ⟨.refl d, ?_⟩
    rcases hroom with hget | ⟨hmem, hclear⟩
    · exact hget
    · rcases hclear _ hmem with hnone | hget
      · rw [Disk.pathExists, Disk.stat, hnone] at hexists
        cases hexists
      · exact hget
  · refine ⟨.createDirAll d _, ?_⟩
    rcases hroom with hget | ⟨hmem, hclear⟩
    · exact Disk.createDirs_keeps hget
    · refine Disk.createDirs_dir (fun q hq i data hget => ?_) _ hmem
      rcases hclear q hq with h | h
      · rw [h] at hget
        cases hget
      · rw [h] at hget
        cases hget

/-! ## A task between two calls -/

/-- The `i`-th file of the list is downloaded. The open file holds its bytes up to the offset, and
the entries before it are there without it. -/
structure Downloading (remote : Nat → Content) (t : PasteTaskHandle) (d : Disk) (i : Nat)
    (file : FileDescription) : Prop where
  listed : t.files[i]? = some file
  kind : file.kind = .file
  listIndex : t.progress.listIndex = i
  downloadFileIndex : t.progress.downloadFileIndex = i
  size : t.progress.downloadFileSize = file.size
  offset : t.progress.offset < file.size
  path : endsAsDir t.progress.downloadFilePath = false
  opened : ∃ ino, t.progress.fileHandle = some ⟨ino, t.progress.offset, true⟩ ∧
    d.get (d.place t.progress.downloadFilePath) =
      some (.file ino ((remote i).take t.progress.offset))
  before : Made t.targetDir t.files remote i (d.drop (d.place t.progress.downloadFilePath))

/-- An unfinished task downloads a file or has none open, and one that is at the end of its list has
made every entry. -/
structure HandleOk (remote : Nat → Content) (t : PasteTaskHandle) (d : Disk) : Prop where
  inodes : d.Inodes
  working : t.isFinished = false → Declared t.files remote ∧
    (t.progress.fileHandle = none ∨ ∃ i file, Downloading remote t d i file)
  closed : t.isFinished = true → t.progress.error = none → t.progress.fileHandle = none
  complete : t.isFinished = true → t.progress.error = none → t.progress.isCanceled = false →
    Made t.targetDir t.files remote t.files.length d

section Loop

variable {remote : Nat → Content} {t : PasteTaskHandle} {i : Nat}

theorem isFinished_of_error (h : t.progress.error ≠ none) : t.isFinished = true := by
  unfold PasteTaskHandle.isFinished
  rw [Option.ne_none_iff_isSome.mp h, Bool.or_true, Bool.true_or]

theorem isFinished_of_canceled (h : t.progress.isCanceled = true) : t.isFinished = true := by
  unfold PasteTaskHandle.isFinished
  rw [h, Bool.true_or, Bool.true_or]

theorem isFinished_eq_false : t.isFinished = false ↔ t.progress.isCanceled = false ∧
    t.progress.error = none ∧ t.progress.listIndex < t.files.length := by
  simp [PasteTaskHandle.isFinished, and_assoc]

/-- A task that has failed has nothing left to answer for. -/
theorem HandleOk.of_error (hi : d.Inodes) (h : t.progress.error ≠ none) : HandleOk remote t d where
  inodes := hi
  working hf := by
    rw [isFinished_of_error h] at hf
    cases hf
  closed _ he := absurd he h
  complete _ he := absurd he h

theorem HandleOk.of_unfinished (hi : d.Inodes) (hf : t.isFinished = false)
    (hdecl : Declared t.files remote)
    (h : t.progress.fileHandle = none ∨ ∃ i file, Downloading remote t d i file) :
    HandleOk remote t d where
  inodes := hi
  working _ := ⟨hdecl, h⟩
  closed hf' := by
    rw [hf] at hf'
    cases hf'
  complete hf' := by
    rw [hf] at hf'
    cases hf'

/-- The path of the download is free, or a file is downloaded to it. -/
def Quiet (remote : Nat → Content) (t : PasteTaskHandle) (d : Disk) : Prop :=
  t.progress.downloadFilePath = [] ∨
    t.isFinished = false ∧ ∃ i file, Downloading remote t d i file

/-- What a call has left, and what it has done to the disk. -/
structure Went (remote : Nat → Content) (d : Disk)
    (r : Except CliprdrError Unit × PasteTaskHandle × Disk) : Prop where
  disk : Adds d r.2.2
  handle : HandleOk remote r.2.1 r.2.2
  quiet : Quiet remote r.2.1 r.2.2
  failed : ∀ e, r.1 = .error e → r.2.1.progress.downloadFilePath = []

theorem Went.adds {r : Except CliprdrError Unit × PasteTaskHandle × Disk} (hd : Adds d d')
    (h : Went remote d' r) : Went remote d r :=
  ⟨hd.trans h.disk, h.handle, h.quiet, h.failed⟩

theorem makeParent_adds (d : Disk) (dir : Parsed) :
    Adds d (PasteTaskHandle.makeParent d dir).2 := by
  unfold PasteTaskHandle.makeParent
  split_ifs
  · exact .refl d
  · exact .createDirAll d dir

theorem endList_opened {f : Kit.Handle} (h : t.progress.fileHandle = some f) : t.endList = t := by
  simp [PasteTaskHandle.endList, h]

theorem afterLoop_opened {f : Kit.Handle} (h : t.progress.fileHandle = some f) :
    PasteTaskHandle.afterLoop (.ok (), t, d) = (.ok (), t, d) := by
  rw [PasteTaskHandle.afterLoop, endList_opened h]

/-- Without an open file the task is at the end of its list. -/
theorem afterLoop_closed (h : t.progress.fileHandle = none) :
    PasteTaskHandle.afterLoop (.ok (), t, d) = (.ok (), { t with progress := { t.progress with
      listIndex := t.files.length
      offset := 0
      downloadFileSize := 0
      downloadFileCurrentSize := 0 } }, d) := by
  simp [PasteTaskHandle.afterLoop, PasteTaskHandle.endList, h]

section

variable (hi : d.Inodes) (hdecl : Declared t.files remote)
  (hcanceled : t.progress.isCanceled = false) (herror : t.progress.error = none)
  (hclosed : t.progress.fileHandle = none)
  (hpath : t.progress.downloadFilePath = [])

include hi hdecl hcanceled herror hclosed hpath in
/-- A call that has failed while the task is at a file of the list. -/
theorem Went.refused (hlist : t.progress.listIndex < t.files.length) (hd : Adds d d')
    (e : CliprdrError) : Went remote d (.error e, t, d') where
  disk := hd
  handle := .of_unfinished (hd.inodes hi) (isFinished_eq_false.mpr ⟨hcanceled, herror, hlist⟩) hdecl
    (.inl hclosed)
  quiet := .inl hpath
  failed _ _ := hpath

include hi hdecl hcanceled herror hclosed hpath in
/-- The file that is created is the one that is downloaded. -/
theorem createDownload_ok (hlist : t.progress.listIndex = i) (hoffset : t.progress.offset = 0)
    (hfile : t.files[i]? = some file) (hkind : file.kind = .file) (hsize : file.size ≠ 0)
    (hmade : Made t.targetDir t.files remote i d)
    (hfree : ∀ ino data, d.stat path ≠ some (.file ino data)) :
    Went remote d (PasteTaskHandle.afterLoop (.ok (), t.createDownload d file path)) := by
  unfold PasteTaskHandle.createDownload
  split
  · rename_i f d₁ hc
    obtain ⟨hcreate, hnone⟩ := Adds.createFile hfree hc
    obtain ⟨hends, hzero, hwritable, -⟩ := Disk.createFile_cases hc
    have hmarks := (setTimes_adds d₁ f).trans (setXattr_adds _ path)
    have hd := hcreate.trans hmarks
    have hopened : (setXattr (setTimes d₁ f) path).get (d.place path) = some (.file f.ino []) :=
      hmarks.entries (Disk.createFile_at hc)
    generalize setXattr (setTimes d₁ f) path = d₂ at hmarks hd hopened
    rw [afterLoop_opened]
    on_goal 2 => rfl
    have hdownload : Downloading remote { t with progress := { t.progress with
        downloadFileIndex := t.progress.listIndex
        downloadFileSize := file.size
        downloadFilePath := path
        downloadFileCurrentSize := 0
        fileHandle := some f } } d₂ i file := {
      listed := hfile
      kind := hkind
      listIndex := hlist
      downloadFileIndex := hlist
      size := rfl
      offset := by
        rw [hoffset]
        exact Nat.pos_of_ne_zero hsize
      path := hends
      opened := by
        refine ⟨f.ino, ?_, ?_⟩
        · rw [hoffset, ← hzero, ← hwritable]
        · rw [hoffset, List.take_zero, hd.place]
          exact hopened
      before := by
        refine hmade.keeps ⟨hd.cwd, fun q e hq => ?_⟩
        rw [Disk.get_drop_of_ne]
        · exact hd.entries hq
        · rintro rfl
          rw [hd.place, hnone] at hq
          cases hq }
    have hlt : t.progress.listIndex < t.files.length := by
      rw [hlist]
      exact_mod_cast (List.getElem?_eq_some_iff.mp hfile).1
    have hf := isFinished_eq_false.mpr ⟨hcanceled, herror, hlt⟩
    exact {
      disk := hd
      handle := .of_unfinished (hd.inodes hi) hf hdecl (.inr ⟨i, file, hdownload⟩)
      quiet := .inr ⟨hf, i, file, hdownload⟩
      failed := nofun }
  · rw [afterLoop_closed]
    on_goal 2 => exact hclosed
    exact ⟨.refl d, .of_error hi (Option.some_ne_none _), .inl hpath, nofun⟩

include hi hdecl hcanceled herror hclosed hpath in
theorem openNewWriter_ok (hlist : t.progress.listIndex = i) (hoffset : t.progress.offset = 0)
    (hfile : t.files[i]? = some file) (hkind : file.kind = .file) (hsize : file.size ≠ 0)
    (hmade : Made t.targetDir t.files remote i d) :
    Went remote d (PasteTaskHandle.afterLoop (t.openNewWriter d)) := by
  have hlisted : fileAt t.files t.progress.listIndex = some file := by
    rw [hlist, fileAt_natCast, hfile]
  have hlt : t.progress.listIndex < t.files.length := by
    rw [hlist]
    exact_mod_cast (List.getElem?_eq_some_iff.mp hfile).1
  have refused {d' : Disk} (hd : Adds d d') (e : CliprdrError) : Went remote d (.error e, t, d') :=
    .refused hi hdecl hcanceled herror hclosed hpath hlt hd e
  unfold PasteTaskHandle.openNewWriter
  simp only [hlisted]
  split
  · exact refused (.refl d) _
  · rename_i path hfirst
    split
    · exact refused (.refl d) _
    · rename_i dir hdir
      have hparent := makeParent_adds d dir
      have hstat (ino : Nat) (data : Content) :
          (PasteTaskHandle.makeParent d dir).2.stat path ≠ some (.file ino data) :=
        fun hs => stat_ne_file_of_free (getFirstFilename_spec hfirst).1 ino data
          (makeParent_stat hs)
      split
      · rename_i d₁ hr
        rw [hr] at hparent
        exact refused hparent _
      · rename_i d₁ hr
        rw [hr] at hparent hstat
        exact (createDownload_ok (hparent.inodes hi) hdecl hcanceled herror hclosed hpath hlist
          hoffset hfile hkind hsize (hmade.adds hparent) hstat).adds hparent

include hdecl hcanceled herror hclosed hpath in
/-- The loop from the `i`-th file on. -/
theorem nextFile_ok {l : List FileDescription} (hl : t.files.drop i = l) (hi : d.Inodes)
    (hmade : Made t.targetDir t.files remote i d) (hclear : Clear t.targetDir d l) :
    Went remote d (PasteTaskHandle.afterLoop (t.nextFile i d l)) := by
  induction l generalizing i d with
  | nil =>
    unfold PasteTaskHandle.nextFile
    rw [afterLoop_closed hclosed]
    have hall := hmade.all (List.drop_eq_nil_iff.mp hl)
    exact {
      disk := .refl d
      handle := {
        inodes := hi
        working := fun hf => absurd (isFinished_eq_false.mp hf).2.2 (lt_irrefl _)
        closed := fun _ _ => hclosed
        complete := fun _ _ _ => hall }
      quiet := .inl hpath
      failed := fun _ he => by cases he }
  | cons file l ih =>
    have hfile : t.files[i]? = some file := by
      rw [← Nat.add_zero i, ← List.getElem?_drop, hl]
      rfl
    have hrest : t.files.drop (i + 1) = l := by
      rw [← List.drop_drop, hl]
      rfl
    -- the entry has been made, and the loop goes on
    have goesOn {d' : Disk} {q : Place} (hd : Adds d d')
        (hs : Stands t.targetDir d' file (remote i) q) (hnew : file.kind = .file → d.get q = none)
        (hclear' : Clear t.targetDir d' l) :
        Went remote d (PasteTaskHandle.afterLoop (t.nextFile (i + 1) d' l)) :=
      (ih hrest (hd.inodes hi) (hmade.succ (.of_adds hd) hfile hs hnew) hclear').adds hd
    unfold PasteTaskHandle.nextFile
    unfold Clear at hclear
    cases hkind : file.kind with
    | file =>
      simp only [hkind] at hclear ⊢
      split_ifs with hsize
      · obtain ⟨hroom, hclear⟩ := hclear hsize
        obtain ⟨hd, q, hnone, ⟨path, hnamed, hq⟩, ino, hget⟩ := emptyAt_spec hroom
        have hempty : remote i = [] := by
          rw [← List.length_eq_zero_iff, (hdecl i file hfile hkind).1, hsize]
        have hs : Stands t.targetDir (emptyAt t.targetDir d file) file (remote i) q := by
          unfold Stands
          rw [hkind, hempty]
          exact ⟨⟨path, hnamed, by rw [hd.place, hq]⟩, ino, hget⟩
        exact goesOn hd hs (fun _ => hnone) hclear
      · exact openNewWriter_ok (t := { t with progress := { t.progress with
          listIndex := i, offset := 0 } }) hi hdecl hcanceled herror hclosed hpath rfl rfl hfile
          hkind hsize hmade
    | directory =>
      simp only [hkind] at hclear ⊢
      obtain ⟨hd, hget⟩ := directoryAt_spec hclear.1
      have hs : Stands t.targetDir (directoryAt t.targetDir d file) file (remote i)
          (d.place (join t.targetDir file.name)) := by
        unfold Stands
        rw [hkind]
        exact ⟨(hd.place _).symm, hget⟩
      have hother : file.kind ≠ .file := by
        rw [hkind]
        decide
      exact goesOn hd hs (fun h => absurd h hother) hclear.2
    | symlink =>
      simp only [hkind] at hclear ⊢
      have hs : Stands t.targetDir d file (remote i) [] := by
        unfold Stands
        rw [hkind]
        trivial
      have hother : file.kind ≠ .file := by
        rw [hkind]
        decide
      exact goesOn (.refl d) hs (fun h => absurd h hother) hclear

end

/-! ## The end of a task -/

theorem onCancelled_stays (t : PasteTaskHandle) (d : Disk) :
    Within StaysPut (fun _ => True) d (t.onCancelled d).2 :=
  .orSame fun hr => .removeFile nofun hr

/-- Without a path there is nothing to remove. -/
theorem onCancelled_quiet (h : t.progress.downloadFilePath = []) (d : Disk) :
    (t.onCancelled d).2 = d := by
  obtain ⟨e, he⟩ := d.removeFile_nil
  unfold PasteTaskHandle.onCancelled
  rw [h, he]
  rfl

theorem onDone_closed (h : t.progress.fileHandle = none) (d : Disk) : t.onDone d =
    (t, setXattr (setXattr d t.progress.downloadFilePath) t.progress.downloadFilePath) := by
  simp only [PasteTaskHandle.onDone, h]

/-- What is left of a task that is at its end, and of the disk. -/
structure Ended (remote : Nat → Content) (t : PasteTaskHandle) (d : Disk)
    (r : PasteTaskHandle × Disk) : Prop where
  finished : r.1.isFinished = true
  handle : HandleOk remote r.1 r.2
  stays : Within StaysPut (fun _ => True) d r.2
  quiet : t.progress.downloadFilePath = [] → Adds d r.2

theorem onError_ended (hi : d.Inodes) (t : PasteTaskHandle) (e : CliprdrError) :
    Ended remote t d (t.onError d e) where
  finished := isFinished_of_error (Option.some_ne_none e)
  handle := .of_error ((onCancelled_stays _ d).inodes hi) (Option.some_ne_none e)
  stays := onCancelled_stays _ d
  quiet h := by
    rw [PasteTaskHandle.onError, onCancelled_quiet]
    · exact .refl d
    · exact h

theorem onFinished_ended (h : HandleOk remote t d) (hf : t.isFinished = true) :
    Ended remote t d (t.onFinished d) := by
  -- the sizes are compared at the end
  have compared {r : PasteTaskHandle × Disk} (hr : Ended remote t d r) : Ended remote t d
      (if r.1.progress.currentSize ≠ r.1.progress.totalSize then
        ({ r.1 with progress := { r.1.progress with
          error := some (.invalidRequest "Failed to download all files") } }, r.2) else r) := by
    split_ifs
    · exact ⟨isFinished_of_error (Option.some_ne_none _),
        .of_error hr.handle.inodes (Option.some_ne_none _), hr.stays, hr.quiet⟩
    · exact hr
  unfold PasteTaskHandle.onFinished
  cases he : t.progress.error with
  | some e =>
    refine compared (r := t.onCancelled d) ?_
    have herror : t.progress.error ≠ none := by
      rw [he]
      exact Option.some_ne_none e
    exact {
      finished := isFinished_of_error herror
      handle := .of_error ((onCancelled_stays t d).inodes h.inodes) herror
      stays := onCancelled_stays t d
      quiet := fun hpath => by
        rw [onCancelled_quiet hpath]
        exact .refl d }
  | none =>
    have hadds := (setXattr_adds d t.progress.downloadFilePath).trans
      (setXattr_adds _ t.progress.downloadFilePath)
    have hend := compared (r := t.onDone d) (by
      rw [onDone_closed (h.closed hf he)]
      exact {
        finished := hf
        handle := {
          inodes := hadds.inodes h.inodes
          working := fun hf' => absurd (hf.symm.trans hf') nofun
          closed := h.closed
          complete := fun hf he hc => (h.complete hf he hc).adds hadds }
        stays := hadds.within
        quiet := fun _ => hadds })
    exact hend

/-! ## A file that is complete -/

/-- The only rename is one to the place. -/
def RenamesTo (q : Place) (a : Access) : Prop := ∀ src dst, a = .rename src dst → dst = q

theorem renamesTo_of_stays {q : Place} {a : Access} (h : StaysPut a) : RenamesTo q a :=
  fun src dst ha => absurd ha (h src dst)

/-- The `i`-th file has got one of its names, with its bytes. -/
def Whole (target : PathStr) (file : FileDescription) (bytes : Content) (d d' : Disk) : Prop :=
  ∃ path ino, Named target file path ∧ d'.get (d.place path) = some (.file ino bytes) ∧
    Within (RenamesTo (d.place path)) (fun _ => True) d d'

theorem Whole.adds {bytes : Content} {d'' : Disk} (h : Whole target file bytes d d')
    (hd : Adds d' d'') : Whole target file bytes d d'' := by
  obtain ⟨path, ino, hnamed, hget, hwithin⟩ := h
  exact ⟨path, ino, hnamed, hd.entries hget,
    hwithin.trans (hd.within.mono fun _ => renamesTo_of_stays)⟩

theorem Whole.of_stays {bytes : Content} {d'' : Disk} (hd : Within StaysPut (fun _ => True) d d')
    (h : Whole target file bytes d' d'') : Whole target file bytes d d'' := by
  obtain ⟨path, ino, hnamed, hget, hwithin⟩ := h
  have hplace : d'.place path = d.place path := by
    unfold Disk.place
    rw [hd.cwd]
  rw [hplace] at hget hwithin
  exact ⟨path, ino, hnamed, hget, (hd.mono fun _ => renamesTo_of_stays).trans hwithin⟩

/-- The handle when its file has been renamed. -/
def released (t : PasteTaskHandle) : PasteTaskHandle :=
  { t with progress := { t.progress with
    fileHandle := none
    downloadFilePath := []
    downloadFileIndex := -1 } }

/-- A file is renamed to a free path in a directory that is there, and nothing else changes. -/
theorem renameDownload_room {ino : Nat} {bytes : Content} {path : PathStr}
    (hclosed : t.progress.fileHandle = none) (hends : endsAsDir t.progress.downloadFilePath = false)
    (hat : d.get (d.place t.progress.downloadFilePath) = some (.file ino bytes))
    (hfree : d.pathExists path = false) (hpath : endsAsDir path = false)
    (hparent : d.get (d.place path).dropLast = some .dir) :
    ∃ d', t.renameDownload d path = (released t, d') ∧ d.get (d.place path) = none ∧
      d'.get (d.place path) = some (.file ino bytes) ∧
      Keeps (d.drop (d.place t.progress.downloadFilePath)) d' ∧
      Within (RenamesTo (d.place path)) (fun _ => True) d d' := by
  have hnone : d.get (d.place path) = none := by
    rw [← Disk.stat_of_get hpath]
    exact Option.not_isSome_iff_eq_none.mp (Bool.eq_false_iff.mp hfree)
  have hne : d.place t.progress.downloadFilePath ≠ d.place path := by
    intro heq
    rw [← heq, hat] at hnone
    cases hnone
  have hrename := Disk.rename_file_ok ((Disk.stat_of_get hends).trans hat) hpath hne
    (fun hdir => nomatch hnone.symm.trans hdir) hparent
  have hwithin := Within.rename (A := RenamesTo (d.place path)) (S := fun _ => True)
    (fun _ _ he => (Access.rename.inj he).2.symm) (fun _ => trivial) hrename
  have htimes := Adds.setFileMtime (((d.drop (d.place t.progress.downloadFilePath)).put
    (d.place path) (.file ino bytes)).note
      (.rename (d.place t.progress.downloadFilePath) (d.place path))) path
  refine ⟨_, ?_, hnone, htimes.entries (Disk.get_put_self _ _ _), ⟨htimes.cwd, fun q e hq => ?_⟩,
    hwithin.trans (htimes.within.mono fun _ => renamesTo_of_stays)⟩
  · simp only [PasteTaskHandle.renameDownload, hrename, released, hclosed]
  · refine htimes.entries ?_
    rw [Disk.get_note, Disk.get_put_of_ne]
    · exact hq
    · rintro rfl
      rw [Disk.get_drop_of_ne d hne.symm, hnone] at hq
      cases hq

/-- A complete file is renamed where there is room for it. -/
theorem onDone_whole {f : Kit.Handle} {ino : Nat} {bytes : Content}
    (hf : t.progress.fileHandle = some f) (hindex : t.progress.downloadFileIndex = i)
    (hfile : t.files[i]? = some file) (hends : endsAsDir t.progress.downloadFilePath = false)
    (hat : d.get (d.place t.progress.downloadFilePath) = some (.file ino bytes))
    (hroom : HasRoom t.targetDir d file) :
    ∃ path d', t.onDone d = (released t, d') ∧ Named t.targetDir file path ∧
      d.get (d.place path) = none ∧ d'.get (d.place path) = some (.file ino bytes) ∧
      Keeps (d.drop (d.place t.progress.downloadFilePath)) d' ∧
      Within (RenamesTo (d.place path)) (fun _ => True) d d' := by
  have hmarks := (setXattr_adds d t.progress.downloadFilePath).trans
    (setXattr_adds _ t.progress.downloadFilePath)
  have hsame (q : Place) : (setXattr (setXattr d t.progress.downloadFilePath)
      t.progress.downloadFilePath).get q = d.get q :=
    (get_setXattr _ _ q).trans (get_setXattr _ _ q)
  have hlisted : fileAt t.files t.progress.downloadFileIndex = some file := by
    rw [hindex, fileAt_natCast, hfile]
  unfold PasteTaskHandle.onDone
  dsimp only
  generalize setXattr (setXattr d t.progress.downloadFilePath) t.progress.downloadFilePath = d₁
    at hmarks hsame ⊢
  obtain ⟨path, hpath, hpathends, hparent⟩ := hroom.alike (.of_get hmarks.cwd hsame)
  obtain ⟨hnamed, hfree⟩ := getNewFilename_named hpath
  have hnew : getNewFilename d₁ t.targetDir file = some path := hpath
  obtain ⟨d', hrename, hnone, hget, hkeeps, hwithin⟩ := renameDownload_room
    (t := { t with progress := { t.progress with fileHandle := none } }) rfl hends
    (by rw [hmarks.place]; exact hmarks.entries hat) hfree hpathends hparent
  simp only [hf]
  rw [if_neg (by omega)]
  simp only [hlisted, hnew, hrename]
  rw [hmarks.place] at hnone hget hwithin
  refine ⟨path, d', rfl, hnamed, (hsame _).symm.trans hnone, hget, ⟨?_, fun q e hq => ?_⟩,
    (hmarks.within.mono fun _ => renamesTo_of_stays).trans hwithin⟩
  · exact hkeeps.1.trans hmarks.cwd
  · refine hkeeps.2 q e ?_
    rw [hmarks.place]
    by_cases heq : q = d.place t.progress.downloadFilePath
    · subst heq
      rw [Disk.get_drop_self] at hq
      cases hq
    · rw [Disk.get_drop_of_ne _ heq] at hq ⊢
      exact hmarks.entries hq

/-! ## An answer -/

/-- The disk when the bytes have been written and the complete file has its name. -/
def doneDisk (t : PasteTaskHandle) (d : Disk) (bytes : Content) : Disk :=
  match t.progress.fileHandle with
  | none => d
  | some f =>
    match d.writeAll f bytes with
    | .ok (f, d) => ({ t with progress := { t.progress with fileHandle := some f } }.onDone d).2
    | .error _ => d

theorem onDone_currentSize (t : PasteTaskHandle) (d : Disk) (n : Nat) :
    ({ t with progress := { t.progress with currentSize := n } }.onDone d).2 = (t.onDone d).2 := by
  unfold PasteTaskHandle.onDone
  dsimp only
  split
  · rfl
  · split_ifs
    · rfl
    · split
      · rfl
      · split
        · rfl
        · rfl

/-- What an answer has left: the task goes on with its file, or the file is complete and the loop
has gone on from there. -/
structure Answered (remote : Nat → Content) (t : PasteTaskHandle) (d : Disk) (i : Nat)
    (file : FileDescription) (r : Except CliprdrError Unit × PasteTaskHandle × Disk) : Prop where
  handle : HandleOk remote r.2.1 r.2.2
  disk : Within StaysPut (fun _ => True) d r.2.2 ∨
    ∃ d', Whole t.targetDir file (remote i) d d' ∧ Went remote d' r

/-- The disk when the download at the place holds the bytes, and nothing else has changed. -/
structure Written (d : Disk) (q : Place) (ino : Nat) (bytes : Content) (d' : Disk) : Prop where
  stays : Within StaysPut (fun _ => True) d d'
  alike : Alike d d'
  get : d'.get q = some (.file ino bytes)
  beside : Keeps (d.drop q) (d'.drop q)

/-- The bytes of an answer are appended to the open file. -/
theorem Downloading.writeAll (h : Downloading remote t d i file) (hi : d.Inodes)
    (hlen : (remote i).length = file.size) {n : Nat} (hn : n ≤ file.size - t.progress.offset) :
    ∃ f ino d', t.progress.fileHandle = some f ∧
      d.writeAll f (((remote i).drop t.progress.offset).take n) =
        .ok (⟨ino, t.progress.offset + n, true⟩, d') ∧
      Written d (d.place t.progress.downloadFilePath) ino ((remote i).take (t.progress.offset + n))
        d' := by
  obtain ⟨ino, hf, hat⟩ := h.opened
  have hoffset := h.offset
  have hwritten : (((remote i).drop t.progress.offset).take n).length = n := by
    rw [List.length_take, List.length_drop, hlen]
    exact Nat.min_eq_left hn
  have hhead : ((remote i).take t.progress.offset).length = t.progress.offset := by
    rw [List.length_take, hlen]
    exact Nat.min_eq_left hoffset.le
  have hsplice : Disk.splice ((remote i).take t.progress.offset) t.progress.offset
      (((remote i).drop t.progress.offset).take n) = (remote i).take (t.progress.offset + n) := by
    have hend := Disk.splice_end ((remote i).take t.progress.offset)
      (((remote i).drop t.progress.offset).take n)
    rw [hhead] at hend
    exact hend.trans List.take_add.symm
  refine ⟨_, ino, (d.put (d.place t.progress.downloadFilePath)
    (.file ino ((remote i).take (t.progress.offset + n)))).note
      (.write (d.place t.progress.downloadFilePath)), hf, ?_, ?_⟩
  · rw [Disk.writeAll_ok rfl hi hat, hwritten, hsplice]
  · exact ⟨.of_put nofun hat, .of_put hat _, Disk.get_put_self _ _ _, .drop_put _ _ _ _⟩

/-- `update_next` while the file is not complete. -/
theorem updateNext_more {n : Nat} (hf : t.isFinished = false) (hlist : t.progress.listIndex ≠ -1)
    (hmore : t.progress.offset + n < t.progress.downloadFileSize) (d : Disk) :
    t.updateNext d n = (.ok (), { t with progress := { t.progress with
      currentSize := (t.progress.currentSize + n) % 2 ^ 64
      offset := t.progress.offset + n
      downloadFileCurrentSize := t.progress.downloadFileCurrentSize + n } }.endList,
      setXattr d t.progress.downloadFilePath) := by
  unfold PasteTaskHandle.updateNext
  rw [if_neg (by rw [hf]; exact nofun)]
  simp only [decide_eq_false hlist, decide_eq_false (Nat.not_le.mpr hmore)]
  rfl

/-- `update_next` when the file is complete. -/
theorem updateNext_done {n : Nat} (hf : t.isFinished = false) (hlist : t.progress.listIndex ≠ -1)
    (hdone : t.progress.downloadFileSize ≤ t.progress.offset + n) {t' : PasteTaskHandle}
    (hr : { t with progress := { t.progress with
      currentSize := (t.progress.currentSize + n) % 2 ^ 64 } }.onDone d = (t', d')) :
    t.updateNext d n = PasteTaskHandle.afterLoop (t'.nextFile (t'.progress.listIndex + 1).toNat d'
      (t'.files.drop (t'.progress.listIndex + 1).toNat)) := by
  unfold PasteTaskHandle.updateNext
  rw [if_neg (by rw [hf]; exact nofun)]
  simp only [decide_eq_false hlist, decide_eq_true hdone, Bool.or_true, if_true, hr]
  rfl

/-- `update_next` when the task begins. -/
theorem updateNext_start {n : Nat} (hf : t.isFinished = false) (hlist : t.progress.listIndex = -1)
    (d : Disk) : t.updateNext d n = PasteTaskHandle.afterLoop
      ({ t with progress := { t.progress with
        currentSize := (t.progress.currentSize + n) % 2 ^ 64 } }.nextFile 0 d t.files) := by
  unfold PasteTaskHandle.updateNext
  rw [if_neg (by rw [hf]; exact nofun)]
  simp only [hlist, decide_true, Bool.true_or, if_true]
  rfl

/-- More bytes are to come. -/
theorem Downloading.goOn (h : Downloading remote t d i file) (hf : t.isFinished = false)
    (hi : d.Inodes) (hdecl : Declared t.files remote) {n : Nat}
    (hmore : t.progress.offset + n < file.size) :
    Answered remote t d i file
      (t.handleFileContentsResponse d (((remote i).drop t.progress.offset).take n)) := by
  have hlen := (hdecl i file h.listed h.kind).1
  obtain ⟨f, ino, d₁, hopen, hw, hwritten⟩ := h.writeAll hi hlen (n := n) (by omega)
  have hn : (((remote i).drop t.progress.offset).take n).length = n := by
    rw [List.length_take, List.length_drop, hlen]
    omega
  have hlist := h.listIndex
  have hmoved := updateNext_more (n := n) (t := { t with progress := { t.progress with
    fileHandle := some ⟨ino, t.progress.offset + n, true⟩ } }) hf (by dsimp only; omega)
    (by dsimp only; rw [h.size]; exact hmore) d₁
  rw [endList_opened (f := ⟨ino, t.progress.offset + n, true⟩)] at hmoved
  on_goal 2 => rfl
  have hmark := setXattr_adds d₁ t.progress.downloadFilePath
  have hplace : (setXattr d₁ t.progress.downloadFilePath).place t.progress.downloadFilePath =
      d.place t.progress.downloadFilePath := by rw [hmark.place, hwritten.alike.place]
  unfold PasteTaskHandle.handleFileContentsResponse
  simp only [hopen, hw, hn, hmoved]
  refine ⟨.of_unfinished (hmark.inodes (hwritten.stays.inodes hi)) hf hdecl (.inr ⟨i, file, ?_⟩),
    .inl (hwritten.stays.trans hmark.within)⟩
  exact {
    listed := h.listed
    kind := h.kind
    listIndex := h.listIndex
    downloadFileIndex := h.downloadFileIndex
    size := h.size
    offset := hmore
    path := h.path
    opened := by
      refine ⟨ino, rfl, ?_⟩
      rw [hplace]
      exact hmark.entries hwritten.get
    before := by
      rw [hplace]
      exact h.before.keeps (hwritten.beside.trans (.drop_adds hmark _)) }

/-- The last bytes: the file gets its name, and the loop goes on behind it. -/
theorem Downloading.finish (h : Downloading remote t d i file) (hf : t.isFinished = false)
    (hi : d.Inodes) (hdecl : Declared t.files remote) {n : Nat}
    (hn : n ≤ file.size - t.progress.offset) (hdone : file.size ≤ t.progress.offset + n)
    (hroom : HasRoom t.targetDir d file)
    (hclear : Clear t.targetDir (doneDisk t d (((remote i).drop t.progress.offset).take n))
      (t.files.drop (i + 1))) :
    Answered remote t d i file
      (t.handleFileContentsResponse d (((remote i).drop t.progress.offset).take n)) := by
  have hlen := (hdecl i file h.listed h.kind).1
  obtain ⟨f, ino, d₁, hopen, hw, hwritten⟩ := h.writeAll hi hlen hn
  have hlast : (((remote i).drop t.progress.offset).take n).length = n := by
    rw [List.length_take, List.length_drop, hlen]
    exact Nat.min_eq_left hn
  have hall : (remote i).take (t.progress.offset + n) = remote i :=
    List.take_of_length_le (by rw [hlen]; exact hdone)
  have hget := hwritten.get
  rw [hall, ← hwritten.alike.place] at hget
  obtain ⟨path, d₂, hr, hnamed, hnone, hat, hkeeps, hwithin⟩ := onDone_whole (i := i)
    (t := { t with progress := { t.progress with
      currentSize := (t.progress.currentSize + n) % 2 ^ 64
      fileHandle := some ⟨ino, t.progress.offset + n, true⟩ } }) (d := d₁) rfl h.downloadFileIndex
    h.listed h.path hget (hroom.alike hwritten.alike)
  have hlist := h.listIndex
  have hnext : (t.progress.listIndex + 1).toNat = i + 1 := by omega
  have hmoved := updateNext_done (n := n) (t := { t with progress := { t.progress with
    fileHandle := some ⟨ino, t.progress.offset + n, true⟩ } }) hf (by dsimp only; omega)
    (by dsimp only; rw [h.size]; exact hdone) hr
  have hdisk : doneDisk t d (((remote i).drop t.progress.offset).take n) = d₂ := by
    unfold doneDisk
    simp only [hopen, hw]
    rw [← onDone_currentSize _ _ ((t.progress.currentSize + n) % 2 ^ 64)]
    exact congrArg Prod.snd hr
  rw [hdisk] at hclear
  have hbeside := hwritten.beside.trans (hwritten.alike.place _ ▸ hkeeps)
  have hs : Stands t.targetDir d₂ file (remote i) (d₁.place path) := by
    unfold Stands
    rw [h.kind]
    refine ⟨⟨path, hnamed, ?_⟩, ino, hat⟩
    unfold Disk.place
    rw [hwithin.cwd]
  have hfree : (d.drop (d.place t.progress.downloadFilePath)).get (d₁.place path) = none := by
    by_cases heq : d₁.place path = d.place t.progress.downloadFilePath
    · rw [heq]
      exact Disk.get_drop_self _ _
    · rw [Disk.get_drop_of_ne _ heq]
      exact hwritten.alike.symm.none hnone
  obtain ⟨hcanceled, herror, -⟩ := isFinished_eq_false.mp hf
  have hwent := nextFile_ok (i := i + 1) (t := released { t with progress := { t.progress with
      currentSize := (t.progress.currentSize + n) % 2 ^ 64
      fileHandle := some ⟨ino, t.progress.offset + n, true⟩ } }) hdecl hcanceled herror rfl rfl rfl
    (hwithin.inodes (hwritten.stays.inodes hi))
    (h.before.succ hbeside h.listed hs fun _ => hfree) hclear
  have hwhole : Whole t.targetDir file (remote i) d d₂ :=
    .of_stays hwritten.stays ⟨path, ino, hnamed, hat, hwithin⟩
  unfold PasteTaskHandle.handleFileContentsResponse
  simp only [hopen, hw, hlast, hmoved]
  change Answered remote t d i file (PasteTaskHandle.afterLoop (PasteTaskHandle.nextFile _
    (t.progress.listIndex + 1).toNat d₂ (t.files.drop (t.progress.listIndex + 1).toNat)))
  rw [hnext]
  exact ⟨hwent.handle, .inr ⟨d₂, hwhole, hwent⟩⟩

end Loop

end HopToDesk.Clipboard.Paste
