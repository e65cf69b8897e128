import HopToDesk.Kit.AddedBelow
import HopToDesk.Kit.DiskTree
import HopToDesk.Clipboard.PasteTask

/-!
# Where a paste writes

Every path of the task is its directory joined with a name of its list, or that with a suffix or
with another last component (`Inner`). While no name is absolute or climbs, and the name of no file
comes to the directory itself, these lead below the directory, and a file is created or renamed only
to where nothing is. So one paste adds to the disk and takes nothing from it (`pasting_confined`).

The open file is written without a path. It is at the path it is downloaded under, and is a new one
(`TaskOk`).

The names are not checked anywhere, and with others the task writes where they lead
(`not_pasting_confined`).
-/

set_option autoImplicit false

namespace HopToDesk.Clipboard.Paste

open Kit UnixPath

/-! ## Names that stay inside -/

/-- The path goes on from the target's, without climbing, to a name. -/
def Inner (target path : PathStr) : Prop :=
  ∃ cs n, .up ∉ cs ∧ parse path = ⟨isAbsolute target, (parse target).comps ++ (cs ++ [.name n])⟩

variable {target path : PathStr}

theorem Inner.below (h : Inner target path) (cwd : Place) :
    resolve cwd (parse target) <+: resolve cwd (parse path) := by
  obtain ⟨cs, n, hcs, hparse⟩ := h
  rw [hparse, resolve_append]
  refine prefix_walk ?_ _
  rw [List.mem_append, not_or]
  exact ⟨hcs, by simp⟩

theorem Inner.ne_nil (h : Inner target path) : path ≠ [] := by
  rintro rfl
  obtain ⟨cs, n, -, hparse⟩ := h
  have hcomps := congrArg Parsed.comps hparse
  simp [parse, pieces, toComp] at hcomps

/-- A suffix is put to the last piece, and what stands before that stays inside. -/
theorem Inner.suffix (h : Inner target path) {suffix : PathStr} (hslash : '/' ∉ suffix)
    (hlen : 3 ≤ suffix.length) : Inner target (path ++ suffix) := by
  have hne := h.ne_nil
  obtain ⟨cs, n, hcs, hparse⟩ := h
  have habs : isAbsolute path = isAbsolute target := congrArg Parsed.absolute hparse
  have hcomps : stem path ++ (toComp (tip path)).toList =
      (parse target).comps ++ (cs ++ [.name n]) := by
    rw [← comps_eq]
    exact congrArg Parsed.comps hparse
  have hstem : ∃ ds, .up ∉ ds ∧ stem path = (parse target).comps ++ ds := by
    cases htip : toComp (tip path) with
    | none =>
      rw [htip, Option.toList_none, List.append_nil] at hcomps
      refine ⟨_, ?_, hcomps⟩
      rw [List.mem_append, not_or]
      exact ⟨hcs, by simp⟩
    | some c =>
      rw [htip, Option.toList_some, ← List.append_assoc] at hcomps
      exact ⟨cs, hcs, (List.append_inj' hcomps rfl).1⟩
  obtain ⟨ds, hds, hstem⟩ := hstem
  refine ⟨ds, tip path ++ suffix, hds, ?_⟩
  rw [← habs, ← isAbsolute_append hne suffix, ← List.append_assoc, ← hstem,
    ← comps_append path suffix hslash hlen]
  rfl

theorem Inner.withFileName (h : Inner target path) {n new : Name} (hn : fileName path = some n)
    (hslash : '/' ∉ new) (hlen : 3 ≤ new.length) : Inner target (withFileName path new) := by
  obtain ⟨cs, m, hcs, hparse⟩ := h
  refine ⟨cs, new, hcs, ?_⟩
  rw [parse_withFileName hn (toComp_of_length hlen) hslash,
    show isAbsolute path = isAbsolute target from congrArg Parsed.absolute hparse, hparse,
    ← List.append_assoc, ← List.append_assoc, List.dropLast_concat]

theorem slash_not_mem_digits (i : Nat) : '/' ∉ Nat.toDigits 10 i := by
  intro h
  have hdigit := Nat.isDigit_of_mem_toDigits (by decide) (by decide) h
  revert hdigit
  decide

theorem Inner.candidate (h : Inner target path) {type : FileType} {i : Nat} {newPath : PathStr}
    (hc : candidate path type i = some newPath) : Inner target newPath := by
  have hdigits : 0 < (Nat.toDigits 10 i).length := Nat.length_toDigits_pos
  have numbered : Inner target (path ++ ' ' :: '(' :: (Nat.toDigits 10 i ++ [')'])) := by
    refine h.suffix ?_ ?_
    · simp [slash_not_mem_digits]
    · simp only [List.length_cons, List.length_append, List.length_nil]
      omega
  unfold Paste.candidate at hc
  cases type with
  | file =>
    dsimp only at hc
    split at hc
    · rename_i ext hext
      cases hc
      obtain ⟨n, hn, hcut⟩ := Option.bind_eq_some_iff.mp hext
      have hslash := fileName_no_slash hn
      rw [fileStem, hn, Option.map_some, Option.getD_some]
      refine h.withFileName hn ?_ ?_
      · simp only [List.mem_append, List.mem_cons, not_or]
        exact ⟨fun hm => hslash (mem_splitAtDot_fst hm), by decide, slash_not_mem_digits i,
          by decide, fun hm => hslash (mem_splitAtDot_snd hcut hm)⟩
      · simp only [List.length_cons, List.length_append]
        omega
    · cases hc
      exact numbered
  | directory =>
    cases hc
    exact numbered
  | symlink => cases hc

theorem fileAt_natCast (files : List FileDescription) (i : Nat) :
    fileAt files (i : Int) = files[i]? := by
  rw [fileAt, if_neg (by omega), Int.toNat_natCast]

/-- The name that is found is free, and inside when the first one tried is. -/
theorem getFirstFilename_spec {d : Disk} {type : FileType} {newPath : PathStr}
    (h : getFirstFilename d path type = some newPath) :
    d.pathExists newPath = false ∧ ∀ {dir}, Inner dir path → Inner dir newPath := by
  unfold getFirstFilename at h
  split_ifs at h with hexists
  · obtain ⟨i, -, hi⟩ := List.exists_of_findSome?_eq_some h
    obtain ⟨hc, hfree⟩ := Option.filter_eq_some_iff.mp hi
    exact ⟨Bool.not_eq_true' _ ▸ hfree, fun hin => hin.candidate hc⟩
  · cases h
    exact ⟨Bool.eq_false_iff.mpr hexists, fun hin => hin⟩

/-- A name that may stand in the list: it is relative and does not climb, and a file has one. -/
def FileDescription.Plain (file : FileDescription) : Prop :=
  Descends file.name ∧ (file.kind = .file → (parse file.name).comps ≠ [])

instance (file : FileDescription) : Decidable file.Plain := inferInstanceAs (Decidable (_ ∧ _))

theorem inner_join {name : PathStr} (h : Descends name) (hne : (parse name).comps ≠ []) :
    Inner target (join target name) := by
  obtain ⟨cs, c, hcs⟩ : ∃ cs c, (parse name).comps = cs ++ [c] :=
    ⟨_, _, (List.dropLast_append_getLast hne).symm⟩
  have hup := h.not_up
  rw [hcs, List.mem_append, not_or, List.mem_singleton] at hup
  cases c with
  | up => exact absurd rfl hup.2
  | name n =>
    refine ⟨cs, n, hup.1, ?_⟩
    rw [← hcs, ← comps_join target h.1, ← isAbsolute_join target h.1]
    rfl

theorem getNewFilename_spec {d : Disk} {file : FileDescription} (hfile : file.Plain)
    (hkind : file.kind = .file) {newPath : PathStr}
    (h : getNewFilename d target file = some newPath) :
    d.pathExists newPath = false ∧ Inner target newPath := by
  have hin : Inner target (join target file.name) := inner_join hfile.1 (hfile.2 hkind)
  unfold getNewFilename at h
  dsimp only at h
  split_ifs at h with hexists
  · have hspec := getFirstFilename_spec h
    exact ⟨hspec.1, hspec.2 hin⟩
  · cases h
    exact ⟨Bool.eq_false_iff.mpr hexists, hin⟩

/-! ## What a task has done -/

/-- Nothing, or a path below the target where there was no file. -/
def Downloads (d₀ : Disk) (target path : PathStr) : Prop :=
  path = [] ∨ (d₀.place target <+: d₀.place path ∧ d₀.Unused (d₀.place path))

/-- A task that began on the disk `d₀`. -/
structure TaskOk (d₀ : Disk) (target : PathStr) (files : List FileDescription)
    (t : PasteTaskHandle) (d : Disk) : Prop where
  disk : d₀.AddedBelow (d₀.place target) d
  targetDir : t.targetDir = target
  list : t.files = files
  path : Downloads d₀ target t.progress.downloadFilePath
  /-- The open file is a new one, at the path and for a file of the list. -/
  opened : ∀ f, t.progress.fileHandle = some f → f.writable = true ∧ d₀.next ≤ f.ino ∧
    (∃ data, d.stat t.progress.downloadFilePath = some (.file f.ino data)) ∧
    ∃ file, fileAt files t.progress.downloadFileIndex = some file ∧ file.kind = .file

abbrev StateOk (d₀ : Disk) (target : PathStr) (files : List FileDescription)
    (r : PasteTaskHandle × Disk) : Prop := TaskOk d₀ target files r.1 r.2

section Disk

variable {d₀ d : Disk}

theorem Downloads.setXattr (h : Downloads d₀ target path)
    (hd : d₀.AddedBelow (d₀.place target) d) :
    d₀.AddedBelow (d₀.place target) (setXattr d path) := by
  unfold Paste.setXattr
  split_ifs with hne
  · exact hd
  · refine hd.setFileMtime ?_
    rw [hd.place]
    exact (h.resolve_left hne).1

theorem stat_setXattr (d : Disk) (path s : PathStr) : (setXattr d path).stat s = d.stat s := by
  unfold Paste.setXattr Disk.setFileMtime
  split_ifs
  · rfl
  · split
    · rfl
    · rfl

theorem stat_setTimes (d : Disk) (f : Kit.Handle) (s : PathStr) :
    (setTimes d f).stat s = d.stat s := by
  unfold setTimes
  split
  · rfl
  · rfl

/-- An open file that is below the target is touched there. -/
theorem setTimes_below {f : Kit.Handle} {s : PathStr} {data : Content}
    (hd : d₀.AddedBelow (d₀.place target) d) (hs : d.stat s = some (.file f.ino data))
    (hroot : d₀.place target <+: d₀.place s) :
    d₀.AddedBelow (d₀.place target) (setTimes d f) := by
  unfold setTimes
  rw [Disk.placeOf_of_get hd.inodes (Disk.stat_file hs)]
  refine hd.note fun q hq => ?_
  obtain rfl := List.mem_singleton.mp hq
  rw [hd.place]
  exact hroot

/-- A file is created where nothing is, inside. -/
theorem create_inner (hd : d₀.AddedBelow (d₀.place target) d) (hin : Inner target path)
    (hfree : ∀ i data, d.stat path ≠ some (.file i data)) {f : Kit.Handle} {d' : Disk}
    (hc : d.createFile path = .ok (f, d')) :
    d₀.AddedBelow (d₀.place target) d' ∧ f.writable = true ∧ d₀.next ≤ f.ino ∧
      d'.stat path = some (.file f.ino []) ∧ Downloads d₀ target path := by
  have hroot : d₀.place target <+: d.place path := by
    rw [hd.place]
    exact hin.below _
  obtain ⟨hd', hwritable, hnew, hstat, hunused⟩ := hd.createFile hroot hfree hc
  rw [hd.place] at hunused
  exact ⟨hd', hwritable, hnew, hstat, .inr ⟨hin.below _, hunused⟩⟩

theorem stat_ne_file_of_free (h : d.pathExists path = false) (i : Nat) (data : Content) :
    d.stat path ≠ some (.file i data) := by
  intro hs
  rw [Disk.pathExists, hs] at h
  cases h

/-- No file comes with the directories of a parent. -/
theorem makeParent_stat {dir : Parsed} {s : PathStr} {i : Nat} {data : Content}
    (hs : (PasteTaskHandle.makeParent d dir).2.stat s = some (.file i data)) :
    d.stat s = some (.file i data) := by
  unfold PasteTaskHandle.makeParent at hs
  split_ifs at hs
  · exact hs
  · exact Disk.stat_createDirAll hs

/-- They are made below the target. -/
theorem makeParent_below (hd : d₀.AddedBelow (d₀.place target) d) (htarget : d₀.StandsAsDir target)
    (hin : Inner target path) {dir : Parsed} (hdir : parent (parse path) = some dir) :
    d₀.AddedBelow (d₀.place target) (PasteTaskHandle.makeParent d dir).2 := by
  obtain ⟨cs, n, hcs, hparse⟩ := hin
  have hdir' : dir = ⟨isAbsolute target, (parse target).comps ++ cs⟩ := by
    rw [hparse, parent, if_neg (by simp)] at hdir
    cases hdir
    simp only [← List.append_assoc, List.dropLast_concat]
  unfold PasteTaskHandle.makeParent
  split_ifs
  · exact hd
  · rw [hdir']
    exact hd.createDirAll htarget.2.2 rfl hcs

end Disk

section Task

variable {d₀ d : Disk} {files : List FileDescription} {t : PasteTaskHandle}

namespace TaskOk

/-- Without an open file there is the disk to look after and the path. -/
theorem closed (hd : d₀.AddedBelow (d₀.place target) d) (htarget : t.targetDir = target)
    (hlist : t.files = files) (hpath : Downloads d₀ target t.progress.downloadFilePath)
    (hclosed : t.progress.fileHandle = none) : TaskOk d₀ target files t d where
  disk := hd
  targetDir := htarget
  list := hlist
  path := hpath
  opened f hf := by
    rw [hclosed] at hf
    cases hf

theorem onCancelled (h : TaskOk d₀ target files t d) :
    StateOk d₀ target files (t.onCancelled d) := by
  refine closed ?_ h.targetDir h.list h.path rfl
  cases hr : d.removeFile t.progress.downloadFilePath with
  | error e =>
    rw [PasteTaskHandle.onCancelled, hr]
    exact h.disk
  | ok d' =>
    rw [PasteTaskHandle.onCancelled, hr]
    rcases h.path with hempty | ⟨hroot, hunused⟩
    · obtain ⟨e, he⟩ := d.removeFile_nil
      rw [hempty, he] at hr
      cases hr
    · rw [← h.disk.place t.progress.downloadFilePath] at hroot hunused
      exact h.disk.removeFile hroot hunused hr

theorem onError (h : TaskOk d₀ target files t d) (error : CliprdrError) :
    StateOk d₀ target files (t.onError d error) :=
  onCancelled ⟨h.disk, h.targetDir, h.list, h.path, h.opened⟩

theorem setXattr (h : TaskOk d₀ target files t d) :
    TaskOk d₀ target files t (setXattr d t.progress.downloadFilePath) where
  disk := h.path.setXattr h.disk
  targetDir := h.targetDir
  list := h.list
  path := h.path
  opened f hf := by
    rw [stat_setXattr]
    exact h.opened f hf

/-- The complete file is renamed to a free name. -/
theorem renameDownload (h : TaskOk d₀ target files t d) {i : Nat} {data : Content}
    (hstat : d.stat t.progress.downloadFilePath = some (.file i data))
    (hclosed : t.progress.fileHandle = none) {newPath : PathStr}
    (hfree : d.pathExists newPath = false) (hin : Inner target newPath) :
    StateOk d₀ target files (t.renameDownload d newPath) := by
  have hroot' : d₀.place target <+: d₀.place newPath := hin.below _
  refine closed ?_ h.targetDir h.list (.inl rfl) hclosed
  unfold PasteTaskHandle.renameDownload
  cases hr : d.rename t.progress.downloadFilePath newPath with
  | error e => exact h.disk
  | ok d' =>
    rcases h.path with hempty | ⟨hroot, hunused⟩
    · rw [hempty] at hstat
      exact absurd hstat (Disk.stat_ne_file rfl)
    · rw [← h.disk.place t.progress.downloadFilePath] at hroot hunused
      have hd' := h.disk.rename hroot (by rwa [h.disk.place]) hunused hstat hfree hr
      exact hd'.setFileMtime (by rwa [hd'.place])

theorem onDone (h : TaskOk d₀ target files t d) (hfiles : ∀ file ∈ files, file.Plain) :
    StateOk d₀ target files (t.onDone d) ∧
      (t.onDone d).1.progress.fileHandle = none := by
  obtain rfl := h.targetDir
  obtain rfl := h.list
  have hx := h.setXattr.setXattr
  unfold PasteTaskHandle.onDone
  cases hf : t.progress.fileHandle with
  | none => exact ⟨hx, hf⟩
  | some f =>
    obtain ⟨-, -, ⟨data, hstat⟩, file, hfile, hkind⟩ := hx.opened f hf
    have hindex : t.progress.downloadFileIndex ≠ -1 := by
      intro he
      rw [he] at hfile
      cases hfile
    have hmem : file ∈ t.files := by
      unfold fileAt at hfile
      split_ifs at hfile
      exact List.mem_of_getElem? hfile
    have hclosed := closed (t := { t with progress := { t.progress with fileHandle := none } })
      hx.disk rfl rfl hx.path rfl
    simp only [if_neg hindex, hfile]
    split
    · exact ⟨hclosed, rfl⟩
    · rename_i newPath hnew
      obtain ⟨hfree, hin⟩ := getNewFilename_spec (hfiles file hmem) hkind hnew
      exact ⟨hclosed.renameDownload hstat rfl hfree hin, rfl⟩

theorem onFinished (h : TaskOk d₀ target files t d) (hfiles : ∀ file ∈ files, file.Plain) :
    StateOk d₀ target files (t.onFinished d) := by
  have finish {t' : PasteTaskHandle} {d' : Disk} (h' : TaskOk d₀ target files t' d') :
      StateOk d₀ target files (if t'.progress.currentSize ≠ t'.progress.totalSize then
        ({ t' with progress := { t'.progress with
          error := some (.invalidRequest "Failed to download all files") } }, d')
        else (t', d')) := by
    split_ifs
    · exact ⟨h'.disk, h'.targetDir, h'.list, h'.path, h'.opened⟩
    · exact h'
  unfold PasteTaskHandle.onFinished
  by_cases he : t.progress.error.isSome = true
  · rw [if_pos he]
    exact finish h.onCancelled
  · rw [if_neg he]
    exact finish (h.onDone hfiles).1

/-- The new file is the open one. -/
theorem createDownload (h : TaskOk d₀ target files t d) {file : FileDescription}
    (hfile : fileAt files t.progress.listIndex = some file) (hkind : file.kind = .file)
    (hclosed : t.progress.fileHandle = none) (hin : Inner target path)
    (hfree : ∀ i data, d.stat path ≠ some (.file i data)) :
    StateOk d₀ target files (t.createDownload d file path) := by
  unfold PasteTaskHandle.createDownload
  cases hc : d.createFile path with
  | error e => exact closed h.disk h.targetDir h.list h.path hclosed
  | ok r =>
    obtain ⟨f, d'⟩ := r
    obtain ⟨hd', hwritable, hnew, hstat, hpath⟩ := create_inner h.disk hin hfree hc
    exact {
      disk := hpath.setXattr (setTimes_below hd' hstat (hin.below _))
      targetDir := h.targetDir
      list := h.list
      path := hpath
      opened := fun g hg => by
        cases hg
        refine ⟨hwritable, hnew, ⟨[], ?_⟩, file, hfile, hkind⟩
        rw [stat_setXattr, stat_setTimes]
        exact hstat }

theorem openNewWriter (h : TaskOk d₀ target files t d) (htarget : d₀.StandsAsDir target)
    {file : FileDescription} (hfile : fileAt files t.progress.listIndex = some file)
    (hkind : file.kind = .file) (hplain : file.Plain) (hclosed : t.progress.fileHandle = none) :
    StateOk d₀ target files (t.openNewWriter d).2 := by
  obtain rfl := h.targetDir
  obtain rfl := h.list
  unfold PasteTaskHandle.openNewWriter
  simp only [hfile]
  split
  · exact h
  · rename_i path hfirst
    have hspec := getFirstFilename_spec hfirst
    have hin : Inner t.targetDir path :=
      hspec.2 ((inner_join hplain.1 (hplain.2 hkind)).suffix (by decide) (by decide))
    split
    · exact h
    · rename_i dir hdir
      have hmade := makeParent_below h.disk htarget hin hdir
      have hfree (i : Nat) (data : Content) :
          (PasteTaskHandle.makeParent d dir).2.stat path ≠ some (.file i data) :=
        fun hs => stat_ne_file_of_free hspec.1 i data (makeParent_stat hs)
      split
      · rename_i d' hr
        rw [hr] at hmade
        exact closed hmade rfl rfl h.path hclosed
      · rename_i d' hr
        rw [hr] at hmade hfree
        exact (closed hmade rfl rfl h.path hclosed).createDownload hfile hkind hclosed hin hfree

theorem createEmpty (h : TaskOk d₀ target files t d) {file : FileDescription}
    (hkind : file.kind = .file) (hplain : file.Plain) :
    d₀.AddedBelow (d₀.place target) (t.createEmpty d file) := by
  obtain rfl := h.targetDir
  unfold PasteTaskHandle.createEmpty
  split
  · exact h.disk
  · rename_i newPath hnew
    obtain ⟨hfree, hin⟩ := getNewFilename_spec hplain hkind hnew
    split
    · rename_i f d' hc
      obtain ⟨hd', -, -, hstat, -⟩ :=
        create_inner h.disk hin (fun i data => stat_ne_file_of_free hfree i data) hc
      exact setTimes_below hd' hstat (hin.below _)
    · exact h.disk

theorem createDirectory (h : TaskOk d₀ target files t d) (htarget : d₀.StandsAsDir target)
    {file : FileDescription} (hplain : file.Plain) :
    d₀.AddedBelow (d₀.place target) (t.createDirectory d file) := by
  obtain rfl := h.targetDir
  have hparse : parse (join t.targetDir file.name) =
      ⟨isAbsolute t.targetDir, (parse t.targetDir).comps ++ (parse file.name).comps⟩ := by
    rw [← comps_join _ hplain.1.1, ← isAbsolute_join t.targetDir hplain.1.1]
    rfl
  unfold PasteTaskHandle.createDirectory
  dsimp only
  split_ifs
  · exact h.disk
  · rw [hparse]
    exact h.disk.createDirAll htarget.2.2 rfl hplain.1.not_up

/-- The loop goes through the list from the `i`-th file on. -/
theorem nextFile (htarget : d₀.StandsAsDir target) (hfiles : ∀ file ∈ files, file.Plain)
    {l : List FileDescription} {i : Nat} (hl : files.drop i = l) (h : TaskOk d₀ target files t d)
    (hclosed : t.progress.fileHandle = none) :
    StateOk d₀ target files (t.nextFile i d l).2 := by
  induction l generalizing i d with
  | nil => exact h
  | cons file l ih =>
    have hget : files[i]? = some file := by
      rw [← Nat.add_zero i, ← List.getElem?_drop, hl]
      rfl
    have hplain := hfiles file (List.mem_of_getElem? hget)
    have hrest : files.drop (i + 1) = l := by
      rw [← List.drop_drop, hl]
      rfl
    have goesOn {d' : Disk} (hd' : d₀.AddedBelow (d₀.place target) d') :
        StateOk d₀ target files (t.nextFile (i + 1) d' l).2 :=
      ih hrest (closed hd' h.targetDir h.list h.path hclosed)
    unfold PasteTaskHandle.nextFile
    cases hkind : file.kind with
    | file =>
      dsimp only
      split_ifs with hsize
      · exact goesOn (h.createEmpty hkind hplain)
      · have hat : fileAt files (i : Int) = some file := by
          unfold fileAt
          rw [if_neg (by omega), Int.toNat_natCast]
          exact hget
        exact openNewWriter (t := { t with progress := { t.progress with
          listIndex := i, offset := 0 } }) (closed h.disk h.targetDir h.list h.path hclosed)
          htarget hat hkind hplain hclosed
    | directory => exact goesOn (h.createDirectory htarget hplain)
    | symlink => exact goesOn h.disk

theorem endList (h : TaskOk d₀ target files t d) : TaskOk d₀ target files t.endList d := by
  unfold PasteTaskHandle.endList
  split_ifs
  · exact ⟨h.disk, h.targetDir, h.list, h.path, h.opened⟩
  · exact h

theorem afterLoop {r : Except CliprdrError Unit × PasteTaskHandle × Disk}
    (h : StateOk d₀ target files r.2) :
    StateOk d₀ target files (PasteTaskHandle.afterLoop r).2 := by
  obtain ⟨e | _, t', d'⟩ := r
  · exact h
  · exact endList h

theorem updateNext (htarget : d₀.StandsAsDir target) (hfiles : ∀ file ∈ files, file.Plain)
    (h : TaskOk d₀ target files t d)
    (hstart : t.progress.listIndex = -1 → t.progress.fileHandle = none) (size : Nat) :
    StateOk d₀ target files (t.updateNext d size).2 := by
  obtain rfl := h.list
  have loop {t' : PasteTaskHandle} {d' : Disk} (i : Nat) (h' : TaskOk d₀ target t.files t' d')
      (hclosed : t'.progress.fileHandle = none) : StateOk d₀ target t.files
        (PasteTaskHandle.afterLoop (t'.nextFile i d' (t'.files.drop i))).2 :=
    afterLoop (nextFile htarget hfiles (congrArg (List.drop i) h'.list.symm) h' hclosed)
  unfold PasteTaskHandle.updateNext
  by_cases hfinished : t.isFinished = true
  · rw [if_pos hfinished]
    exact h
  · rw [if_neg hfinished]
    by_cases his : t.progress.listIndex = -1
    · simp only [his, decide_true, Bool.true_or, if_true]
      exact loop _ ⟨h.disk, h.targetDir, rfl, h.path, h.opened⟩ (hstart his)
    · by_cases hnext : t.progress.downloadFileSize ≤ t.progress.offset + size
      · simp only [his, hnext, decide_false, decide_true, Bool.or_true, if_true, Bool.false_eq_true,
          if_false]
        have hdone := onDone (t := { t with progress := { t.progress with
          currentSize := (t.progress.currentSize + size) % 2 ^ 64 } })
          ⟨h.disk, h.targetDir, rfl, h.path, h.opened⟩ hfiles
        exact loop _ hdone.1 hdone.2
      · simp only [his, hnext, decide_false, Bool.or_false, Bool.false_eq_true, if_false]
        exact endList (t := { t with progress := { t.progress with
          currentSize := (t.progress.currentSize + size) % 2 ^ 64
          offset := t.progress.offset + size
          downloadFileCurrentSize := t.progress.downloadFileCurrentSize + size } })
          (setXattr ⟨h.disk, h.targetDir, rfl, h.path, h.opened⟩)

theorem handleFileContentsResponse (hinodes : d₀.Inodes) (htarget : d₀.StandsAsDir target)
    (hfiles : ∀ file ∈ files, file.Plain) (h : TaskOk d₀ target files t d)
    (hstarted : t.progress.listIndex ≠ -1) (data : List UInt8) :
    StateOk d₀ target files (t.handleFileContentsResponse d data).2 := by
  unfold PasteTaskHandle.handleFileContentsResponse
  cases hf : t.progress.fileHandle with
  | none => exact h
  | some f =>
    obtain ⟨hwritable, hnew, ⟨old, hstat⟩, hfile⟩ := h.opened f hf
    cases hw : d.writeAll f data with
    | error e =>
      simp only [hw]
      exact h
    | ok r =>
      obtain ⟨f', d'⟩ := r
      have hends : endsAsDir t.progress.downloadFilePath = false := by
        rw [Bool.eq_false_iff]
        exact fun he => Disk.stat_ne_file he hstat
      have hne : t.progress.downloadFilePath ≠ [] := by
        intro he
        rw [he] at hends
        cases hends
      have hroot : d₀.place target <+: d.place t.progress.downloadFilePath := by
        rw [h.disk.place]
        exact (h.path.resolve_left hne).1
      obtain ⟨hd', rfl, data', hat⟩ :=
        h.disk.writeAll hinodes hnew (Disk.stat_file hstat) hroot hw
      simp only [hw]
      refine updateNext (t := { t with progress := { t.progress with fileHandle := some _ } })
        htarget hfiles ?_ (fun he => absurd he hstarted) data.length
      exact {
        disk := hd'
        targetDir := h.targetDir
        list := h.list
        path := h.path
        opened := fun g hg => by
          cases hg
          refine ⟨hwritable, hnew, ⟨data', ?_⟩, hfile⟩
          rw [Disk.stat_of_get hends, hd'.place, ← h.disk.place]
          exact hat }

end TaskOk

end Task

/-! ## A run -/

/-- The task of a paste that began on the disk `d₀`. -/
def RunOk (d₀ : Disk) (target : PathStr) (files : List FileDescription) (s : PasteTask) : Prop :=
  ∃ t, s.handle = some t ∧ TaskOk d₀ target files t s.disk

section Run

variable {d₀ d : Disk} {files : List FileDescription} {t : PasteTaskHandle}
  (htarget : d₀.StandsAsDir target) (hfiles : ∀ file ∈ files, file.Plain)

theorem RunOk.store (s : PasteTask) {r : PasteTaskHandle × Disk} (h : StateOk d₀ target files r) :
    RunOk d₀ target files (s.store r) := ⟨r.1, rfl, h⟩

theorem RunOk.request (s : PasteTask) (h : TaskOk d₀ target files t d) :
    RunOk d₀ target files (s.request t d) := by
  unfold PasteTask.request
  split
  · exact ⟨t, rfl, h⟩
  · exact .store s (h.onError _)

include hfiles in
theorem RunOk.continue_ (s : PasteTask) (h : TaskOk d₀ target files t d) :
    RunOk d₀ target files (s.continue_ t d) := by
  unfold PasteTask.continue_
  split_ifs
  · exact .store _ (h.onFinished hfiles)
  · exact .request s h

include htarget hfiles in
theorem RunOk.start {s : PasteTask} (hinodes : s.disk.Inodes) (hd : d₀ = s.disk)
    (hidle : s.isFinished = true) : RunOk d₀ target files (s.start target files) := by
  subst hd
  have hfresh : TaskOk s.disk target files (PasteTask.newHandle target files) s.disk :=
    .closed (.refl hinodes _) rfl rfl (.inl rfl) rfl
  have hfirst := hfresh.updateNext htarget hfiles (fun _ => rfl) 0
  unfold PasteTask.start
  rw [if_pos hidle]
  dsimp only
  split_ifs
  · exact .store s (hfirst.onFinished hfiles)
  · exact .request s hfirst

theorem RunOk.cancel {s : PasteTask} (h : RunOk d₀ target files s) :
    RunOk d₀ target files s.cancel := by
  obtain ⟨t, ht, hok⟩ := h
  unfold PasteTask.cancel
  rw [ht]
  exact .store s (.onCancelled ⟨hok.disk, hok.targetDir, hok.list, hok.path, hok.opened⟩)

include htarget hfiles in
theorem RunOk.onFileContents (hinodes : d₀.Inodes) {s : PasteTask} (h : RunOk d₀ target files s)
    (r : FileContentsResponse) : RunOk d₀ target files (s.onFileContents r) := by
  have same := h
  obtain ⟨t, ht, hok⟩ := h
  unfold PasteTask.onFileContents
  simp only [ht]
  split_ifs with hfinished hstream hflags hretry
  · exact same
  · exact same
  · exact .continue_ hfiles _ ⟨hok.disk, hok.targetDir, hok.list, hok.path, hok.opened⟩
  · exact .continue_ hfiles _ hok
  · split
    · exact same
    · rename_i file hfile
      have hstarted : t.progress.listIndex ≠ -1 := by
        intro he
        rw [not_not.mp hstream, he] at hfile
        cases hfile
      have hr := hok.handleFileContentsResponse hinodes htarget hfiles hstarted r.requestedData
      split_ifs
      · exact same
      · split
        · rename_i t' d' heq
          rw [heq] at hr
          exact .continue_ hfiles s hr
        · rename_i e t' d' heq
          rw [heq] at hr
          exact .continue_ hfiles s (hr.onError e)

include hfiles in
theorem RunOk.onTimeout {s : PasteTask} (h : RunOk d₀ target files s) (late : Bool) :
    RunOk d₀ target files (s.onTimeout late) := by
  have same := h
  obtain ⟨t, ht, hok⟩ := h
  unfold PasteTask.onTimeout
  simp only [ht]
  split_ifs
  · exact .store _ (.onFinished ⟨hok.disk, hok.targetDir, hok.list, hok.path, hok.opened⟩ hfiles)
  · exact same

include htarget hfiles in
/-- One step of a paste keeps what has been done below the target. -/
theorem RunOk.step (hinodes : d₀.Inodes) {s : PasteTask} (h : RunOk d₀ target files s)
    {e : PasteTask.Event} (he : s.Continues e) : RunOk d₀ target files (s.step e) := by
  cases e with
  | start targetDir files' =>
    have hbusy : s.isFinished = false := he
    rw [PasteTask.step, PasteTask.start, hbusy]
    exact h
  | cancel => exact h.cancel
  | fileContents r => exact h.onFileContents htarget hfiles hinodes r
  | timeout late => exact h.onTimeout hfiles late

end Run

/-- What is between the two disks is below the directory, and every file is still there. -/
def Confined (d d' : Disk) (targetDir : PathStr) : Prop :=
  (∃ accesses, d'.log = d.log ++ accesses ∧
    ∀ a ∈ accesses, ∀ q ∈ a.places, d.place targetDir <+: q) ∧
  ∀ q i data, d.get q = some (.file i data) → d'.get q = some (.file i data)

/-- **A paste stays below its directory and adds only.** From any state in which a paste can begin,
with a list of plain names, up to any state before another one begins. -/
theorem pasting_confined {s : PasteTask} {targetDir : PathStr} {files : List FileDescription}
    (hinodes : s.disk.Inodes) (hidle : s.isFinished = true)
    (htarget : s.disk.StandsAsDir targetDir) (hfiles : ∀ file ∈ files, file.Plain)
    {es : List PasteTask.Event} {s' : PasteTask} (h : (s.pasting targetDir files).Run es s') :
    Confined s.disk s'.disk targetDir := by
  have hok : RunOk s.disk targetDir files s' := by
    refine h.invariant ?_ ?_
    · rintro _ rfl
      exact .start htarget hfiles hinodes rfl hidle
    · rintro s₁ e _ hok ⟨he, rfl⟩
      exact hok.step htarget hfiles hinodes he
  obtain ⟨t, -, ht⟩ := hok
  exact ⟨ht.disk.log, fun _ _ _ => ht.disk.files⟩

/-! ## Examples -/

/-- No task yet, and a directory with one file. -/
def beforePaste (dir : Name) : PasteTask where
  handle := none
  retryCount := 0
  disk := (Disk.blank.withDir [dir]).withFile [dir, ['e']] [7]
  sent := []

theorem inodes_beforePaste (dir : Name) : (beforePaste dir).disk.Inodes := by
  have hdir : (Disk.blank.withDir [dir]).Sound := Disk.sound_blank.withDir rfl
  have hnone : (Disk.blank.withDir [dir]).get [dir, ['e']] = none :=
    Disk.get_put_of_ne Disk.blank (by simp) .dir
  have hparent : (Disk.blank.withDir [dir]).get [dir] = some .dir :=
    Disk.get_put_self Disk.blank [dir] .dir
  have hfile : ((Disk.blank.withDir [dir]).withFile [dir, ['e']] [7]).Sound :=
    hdir.withFile hparent hnone
  exact hfile.inodes

/-- A directory, a file of two bytes in it, and an empty file whose name is taken. -/
def threeFiles : List FileDescription :=
  [⟨1, ['d'], .directory, 0⟩, ⟨1, ['d', '/', 'a'], .file, 2⟩, ⟨1, ['e'], .file, 0⟩]

/-- The paste of the three files into `/t`, cancelled when it is done. -/
theorem pasting_confined_threeFiles :
    let s' := [.fileContents ⟨1, 1, 1, [1, 2]⟩, .cancel].foldl PasteTask.step
      ((beforePaste ['t']).start ['/', 't'] threeFiles)
    Confined (beforePaste ['t']).disk s'.disk ['/', 't'] ∧
      s'.disk.get [['t'], ['d'], ['a']] = some (.file 1 [1, 2]) ∧
      s'.disk.get [['t'], "e (1)".toList] = some (.file 2 []) := by
  refine ⟨?_, by decide +kernel, by decide +kernel⟩
  have hstart : ((beforePaste ['t']).pasting ['/', 't'] threeFiles).Run [] _ :=
    System.guarded_start
  have hanswer := hstart.guarded_snoc (PasteTask.Event.fileContents ⟨1, 1, 1, [1, 2]⟩) trivial
  have hrun := hanswer.guarded_snoc PasteTask.Event.cancel trivial
  exact pasting_confined (inodes_beforePaste _) rfl (by decide +kernel) (by decide +kernel) hrun

/-- The paste of one file into `/dir` touches what is not below it. -/
def Escapes (dir : Name) (file : FileDescription) : Prop :=
  ∃ es s', ((beforePaste dir).pasting ('/' :: dir) [file]).Run es s' ∧
    ¬ Confined (beforePaste dir).disk s'.disk ('/' :: dir)

theorem escapes_of_log {dir : Name} {file : FileDescription}
    (h : ((beforePaste dir).start ('/' :: dir) [file]).disk.log.any fun a =>
      a.places.any fun q => ¬ (beforePaste dir).disk.place ('/' :: dir) <+: q) :
    Escapes dir file := by
  refine ⟨[], _, System.guarded_start, ?_⟩
  rintro ⟨⟨accesses, hlog, hbelow⟩, -⟩
  obtain ⟨a, ha, hout⟩ := List.any_eq_true.mp h
  obtain ⟨q, hq, hout⟩ := List.any_eq_true.mp hout
  rw [hlog] at ha
  exact of_decide_eq_true hout (hbelow a ha q hq)

/-- **Names can lead outside**, by climbing and by being absolute. The empty name does so when the
directory itself has an extension: then the first name tried is the directory, and the next ones are
beside it. -/
theorem not_pasting_confined :
    Escapes ['t'] ⟨1, ['.', '.', '/', 'x'], .file, 0⟩ ∧ Escapes ['t'] ⟨1, ['/', 'x'], .file, 0⟩ ∧
      Escapes ['t', '.', 'd'] ⟨1, [], .file, 0⟩ := by
  refine ⟨escapes_of_log ?_, escapes_of_log ?_, escapes_of_log ?_⟩
  · decide +kernel
  · decide +kernel
  · decide +kernel

end HopToDesk.Clipboard.Paste
