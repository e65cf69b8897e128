import HopToDesk.Kit.Components
import HopToDesk.Kit.Json
import HopToDesk.Kit.Topmost

/-!
# The log of removed files

A client removes a directory file by file. `FileRemoveLogControl` of `src/server/connection.rs`
holds back what to say about it: a removed directory takes the place of what was removed inside it,
and once a second has passed without a removal the timer says what is left.

Each removal carries its number, which tells two removals of one path apart; the code has no such
number. Times are in nanoseconds.
-/

set_option autoImplicit false

namespace HopToDesk.Host

open Kit Kit.UnixPath

structure FileRemoveFile where
  id : Int
  path : PathStr
  fileNum : Int
deriving DecidableEq, Repr

structure FileRemoveDir where
  id : Int
  path : PathStr
  recursive : Bool
deriving DecidableEq, Repr

structure FileActionLog where
  id : Int
  connId : Int
  path : PathStr
  dir : Bool
deriving DecidableEq, Repr

namespace FileActionLog

def toJson (log : FileActionLog) : Json :=
  .obj [("id".toList, .num log.id), ("connId".toList, .num log.connId),
    ("path".toList, .str log.path), ("dir".toList, .bool log.dir)]

/-- What `ipc::Data::FileTransferLog` carries. -/
def data (log : FileActionLog) : Text × Text := ("remove".toList, log.toJson.write)

end FileActionLog

/-- A removal with its number. -/
structure Numbered (α : Type) where
  number : Nat
  item : α
deriving DecidableEq, Repr

/-- The last field counts the removals. -/
structure FileRemoveLogControl where
  connId : Int
  instant : Nat
  removedFiles : List (Numbered FileRemoveFile)
  removedDirs : List (Numbered FileRemoveDir)
  removals : Nat
deriving DecidableEq, Repr

/-- `direct_child`. -/
def directChild (parent child : PathStr) : Bool :=
  Component.parent (components child) == some (components parent)

namespace FileRemoveLogControl

def new (connId : Int) (now : Nat) : FileRemoveLogControl := ⟨connId, now, [], [], 0⟩

def fileLog (self : FileRemoveLogControl) (f : FileRemoveFile) : FileActionLog :=
  ⟨f.id, self.connId, f.path, false⟩

def dirLog (self : FileRemoveLogControl) (d : FileRemoveDir) : FileActionLog :=
  ⟨d.id, self.connId, d.path, true⟩

def onRemoveFile (self : FileRemoveLogControl) (now : Nat) (f : FileRemoveFile) :
    FileRemoveLogControl × Option (Text × Text) :=
  ({ self with
      instant := now
      removedFiles := self.removedFiles ++ [⟨self.removals, f⟩]
      removals := self.removals + 1 },
    some (self.fileLog f).data)

def onRemoveDir (self : FileRemoveLogControl) (now : Nat) (d : FileRemoveDir) :
    FileRemoveLogControl × Option (Text × Text) :=
  let removedFiles := self.removedFiles.filter fun f => !directChild f.item.path d.path
  let removedDirs := self.removedDirs.filter fun x => !directChild d.path x.item.path
  let removedDirs :=
    if !removedDirs.any fun x => directChild x.item.path d.path then
      removedDirs ++ [⟨self.removals, d⟩]
    else removedDirs
  ({ self with instant := now, removedFiles, removedDirs, removals := self.removals + 1 },
    some (self.dirLog d).data)

/-- `Duration::as_secs`, of the time that has passed. -/
def elapsedSecs (self : FileRemoveLogControl) (now : Nat) : Nat :=
  (now - self.instant) / 1000000000

/-- The logs that are sent, with the numbers of their removals. -/
def onTimer (self : FileRemoveLogControl) (now : Nat) :
    List (Numbered FileActionLog) × FileRemoveLogControl :=
  if self.elapsedSecs now < 1 then ([], self)
  else
    (self.removedFiles.map (fun f => ⟨f.number, self.fileLog f.item⟩) ++
      self.removedDirs.map (fun d => ⟨d.number, self.dirLog d.item⟩),
      { self with removedFiles := [], removedDirs := [] })

end FileRemoveLogControl

/-- A removal the client asks for. -/
inductive Removal
  | file (f : FileRemoveFile)
  | dir (d : FileRemoveDir)
deriving DecidableEq, Repr

namespace Removal

def path : Removal → PathStr
  | .file f => f.path
  | .dir d => d.path

/-- The path of a directory that is removed. -/
def dir? : Removal → Option (List Component)
  | .file _ => none
  | .dir d => some (components d.path)

end Removal

namespace FileRemoveLogControl

def onRemoval (self : FileRemoveLogControl) (now : Nat) : Removal → FileRemoveLogControl
  | .file f => (self.onRemoveFile now f).1
  | .dir d => (self.onRemoveDir now d).1

/-- Removals, each at its time. -/
def run (self : FileRemoveLogControl) (events : List (Removal × Nat)) : FileRemoveLogControl :=
  events.foldl (fun self e => self.onRemoval e.2 e.1) self

end FileRemoveLogControl

end HopToDesk.Host

/-!
## What the log of removed files leaves out

The directories that are held back are the topmost of those that were removed (`Held.dirs`). The
files are not what one would expect: `on_remove_dir` drops a file that the directory is directly
below, where it was to drop the files directly below the directory (`Held.files`).

`removeLogs_collapsed_iff` says for which removals the logs come out right all the same.
-/

namespace HopToDesk.Host

open Kit Kit.UnixPath

theorem directChild_iff {parent child : PathStr} :
    directChild parent child = true ↔
      Component.parent (components child) = some (components parent) := by
  rw [directChild, beq_iff_eq]

theorem length_parent_lt (x y : List Component) (h : Component.parent x = some y) :
    y.length < x.length := by
  cases hlast : x.getLast? with
  | none =>
    rw [Component.parent, hlast] at h
    cases h
  | some c =>
    have hpos : 0 < x.length := by
      rw [List.length_pos_iff]
      rintro rfl
      cases hlast
    rw [Component.parent, hlast] at h
    split at h
    next => cases h
    next => cases h
    next =>
      cases h
      rw [List.length_dropLast]
      omega

/-! ### What is held back -/

/-- No directory directly below the path is removed after the `i`-th removal. -/
def Undisturbed (rs : List Removal) (i : Nat) (path : PathStr) : Prop :=
  ∀ j d, i < j → rs[j]? = some (.dir d) → directChild path d.path = false

/-- The directories that are removed, newest first. -/
def dirsOf (rs : List Removal) : List (List Component) := (rs.filterMap Removal.dir?).reverse

/-- Of the directory and the one that holds it, it was removed last, and the other did not stand
then. -/
def Stands (rs : List Removal) (p : List Component) : Prop :=
  Topmost.stands Component.parent (dirsOf rs) p = true

theorem mem_dirsOf {rs : List Removal} {p : List Component} :
    p ∈ dirsOf rs ↔ ∃ d, .dir d ∈ rs ∧ components d.path = p := by
  unfold dirsOf
  rw [List.mem_reverse, List.mem_filterMap]
  constructor
  · rintro ⟨r, hr, hp⟩
    cases r with
    | file f => cases hp
    | dir d => exact ⟨d, hr, Option.some.inj hp⟩
  · rintro ⟨d, hd, rfl⟩
    exact ⟨_, hd, rfl⟩

theorem dirsOf_concat_file (rs : List Removal) (f : FileRemoveFile) :
    dirsOf (rs ++ [.file f]) = dirsOf rs := by
  simp [dirsOf, Removal.dir?]

theorem dirsOf_concat_dir (rs : List Removal) (d : FileRemoveDir) :
    dirsOf (rs ++ [.dir d]) = components d.path :: dirsOf rs := by
  simp [dirsOf, Removal.dir?]

/-- What is held after some removals. -/
structure Held (rs : List Removal) (c : FileRemoveLogControl) : Prop where
  removals : c.removals = rs.length
  files : ∀ i f, ⟨i, f⟩ ∈ c.removedFiles ↔
    rs[i]? = some (.file f) ∧ Undisturbed rs i f.path
  dir_removed : ∀ i d, ⟨i, d⟩ ∈ c.removedDirs → rs[i]? = some (.dir d)
  dirs : ∀ p, (∃ x ∈ c.removedDirs, components x.item.path = p) ↔ Stands rs p
  dir_last : ∀ i d, rs[i]? = some (.dir d) → Stands rs (components d.path) →
    ∃ x ∈ c.removedDirs, components x.item.path = components d.path ∧ i ≤ x.number

theorem held_new (connId : Int) (now : Nat) : Held [] (.new connId now) where
  removals := rfl
  files i f := by simp [FileRemoveLogControl.new]
  dir_removed i d h := by simp [FileRemoveLogControl.new] at h
  dirs p := by simp [FileRemoveLogControl.new, Stands, dirsOf, Topmost.stands]
  dir_last i d h := by simp at h

/-- The removals with one more. -/
theorem getElem?_concat {rs : List Removal} {r e : Removal} {i : Nat} :
    (rs ++ [r])[i]? = some e ↔ rs[i]? = some e ∨ i = rs.length ∧ r = e := by
  rcases Nat.lt_trichotomy i rs.length with h | h | h
  · rw [List.getElem?_append_left h]
    exact ⟨.inl, fun he => he.resolve_right fun hl => absurd hl.1 (Nat.ne_of_lt h)⟩
  · subst h
    rw [List.getElem?_concat_length, List.getElem?_eq_none (Nat.le_refl _)]
    simp
  · rw [List.getElem?_eq_none (by rw [List.length_append, List.length_singleton]; omega),
      List.getElem?_eq_none (Nat.le_of_lt h)]
    have hne : i ≠ rs.length := Nat.ne_of_gt h
    simp [hne]

theorem lt_of_getElem? {rs : List Removal} {e : Removal} {i : Nat} (h : rs[i]? = some e) :
    i < rs.length := (List.getElem?_eq_some_iff.mp h).1

theorem undisturbed_concat {rs : List Removal} {r : Removal} {i : Nat} {path : PathStr} :
    Undisturbed (rs ++ [r]) i path ↔ Undisturbed rs i path ∧
      (i < rs.length → ∀ d, r = .dir d → directChild path d.path = false) := by
  constructor
  · intro h
    refine ⟨fun j d hij hj => h j d hij (getElem?_concat.mpr (.inl hj)), fun hi d hr => ?_⟩
    exact h rs.length d hi (getElem?_concat.mpr (.inr ⟨rfl, hr⟩))
  · rintro ⟨h, hlast⟩ j d hij hj
    rcases getElem?_concat.mp hj with hj | ⟨rfl, hr⟩
    · exact h j d hij hj
    · exact hlast hij d hr

theorem undisturbed_last (rs : List Removal) (r : Removal) (path : PathStr) :
    Undisturbed (rs ++ [r]) rs.length path := by
  intro j d hj hd
  have := lt_of_getElem? hd
  rw [List.length_append, List.length_singleton] at this
  omega

theorem Held.onRemoveFile {rs : List Removal} {self : FileRemoveLogControl} (h : Held rs self)
    (now : Nat) (f : FileRemoveFile) : Held (rs ++ [.file f]) (self.onRemoveFile now f).1 := by
  have stands (p : List Component) : Stands (rs ++ [.file f]) p ↔ Stands rs p := by
    rw [Stands, Stands, dirsOf_concat_file]
  have undisturbed (i : Nat) (path : PathStr) :
      Undisturbed (rs ++ [.file f]) i path ↔ Undisturbed rs i path := by
    rw [undisturbed_concat]
    exact and_iff_left fun _ d hd => nomatch hd
  refine ⟨?_, fun i g => ?_, fun i d hd => ?_, fun p => ?_, fun i d hi hs => ?_⟩
  · rw [List.length_append, List.length_singleton, ← h.removals]
    rfl
  · show _ ∈ self.removedFiles ++ [⟨self.removals, f⟩] ↔ _
    rw [List.mem_append, h.files, getElem?_concat, undisturbed, List.mem_singleton, h.removals]
    constructor
    · rintro (⟨hi, hu⟩ | he)
      · exact ⟨.inl hi, hu⟩
      · cases he
        exact ⟨.inr ⟨rfl, rfl⟩, (undisturbed _ _).mp (undisturbed_last rs _ _)⟩
    · rintro ⟨hi | ⟨rfl, he⟩, hu⟩
      · exact .inl ⟨hi, hu⟩
      · cases he
        exact .inr rfl
  · exact getElem?_concat.mpr (.inl (h.dir_removed i d hd))
  · rw [stands]
    exact h.dirs p
  · rw [stands] at hs
    rcases getElem?_concat.mp hi with hi | ⟨-, he⟩
    · exact h.dir_last i d hi hs
    · cases he

/-- What a removed directory leaves of the directories held back. -/
theorem mem_removedDirs_onRemoveDir {self : FileRemoveLogControl} (now : Nat) {d : FileRemoveDir}
    {x : Numbered FileRemoveDir} :
    x ∈ (self.onRemoveDir now d).1.removedDirs ↔
      (x ∈ self.removedDirs ∧ directChild d.path x.item.path = false) ∨
      (x = ⟨self.removals, d⟩ ∧ ∀ y ∈ self.removedDirs, directChild y.item.path d.path = false) := by
  -- what the directory is directly below is not one of those it drops
  have kept {y : Numbered FileRemoveDir} (hy : directChild y.item.path d.path = true) :
      directChild d.path y.item.path = false := by
    rw [Bool.eq_false_iff]
    intro hback
    have hlt := length_parent_lt _ _ (directChild_iff.mp hy)
    have hgt := length_parent_lt _ _ (directChild_iff.mp hback)
    omega
  have hany : ((self.removedDirs.filter fun x => !directChild d.path x.item.path).any
      fun x => directChild x.item.path d.path) = false ↔
      ∀ y ∈ self.removedDirs, directChild y.item.path d.path = false := by
    rw [List.any_eq_false]
    constructor
    · intro hall y hy
      by_contra hne
      have hchild : directChild y.item.path d.path = true := by simpa using hne
      exact hall y (List.mem_filter.mpr ⟨hy, by simp [kept hchild]⟩) hchild
    · intro hall y hy
      rw [hall y (List.mem_filter.mp hy).1]
      exact Bool.false_ne_true
  unfold FileRemoveLogControl.onRemoveDir
  dsimp only
  rw [← hany]
  split_ifs with hpush
  · have hnone := Bool.not_eq_true' _ ▸ hpush
    simp only [List.mem_append, List.mem_filter, List.mem_singleton, hnone, and_true,
      Bool.not_eq_true']
  · have hsome := Bool.not_eq_false _ ▸ (Bool.not_eq_true' _ ▸ hpush)
    simp only [List.mem_filter, hsome, Bool.not_eq_true', Bool.true_eq_false, and_false, or_false]

theorem stands_concat_dir {rs : List Removal} {d : FileRemoveDir} {p : List Component} :
    Stands (rs ++ [.dir d]) p ↔
      if components d.path = p then ∀ q, Component.parent p = some q → ¬ Stands rs q
      else Component.parent p ≠ some (components d.path) ∧ Stands rs p := by
  unfold Stands
  rw [dirsOf_concat_dir, Topmost.stands]
  split_ifs with hd hp
  · cases Component.parent p <;> simp
  · simp [hp]
  · simp [hp]

/-- It stands where it is held: no directory that is held is directly above. -/
theorem Held.none_above_iff {rs : List Removal} {c : FileRemoveLogControl} (h : Held rs c)
    (d : FileRemoveDir) :
    (∀ y ∈ c.removedDirs, directChild y.item.path d.path = false) ↔
      ∀ q, Component.parent (components d.path) = some q → ¬ Stands rs q := by
  constructor
  · intro hall q hq hs
    obtain ⟨y, hy, rfl⟩ := (h.dirs q).mpr hs
    exact absurd (directChild_iff.mpr hq) (by rw [hall y hy]; exact Bool.false_ne_true)
  · intro hall y hy
    rw [Bool.eq_false_iff, Ne, directChild_iff]
    intro hq
    exact hall _ hq ((h.dirs _).mp ⟨y, hy, rfl⟩)

theorem Held.onRemoveDir {rs : List Removal} {c : FileRemoveLogControl} (h : Held rs c)
    (now : Nat) (d : FileRemoveDir) : Held (rs ++ [.dir d]) (c.onRemoveDir now d).1 := by
  have apart {x : PathStr} : directChild d.path x = false ↔
      Component.parent (components x) ≠ some (components d.path) := by
    rw [Bool.eq_false_iff, Ne, directChild_iff]
  have pushed := h.none_above_iff d
  refine ⟨?_, fun i f => ?_, fun i e he => ?_, fun p => ?_, fun i e hi hs => ?_⟩
  · rw [List.length_append, List.length_singleton, ← h.removals]
    rfl
  · show _ ∈ c.removedFiles.filter _ ↔ _
    rw [List.mem_filter, h.files, getElem?_concat, undisturbed_concat]
    constructor
    · rintro ⟨⟨hi, hu⟩, hd⟩
      refine ⟨.inl hi, hu, fun _ e he => ?_⟩
      cases he
      simpa using hd
    · rintro ⟨hi | ⟨-, he⟩, hu, hlast⟩
      · exact ⟨⟨hi, hu⟩, by simpa using hlast (lt_of_getElem? hi) d rfl⟩
      · cases he
  · rw [mem_removedDirs_onRemoveDir] at he
    rcases he with ⟨he, -⟩ | ⟨he, -⟩
    · exact getElem?_concat.mpr (.inl (h.dir_removed i e he))
    · cases he
      exact getElem?_concat.mpr (.inr ⟨h.removals, rfl⟩)
  · rw [stands_concat_dir]
    simp only [mem_removedDirs_onRemoveDir, pushed, apart]
    constructor
    · rintro ⟨x, ⟨hx, hapart⟩ | ⟨rfl, hnone⟩, rfl⟩
      · have hs := (h.dirs _).mp ⟨x, hx, rfl⟩
        split_ifs with hd
        · -- it stands already, so the one that holds it does not
          intro q hq hsq
          have hnot := Topmost.not_stands_parent length_parent_lt hs hq
          rw [Stands, hnot] at hsq
          cases hsq
        · exact ⟨hapart, hs⟩
      · rw [if_pos rfl]
        exact hnone
    · split_ifs with hd
      · subst hd
        intro hnone
        exact ⟨⟨c.removals, d⟩, .inr ⟨rfl, hnone⟩, rfl⟩
      · rintro ⟨hapart, hs⟩
        obtain ⟨x, hx, rfl⟩ := (h.dirs p).mpr hs
        exact ⟨x, .inl ⟨hx, hapart⟩, rfl⟩
  · rw [stands_concat_dir] at hs
    simp only [mem_removedDirs_onRemoveDir, pushed, apart]
    split_ifs at hs with hd
    · refine ⟨⟨c.removals, d⟩, .inr ⟨rfl, hd ▸ hs⟩, hd, ?_⟩
      rw [h.removals]
      rcases getElem?_concat.mp hi with hi | ⟨rfl, -⟩
      · exact Nat.le_of_lt (lt_of_getElem? hi)
      · exact Nat.le_refl _
    · rcases getElem?_concat.mp hi with hi | ⟨-, he⟩
      · obtain ⟨x, hx, hpath, hle⟩ := h.dir_last i e hi hs.2
        exact ⟨x, .inl ⟨hx, hpath ▸ hs.1⟩, hpath, hle⟩
      · cases he
        exact absurd rfl hd

theorem Held.onRemoval {rs : List Removal} {c : FileRemoveLogControl} (h : Held rs c)
    (now : Nat) (r : Removal) : Held (rs ++ [r]) (c.onRemoval now r) := by
  cases r with
  | file f => exact h.onRemoveFile now f
  | dir d => exact h.onRemoveDir now d

theorem held_run (connId : Int) (start : Nat) (events : List (Removal × Nat)) :
    Held (events.map (·.1)) ((FileRemoveLogControl.new connId start).run events) := by
  induction events using List.reverseRecOn with
  | nil => exact held_new connId start
  | append_singleton events e ih =>
    rw [FileRemoveLogControl.run, List.foldl_append, List.map_append]
    exact ih.onRemoval e.2 e.1

/-! ### What the timer says -/

/-- A path is accounted for: a log names it, or it is in a directory from which a chain of removed
directories leads up to one that a log names. -/
def Accounted (rs : List Removal) (logs : List (Numbered FileActionLog)) (path : PathStr) : Prop :=
  (∃ x ∈ logs, components x.item.path = components path) ∨
    ∃ q, Component.parent (components path) = some q ∧
      Topmost.Chain Component.parent (· ∈ dirsOf rs)
        (fun p => ∃ x ∈ logs, x.item.dir = true ∧ components x.item.path = p) q

/-- The logs leave out what was removed inside a directory that they name, and nothing else. -/
structure Collapsed (rs : List Removal) (logs : List (Numbered FileActionLog)) : Prop where
  noneInside : ∀ x ∈ logs, ∀ y ∈ logs, y.item.dir = true → x.number < y.number →
    directChild y.item.path x.item.path = false
  accounted : ∀ r ∈ rs, Accounted rs logs r.path

/-- The removals that the slip leaves alone. A file below whose path no directory is removed is not
followed by the removal of the directory that holds it, unless that one does not stand. And a path
of a removed file is removed without a directory below it afterwards, or as a directory, or the
directory that holds it is removed. -/
structure Spared (rs : List Removal) : Prop where
  noneInside : ∀ i f, rs[i]? = some (.file f) → Undisturbed rs i f.path →
    ∀ j d, i < j → rs[j]? = some (.dir d) → directChild d.path f.path = true →
      ¬ Stands rs (components d.path)
  accounted : ∀ f, .file f ∈ rs →
    (∃ i g, rs[i]? = some (.file g) ∧ components g.path = components f.path ∧
      Undisturbed rs i g.path) ∨
    components f.path ∈ dirsOf rs ∨
    ∃ q, Component.parent (components f.path) = some q ∧ q ∈ dirsOf rs

/-- The logs of a timer that finds that a second has passed. -/
theorem onTimer_late (c : FileRemoveLogControl) (late : Nat) :
    (c.onTimer (c.instant + 1000000000 + late)).1 =
      c.removedFiles.map (fun f => ⟨f.number, c.fileLog f.item⟩) ++
        c.removedDirs.map (fun d => ⟨d.number, c.dirLog d.item⟩) := by
  have hdue : ¬ c.elapsedSecs (c.instant + 1000000000 + late) < 1 := by
    unfold FileRemoveLogControl.elapsedSecs
    omega
  rw [FileRemoveLogControl.onTimer, if_neg hdue]

section

variable {rs : List Removal} {c : FileRemoveLogControl} {logs : List (Numbered FileActionLog)}

/-- What the logs name, of what is held. -/
structure Told (c : FileRemoveLogControl) (logs : List (Numbered FileActionLog)) : Prop where
  file : ∀ f ∈ c.removedFiles, (⟨f.number, c.fileLog f.item⟩ : Numbered FileActionLog) ∈ logs
  dir : ∀ d ∈ c.removedDirs, (⟨d.number, c.dirLog d.item⟩ : Numbered FileActionLog) ∈ logs
  only : ∀ x ∈ logs, (∃ f ∈ c.removedFiles, x = ⟨f.number, c.fileLog f.item⟩) ∨
    ∃ d ∈ c.removedDirs, x = ⟨d.number, c.dirLog d.item⟩

theorem told_onTimer (c : FileRemoveLogControl) (late : Nat) :
    Told c (c.onTimer (c.instant + 1000000000 + late)).1 := by
  rw [onTimer_late]
  refine ⟨fun f hf => ?_, fun d hd => ?_, fun x hx => ?_⟩
  · exact List.mem_append_left _ (List.mem_map.mpr ⟨f, hf, rfl⟩)
  · exact List.mem_append_right _ (List.mem_map.mpr ⟨d, hd, rfl⟩)
  · rcases List.mem_append.mp hx with hx | hx
    · obtain ⟨f, hf, rfl⟩ := List.mem_map.mp hx
      exact .inl ⟨f, hf, rfl⟩
    · obtain ⟨d, hd, rfl⟩ := List.mem_map.mp hx
      exact .inr ⟨d, hd, rfl⟩

/-- A directory is named in the logs where it stands. -/
theorem Told.dir_iff (ht : Told c logs) (h : Held rs c) (p : List Component) :
    (∃ x ∈ logs, x.item.dir = true ∧ components x.item.path = p) ↔ Stands rs p := by
  rw [← h.dirs]
  constructor
  · rintro ⟨x, hx, hdir, rfl⟩
    rcases ht.only x hx with ⟨f, -, rfl⟩ | ⟨d, hd, rfl⟩
    · cases hdir
    · exact ⟨d, hd, rfl⟩
  · rintro ⟨d, hd, rfl⟩
    exact ⟨_, ht.dir d hd, rfl, rfl⟩

/-- A removed directory is accounted for, whatever became of the files. -/
theorem Told.chain (ht : Told c logs) (h : Held rs c) {p : List Component} (hp : p ∈ dirsOf rs) :
    Topmost.Chain Component.parent (· ∈ dirsOf rs)
      (fun p => ∃ x ∈ logs, x.item.dir = true ∧ components x.item.path = p) p := by
  refine (Topmost.chain_of_mem length_parent_lt hp).imp (fun _ hq => hq) fun q hq => ?_
  exact (ht.dir_iff h q).mpr hq

theorem Told.accounted_dir (ht : Told c logs) (h : Held rs c) {path : PathStr}
    (hp : components path ∈ dirsOf rs) : Accounted rs logs path := by
  cases ht.chain h hp with
  | top hx =>
    obtain ⟨x, hx, -, hpath⟩ := hx
    exact .inl ⟨x, hx, hpath⟩
  | up _ hq hchain => exact .inr ⟨_, hq, hchain⟩

/-- The directories among the logs are apart, and so are the files, unless they are in a directory
that was removed later and stands. -/
theorem Told.noneInside_iff (ht : Told c logs) (h : Held rs c) :
    (∀ x ∈ logs, ∀ y ∈ logs, y.item.dir = true → x.number < y.number →
      directChild y.item.path x.item.path = false) ↔
    ∀ i f, rs[i]? = some (.file f) → Undisturbed rs i f.path →
      ∀ j d, i < j → rs[j]? = some (.dir d) → directChild d.path f.path = true →
        ¬ Stands rs (components d.path) := by
  constructor
  · intro hall i f hi hu j d hij hj hchild hs
    have hf := ht.file _ ((h.files i f).mpr ⟨hi, hu⟩)
    obtain ⟨y, hy, hpath, hle⟩ := h.dir_last j d hj hs
    have hnot := hall _ hf _ (ht.dir y hy) rfl (Nat.lt_of_lt_of_le hij hle)
    have hyes : directChild y.item.path f.path = true := by
      rw [directChild_iff, hpath]
      exact directChild_iff.mp hchild
    exact absurd hyes (by rw [show directChild y.item.path f.path = false from hnot]; decide)
  · intro hall x hx y hy hdir hlt
    rcases ht.only y hy with ⟨f, -, rfl⟩ | ⟨d, hd, rfl⟩
    · cases hdir
    have hstands : Stands rs (components d.item.path) := (h.dirs _).mp ⟨d, hd, rfl⟩
    rw [Bool.eq_false_iff]
    intro hchild
    rcases ht.only x hx with ⟨f, hf, rfl⟩ | ⟨e, he, rfl⟩
    · obtain ⟨hi, hu⟩ := (h.files _ _).mp hf
      exact hall _ _ hi hu _ _ hlt (h.dir_removed _ _ hd) hchild hstands
    · have hnot := Topmost.not_stands_parent length_parent_lt ((h.dirs _).mp ⟨e, he, rfl⟩)
        (directChild_iff.mp hchild)
      rw [Stands, show components d.item.path = components (c.dirLog d.item).path from rfl,
        hnot] at hstands
      cases hstands

/-- A removed file is accounted for as a file, as a directory, or by the one that holds it. -/
theorem Told.accounted_iff (ht : Told c logs) (h : Held rs c) (path : PathStr) :
    Accounted rs logs path ↔
      (∃ i g, rs[i]? = some (.file g) ∧ components g.path = components path ∧
        Undisturbed rs i g.path) ∨
      components path ∈ dirsOf rs ∨
      ∃ q, Component.parent (components path) = some q ∧ q ∈ dirsOf rs := by
  constructor
  · rintro (⟨x, hx, hpath⟩ | ⟨q, hq, hchain⟩)
    · rcases ht.only x hx with ⟨f, hf, rfl⟩ | ⟨d, hd, rfl⟩
      · obtain ⟨hi, hu⟩ := (h.files _ _).mp hf
        exact .inl ⟨_, _, hi, hpath, hu⟩
      · refine .inr (.inl ?_)
        rw [← hpath]
        exact Topmost.mem_of_stands ((h.dirs _).mp ⟨d, hd, rfl⟩)
    · refine .inr (.inr ⟨q, hq, hchain.named fun p hp => ?_⟩)
      exact Topmost.mem_of_stands ((ht.dir_iff h p).mp hp)
  · rintro (⟨i, g, hi, hpath, hu⟩ | hdir | ⟨q, hq, hmem⟩)
    · exact .inl ⟨_, ht.file _ ((h.files i g).mpr ⟨hi, hu⟩), hpath⟩
    · exact ht.accounted_dir h hdir
    · exact .inr ⟨q, hq, ht.chain h hmem⟩

end

/-- **When the logs are right.** After any removals from the start, the logs of the timer that finds
that a second has passed leave out what was removed inside a directory they name, and nothing else,
exactly when the removals are spared. -/
theorem removeLogs_collapsed_iff (connId : Int) (start : Nat) (events : List (Removal × Nat))
    (late : Nat) :
    Collapsed (events.map (·.1))
        (((FileRemoveLogControl.new connId start).run events).onTimer
          (((FileRemoveLogControl.new connId start).run events).instant + 1000000000 + late)).1 ↔
      Spared (events.map (·.1)) := by
  have h := held_run connId start events
  have ht := told_onTimer ((FileRemoveLogControl.new connId start).run events) late
  constructor
  · intro hc
    refine ⟨(ht.noneInside_iff h).mp hc.noneInside, fun f hf => ?_⟩
    exact (ht.accounted_iff h f.path).mp (hc.accounted _ hf)
  · intro hs
    refine ⟨(ht.noneInside_iff h).mpr hs.noneInside, fun r hr => ?_⟩
    cases r with
    | file f => exact (ht.accounted_iff h f.path).mpr (hs.accounted f hr)
    | dir d => exact ht.accounted_dir h (mem_dirsOf.mpr ⟨d, hr, rfl⟩)

/-- A directory is removed after the file in it, and the logs name both. -/
theorem removeLogs_not_collapsed :
    ¬ ∀ events : List (Removal × Nat),
      Collapsed (events.map (·.1))
        (((FileRemoveLogControl.new 1 0).run events).onTimer
          (((FileRemoveLogControl.new 1 0).run events).instant + 1000000000)).1 := by
  intro h
  have hcollapsed := h [(.file ⟨1, "/a/f".toList, 0⟩, 0), (.dir ⟨1, "/a".toList, true⟩, 0)]
  have hinside := hcollapsed.noneInside ⟨0, 1, 1, "/a/f".toList, false⟩ (by decide)
    ⟨1, 1, 1, "/a".toList, true⟩ (by decide) rfl (by decide)
  exact absurd hinside (by decide)

end HopToDesk.Host
