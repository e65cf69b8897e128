import HopToDesk.Kit.System
import HopToDesk.Transfer.Job

/-!
# One write job

A job that receives a transfer: the blocks it is given one after the other, and the digests that
are set between them. `content` is what a list of blocks carries for a file.

An entry has three paths: its own, and those with `.download` and `.digest` behind it. The first
is final; a place is `Final` when it is that of a listed file.
-/

set_option autoImplicit false

namespace HopToDesk.Transfer

open Kit UnixPath

structure Writing where
  job : TransferJob
  disk : Disk

inductive Event
  | digest (size modified : Nat)
  | block (block : FileTransferBlock)
deriving Repr

namespace Writing

def next (z : Zstd) (s : Writing) : Event → Writing
  | .digest size modified => { s with job := s.job.setDigest size modified }
  | .block block =>
    let (_, job, disk) := s.job.write z block s.disk
    { job, disk }

/-- A job from its first state on. -/
def system (z : Zstd) (start : Writing) : System Writing Event where
  init s := s = start
  step s event s' := s' = s.next z event

theorem run_foldl (z : Zstd) (start : Writing) (events : List Event) :
    (system z start).Run events (events.foldl (next z) start) := by
  induction events using List.reverseRecOn with
  | nil => exact .start rfl
  | append_singleton events event ih =>
    rw [List.foldl_append]
    exact .snoc ih rfl

end Writing

/-- The blocks of a run. -/
def blocksOf (events : List Event) : List FileTransferBlock :=
  events.filterMap fun
    | .block block => some block
    | .digest _ _ => none

/-- The number of the file a block is for. -/
def FileTransferBlock.num (block : FileTransferBlock) : Nat := asUsize block.fileNum

/-- What blocks carry for a file. -/
def content (z : Zstd) (blocks : List FileTransferBlock) (i : Nat) : Content :=
  (blocks.filter fun block => block.num = i).flatMap (TransferJob.payload z)

/-- The blocks of a transfer: of one job, and file after file. -/
structure IsTransfer (id : Int) (blocks : List FileTransferBlock) : Prop where
  ids : ∀ block ∈ blocks, block.id = id
  sorted : blocks.Pairwise fun block block' => block.num ≤ block'.num

def finalPath (p : PathStr) (entry : FileEntry) : PathStr := TransferJob.join p entry.name

def downloadPath (p : PathStr) (entry : FileEntry) : PathStr := finalPath p entry ++ downloadSuffix

def digestPath (p : PathStr) (entry : FileEntry) : PathStr := finalPath p entry ++ digestSuffix

/-- A file of the list. -/
def Regular (files : List FileEntry) (i : Nat) (entry : FileEntry) : Prop :=
  files[i]? = some entry ∧ isMarker entry.name = false

/-- The final path of a listed file. -/
def Final (cwd : Place) (p : PathStr) (files : List FileEntry) (q : Place) : Prop :=
  ∃ i entry, Regular files i entry ∧ q = resolve cwd (parse (finalPath p entry))

/-- An entry's paths are no other file's final path. -/
structure Apart (cwd : Place) (p : PathStr) (files : List FileEntry) (i : Nat)
    (entry : FileEntry) : Prop where
  download : ¬ Final cwd p files (resolve cwd (parse (downloadPath p entry)))
  digest : ¬ Final cwd p files (resolve cwd (parse (digestPath p entry)))
  alone : ∀ {j entry'}, Regular files j entry' →
    resolve cwd (parse (finalPath p entry')) = resolve cwd (parse (finalPath p entry)) → j = i

/-- The directories on a way that are final paths are there already. -/
def WayClear (d : Disk) (p : PathStr) (files : List FileEntry) (way : Parsed) : Prop :=
  ∀ q ∈ visited d.cwd way, Final d.cwd p files q → d.get q ≠ none

/-- What a block that starts a file has to find. -/
structure StartOk (p : PathStr) (s : Writing) (i : Nat) (entry : FileEntry) : Prop where
  apart : Apart s.disk.cwd p s.job.files i entry
  way : ∀ {pp}, UnixPath.parent (parse (finalPath p entry)) = some pp →
    WayClear s.disk p s.job.files pp
  /-- The digest that is removed for the entry before is no final path. -/
  digest : ∀ {entry'}, s.job.files[asUsize s.job.fileNum]? = some entry' →
    ¬ Final s.disk.cwd p s.job.files (s.disk.place (digestPath p entry'))
  /-- The entry before, when it is a file, keeps apart, and what would be given its name is the
  file that is open. -/
  publishes : ∀ {entry'}, Regular s.job.files (asUsize s.job.fileNum) entry' →
    Apart s.disk.cwd p s.job.files (asUsize s.job.fileNum) entry' ∧
      ((∃ h data, s.job.dataStream = some (.fileStream h) ∧
          s.disk.stat (downloadPath p entry') = some (.file h.ino data)) ∨
        ∃ err, (s.disk.orSame (s.disk.removeFile (digestPath p entry'))).rename
          (downloadPath p entry') (finalPath p entry') = .error err)

/-- What a call of `write` has to find. -/
structure WriteOk (p : PathStr) (s : Writing) (block : FileTransferBlock) : Prop where
  marker : ∀ {entry}, s.job.files[block.num]? = some entry → isMarker entry.name = true →
    WayClear s.disk p s.job.files (parse (finalPath p entry))
  start : ∀ {entry}, Regular s.job.files block.num entry →
    block.num ≠ asUsize s.job.fileNum ∨ s.job.dataStream = none → StartOk p s block.num entry
  /-- The file that is open has not been given its final name. -/
  more : ∀ {entry}, Regular s.job.files block.num entry → block.num = asUsize s.job.fileNum →
    ∀ {h}, s.job.dataStream = some (.fileStream h) →
      ∀ {q data}, s.disk.get q = some (.file h.ino data) → ¬ Final s.disk.cwd p s.job.files q

/-- The condition on a step of a run. -/
def EventOk (p : PathStr) (s : Writing) : Event → Prop
  | .digest _ _ => True
  | .block block => WriteOk p s block

/-! ## The condition can be computed -/

section Decide

variable {cwd : Place} {p : PathStr} {files : List FileEntry} {d : Disk}

instance (i : Nat) (entry : FileEntry) : Decidable (Regular files i entry) :=
  inferInstanceAs (Decidable (_ ∧ _))

theorem final_iff {q : Place} : Final cwd p files q ↔ ∃ entry ∈ files,
    isMarker entry.name = false ∧ q = resolve cwd (parse (finalPath p entry)) := by
  constructor
  · rintro ⟨i, entry, ⟨hget, hregular⟩, hq⟩
    exact ⟨entry, List.mem_of_getElem? hget, hregular, hq⟩
  · rintro ⟨entry, hmem, hregular, hq⟩
    obtain ⟨i, hget⟩ := List.getElem?_of_mem hmem
    exact ⟨i, entry, ⟨hget, hregular⟩, hq⟩

instance (q : Place) : Decidable (Final cwd p files q) := decidable_of_iff _ final_iff.symm

theorem apart_iff {i : Nat} {entry : FileEntry} : Apart cwd p files i entry ↔
    ¬ Final cwd p files (resolve cwd (parse (downloadPath p entry))) ∧
    ¬ Final cwd p files (resolve cwd (parse (digestPath p entry))) ∧
    ∀ j ∈ List.range files.length, ∀ entry' ∈ files[j]?, isMarker entry'.name = false →
      resolve cwd (parse (finalPath p entry')) = resolve cwd (parse (finalPath p entry)) →
        j = i := by
  constructor
  · intro h
    exact ⟨h.download, h.digest, fun j _ entry' hget hregular => h.alone ⟨hget, hregular⟩⟩
  · rintro ⟨hdownload, hdigest, halone⟩
    refine ⟨hdownload, hdigest, fun {j entry'} hr => ?_⟩
    have hlt := (List.getElem?_eq_some_iff.mp hr.1).1
    exact halone j (List.mem_range.mpr hlt) entry' hr.1 hr.2

instance (i : Nat) (entry : FileEntry) : Decidable (Apart cwd p files i entry) :=
  decidable_of_iff _ apart_iff.symm

instance (way : Parsed) : Decidable (WayClear d p files way) :=
  inferInstanceAs (Decidable (∀ q ∈ _, _))

/-- The entry is the file that is open. -/
def isOpen : Option DataStream → Option Entry → Bool
  | some (.fileStream h), some (.file i _) => h.ino = i
  | _, _ => false

theorem isOpen_iff {stream : Option DataStream} {entry : Option Entry} :
    isOpen stream entry = true ↔
      ∃ h data, stream = some (.fileStream h) ∧ entry = some (.file h.ino data) := by
  constructor
  · intro h
    unfold isOpen at h
    split at h
    · rename_i handle i data
      exact ⟨handle, data, rfl, by rw [of_decide_eq_true h]⟩
    · exact nomatch h
  · rintro ⟨h, data, rfl, rfl⟩
    exact decide_eq_true rfl

/-- The operation fails. -/
def fails {α : Type} : Except DiskError α → Bool
  | .error _ => true
  | .ok _ => false

theorem fails_iff {α : Type} {r : Except DiskError α} : fails r = true ↔ ∃ err, r = .error err := by
  cases r <;> simp [fails]

theorem startOk_iff {s : Writing} {i : Nat} {entry : FileEntry} : StartOk p s i entry ↔
    Apart s.disk.cwd p s.job.files i entry ∧
    (∀ pp ∈ UnixPath.parent (parse (finalPath p entry)), WayClear s.disk p s.job.files pp) ∧
    (∀ entry' ∈ s.job.files[asUsize s.job.fileNum]?,
      ¬ Final s.disk.cwd p s.job.files (s.disk.place (digestPath p entry'))) ∧
    ∀ entry' ∈ s.job.files[asUsize s.job.fileNum]?, isMarker entry'.name = false →
      Apart s.disk.cwd p s.job.files (asUsize s.job.fileNum) entry' ∧
        (isOpen s.job.dataStream (s.disk.stat (downloadPath p entry')) = true ∨
          fails ((s.disk.orSame (s.disk.removeFile (digestPath p entry'))).rename
            (downloadPath p entry') (finalPath p entry')) = true) := by
  simp only [isOpen_iff, fails_iff]
  constructor
  · intro h
    exact ⟨h.apart, fun _ => h.way, fun _ => h.digest, fun _ hget hr => h.publishes ⟨hget, hr⟩⟩
  · rintro ⟨hapart, hway, hdigest, hpublishes⟩
    exact ⟨hapart, fun {_} => hway _, fun {_} => hdigest _, fun {_} hr => hpublishes _ hr.1 hr.2⟩

instance (s : Writing) (i : Nat) (entry : FileEntry) : Decidable (StartOk p s i entry) :=
  decidable_of_iff _ startOk_iff.symm

theorem writeOk_iff {s : Writing} {block : FileTransferBlock} : WriteOk p s block ↔
    ∀ entry ∈ s.job.files[block.num]?,
      (isMarker entry.name = true → WayClear s.disk p s.job.files (parse (finalPath p entry))) ∧
      (isMarker entry.name = false →
        (block.num ≠ asUsize s.job.fileNum ∨ s.job.dataStream = none →
          StartOk p s block.num entry) ∧
        (block.num = asUsize s.job.fileNum → ∀ entry' ∈ s.job.files,
          isMarker entry'.name = false → isOpen s.job.dataStream
            (s.disk.get (resolve s.disk.cwd (parse (finalPath p entry')))) = false)) := by
  constructor
  · intro h entry hget
    refine ⟨h.marker hget, fun hr => ⟨h.start ⟨hget, hr⟩, fun hnum entry' hmem hr' => ?_⟩⟩
    rw [Bool.eq_false_iff, ne_eq, isOpen_iff]
    rintro ⟨handle, data, hopen, hat⟩
    exact h.more ⟨hget, hr⟩ hnum hopen hat (final_iff.mpr ⟨entry', hmem, hr', rfl⟩)
  · intro h
    refine ⟨fun {entry} hget => (h entry hget).1, fun {entry} hr => ((h entry hr.1).2 hr.2).1,
      fun {entry} hr hnum handle hopen q data hat hfinal => ?_⟩
    obtain ⟨entry', hmem, hr', rfl⟩ := final_iff.mp hfinal
    have hno := ((h entry hr.1).2 hr.2).2 hnum entry' hmem hr'
    rw [Bool.eq_false_iff, ne_eq, isOpen_iff] at hno
    exact hno ⟨handle, data, hopen, hat⟩

instance (s : Writing) (block : FileTransferBlock) : Decidable (WriteOk p s block) :=
  decidable_of_iff _ writeOk_iff.symm

instance (s : Writing) (event : Event) : Decidable (EventOk p s event) :=
  match event with
  | .digest _ _ => inferInstanceAs (Decidable True)
  | .block block => inferInstanceAs (Decidable (WriteOk p s block))

end Decide

/-- The events one after the other, as long as each finds what it asks for. -/
def Writing.checkedRun (z : Zstd) (p : PathStr) (s : Writing) : List Event → Option Writing
  | [] => some s
  | event :: events => if EventOk p s event then (s.next z event).checkedRun z p events else none

/-- Such a run is one of the restricted system. -/
theorem Writing.run_of_checkedRun {z : Zstd} {p : PathStr} {start s s' : Writing}
    {done events : List Event}
    (hrun : ((Writing.system z start).restrict (EventOk p)).Run done s)
    (h : s.checkedRun z p events = some s') :
    ((Writing.system z start).restrict (EventOk p)).Run (done ++ events) s' := by
  induction events generalizing s done with
  | nil =>
    cases h
    rwa [List.append_nil]
  | cons event events ih =>
    unfold Writing.checkedRun at h
    split_ifs at h with hok
    rw [List.append_cons]
    exact ih (.snoc hrun ⟨hok, rfl⟩) h

end HopToDesk.Transfer
