import HopToDesk.Kit.DiskTree

/-!
# Disks with something added below a place

What a program that may work below a place leaves behind: it has touched nothing that is not at or
below the place, and every file and directory that was there when it began is still there, a file
with its number and its content. Each operation keeps this when it is called on paths that lead below
the place, and, where it takes something away, to what is not from the beginning.
-/

set_option autoImplicit false

namespace Kit.Disk

open UnixPath

/-- `d` is `d₀` with things added at or below `root`. -/
structure AddedBelow (d₀ : Disk) (root : Place) (d : Disk) : Prop where
  cwd : d.cwd = d₀.cwd
  next : d₀.next ≤ d.next
  inodes : d.Inodes
  log : ∃ accesses, d.log = d₀.log ++ accesses ∧ ∀ a ∈ accesses, ∀ q ∈ a.places, root <+: q
  files : ∀ {q i data}, d₀.get q = some (.file i data) → d.get q = some (.file i data)
  dirs : ∀ {q}, d₀.get q = some .dir → d.get q = some .dir

/-- There was no file at the place when it began. -/
def Unused (d₀ : Disk) (q : Place) : Prop := ∀ i data, d₀.get q ≠ some (.file i data)

/-- The path names a directory, and so does every part of it. -/
def StandsAsDir (d : Disk) (s : PathStr) : Prop :=
  s ≠ [] ∧ d.get (start d.cwd (parse s)) = some .dir ∧
    ∀ q ∈ visited d.cwd (parse s), d.get q = some .dir

instance (d : Disk) (s : PathStr) : Decidable (d.StandsAsDir s) :=
  inferInstanceAs (Decidable (_ ∧ _ ∧ _))

namespace AddedBelow

variable {d₀ d d' : Disk} {root q : Place} {s s' : PathStr}

theorem refl (h : d₀.Inodes) (root : Place) : AddedBelow d₀ root d₀ where
  cwd := rfl
  next := le_rfl
  inodes := h
  log := ⟨[], (List.append_nil _).symm, fun _ ha => absurd ha List.not_mem_nil⟩
  files := id
  dirs := id

theorem place (h : AddedBelow d₀ root d) (s : PathStr) : d.place s = d₀.place s := by
  unfold Disk.place
  rw [h.cwd]

/-- Where there is nothing now, there was nothing. -/
theorem unused (h : AddedBelow d₀ root d) (hnone : d.get q = none) : Unused d₀ q := by
  intro i data hq
  rw [h.files hq] at hnone
  cases hnone

/-- A step below the root that keeps what was there. -/
theorem step {S : Place → Prop} (h : AddedBelow d₀ root d)
    (hwithin : Within (fun a => ∀ q ∈ a.places, root <+: q) S d d')
    (hfiles : ∀ {q i data}, d₀.get q = some (.file i data) → d.get q = some (.file i data) →
      d'.get q = some (.file i data))
    (hdirs : ∀ {q}, d.get q = some .dir → d'.get q = some .dir) : AddedBelow d₀ root d' where
  cwd := hwithin.cwd.trans h.cwd
  next := h.next.trans hwithin.next
  inodes := hwithin.inodes h.inodes
  log := by
    obtain ⟨before, hbefore, hbelow⟩ := h.log
    obtain ⟨after, hafter, hbelow'⟩ := hwithin.log
    refine ⟨before ++ after, by rw [hafter, hbefore, List.append_assoc], fun a ha => ?_⟩
    exact (List.mem_append.mp ha).elim (hbelow a) (hbelow' a)
  files hq := hfiles hq (h.files hq)
  dirs hq := hdirs (h.dirs hq)

theorem note (h : AddedBelow d₀ root d) {a : Access} (ha : ∀ q ∈ a.places, root <+: q) :
    AddedBelow d₀ root (d.note a) :=
  h.step (S := fun _ => True) (.of_note ha) (fun _ hq => hq) id

theorem createDirs (h : AddedBelow d₀ root d) {qs : List Place} (hqs : ∀ q ∈ qs, root <+: q) :
    AddedBelow d₀ root (d.createDirs qs).2 := by
  refine h.step (S := fun _ => True) (.createDirs qs (fun q hq q' hq' => ?_) d)
    (fun _ hq => createDirs_keeps hq) createDirs_keeps
  obtain rfl := List.mem_singleton.mp hq'
  exact hqs q' hq

/-- The directories of a walk that are there are passed by. -/
theorem createDirs_append {xs : List Place} (h : ∀ q ∈ xs, d.get q = some .dir) (ys : List Place) :
    d.createDirs (xs ++ ys) = d.createDirs ys := by
  induction xs with
  | nil => rfl
  | cons x xs ih =>
    rw [List.cons_append, Disk.createDirs, h x List.mem_cons_self]
    exact ih fun q hq => h q (List.mem_cons_of_mem x hq)

/-- The directories of a path that goes on from one to the root are made below it. -/
theorem createDirAll (h : AddedBelow d₀ root d) {absolute : Bool} {above cs : List Comp}
    (habove : ∀ q ∈ visited d₀.cwd ⟨absolute, above⟩, d₀.get q = some .dir)
    (hroot : root = resolve d₀.cwd ⟨absolute, above⟩) (hcs : .up ∉ cs) :
    AddedBelow d₀ root (d.createDirAll ⟨absolute, above ++ cs⟩).2 := by
  have hvisited : visited d.cwd ⟨absolute, above ++ cs⟩ =
      visited d₀.cwd ⟨absolute, above⟩ ++ stops root cs := by
    rw [h.cwd, hroot]
    exact stops_append _ above cs
  unfold Disk.createDirAll
  rw [hvisited, createDirs_append fun q hq => h.dirs (habove q hq)]
  exact h.createDirs fun q hq => prefix_stops hcs hq

/-- The open file is a new one. -/
theorem createFile (h : AddedBelow d₀ root d) (hroot : root <+: d.place s)
    (hfree : ∀ i data, d.stat s ≠ some (.file i data)) {f : Handle}
    (hc : d.createFile s = .ok (f, d')) :
    AddedBelow d₀ root d' ∧ f.writable = true ∧ d₀.next ≤ f.ino ∧
      d'.stat s = some (.file f.ino []) ∧ Unused d₀ (d.place s) := by
  obtain ⟨hends, -, hwritable, hcases⟩ := createFile_cases hc
  have hat := createFile_at hc
  obtain ⟨data, hget, -⟩ | ⟨hnone, -, hino, rfl⟩ := hcases
  · rw [← stat_of_get hends] at hget
    exact absurd hget (hfree _ _)
  · have keeps {q : Place} {e : Entry} (hq : d.get q = some e) :
        (({ d with next := d.next + 1 }.put (d.place s) (.file d.next [])).note
          (.create (d.place s))).get q = some e := by
      rw [get_note, get_put_of_ne]
      · exact hq
      · rintro rfl
        rw [hnone] at hq
        cases hq
    refine ⟨h.step (S := fun _ => True) (.createFile ?_ trivial hc) (fun _ hq => keeps hq) keeps,
      hwritable, ?_, ?_, h.unused hnone⟩
    · intro q hq
      obtain rfl := List.mem_singleton.mp hq
      exact hroot
    · rw [hino]
      exact h.next
    · rw [stat_of_get hends]
      exact hat

/-- A file that is a new one is written where it is. -/
theorem writeAll (h : AddedBelow d₀ root d) (hinodes : d₀.Inodes) {f f' : Handle}
    (hnew : d₀.next ≤ f.ino) {data bytes : Content} (hat : d.get q = some (.file f.ino data))
    (hroot : root <+: q) (hw : d.writeAll f bytes = .ok (f', d')) :
    AddedBelow d₀ root d' ∧ f' = { f with offset := f.offset + bytes.length } ∧
      ∃ data', d'.get q = some (.file f.ino data') := by
  obtain ⟨hf, ⟨q', data', hq', rfl⟩ | ⟨-, hnone⟩⟩ := writeAll_cases h.inodes hw
  · obtain rfl := h.inodes.inj hat hq'
    refine ⟨h.step (S := fun _ => True) (.of_put ?_ hat) ?_ ?_, hf, _, get_put_self _ _ _⟩
    · intro p hp
      obtain rfl := List.mem_singleton.mp hp
      exact hroot
    · intro p i data'' hold hp
      rw [get_note, get_put_of_ne]
      · exact hp
      · rintro rfl
        rw [hat] at hp
        cases hp
        have hlt := hinodes.fresh hold
        omega
    · intro p hp
      rw [get_note, get_put_of_ne]
      · exact hp
      · rintro rfl
        rw [hat] at hp
        cases hp
  · exact absurd hat hnone

theorem removeFile (h : AddedBelow d₀ root d) (hroot : root <+: d.place s)
    (hunused : Unused d₀ (d.place s)) (hr : d.removeFile s = .ok d') : AddedBelow d₀ root d' := by
  have hwithin : Within (fun a => ∀ q ∈ a.places, root <+: q) (fun _ => True) d d' := by
    refine .removeFile (fun q hq => ?_) hr
    obtain rfl := List.mem_singleton.mp hq
    exact hroot
  obtain ⟨i, data, hget, rfl⟩ := removeFile_cases hr
  refine h.step hwithin ?_ ?_
  · intro q j data' hold hq
    rw [get_note, get_drop_of_ne]
    · exact hq
    · rintro rfl
      exact hunused _ _ hold
  · intro q hq
    rw [get_note, get_drop_of_ne]
    · exact hq
    · rintro rfl
      rw [hget] at hq
      cases hq

/-- A file that is a new one is renamed to where nothing is. -/
theorem rename (h : AddedBelow d₀ root d) (hroot : root <+: d.place s)
    (hroot' : root <+: d.place s') (hunused : Unused d₀ (d.place s)) {i : Nat} {data : Content}
    (hstat : d.stat s = some (.file i data)) (hfree : d.pathExists s' = false)
    (hr : d.rename s s' = .ok d') : AddedBelow d₀ root d' := by
  have hwithin : Within (fun a => ∀ q ∈ a.places, root <+: q) (fun _ => True) d d' := by
    refine .rename (fun q hq => ?_) (fun _ => trivial) hr
    rcases List.mem_cons.mp hq with rfl | hq
    · exact hroot
    · obtain rfl := List.mem_singleton.mp hq
      exact hroot'
  obtain ⟨rfl, -⟩ | ⟨rfl, -, -, -⟩ := rename_file_cases hstat hr
  · exact h
  · have hnone : d.get (d.place s') = none := by
      rw [← stat_of_get (rename_file_ends hstat hr)]
      exact Option.not_isSome_iff_eq_none.mp (Bool.eq_false_iff.mp hfree)
    have keeps {q : Place} {e : Entry} (hq : d.get q = some e) (hne : q ≠ d.place s) :
        (((d.drop (d.place s)).put (d.place s') (.file i data)).note
          (.rename (d.place s) (d.place s'))).get q = some e := by
      rw [get_note, get_put_of_ne, get_drop_of_ne d hne]
      · exact hq
      · rintro rfl
        rw [hnone] at hq
        cases hq
    refine h.step hwithin (fun hold hq => keeps hq ?_) (fun hq => keeps hq ?_)
    · rintro rfl
      exact hunused _ _ hold
    · rintro rfl
      rw [stat_file hstat] at hq
      cases hq

theorem setFileMtime (h : AddedBelow d₀ root d) (hroot : root <+: d.place s) :
    AddedBelow d₀ root (d.orSame (d.setFileMtime s)) := by
  unfold Disk.setFileMtime
  split
  · refine h.note fun q hq => ?_
    obtain rfl := List.mem_singleton.mp hq
    exact hroot
  · exact h

end AddedBelow

end Kit.Disk
