import HopToDesk.Kit.DiskLaws

/-!
# The disk as a tree

A disk is sound when it is a tree: the root and the working directory are directories, and so is
what is above anything that is there. Every operation used here keeps that, a rename when it is
one of a file. What an operation leaves of the other places is said once for each (`get_..`), and
what is at a place without its number is its `view`.

Making the directories of a path has an effect once: afterwards the walk is `Settled`, and to make
them again changes nothing. The directories are all there unless there is a file on the way
(`createDirAll_dir`).
-/

set_option autoImplicit false

namespace Kit

open UnixPath

/-- What is at a place, without its number. -/
inductive View
  | dir
  | file (data : Content)
deriving DecidableEq, Repr

def Entry.view : Entry → View
  | .dir => .dir
  | .file _ data => .file data

namespace Disk

variable {d d' : Disk} {q q' : Place} {s s' : PathStr}

def view (d : Disk) (q : Place) : Option View := (d.get q).map Entry.view

theorem view_of_get (h : d'.get q = d.get q) : d'.view q = d.view q := by
  unfold view
  rw [h]

theorem view_file {i : Nat} {data : Content} (h : d.get q = some (.file i data)) :
    d.view q = some (.file data) := by
  unfold view
  rw [h]
  rfl

theorem get_of_view_file {data : Content} (h : d.view q = some (.file data)) :
    ∃ i, d.get q = some (.file i data) := by
  unfold view at h
  cases hq : d.get q with
  | none => simp [hq] at h
  | some e =>
    cases e with
    | dir => simp [hq, Entry.view] at h
    | file i data' =>
      simp only [hq, Option.map_some, Entry.view, Option.some.injEq, View.file.injEq] at h
      exact ⟨i, h ▸ rfl⟩

/-- A tree of directories with files at its leaves. -/
structure Sound (d : Disk) : Prop where
  inodes : d.Inodes
  root : d.get [] = some .dir
  cwd : d.get d.cwd = some .dir
  parents : ∀ {q e}, d.get q = some e → d.get q.dropLast = some .dir

namespace Sound

theorem note (h : d.Sound) (a : Access) : (d.note a).Sound :=
  ⟨⟨h.inodes.fresh, h.inodes.inj⟩, h.root, h.cwd, h.parents⟩

/-- Something has come to a place in a directory. A directory stays one. -/
theorem put (h : d.Sound) {e : Entry} (hi : (d.put q e).Inodes)
    (hparent : d.get q.dropLast = some .dir) (hdir : d.get q = some .dir → e = .dir) :
    (d.put q e).Sound := by
  have hdirs {q' : Place} (hq' : d.get q' = some .dir) : (d.put q e).get q' = some .dir := by
    by_cases heq : q' = q
    · subst heq
      rw [get_put_self, hdir hq']
    · rwa [get_put_of_ne d heq]
  refine ⟨hi, hdirs h.root, hdirs h.cwd, fun {q' e'} hq' => ?_⟩
  by_cases heq : q' = q
  · subst heq
    exact hdirs hparent
  · rw [get_put_of_ne d heq] at hq'
    exact hdirs (h.parents hq')

/-- A file has gone. Nothing was below it. -/
theorem drop (h : d.Sound) {i : Nat} {data : Content} (hq : d.get q = some (.file i data)) :
    (d.drop q).Sound := by
  have hdirs {q' : Place} (hq' : d.get q' = some .dir) : (d.drop q).get q' = some .dir := by
    rw [get_drop_of_ne d]
    · exact hq'
    · rintro rfl
      rw [hq] at hq'
      exact nomatch hq'
  have hfrom {q' : Place} {e : Entry} (hq' : (d.drop q).get q' = some e) : d.get q' = some e := by
    by_cases heq : q' = q
    · subst heq
      rw [get_drop_self] at hq'
      exact nomatch hq'
    · rwa [get_drop_of_ne d heq] at hq'
  refine ⟨?_, hdirs h.root, hdirs h.cwd, fun hq' => hdirs (h.parents (hfrom hq'))⟩
  exact h.inodes.of_moved le_rfl id fun hq' => ⟨_, _, hfrom hq', rfl⟩

/-- Nothing is below what is not a directory. -/
theorem none_below (h : d.Sound) (hq : d.get q ≠ some .dir) {x : Name} {xs : Place} :
    d.get (q ++ x :: xs) = none := by
  induction xs using List.reverseRecOn with
  | nil =>
    by_contra hne
    obtain ⟨e, he⟩ := Option.ne_none_iff_exists'.mp hne
    have hparent := h.parents he
    rw [List.dropLast_concat] at hparent
    exact hq hparent
  | append_singleton xs y ih =>
    by_contra hne
    obtain ⟨e, he⟩ := Option.ne_none_iff_exists'.mp hne
    have hparent := h.parents he
    rw [← List.cons_append, ← List.append_assoc, List.dropLast_concat, ih] at hparent
    exact nomatch hparent

theorem none_of_prefix (h : d.Sound) (hq : d.get q ≠ some .dir) (hpre : q <+: q') (hne : q' ≠ q) :
    d.get q' = none := by
  obtain ⟨xs, rfl⟩ := hpre
  cases xs with
  | nil => exact absurd (List.append_nil q) hne
  | cons x xs => exact h.none_below hq

end Sound

theorem get_blank (h : blank.get q ≠ none) : q = [] := by
  obtain ⟨e, he⟩ := Option.ne_none_iff_exists'.mp h
  have hmem := List.mem_singleton.mp (get_eq_some_iff.mp he)
  exact congrArg Sigma.fst hmem

theorem sound_blank : blank.Sound where
  inodes := inodes_blank
  root := rfl
  cwd := rfl
  parents h := by
    have hne := h.symm ▸ Option.some_ne_none _
    rw [get_blank hne]
    rfl

/-- A directory, made in one that is there. -/
def withDir (d : Disk) (q : Place) : Disk := d.put q .dir

/-- A new file, in a directory that is there. -/
def withFile (d : Disk) (q : Place) (data : Content) : Disk :=
  { d with next := d.next + 1 }.put q (.file d.next data)

theorem Sound.withDir (h : d.Sound) (hparent : d.get q.dropLast = some .dir) :
    (d.withDir q).Sound :=
  h.put (h.inodes.put_dir q) hparent fun _ => rfl

theorem Sound.withFile (h : d.Sound) {data : Content} (hparent : d.get q.dropLast = some .dir)
    (hnone : d.get q = none) : (d.withFile q data).Sound := by
  have hs : ({ d with next := d.next + 1 } : Disk).Sound :=
    ⟨⟨fun hget => (h.inodes.fresh hget).trans (Nat.lt_succ_self _), h.inodes.inj⟩, h.root, h.cwd,
      h.parents⟩
  have hfrom {q' : Place} {i : Nat} {data' : Content}
      (hget : (d.withFile q data).get q' = some (.file i data')) :
      (q' = q ∧ i = d.next) ∨ d.get q' = some (.file i data') := by
    by_cases heq : q' = q
    · subst heq
      unfold Disk.withFile at hget
      rw [get_put_self] at hget
      cases hget
      exact .inl ⟨rfl, rfl⟩
    · exact .inr ((get_put_of_ne _ heq _).symm.trans hget)
  refine hs.put ⟨fun hget => ?_, fun hget hget' => ?_⟩ hparent fun hdir => ?_
  · rcases hfrom hget with ⟨-, rfl⟩ | hget
    · exact Nat.lt_succ_self _
    · exact (h.inodes.fresh hget).trans (Nat.lt_succ_self _)
  · rcases hfrom hget with ⟨rfl, rfl⟩ | hold <;> rcases hfrom hget' with ⟨rfl, hi⟩ | hold'
    · rfl
    · exact absurd (h.inodes.fresh hold') (lt_irrefl _)
    · subst hi
      exact absurd (h.inodes.fresh hold) (lt_irrefl _)
    · exact h.inodes.inj hold hold'
  · exact nomatch (show d.get q = some .dir from hdir).symm.trans hnone

/-! ## Making directories -/

/-- The directories of a walk are there, as far as the walk can go. -/
def Settled (d : Disk) : List Place → Prop
  | [] => True
  | q :: qs => (d.get q = some .dir ∧ d.Settled qs) ∨ ∃ i data, d.get q = some (.file i data)

theorem Settled.congr (h : ∀ q, d'.get q = d.get q) {qs : List Place} (hs : d.Settled qs) :
    d'.Settled qs := by
  induction qs with
  | nil => trivial
  | cons q qs ih =>
    rcases hs with ⟨hq, hqs⟩ | ⟨i, data, hq⟩
    · exact .inl ⟨(h q).trans hq, ih hqs⟩
    · exact .inr ⟨i, data, (h q).trans hq⟩

theorem createDirs_of_settled {qs : List Place} (h : d.Settled qs) : (d.createDirs qs).2 = d := by
  induction qs with
  | nil => rfl
  | cons q qs ih =>
    unfold createDirs
    rcases h with ⟨hq, hqs⟩ | ⟨i, data, hq⟩
    · simp only [hq]
      exact ih hqs
    · simp only [hq]

/-- What was there stays. -/
theorem createDirs_keeps {qs : List Place} {e : Entry} (h : d.get q = some e) :
    (d.createDirs qs).2.get q = some e := by
  rcases get_createDirs d qs q with hq | ⟨-, hq, -⟩
  · exact hq.trans h
  · rw [h] at hq
    exact nomatch hq

theorem createDirs_settled (d : Disk) (qs : List Place) : (d.createDirs qs).2.Settled qs := by
  induction qs generalizing d with
  | nil => trivial
  | cons q qs ih =>
    unfold createDirs
    split
    · rename_i hq
      exact .inl ⟨createDirs_keeps hq, ih d⟩
    · exact .inl ⟨createDirs_keeps (get_put_self d q .dir), ih _⟩
    · rename_i i data hq
      exact .inr ⟨i, data, hq⟩

theorem createDirs_sound {at_ : Place} (h : d.Sound) (hat : d.get at_ = some .dir)
    (cs : List Comp) : (d.createDirs (stops at_ cs)).2.Sound := by
  induction cs generalizing d at_ with
  | nil => exact h
  | cons c cs ih =>
    unfold stops createDirs
    split
    · rename_i hq
      exact ih h hq
    · rename_i hq
      cases c with
      | up =>
        rw [walk, h.parents hat] at hq
        cases hq
      | name n =>
        have hput : (d.put (walk at_ (.name n)) .dir).Sound :=
          h.put (h.inodes.put_dir _) (by rw [walk, List.dropLast_concat]; exact hat) fun _ => rfl
        exact ih (hput.note _) (get_put_self d _ _)
    · exact h

theorem Sound.createDirAll (h : d.Sound) (p : Parsed) : (d.createDirAll p).2.Sound := by
  refine createDirs_sound h ?_ p.comps
  unfold start
  split_ifs
  · exact h.root
  · exact h.cwd

/-- All the directories are there when no file is in the way. -/
theorem createDirs_dir {qs : List Place} (h : ∀ q ∈ qs, ∀ {i data}, d.get q ≠ some (.file i data)) :
    ∀ q ∈ qs, (d.createDirs qs).2.get q = some .dir := by
  induction qs generalizing d with
  | nil =>
    intro q hq
    exact nomatch hq
  | cons p qs ih =>
    intro q hq
    have hrest : ∀ q ∈ qs, ∀ {i data}, d.get q ≠ some (.file i data) :=
      fun q hq => h q (List.mem_cons_of_mem _ hq)
    unfold createDirs
    split
    · rename_i hp
      rcases List.mem_cons.mp hq with rfl | hq
      · exact createDirs_keeps hp
      · exact ih hrest q hq
    · rcases List.mem_cons.mp hq with rfl | hq
      · exact createDirs_keeps (get_put_self d _ _)
      · refine ih (fun q' hq' i data hget => ?_) q hq
        rw [get_note] at hget
        by_cases heq : q' = p
        · subst heq
          rw [get_put_self] at hget
          exact nomatch hget
        · rw [get_put_of_ne d heq] at hget
          exact hrest q' hq' hget
    · rename_i hp
      exact absurd hp (h p List.mem_cons_self)

/-- So the place a path names is one. -/
theorem Sound.createDirAll_at (h : d.Sound) (p : Parsed)
    (hclear : ∀ q ∈ visited d.cwd p, ∀ {i data}, d.get q ≠ some (.file i data)) :
    (d.createDirAll p).2.get (resolve d.cwd p) = some .dir := by
  rcases resolve_mem_visited d.cwd p with hstart | hmem
  · rw [hstart]
    apply createDirs_keeps
    unfold start
    split_ifs
    · exact h.root
    · exact h.cwd
  · exact createDirs_dir hclear _ hmem

theorem cwd_createDirs (d : Disk) (qs : List Place) : (d.createDirs qs).2.cwd = d.cwd := by
  induction qs generalizing d with
  | nil => rfl
  | cons q qs ih =>
    unfold createDirs
    split
    · exact ih d
    · exact ih _
    · rfl

@[simp]
theorem cwd_createDirAll (d : Disk) (p : Parsed) : (d.createDirAll p).2.cwd = d.cwd :=
  cwd_createDirs d _

/-! ## One file -/

theorem removeFile_ok {i : Nat} {data : Content} (h : d.stat s = some (.file i data)) :
    d.removeFile s = .ok ((d.drop (d.place s)).note (.remove (d.place s))) := by
  unfold removeFile
  simp only [h]

/-- The empty path names no file. -/
theorem removeFile_nil (d : Disk) : ∃ e, d.removeFile [] = .error e := by
  unfold removeFile
  split
  · rename_i hstat
    exact absurd hstat (stat_ne_file rfl)
  · exact ⟨_, rfl⟩
  · exact ⟨_, rfl⟩

/-- Removing a file succeeds on a file only. -/
theorem removeFile_cases (h : d.removeFile s = .ok d') :
    ∃ i data, d.get (d.place s) = some (.file i data) ∧
      d' = (d.drop (d.place s)).note (.remove (d.place s)) := by
  unfold removeFile at h
  split at h
  · rename_i i data hstat
    exact ⟨i, data, stat_file hstat, (Except.ok.inj h).symm⟩
  · exact nomatch h
  · exact nomatch h

/-- Why creating a file fails. -/
theorem createFile_fails {err : DiskError} (h : d.createFile s = .error err)
    (hends : endsAsDir s = false) : d.get (d.place s) = some .dir ∨
      (d.get (d.place s) = none ∧ d.get (d.place s).dropLast ≠ some .dir) := by
  unfold createFile at h
  simp only [hends, Bool.false_eq_true, if_false] at h
  split at h
  · rename_i hget
    exact .inl hget
  · exact nomatch h
  · rename_i hget
    split_ifs at h with hparent
    exact .inr ⟨hget, hparent⟩

theorem orSame_cases (d : Disk) (r : Except DiskError Disk) :
    d.orSame r = d ∨ r = .ok (d.orSame r) := by
  cases r with
  | ok d' => exact .inr rfl
  | error e => exact .inl rfl

/-- What an operation on one place leaves: the other places as they were, no new directory, and a
sound disk. -/
structure Local (d d' : Disk) (q₀ : Place) : Prop where
  cwd : d'.cwd = d.cwd
  next : d.next ≤ d'.next
  sound : d.Sound → d'.Sound
  others : ∀ {q}, q ≠ q₀ → d'.get q = d.get q
  dir : d'.get q₀ = some .dir → d.get q₀ = some .dir

namespace Local

variable {q₀ : Place}

theorem refl (d : Disk) (q₀ : Place) : Local d d q₀ := ⟨rfl, le_rfl, id, fun _ => rfl, id⟩

theorem trans {d'' : Disk} (h : Local d d' q₀) (h' : Local d' d'' q₀) : Local d d'' q₀ where
  cwd := h'.cwd.trans h.cwd
  next := h.next.trans h'.next
  sound hs := h'.sound (h.sound hs)
  others hq := (h'.others hq).trans (h.others hq)
  dir hq := h.dir (h'.dir hq)

/-- No directory is new. -/
theorem dirs (h : Local d d' q₀) {q : Place} (hq : d'.get q = some .dir) :
    d.get q = some .dir := by
  by_cases heq : q = q₀
  · subst heq
    exact h.dir hq
  · exact (h.others heq).symm.trans hq

theorem drop {i : Nat} {data : Content} (hq : d.get q = some (.file i data)) (a : Access) :
    Local d ((d.drop q).note a) q where
  cwd := rfl
  next := le_rfl
  sound hs := (hs.drop hq).note _
  others hne := get_drop_of_ne d hne
  dir hdir := nomatch (get_drop_self d q).symm.trans hdir

theorem orSame {r : Except DiskError Disk} (h : ∀ {d'}, r = .ok d' → Local d d' q₀) :
    Local d (d.orSame r) q₀ := by
  rcases orSame_cases d r with heq | hok
  · rw [heq]
    exact refl d q₀
  · exact h hok

theorem removeFile (h : d.removeFile s = .ok d') : Local d d' (d.place s) := by
  obtain ⟨i, data, hq, rfl⟩ := removeFile_cases h
  exact .drop hq _

/-- A file's content changes. -/
theorem put_file {i : Nat} {data data' : Content} (hq : d.get q = some (.file i data))
    (a : Access) : Local d ((d.put q (.file i data')).note a) q where
  cwd := rfl
  next := le_rfl
  sound hs := by
    have hwithin : Within (fun _ => True) (fun _ => True) d ((d.put q (.file i data')).note a) :=
      .of_put trivial hq
    have hi := hwithin.inodes hs.inodes
    refine (hs.put ⟨hi.fresh, hi.inj⟩ (hs.parents hq) fun hdir => ?_).note a
    rw [hq] at hdir
    exact nomatch hdir
  others hne := get_put_of_ne d hne _
  dir hdir := nomatch (get_put_self d q _).symm.trans hdir

theorem createFile {h : Handle} (hc : d.createFile s = .ok (h, d')) :
    Local d d' (d.place s) := by
  have hwithin : Within (fun _ => True) (fun _ => True) d d' := .createFile trivial trivial hc
  obtain ⟨-, -, -, ⟨data, hq, rfl⟩ | ⟨hq, hparent, -, rfl⟩⟩ := createFile_cases hc
  · exact put_file hq _
  · refine ⟨rfl, Nat.le_succ _, fun hs => ?_, fun hne => get_put_of_ne _ hne _,
      fun hdir => nomatch (get_put_self _ _ _).symm.trans hdir⟩
    have hi := hwithin.inodes hs.inodes
    have hs' : ({ d with next := d.next + 1 } : Disk).Sound :=
      ⟨⟨fun hget => (hs.inodes.fresh hget).trans (Nat.lt_succ_self _), hs.inodes.inj⟩, hs.root,
        hs.cwd, hs.parents⟩
    refine (hs'.put ⟨hi.fresh, hi.inj⟩ hparent fun hdir => ?_).note _
    exact absurd (hq.symm.trans hdir) (by simp)

theorem setFileMtime (h : d.setFileMtime s = .ok d') (q₀ : Place) : Local d d' q₀ := by
  unfold Disk.setFileMtime at h
  split at h
  · cases h
    exact ⟨rfl, le_rfl, fun hs => hs.note _, fun _ => rfl, id⟩
  · exact nomatch h

end Local

theorem get_setFileMtime (d : Disk) (s : PathStr) (q : Place) :
    (d.orSame (d.setFileMtime s)).get q = d.get q := by
  unfold setFileMtime
  split
  · rfl
  · rfl

/-- Writing to an open file changes it where it is; a file that is nowhere takes the bytes
along. -/
theorem writeAll_cases {h h' : Handle} {bytes : Content} (hi : d.Inodes)
    (hw : d.writeAll h bytes = .ok (h', d')) :
    h' = { h with offset := h.offset + bytes.length } ∧
      ((∃ q data, d.get q = some (.file h.ino data) ∧
          d' = (d.put q (.file h.ino (splice data h.offset bytes))).note (.write q)) ∨
        (d' = d ∧ ∀ {q data}, d.get q ≠ some (.file h.ino data))) := by
  unfold writeAll at hw
  split_ifs at hw
  dsimp only at hw
  split at hw
  · rename_i q hp
    obtain ⟨data, hq⟩ := placeOf_some hp
    simp only [hq, Except.ok.injEq, Prod.mk.injEq] at hw
    obtain ⟨rfl, rfl⟩ := hw
    exact ⟨rfl, .inl ⟨q, data, hq, rfl⟩⟩
  · rename_i hp
    simp only [Except.ok.injEq, Prod.mk.injEq] at hw
    obtain ⟨rfl, rfl⟩ := hw
    refine ⟨rfl, .inr ⟨rfl, fun {q data} hq => ?_⟩⟩
    rw [placeOf_of_get hi hq] at hp
    exact nomatch hp

theorem writeAll_total {h : Handle} (hwritable : h.writable = true) (d : Disk) (bytes : Content) :
    ∃ d', d.writeAll h bytes = .ok ({ h with offset := h.offset + bytes.length }, d') := by
  unfold writeAll
  rw [if_pos hwritable]
  dsimp only
  split
  · split
    · exact ⟨_, rfl⟩
    · exact ⟨_, rfl⟩
  · exact ⟨_, rfl⟩

/-- A writable file that is at a place can be written. -/
theorem writeAll_ok {h : Handle} (hwritable : h.writable = true) (hi : d.Inodes) {data : Content}
    (hq : d.get q = some (.file h.ino data)) (bytes : Content) :
    d.writeAll h bytes = .ok ({ h with offset := h.offset + bytes.length },
      (d.put q (.file h.ino (splice data h.offset bytes))).note (.write q)) := by
  unfold writeAll
  rw [if_pos hwritable]
  simp only [placeOf_of_get hi hq, hq]

/-- At its end, writing appends. -/
@[simp]
theorem splice_end (data bytes : Content) : splice data data.length bytes = data ++ bytes := by
  simp [splice]

theorem Local.writeAll {h h' : Handle} {data bytes : Content} (hi : d.Inodes)
    (hq : d.get q = some (.file h.ino data)) (hw : d.writeAll h bytes = .ok (h', d')) :
    Local d d' q := by
  obtain ⟨-, ⟨q', data', hq', rfl⟩ | ⟨rfl, hnone⟩⟩ := writeAll_cases hi hw
  · obtain rfl := hi.inj hq hq'
    exact .put_file hq _
  · exact absurd hq hnone

theorem writeFile_eq {bytes : Content} (hi : d.Inodes) (h : d.writeFile s bytes = .ok d') :
    ∃ handle d₁, d.createFile s = .ok (handle, d₁) ∧
      d' = (d₁.put (d.place s) (.file handle.ino bytes)).note (.write (d.place s)) := by
  unfold writeFile at h
  split at h
  · rename_i handle d₁ hc
    have hat := createFile_at hc
    obtain ⟨-, hoffset, hwritable, -⟩ := createFile_cases hc
    have hwithin : Within (fun _ => True) (fun _ => True) d d₁ := .createFile trivial trivial hc
    rw [writeAll_ok hwritable (hwithin.inodes hi) hat] at h
    refine ⟨handle, d₁, hc, ?_⟩
    rw [hoffset] at h
    exact (Except.ok.inj h).symm.trans (by simp [splice])
  · exact nomatch h

theorem Local.writeFile {bytes : Content} (hi : d.Inodes) (h : d.writeFile s bytes = .ok d') :
    Local d d' (d.place s) := by
  obtain ⟨handle, d₁, hc, rfl⟩ := writeFile_eq hi h
  exact (Local.createFile hc).trans (.put_file (createFile_at hc) _)

/-- A file is renamed to itself, or goes where there is no directory, but one around. -/
theorem rename_file_cases {i : Nat} {data : Content} (hstat : d.stat s = some (.file i data))
    (h : d.rename s s' = .ok d') :
    (d' = d ∧ d.place s = d.place s') ∨
      (d' = ((d.drop (d.place s)).put (d.place s') (.file i data)).note
          (.rename (d.place s) (d.place s')) ∧ d.place s ≠ d.place s' ∧
        d.get (d.place s') ≠ some .dir ∧
        (d.get (d.place s') = none → d.get (d.place s').dropLast = some .dir)) := by
  unfold rename at h
  simp only [hstat] at h
  split at h
  · exact nomatch h
  · rename_i hdst
    split_ifs at h with _ heq hparent
    · exact .inl ⟨(Except.ok.inj h).symm, heq⟩
    · refine .inr ⟨(Except.ok.inj h).symm, heq, fun hd => hdst hd, fun hnone => ?_⟩
      simp only [hnone, Option.isNone_none, Bool.true_and, bne_iff_ne, ne_eq, not_not] at hparent
      exact hparent

/-- A file is renamed to a path that can name one. -/
theorem rename_file_ends {i : Nat} {data : Content} (hstat : d.stat s = some (.file i data))
    (h : d.rename s s' = .ok d') : endsAsDir s' = false := by
  unfold rename at h
  simp only [hstat] at h
  split at h
  · cases h
  · split_ifs at h with hends
    · exact Bool.eq_false_iff.mpr hends
    · exact Bool.eq_false_iff.mpr hends

/-- A file's rename leaves a sound disk, and the places other than the two as they were. -/
theorem rename_file_sound {i : Nat} {data : Content} (hs : d.Sound)
    (hstat : d.stat s = some (.file i data)) (h : d.rename s s' = .ok d') : d'.Sound := by
  rcases rename_file_cases hstat h with ⟨rfl, -⟩ | ⟨rfl, hne, hdst, hparent⟩
  · exact hs
  · have hsrc := stat_file hstat
    have hdrop := hs.drop hsrc
    have hi : Renamed d (((d.drop (d.place s)).put (d.place s') (.file i data)).note
        (.rename (d.place s) (d.place s'))) (d.place s) (d.place s') := .of_file hsrc
    obtain ⟨origin, -, hfrom⟩ := hi.files
    have hinodes := hs.inodes.of_moved hi.next.ge origin fun hq => by
      obtain ⟨q₀, hq₀, heq⟩ := hfrom hq
      exact ⟨q₀, _, hq₀, heq⟩
    refine (hdrop.put ⟨hinodes.fresh, hinodes.inj⟩ ?_ fun hdir => ?_).note _
    · have hup : d.get (d.place s').dropLast = some .dir := by
        cases hget : d.get (d.place s') with
        | none => exact hparent hget
        | some e => exact hs.parents hget
      rw [get_drop_of_ne]
      · exact hup
      · intro heq
        rw [heq, hsrc] at hup
        exact nomatch hup
    · rw [get_drop_of_ne d hne.symm] at hdir
      exact absurd hdir hdst

/-- A file can be renamed to where there is no directory, in one that is there. -/
theorem rename_file_ok {i : Nat} {data : Content} (hstat : d.stat s = some (.file i data))
    (hends : endsAsDir s' = false) (hne : d.place s ≠ d.place s')
    (hdst : d.get (d.place s') ≠ some .dir) (hparent : d.get (d.place s').dropLast = some .dir) :
    d.rename s s' = .ok (((d.drop (d.place s)).put (d.place s') (.file i data)).note
      (.rename (d.place s) (d.place s'))) := by
  unfold rename
  cases hget : d.get (d.place s') with
  | none => simp [hstat, hget, hends, hne, hparent]
  | some e =>
    cases e with
    | dir => exact absurd hget hdst
    | file i' data' => simp [hstat, hget, hends, hne]

end Disk

end Kit

/-!
## What is only added to a disk

A run of operations that loses nothing: every entry is as it was, and no rename is in the log. Runs
of this kind compose, and the operations that add have their instances: making directories, creating
a file where there is none, noting an access. So what is true of a disk because of what is there
stays true while it is added to.
-/

namespace Kit.Disk

open UnixPath

variable {d d' d'' : Disk} {q : Place} {e : Entry}

/-- Every access but a rename. -/
def StaysPut (a : Access) : Prop := ∀ src dst, a ≠ .rename src dst

theorem Within.mono {A B : Access → Prop} {S : Place → Prop} (h : ∀ a, A a → B a)
    (hd : Within A S d d') : Within B S d d' where
  cwd := hd.cwd
  next := hd.next
  log := by
    obtain ⟨accesses, hlog, hA⟩ := hd.log
    exact ⟨accesses, hlog, fun a ha => h a (hA a ha)⟩
  inodes := hd.inodes
  files := hd.files

/-- Nothing is lost from one disk to the other. -/
structure Adds (d d' : Disk) : Prop where
  within : Within StaysPut (fun _ => True) d d'
  entries : ∀ {q e}, d.get q = some e → d'.get q = some e

namespace Adds

theorem refl (d : Disk) : Adds d d := ⟨.refl d, id⟩

theorem trans (h : Adds d d') (h' : Adds d' d'') : Adds d d'' :=
  ⟨h.within.trans h'.within, fun hq => h'.entries (h.entries hq)⟩

theorem cwd (h : Adds d d') : d'.cwd = d.cwd := h.within.cwd

theorem inodes (h : Adds d d') (hi : d.Inodes) : d'.Inodes := h.within.inodes hi

theorem place (h : Adds d d') (s : PathStr) : d'.place s = d.place s := by
  unfold Disk.place
  rw [h.cwd]

theorem note {a : Access} (ha : StaysPut a) : Adds d (d.note a) := ⟨.of_note ha, id⟩

theorem createDirs (d : Disk) (qs : List Place) : Adds d (d.createDirs qs).2 :=
  ⟨.createDirs qs (fun _ _ => nofun) d, createDirs_keeps⟩

theorem createDirAll (d : Disk) (p : Parsed) : Adds d (d.createDirAll p).2 := createDirs d _

/-- A file is created where there is none. -/
theorem createFile {s : PathStr} (hfree : ∀ i data, d.stat s ≠ some (.file i data)) {h : Handle}
    (hc : d.createFile s = .ok (h, d')) : Adds d d' ∧ d.get (d.place s) = none := by
  obtain ⟨hends, -, -, ⟨data, hget, -⟩ | ⟨hnone, -, -, rfl⟩⟩ := createFile_cases hc
  · exact absurd ((stat_of_get hends).trans hget) (hfree _ _)
  · refine ⟨⟨.createFile nofun trivial hc, fun {q e} hq => ?_⟩, hnone⟩
    rw [get_note, get_put_of_ne]
    · exact hq
    · rintro rfl
      rw [hnone] at hq
      cases hq

theorem setFileMtime (d : Disk) (s : PathStr) : Adds d (d.orSame (d.setFileMtime s)) :=
  ⟨.orSame fun hr => .setFileMtime nofun hr, fun hq => (get_setFileMtime d s _).trans hq⟩

end Adds

/-- Making directories makes no files. -/
theorem stat_createDirAll {s : PathStr} {p : Parsed} {i : Nat} {data : Content}
    (hs : (d.createDirAll p).2.stat s = some (.file i data)) : d.stat s = some (.file i data) := by
  have hends : endsAsDir s = false := by
    rw [Bool.eq_false_iff]
    exact fun he => stat_ne_file he hs
  rw [stat_of_get hends] at hs ⊢
  rw [place, cwd_createDirAll] at hs
  rcases get_createDirs d (visited d.cwd p) (d.place s) with hsame | ⟨-, -, hmade⟩
  · exact hsame ▸ hs
  · rw [createDirAll, hmade] at hs
    cases hs

/-- A path under which nothing is, in a directory that is there, can be created. -/
theorem createFile_of_room {s : PathStr} (hfree : d.pathExists s = false)
    (hends : endsAsDir s = false) (hparent : d.get (d.place s).dropLast = some .dir) :
    ∃ d', d.createFile s = .ok (⟨d.next, 0, true⟩, d') := by
  have hnone : d.get (d.place s) = none := by
    rw [← stat_of_get hends]
    exact Option.not_isSome_iff_eq_none.mp (Bool.eq_false_iff.mp hfree)
  unfold createFile
  simp only [hends, hnone, hparent]
  exact ⟨_, rfl⟩

/-! ### Disks that differ in the bytes of files only -/

/-- Whether there is a directory or a file, the same at every place. -/
structure Alike (d d' : Disk) : Prop where
  cwd : d'.cwd = d.cwd
  kinds : ∀ q, (d'.get q).map (fun e => decide (e = .dir)) =
    (d.get q).map (fun e => decide (e = .dir))

namespace Alike

theorem of_get (hcwd : d'.cwd = d.cwd) (h : ∀ q, d'.get q = d.get q) : Alike d d' :=
  ⟨hcwd, fun q => by rw [h q]⟩

theorem trans (h : Alike d d') (h' : Alike d' d'') : Alike d d'' :=
  ⟨h'.cwd.trans h.cwd, fun q => (h'.kinds q).trans (h.kinds q)⟩

theorem symm (h : Alike d d') : Alike d' d := ⟨h.cwd.symm, fun q => (h.kinds q).symm⟩

theorem place (h : Alike d d') (s : PathStr) : d'.place s = d.place s := by
  unfold Disk.place
  rw [h.cwd]

/-- Other bytes in a file. -/
theorem of_put {i i' : Nat} {data data' : Content} (hq : d.get q = some (.file i data))
    (a : Access) : Alike d ((d.put q (.file i' data')).note a) where
  cwd := rfl
  kinds q' := by
    rw [get_note]
    by_cases heq : q' = q
    · subst heq
      rw [get_put_self, hq]
      rfl
    · rw [get_put_of_ne d heq]

theorem dir (h : Alike d d') : d'.get q = some .dir ↔ d.get q = some .dir := by
  have hkinds := h.kinds q
  constructor
  · intro hq
    rw [hq, Option.map_some, decide_eq_true rfl, eq_comm, Option.map_eq_some_iff] at hkinds
    obtain ⟨e, he, hkind⟩ := hkinds
    rw [he, of_decide_eq_true hkind]
  · intro hq
    rw [hq, Option.map_some, decide_eq_true rfl, Option.map_eq_some_iff] at hkinds
    obtain ⟨e, he, hkind⟩ := hkinds
    rw [he, of_decide_eq_true hkind]

theorem none (h : Alike d d') (hq : d.get q = .none) : d'.get q = .none := by
  have hkinds := h.kinds q
  rw [hq, Option.map_none, Option.map_eq_none_iff] at hkinds
  exact hkinds

theorem file (h : Alike d d') {i : Nat} {data : Content} (hq : d.get q = some (.file i data)) :
    ∃ i' data', d'.get q = some (.file i' data') := by
  have hkinds := h.kinds q
  rw [hq, Option.map_some, Option.map_eq_some_iff] at hkinds
  obtain ⟨e, he, hkind⟩ := hkinds
  cases e with
  | dir => cases hkind
  | file i' data' => exact ⟨i', data', he⟩

theorem pathExists (h : Alike d d') (s : PathStr) : d'.pathExists s = d.pathExists s := by
  unfold Disk.pathExists stat
  rw [h.place]
  rcases hq : d.get (d.place s) with _ | _ | ⟨i, data⟩
  · rw [h.none hq]
  · rw [h.dir.mpr hq]
  · obtain ⟨i', data', hq'⟩ := h.file hq
    rw [hq']
    dsimp only
    split_ifs
    · rfl
    · rfl

end Alike

end Kit.Disk
