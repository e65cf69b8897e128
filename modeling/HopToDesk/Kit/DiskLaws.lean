import HopToDesk.Kit.Disk

/-!
# The disk's laws

Three groups. What an operation does to the map from places to entries, one law an operation: it
changes the places it names and no others. The numbering of files: every file has its own number
(`Inodes`), which every operation keeps, so that an open file is at one place at most. And what a
run of operations has touched (`Within`): its accesses and the places its files have moved to are
in given sets. `Within` is reflexive and composes, and each operation has its instance, so what a
program touches follows from what its operations are called on.
-/

set_option autoImplicit false

namespace Kit.Disk

open UnixPath

variable {d d' d'' : Disk} {q q' : Place} {e : Entry}

/-! ## The map -/

@[simp]
theorem get_put_self (d : Disk) (q : Place) (e : Entry) : (d.put q e).get q = some e :=
  AList.lookup_insert _

theorem get_put_of_ne (d : Disk) (h : q' ≠ q) (e : Entry) : (d.put q e).get q' = d.get q' :=
  AList.lookup_insert_ne h

@[simp]
theorem get_drop_self (d : Disk) (q : Place) : (d.drop q).get q = none := AList.lookup_erase _ _

theorem get_drop_of_ne (d : Disk) (h : q' ≠ q) : (d.drop q).get q' = d.get q' :=
  AList.lookup_erase_ne h

@[simp]
theorem get_note (d : Disk) (a : Access) (q : Place) : (d.note a).get q = d.get q := rfl

@[simp]
theorem cwd_put (d : Disk) (q : Place) (e : Entry) : (d.put q e).cwd = d.cwd := rfl

@[simp]
theorem cwd_drop (d : Disk) (q : Place) : (d.drop q).cwd = d.cwd := rfl

@[simp]
theorem cwd_note (d : Disk) (a : Access) : (d.note a).cwd = d.cwd := rfl

@[simp]
theorem next_put (d : Disk) (q : Place) (e : Entry) : (d.put q e).next = d.next := rfl

@[simp]
theorem next_drop (d : Disk) (q : Place) : (d.drop q).next = d.next := rfl

@[simp]
theorem next_note (d : Disk) (a : Access) : (d.note a).next = d.next := rfl

@[simp]
theorem log_put (d : Disk) (q : Place) (e : Entry) : (d.put q e).log = d.log := rfl

@[simp]
theorem log_drop (d : Disk) (q : Place) : (d.drop q).log = d.log := rfl

@[simp]
theorem log_note (d : Disk) (a : Access) : (d.note a).log = d.log ++ [a] := rfl

theorem get_eq_some_iff : d.get q = some e ↔ (⟨q, e⟩ : Sigma fun _ : Place => Entry) ∈
    d.nodes.entries :=
  AList.mem_lookup_iff

/-- What a path names, when it names a file. -/
theorem stat_file {s : PathStr} {ino : Nat} {data : Content}
    (h : d.stat s = some (.file ino data)) : d.get (d.place s) = some (.file ino data) := by
  unfold stat at h
  split at h
  · split_ifs at h
    rename_i hg _
    rw [hg, h]
  · exact h

theorem stat_dir {s : PathStr} (h : d.stat s = some .dir) : d.get (d.place s) = some .dir := by
  unfold stat at h
  split at h
  · split_ifs at h
    exact nomatch h
  · exact h

theorem stat_ne_file {s : PathStr} (h : endsAsDir s = true) {ino : Nat} {data : Content} :
    d.stat s ≠ some (.file ino data) := by
  intro hs
  unfold stat at hs
  split at hs
  · rw [if_pos h] at hs
    cases hs
  · rename_i hno
    exact hno _ _ hs

theorem stat_of_get {s : PathStr} (h : endsAsDir s = false) : d.stat s = d.get (d.place s) := by
  unfold stat
  split
  · rename_i hg
    rw [if_neg (by rw [h]; exact Bool.false_ne_true), hg]
  · rfl

/-- Where a moved tree's entries come from. -/
theorem get_moveTree {src dst : Place} (h : (d.moveTree src dst).get q = some e) :
    ∃ q₀, d.get q₀ = some e ∧ q = relocate src dst q₀ := by
  have fold (l : List (Sigma fun _ : Place => Entry)) :
      (l.foldr (fun e (nodes : AList fun _ : Place => Entry) =>
        nodes.insert (relocate src dst e.1) e.2) ∅).lookup q = some e →
      ∃ q₀, (⟨q₀, e⟩ : Sigma fun _ : Place => Entry) ∈ l ∧ q = relocate src dst q₀ := by
    induction l with
    | nil =>
      intro hl
      exact nomatch hl
    | cons x l ih =>
      intro hl
      rw [List.foldr_cons] at hl
      by_cases hq : q = relocate src dst x.1
      · subst hq
        rw [AList.lookup_insert] at hl
        cases hl
        exact ⟨x.1, List.mem_cons_self, rfl⟩
      · rw [AList.lookup_insert_ne hq] at hl
        obtain ⟨q₀, hmem, heq⟩ := ih hl
        exact ⟨q₀, List.mem_cons_of_mem _ hmem, heq⟩
  obtain ⟨q₀, hmem, heq⟩ := fold _ h
  refine ⟨q₀, get_eq_some_iff.mpr ?_, heq⟩
  exact (List.kerase_sublist _ _).subset hmem

/-- Making directories leaves every place as it was, except that some of those asked for, where
there was nothing, are directories. -/
theorem get_createDirs (d : Disk) (qs : List Place) (q : Place) :
    (d.createDirs qs).2.get q = d.get q ∨
      (q ∈ qs ∧ d.get q = none ∧ (d.createDirs qs).2.get q = some .dir) := by
  induction qs generalizing d with
  | nil => exact .inl rfl
  | cons p qs ih =>
    unfold createDirs
    split
    · exact (ih d).imp_right fun h => ⟨List.mem_cons_of_mem _ h.1, h.2⟩
    · rename_i hp
      by_cases hq : q = p
      · subst hq
        rcases ih ((d.put q .dir).note (.mkdir q)) with h | ⟨-, h, -⟩
        · rw [get_note, get_put_self] at h
          exact .inr ⟨List.mem_cons_self, hp, h⟩
        · rw [get_note, get_put_self] at h
          exact nomatch h
      · have hne : ((d.put p .dir).note (.mkdir p)).get q = d.get q := get_put_of_ne d hq _
        rcases ih ((d.put p .dir).note (.mkdir p)) with h | ⟨hmem, h, h'⟩
        · exact .inl (h.trans hne)
        · exact .inr ⟨List.mem_cons_of_mem _ hmem, hne ▸ h, h'⟩
    · exact .inl rfl

/-- What creating a file does: the one that is there is emptied, or there is a new one. -/
theorem createFile_cases {s : PathStr} {h : Handle} (hc : d.createFile s = .ok (h, d')) :
    endsAsDir s = false ∧ h.offset = 0 ∧ h.writable = true ∧
      ((∃ data, d.get (d.place s) = some (.file h.ino data) ∧
          d' = (d.put (d.place s) (.file h.ino [])).note (.create (d.place s))) ∨
        (d.get (d.place s) = none ∧ d.get (d.place s).dropLast = some .dir ∧ h.ino = d.next ∧
          d' = ({ d with next := d.next + 1 }.put (d.place s) (.file d.next [])).note
            (.create (d.place s)))) := by
  unfold createFile at hc
  dsimp only at hc
  split at hc
  · exact nomatch hc
  · rename_i hends
    refine ⟨Bool.eq_false_iff.mpr hends, ?_⟩
    split at hc
    · exact nomatch hc
    · rename_i ino data hget
      cases hc
      exact ⟨rfl, rfl, .inl ⟨data, hget, rfl⟩⟩
    · rename_i hget
      split at hc
      · rename_i hparent
        cases hc
        exact ⟨rfl, rfl, .inr ⟨hget, hparent, rfl, rfl⟩⟩
      · exact nomatch hc

/-- A new file is where its path says, and empty. -/
theorem createFile_at {s : PathStr} {h : Handle} (hc : d.createFile s = .ok (h, d')) :
    d'.get (d.place s) = some (.file h.ino []) := by
  obtain ⟨-, -, -, ⟨data, -, rfl⟩ | ⟨-, -, hino, rfl⟩⟩ := createFile_cases hc
  · exact get_put_self d _ _
  · rw [hino]
    exact get_put_self _ _ _

theorem writeAll_ino {h h' : Handle} {bytes : Content} (hw : d.writeAll h bytes = .ok (h', d')) :
    h'.ino = h.ino := by
  unfold writeAll at hw
  split_ifs at hw
  dsimp only at hw
  split at hw
  · split at hw
    · cases hw
      rfl
    · cases hw
      rfl
  · cases hw
    rfl

/-- What a rename has done, when it has done anything: it is noted, and the files are where they
were or below the new place. -/
structure Renamed (d d' : Disk) (src dst : Place) : Prop where
  log : d'.log = d.log ++ [.rename src dst]
  cwd : d'.cwd = d.cwd
  next : d'.next = d.next
  files : ∃ origin : Place → Place, (∀ q, origin q = q ∨ dst <+: origin q) ∧
    ∀ {q i data}, d'.get q = some (.file i data) →
      ∃ q₀, d.get q₀ = some (.file i data) ∧ q = origin q₀

theorem Renamed.of_file {src dst : Place} {ino : Nat} {data : Content}
    (h : d.get src = some (.file ino data)) :
    Renamed d (((d.drop src).put dst (.file ino data)).note (.rename src dst)) src dst where
  log := rfl
  cwd := rfl
  next := rfl
  files := by
    refine ⟨fun q => if q = src then dst else q, fun q => ?_, fun {q i data'} hq => ?_⟩
    · dsimp only
      split_ifs
      · exact .inr (List.prefix_refl _)
      · exact .inl rfl
    · rw [get_note] at hq
      by_cases hdst : q = dst
      · subst hdst
        rw [get_put_self] at hq
        cases hq
        exact ⟨src, h, (if_pos rfl).symm⟩
      · rw [get_put_of_ne _ hdst] at hq
        by_cases hsrc : q = src
        · subst hsrc
          rw [get_drop_self] at hq
          exact nomatch hq
        · rw [get_drop_of_ne _ hsrc] at hq
          exact ⟨q, hq, (if_neg hsrc).symm⟩

theorem Renamed.of_tree (d : Disk) (src dst : Place) :
    Renamed d ((d.moveTree src dst).note (.rename src dst)) src dst where
  log := rfl
  cwd := rfl
  next := rfl
  files := by
    refine ⟨relocate src dst, fun q => ?_, fun hq => get_moveTree hq⟩
    unfold relocate
    split_ifs
    · exact .inr (List.prefix_append _ _)
    · exact .inl rfl

theorem rename_cases {s s' : PathStr} (h : d.rename s s' = .ok d') :
    d' = d ∨ Renamed d d' (d.place s) (d.place s') := by
  unfold rename at h
  dsimp only at h
  split at h
  · exact nomatch h
  · rename_i ino data hstat
    split at h
    · exact nomatch h
    · split_ifs at h
      · exact .inl (Except.ok.inj h).symm
      · exact .inr (Except.ok.inj h ▸ .of_file (stat_file hstat))
  · split at h
    · exact .inl (Except.ok.inj h).symm
    · split at h
      · exact nomatch h
      · split at h
        · exact nomatch h
        · split_ifs at h
          exact .inr (Except.ok.inj h ▸ .of_tree d _ _)
        · split_ifs at h
          exact .inr (Except.ok.inj h ▸ .of_tree d _ _)

/-! ## File numbers -/

/-- Every file has its own number, below the next one to be given. -/
structure Inodes (d : Disk) : Prop where
  fresh : ∀ {q i data}, d.get q = some (.file i data) → i < d.next
  inj : ∀ {q q' i data data'}, d.get q = some (.file i data) → d.get q' = some (.file i data') →
    q = q'

/-- A disk whose files are those of another, at their places or elsewhere, keeps their numbers. -/
theorem Inodes.of_moved (h : d.Inodes) (hnext : d.next ≤ d'.next) (origin : Place → Place)
    (hfrom : ∀ {q i data}, d'.get q = some (.file i data) →
      ∃ q₀ data₀, d.get q₀ = some (.file i data₀) ∧ q = origin q₀) : d'.Inodes where
  fresh hq := by
    obtain ⟨q₀, data₀, h₀, -⟩ := hfrom hq
    exact (h.fresh h₀).trans_le hnext
  inj hq hq' := by
    obtain ⟨q₀, data₀, h₀, rfl⟩ := hfrom hq
    obtain ⟨q₁, data₁, h₁, rfl⟩ := hfrom hq'
    rw [h.inj h₀ h₁]

/-- A directory changes no numbers. -/
theorem Inodes.put_dir (h : d.Inodes) (q : Place) : (d.put q .dir).Inodes := by
  refine h.of_moved le_rfl id fun {q' i data} hq' => ?_
  by_cases hq : q' = q
  · subst hq
    rw [get_put_self] at hq'
    exact nomatch hq'
  · exact ⟨q', data, get_put_of_ne d hq _ ▸ hq', rfl⟩

theorem inodes_blank : blank.Inodes := by
  have hfile {q : Place} {i : Nat} {data : Content} : blank.get q ≠ some (.file i data) := by
    intro hq
    have hmem := get_eq_some_iff.mp hq
    exact nomatch List.mem_singleton.mp hmem
  exact ⟨fun hq => absurd hq hfile, fun hq => absurd hq hfile⟩

theorem openWrite_at {s : PathStr} {h : Handle} (ho : d.openWrite s = .ok (h, d')) :
    ∃ data, d'.get (d.place s) = some (.file h.ino data) := by
  unfold openWrite at ho
  split at ho
  · rename_i hstat
    cases ho
    exact ⟨_, stat_file hstat⟩
  · exact ⟨[], createFile_at ho⟩

/-- What is open for reading is the file the path names, or a number no file has. -/
theorem openRead_cases {s : PathStr} {h : Handle} (ho : d.openRead s = .ok (h, d')) :
    (∃ data, d'.get (d'.place s) = some (.file h.ino data)) ∨
      (h.ino < d'.next ∧ (d.Inodes → ∀ {q data}, d'.get q ≠ some (.file h.ino data))) := by
  unfold openRead at ho
  split at ho
  · rename_i hstat
    cases ho
    exact .inl ⟨_, stat_file hstat⟩
  · cases ho
    exact .inr ⟨Nat.lt_succ_self _, fun hi _ _ hq => absurd (hi.fresh hq) (lt_irrefl _)⟩
  · exact nomatch ho

theorem placeOf_some {ino : Nat} (h : d.placeOf ino = some q) :
    ∃ data, d.get q = some (.file ino data) := by
  unfold placeOf at h
  rw [Option.map_eq_some_iff] at h
  obtain ⟨x, hfind, rfl⟩ := h
  have hmem := List.mem_of_find?_eq_some hfind
  have hino := List.find?_some hfind
  rcases x with ⟨q, _ | ⟨i, data⟩⟩
  · exact nomatch hino
  · obtain rfl : i = ino := of_decide_eq_true hino
    exact ⟨data, get_eq_some_iff.mpr hmem⟩

theorem placeOf_of_get (h : d.Inodes) {ino : Nat} {data : Content}
    (hq : d.get q = some (.file ino data)) : d.placeOf ino = some q := by
  cases hp : d.placeOf ino with
  | some q' =>
    obtain ⟨data', hq'⟩ := placeOf_some hp
    rw [h.inj hq hq']
  | none =>
    unfold placeOf at hp
    rw [Option.map_eq_none_iff, List.find?_eq_none] at hp
    exact absurd rfl (of_decide_eq_false
      (Bool.eq_false_iff.mpr (hp ⟨q, .file ino data⟩ (get_eq_some_iff.mp hq))))

/-! ## Reading -/

/-- The same tree: what is only read stays so. -/
structure SameTree (d d' : Disk) : Prop where
  nodes : d'.nodes = d.nodes
  cwd : d'.cwd = d.cwd
  next : d.next ≤ d'.next

namespace SameTree

theorem refl (d : Disk) : SameTree d d := ⟨rfl, rfl, le_rfl⟩

theorem trans (h : SameTree d d') (h' : SameTree d' d'') : SameTree d d'' :=
  ⟨h'.nodes.trans h.nodes, h'.cwd.trans h.cwd, h.next.trans h'.next⟩

theorem get (h : SameTree d d') (q : Place) : d'.get q = d.get q := by
  unfold Disk.get
  rw [h.nodes]

theorem stat (h : SameTree d d') (s : PathStr) : d'.stat s = d.stat s := by
  unfold Disk.stat Disk.place
  rw [h.cwd, h.get]

theorem placeOf (h : SameTree d d') (ino : Nat) : d'.placeOf ino = d.placeOf ino := by
  unfold Disk.placeOf
  rw [h.nodes]

theorem inodes (h : SameTree d d') (hi : d.Inodes) : d'.Inodes :=
  hi.of_moved h.next id fun hq => ⟨_, _, h.get _ ▸ hq, rfl⟩

end SameTree

/-- What every read of fails on. -/
def Unreadable (d : Disk) (h : Handle) : Prop := h.writable = true ∨ d.placeOf h.ino = none

theorem Unreadable.congr {h : Handle} (hu : d.Unreadable h) (hsame : SameTree d d') :
    d'.Unreadable h := hu.imp_right ((hsame.placeOf h.ino).trans ·)

theorem Unreadable.read {h : Handle} (hu : d.Unreadable h) (n : Nat) :
    ∃ e, d.read h n = .error e := by
  unfold Disk.read
  split_ifs with hw
  · exact ⟨_, rfl⟩
  · rw [hu.resolve_left hw]
    exact ⟨_, rfl⟩

/-- A file that is open for reading, from its offset on. -/
theorem read_file (hi : d.Inodes) {ino : Nat} {data : Content}
    (hq : d.get q = some (.file ino data)) (k n : Nat) : d.read ⟨ino, k, false⟩ n =
      .ok ((data.drop k).take n, ⟨ino, k + ((data.drop k).take n).length, false⟩) := by
  simp [Disk.read, placeOf_of_get hi hq, hq]

/-- Opening for reading changes no tree. What is open is the file, or cannot be read. -/
theorem openRead_spec (hi : d.Inodes) {s : PathStr} {h : Handle} (ho : d.openRead s = .ok (h, d')) :
    SameTree d d' ∧ h.offset = 0 ∧ h.writable = false ∧
      ((∃ data, d.stat s = some (.file h.ino data)) ∨ d.Unreadable h) := by
  unfold openRead at ho
  split at ho
  · rename_i ino data hstat
    cases ho
    exact ⟨.refl d, rfl, rfl, .inl ⟨data, hstat⟩⟩
  · cases ho
    refine ⟨⟨rfl, rfl, Nat.le_succ _⟩, rfl, rfl, .inr (.inr ?_)⟩
    cases hp : d.placeOf d.next with
    | none => rfl
    | some q =>
      obtain ⟨data, hq⟩ := placeOf_some hp
      exact absurd (hi.fresh hq) (lt_irrefl _)
  · cases ho

/-- Opening what is there for writing changes no tree, and it cannot be read. -/
theorem openWrite_spec {s : PathStr} {h : Handle} (hs : d.pathExists s = true)
    (ho : d.openWrite s = .ok (h, d')) : SameTree d d' ∧ h.writable = true := by
  unfold openWrite at ho
  split at ho
  · cases ho
    exact ⟨⟨rfl, rfl, le_rfl⟩, rfl⟩
  · rename_i hnofile
    obtain ⟨hends, -, -, hcases⟩ := createFile_cases ho
    rcases hcases with ⟨data, hfile, -⟩ | ⟨hnone, -⟩
    · exact absurd ((stat_of_get hends).trans hfile) (hnofile _ _)
    · have hmissing : d.stat s = none := by
        unfold stat
        rw [hnone]
      rw [pathExists, hmissing] at hs
      cases hs

/-! ## What has been touched -/

/-- From one disk to the other, every access has been in `A`, and a file that is not where it was
is in `S`. -/
structure Within (A : Access → Prop) (S : Place → Prop) (d d' : Disk) : Prop where
  cwd : d'.cwd = d.cwd
  next : d.next ≤ d'.next
  log : ∃ accesses, d'.log = d.log ++ accesses ∧ ∀ a ∈ accesses, A a
  inodes : d.Inodes → d'.Inodes
  files : ∀ {q i data}, d'.get q = some (.file i data) →
    (∃ data₀, d.get q = some (.file i data₀)) ∨ S q

namespace Within

variable {A : Access → Prop} {S : Place → Prop}

theorem refl (d : Disk) : Within A S d d where
  cwd := rfl
  next := le_rfl
  log := ⟨[], (List.append_nil _).symm, fun _ h => nomatch h⟩
  inodes := id
  files h := .inl ⟨_, h⟩

theorem trans (h : Within A S d d') (h' : Within A S d' d'') : Within A S d d'' where
  cwd := h'.cwd.trans h.cwd
  next := h.next.trans h'.next
  log := by
    obtain ⟨xs, hxs, hA⟩ := h.log
    obtain ⟨ys, hys, hA'⟩ := h'.log
    refine ⟨xs ++ ys, by rw [hys, hxs, List.append_assoc], fun a ha => ?_⟩
    exact (List.mem_append.mp ha).elim (hA a) (hA' a)
  inodes hi := h'.inodes (h.inodes hi)
  files hq := by
    rcases h'.files hq with ⟨data, hq'⟩ | hS
    · exact h.files hq'
    · exact .inr hS

/-- A file that was in `S` is in `S`. -/
theorem held (h : Within A S d d') {i : Nat} (hS : ∀ {q data}, d.get q = some (.file i data) → S q)
    {data : Content} (hq : d'.get q = some (.file i data)) : S q := by
  rcases h.files hq with ⟨data₀, h₀⟩ | hq
  · exact hS h₀
  · exact hq

/-- One access to one place whose file, if it has one now, it had before. -/
theorem of_put {a : Access} (ha : A a) {i : Nat} {data data' : Content}
    (h : d.get q = some (.file i data)) : Within A S d ((d.put q (.file i data')).note a) := by
  have hfrom {q' : Place} {j : Nat} {data'' : Content}
      (hq' : ((d.put q (.file i data')).note a).get q' = some (.file j data'')) :
      ∃ data₀, d.get q' = some (.file j data₀) := by
    rw [get_note] at hq'
    by_cases hq : q' = q
    · subst hq
      rw [get_put_self] at hq'
      cases hq'
      exact ⟨data, h⟩
    · exact ⟨data'', get_put_of_ne d hq _ ▸ hq'⟩
  exact {
    cwd := rfl
    next := le_rfl
    log := ⟨[a], rfl, fun _ hb => List.mem_singleton.mp hb ▸ ha⟩
    inodes := fun hi => hi.of_moved le_rfl id fun hq' =>
      ⟨_, _, (hfrom hq').choose_spec, rfl⟩
    files := fun hq' => .inl (hfrom hq') }

/-- One access that moves no file. -/
theorem of_note {a : Access} (ha : A a) : Within A S d (d.note a) where
  cwd := rfl
  next := le_rfl
  log := ⟨[a], rfl, fun _ hb => List.mem_singleton.mp hb ▸ ha⟩
  inodes hi := ⟨hi.fresh, hi.inj⟩
  files h := .inl ⟨_, h⟩

variable {s s' : PathStr}

theorem createDirs (qs : List Place) (hA : ∀ q ∈ qs, A (.mkdir q)) (d : Disk) :
    Within A S d (d.createDirs qs).2 := by
  induction qs generalizing d with
  | nil => exact refl d
  | cons q qs ih =>
    have ih' := ih fun q' hq' => hA q' (List.mem_cons_of_mem _ hq')
    unfold Disk.createDirs
    split
    · exact ih' d
    · have hfrom {q' : Place} {i : Nat} {data : Content}
          (hq' : ((d.put q .dir).note (.mkdir q)).get q' = some (.file i data)) :
          d.get q' = some (.file i data) := by
        rw [get_note] at hq'
        by_cases hq : q' = q
        · subst hq
          rw [get_put_self] at hq'
          exact nomatch hq'
        · exact get_put_of_ne d hq _ ▸ hq'
      refine trans ?_ (ih' _)
      exact {
        cwd := rfl
        next := le_rfl
        log := ⟨[_], rfl, fun _ hb => List.mem_singleton.mp hb ▸ hA q List.mem_cons_self⟩
        inodes := fun hi => hi.of_moved le_rfl id fun hq' => ⟨_, _, hfrom hq', rfl⟩
        files := fun hq' => .inl ⟨_, hfrom hq'⟩ }
    · exact refl d

theorem createDirAll (p : Parsed) (hA : ∀ q ∈ visited d.cwd p, A (.mkdir q)) :
    Within A S d (d.createDirAll p).2 :=
  createDirs _ hA d

theorem removeFile (hA : A (.remove (d.place s))) (h : d.removeFile s = .ok d') :
    Within A S d d' := by
  unfold Disk.removeFile at h
  split at h
  · cases h
    have hfrom {q : Place} {i : Nat} {data : Content}
        (hq : ((d.drop (d.place s)).note (.remove (d.place s))).get q = some (.file i data)) :
        d.get q = some (.file i data) := by
      rw [get_note] at hq
      by_cases heq : q = d.place s
      · subst heq
        rw [get_drop_self] at hq
        exact nomatch hq
      · exact get_drop_of_ne d heq ▸ hq
    exact {
      cwd := rfl
      next := le_rfl
      log := ⟨[_], rfl, fun _ hb => List.mem_singleton.mp hb ▸ hA⟩
      inodes := fun hi => hi.of_moved le_rfl id fun hq => ⟨_, _, hfrom hq, rfl⟩
      files := fun hq => .inl ⟨_, hfrom hq⟩ }
  · exact nomatch h
  · exact nomatch h

theorem createFile (hA : A (.create (d.place s))) (hS : S (d.place s)) {h : Handle}
    (hc : d.createFile s = .ok (h, d')) : Within A S d d' := by
  obtain ⟨-, -, -, ⟨data, hget, rfl⟩ | ⟨hget, -, -, rfl⟩⟩ := createFile_cases hc
  · exact of_put hA hget
  · have hfrom {q : Place} {i : Nat} {data : Content}
        (hq : (({ d with next := d.next + 1 }.put (d.place s) (.file d.next [])).note
          (.create (d.place s))).get q = some (.file i data)) :
        (q = d.place s ∧ i = d.next) ∨ d.get q = some (.file i data) := by
      rw [get_note] at hq
      by_cases heq : q = d.place s
      · subst heq
        rw [get_put_self] at hq
        cases hq
        exact .inl ⟨rfl, rfl⟩
      · rw [get_put_of_ne _ heq] at hq
        exact .inr hq
    exact {
      cwd := rfl
      next := Nat.le_succ _
      log := ⟨[_], rfl, fun _ hb => List.mem_singleton.mp hb ▸ hA⟩
      inodes := fun hi => {
        fresh := fun hq => by
          rcases hfrom hq with ⟨-, rfl⟩ | hq
          · exact Nat.lt_succ_self _
          · exact (hi.fresh hq).trans (Nat.lt_succ_self _)
        inj := fun hq hq' => by
          rcases hfrom hq with ⟨rfl, rfl⟩ | hq <;> rcases hfrom hq' with ⟨rfl, hi'⟩ | hq'
          · rfl
          · exact absurd (hi.fresh hq') (lt_irrefl _)
          · subst hi'
            exact absurd (hi.fresh hq) (lt_irrefl _)
          · exact hi.inj hq hq' }
      files := fun hq => by
        rcases hfrom hq with ⟨rfl, -⟩ | hq
        · exact .inr hS
        · exact .inl ⟨_, hq⟩ }

theorem openWrite (hA : A (.create (d.place s))) (hA' : A (.write (d.place s)))
    (hS : S (d.place s)) {h : Handle} (ho : d.openWrite s = .ok (h, d')) : Within A S d d' := by
  unfold Disk.openWrite at ho
  split at ho
  · cases ho
    exact of_note hA'
  · exact createFile hA hS ho

theorem openRead {h : Handle} (ho : d.openRead s = .ok (h, d')) : Within A S d d' := by
  unfold Disk.openRead at ho
  split at ho
  · cases ho
    exact refl d
  · cases ho
    exact {
      cwd := rfl
      next := Nat.le_succ _
      log := ⟨[], (List.append_nil _).symm, fun _ h => nomatch h⟩
      inodes := fun hi => hi.of_moved (Nat.le_succ _) id fun hq => ⟨_, _, hq, rfl⟩
      files := fun hq => .inl ⟨_, hq⟩ }
  · exact nomatch ho

theorem writeAll {h h' : Handle} {bytes : Content}
    (hA : ∀ {q data}, d.get q = some (.file h.ino data) → A (.write q))
    (hw : d.writeAll h bytes = .ok (h', d')) : Within A S d d' := by
  unfold Disk.writeAll at hw
  split_ifs at hw
  · dsimp only at hw
    split at hw
    · rename_i q hp
      obtain ⟨data, hq⟩ := placeOf_some hp
      rw [hq] at hw
      cases hw
      exact of_put (hA hq) hq
    · cases hw
      exact refl d

theorem setFileMtime (hA : A (.setMtime (d.place s))) (h : d.setFileMtime s = .ok d') :
    Within A S d d' := by
  unfold Disk.setFileMtime at h
  split at h
  · cases h
    exact of_note hA
  · exact nomatch h

theorem rename (hA : A (.rename (d.place s) (d.place s'))) (hS : ∀ {q}, d.place s' <+: q → S q)
    (h : d.rename s s' = .ok d') : Within A S d d' := by
  rcases rename_cases h with rfl | hr
  · exact refl d'
  · obtain ⟨origin, hor, hfrom⟩ := hr.files
    exact {
      cwd := hr.cwd
      next := hr.next.ge
      log := ⟨_, hr.log, fun _ hb => List.mem_singleton.mp hb ▸ hA⟩
      inodes := fun hi => hi.of_moved hr.next.ge origin fun hq => by
        obtain ⟨q₀, hq₀, heq⟩ := hfrom hq
        exact ⟨q₀, _, hq₀, heq⟩
      files := fun hq => by
        obtain ⟨q₀, hq₀, rfl⟩ := hfrom hq
        rcases hor q₀ with h | h
        · exact .inl ⟨_, h.symm ▸ hq₀⟩
        · exact .inr (hS h) }

/-- An operation whose failure is not looked at. -/
theorem orSame {r : Except DiskError Disk} (h : ∀ {d'}, r = .ok d' → Within A S d d') :
    Within A S d (d.orSame r) := by
  cases r with
  | ok d' => exact h rfl
  | error e => exact refl d

theorem writeFile {bytes : Content} (hi : d.Inodes) (hA : A (.create (d.place s)))
    (hA' : A (.write (d.place s))) (hS : S (d.place s)) (h : d.writeFile s bytes = .ok d') :
    Within A S d d' := by
  unfold Disk.writeFile at h
  split at h
  · rename_i handle d₁ hc
    have hcreate : Within A S d d₁ := createFile hA hS hc
    split at h
    · rename_i h' d₂ hw
      cases h
      refine hcreate.trans (writeAll (fun {q data'} hq => ?_) hw)
      rw [(hcreate.inodes hi).inj hq (createFile_at hc)]
      exact hA'
    · exact nomatch h
  · exact nomatch h

end Within

end Kit.Disk
