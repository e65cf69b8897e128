import HopToDesk.Kit.FileName
import HopToDesk.Transfer.ReadDir

/-!
# What a listing says of the tree

A tree has files and directories under relative paths (`Entries.Has`). A listing names the files
that can be seen, and of the directories only those that show nothing, each with a slash behind it.
The other directories are those the names lead through: up to its last slash, a name is a path of
directories, a file's as well as a directory's (`madeDirs`). So a listing makes the directories
that can be seen, and no others (`mem_madeDirs_iff`).
-/

set_option autoImplicit false

namespace HopToDesk.Transfer

open Kit UnixPath

/-! ## The tree -/

/-- What is under a path. -/
inductive Node
  | file (size modifiedTime : Nat)
  | dir (content : Entries)

/-- What a tree has under a path that is not its root's. -/
inductive Entries.Has : Entries → List FileName → Node → Prop
  | file (n : FileName) (size modifiedTime : Nat) (rest : Entries) :
      Has (.leaf (some n) .file size modifiedTime rest) [n] (.file size modifiedTime)
  | dir (n : FileName) (content rest : Entries) :
      Has (.dir (some n) content rest) [n] (.dir content)
  | inside {content : Entries} {p : List FileName} {x : Node} (n : FileName) (rest : Entries)
      (h : Has content p x) : Has (.dir (some n) content rest) (n :: p) x
  | behindLeaf {rest : Entries} {p : List FileName} {x : Node} (name : Option FileName)
      (entryType : FileType) (size modifiedTime : Nat) (h : Has rest p x) :
      Has (.leaf name entryType size modifiedTime rest) p x
  | behindDir {rest : Entries} {p : List FileName} {x : Node} (name : Option FileName)
      (content : Entries) (h : Has rest p x) : Has (.dir name content rest) p x

/-- Nothing on the way is hidden, or hidden entries are included. -/
def Visible (includeHidden : Bool) (p : List FileName) : Prop :=
  includeHidden = true ∨ ∀ n ∈ p, n.1.head? ≠ some '.'

/-- A relative path as text. -/
def relative (p : List FileName) : PathStr := ofPieces (p.map (·.1))

section

variable {includeHidden : Bool} {p q pre : List FileName} {n : FileName} {es : Entries} {x : Node}

theorem Entries.Has.ne_nil (h : es.Has p x) : p ≠ [] := by
  induction h with
  | file | dir | inside => exact List.cons_ne_nil _ _
  | behindLeaf _ _ _ _ _ ih => exact ih
  | behindDir _ _ _ ih => exact ih

/-- A path leads through directories. -/
theorem Entries.Has.through (h : es.Has (p ++ q) x) (hp : p ≠ []) (hq : q ≠ []) :
    ∃ content, es.Has p (.dir content) := by
  generalize hpath : p ++ q = path at h
  induction h generalizing p with
  | file n size modifiedTime rest =>
    have hlen := congrArg List.length hpath
    have hppos := List.length_pos_iff.mpr hp
    have hqpos := List.length_pos_iff.mpr hq
    simp only [List.length_append, List.length_singleton] at hlen
    omega
  | dir n content rest =>
    have hlen := congrArg List.length hpath
    have hppos := List.length_pos_iff.mpr hp
    have hqpos := List.length_pos_iff.mpr hq
    simp only [List.length_append, List.length_singleton] at hlen
    omega
  | @inside content path x n rest h ih =>
    obtain ⟨m, p, rfl⟩ := List.exists_cons_of_ne_nil hp
    rw [List.cons_append] at hpath
    injection hpath with hm hpath
    subst hm
    by_cases hp' : p = []
    · exact ⟨content, hp' ▸ .dir m content rest⟩
    · obtain ⟨inner, hinner⟩ := ih hp' hpath
      exact ⟨inner, .inside m rest hinner⟩
  | behindLeaf name entryType size modifiedTime _ ih =>
    obtain ⟨content, hcontent⟩ := ih hp hpath
    exact ⟨content, .behindLeaf name entryType size modifiedTime hcontent⟩
  | behindDir name content _ ih =>
    obtain ⟨inner, hinner⟩ := ih hp hpath
    exact ⟨inner, .behindDir name content hinner⟩

theorem visible_cons : Visible includeHidden (n :: p) ↔
    listedName includeHidden (some n) = some n ∧ Visible includeHidden p := by
  unfold Visible listedName
  cases includeHidden <;> simp

theorem visible_nil : Visible includeHidden [] := .inr fun _ h => nomatch h

theorem Visible.of_append (h : Visible includeHidden (p ++ q)) : Visible includeHidden p :=
  h.imp id fun hall n hn => hall n (List.mem_append_left q hn)

theorem Visible.append (hp : Visible includeHidden p) (hq : Visible includeHidden q) :
    Visible includeHidden (p ++ q) := by
  rcases hp with h | hp
  · exact .inl h
  · refine hq.imp id fun hq m hm => ?_
    exact (List.mem_append.mp hm).elim (hp m) (hq m)

/-! ## The text of a path -/

theorem relative_cons_cons (m : FileName) :
    relative (n :: m :: p) = n.1 ++ '/' :: relative (m :: p) := rfl

/-- A path does not end in a slash. -/
theorem relative_concat (p : List FileName) (n : FileName) :
    ∃ front, relative (p ++ [n]) = front ++ n.1 ∧ join (relative p) n.1 = front ++ n.1 := by
  induction p with
  | nil => exact ⟨[], rfl, by rw [join, if_neg (by rw [n.relative]; exact Bool.false_ne_true)]; rfl⟩
  | cons m p ih =>
    have hrel : ¬ isAbsolute n.1 = true := by rw [n.relative]; exact Bool.false_ne_true
    cases p with
    | nil =>
      refine ⟨m.1 ++ ['/'], by simp [relative, ofPieces], ?_⟩
      have hlast : ¬ (relative [m] = [] ∨ (relative [m]).getLast? = some '/') := by
        rintro (h | h)
        · exact m.2.1 h
        · exact m.2.2.1 (List.mem_of_getLast? h)
      rw [join, if_neg hrel, if_neg hlast]
      simp [relative, ofPieces]
    | cons k p =>
      obtain ⟨front, hfront, hjoin⟩ := ih
      refine ⟨m.1 ++ '/' :: front, ?_, ?_⟩
      · rw [List.cons_append, List.cons_append, relative_cons_cons]
        simp [← hfront]
      · rw [relative_cons_cons]
        rw [join, if_neg hrel] at hjoin ⊢
        have hne : relative (k :: p) ≠ [] := by
          intro h
          cases p with
          | nil => exact k.2.1 h
          | cons j p =>
            rw [relative_cons_cons] at h
            simp at h
        have hlast : (m.1 ++ '/' :: relative (k :: p)).getLast? =
            (relative (k :: p)).getLast? := by
          rw [List.getLast?_append_cons, List.getLast?_cons_of_ne_nil hne]
        rw [hlast]
        simp only [hne, false_or, List.append_eq_nil_iff, reduceCtorEq, and_false] at hjoin ⊢
        split_ifs at hjoin ⊢ <;> simp [← hjoin]

theorem join_relative (p : List FileName) (n : FileName) :
    join (relative p) n.1 = relative (p ++ [n]) := by
  obtain ⟨front, hfront, hjoin⟩ := relative_concat p n
  rw [hjoin, hfront]

theorem pieces_relative (hp : p ≠ []) : pieces (relative p) = p.map (·.1) := by
  refine pieces_ofPieces (by simpa using hp) fun name hname => ?_
  obtain ⟨m, -, rfl⟩ := List.mem_map.mp hname
  exact m.2.2.1

/-! ## The listing -/

theorem mem_readDirRecursive_dir {path : PathStr} {content rest : Entries} {entry : FileEntry}
    (hn : listedName includeHidden (some n) = some n)
    (h : entry ∈ readDirRecursive includeHidden (join path n.1) content) :
    entry ∈ readDirRecursive includeHidden path (.dir (some n) content rest) := by
  unfold readDirRecursive
  simp only [hn]
  rw [if_neg (by rw [List.isEmpty_iff]; exact List.ne_nil_of_mem h)]
  exact List.mem_append_left _ h

variable (pre) in
/-- A file that can be seen is listed under its path. -/
theorem mem_readDirRecursive_of_file {size modifiedTime : Nat}
    (h : es.Has p (.file size modifiedTime)) (hv : Visible includeHidden p) :
    ⟨relative (pre ++ p), size, modifiedTime⟩ ∈
      readDirRecursive includeHidden (relative pre) es := by
  generalize hx : Node.file size modifiedTime = x at h
  induction h generalizing pre with
  | file n size modifiedTime rest =>
    cases hx
    unfold readDirRecursive
    simp only [(visible_cons.mp hv).1, if_true, join_relative]
    exact List.mem_append_left _ (List.mem_singleton_self _)
  | dir n content rest => cases hx
  | inside n rest h ih =>
    obtain ⟨hn, hp⟩ := visible_cons.mp hv
    have hmem := ih (pre ++ [n]) hp hx
    rw [List.append_assoc, ← join_relative] at hmem
    exact mem_readDirRecursive_dir hn hmem
  | behindLeaf name entryType size modifiedTime h ih => exact List.mem_append_right _ (ih pre hv hx)
  | behindDir name content h ih => exact List.mem_append_right _ (ih pre hv hx)

variable (pre) in
/-- A directory that can be seen is listed by what it shows, or by itself. -/
theorem mem_readDirRecursive_of_dir {content : Entries} (h : es.Has p (.dir content))
    (hv : Visible includeHidden p) :
    (∀ entry ∈ readDirRecursive includeHidden (relative (pre ++ p)) content,
      entry ∈ readDirRecursive includeHidden (relative pre) es) ∧
    (readDirRecursive includeHidden (relative (pre ++ p)) content = [] →
      emptyDir (relative (pre ++ p)) ∈ readDirRecursive includeHidden (relative pre) es) := by
  generalize hx : Node.dir content = x at h
  induction h generalizing pre with
  | file n size modifiedTime rest => cases hx
  | dir n content rest =>
    cases hx
    have hn := (visible_cons.mp hv).1
    rw [← join_relative]
    refine ⟨fun entry hentry => mem_readDirRecursive_dir hn hentry, fun hempty => ?_⟩
    unfold readDirRecursive
    simp only [hn]
    rw [if_pos (by rw [List.isEmpty_iff]; exact hempty)]
    exact List.mem_append_left _ (List.mem_singleton_self _)
  | inside n rest h ih =>
    obtain ⟨hn, hp⟩ := visible_cons.mp hv
    have hmem := ih (pre ++ [n]) hp hx
    rw [List.append_assoc, ← join_relative] at hmem
    exact ⟨fun entry hentry => mem_readDirRecursive_dir hn (hmem.1 entry hentry),
      fun hempty => mem_readDirRecursive_dir hn (hmem.2 hempty)⟩
  | behindLeaf name entryType size modifiedTime h ih =>
    obtain ⟨hshown, hitself⟩ := ih pre hv hx
    exact ⟨fun entry hentry => List.mem_append_right _ (hshown entry hentry),
      fun hempty => List.mem_append_right _ (hitself hempty)⟩
  | behindDir name content h ih =>
    obtain ⟨hshown, hitself⟩ := ih pre hv hx
    exact ⟨fun entry hentry => List.mem_append_right _ (hshown entry hentry),
      fun hempty => List.mem_append_right _ (hitself hempty)⟩

/-- What an entry of a listing is for: a file or a directory that can be seen. -/
def Stand (includeHidden : Bool) (pre : List FileName) (es : Entries) (entry : FileEntry) : Prop :=
  (∃ p size modifiedTime, es.Has p (.file size modifiedTime) ∧ Visible includeHidden p ∧
    entry = ⟨relative (pre ++ p), size, modifiedTime⟩) ∨
  ∃ p content, es.Has p (.dir content) ∧ Visible includeHidden p ∧
    entry = emptyDir (relative (pre ++ p))

theorem listedName_eq_some {name : Option FileName} (h : listedName includeHidden name = some n) :
    name = some n ∧ Visible includeHidden [n] := by
  obtain rfl := (Option.filter_eq_some_iff.mp h).1
  exact ⟨rfl, visible_cons.mpr ⟨h, visible_nil⟩⟩

theorem stand_of_mem {entry : FileEntry}
    (h : entry ∈ readDirRecursive includeHidden (relative pre) es) :
    Stand includeHidden pre es entry := by
  induction es generalizing pre with
  | nil => cases h
  | leaf name entryType size modifiedTime rest ih =>
    rcases List.mem_append.mp h with hhere | hrest
    · split at hhere
      next n hn =>
        split_ifs at hhere with htype
        · obtain ⟨rfl, hv⟩ := listedName_eq_some hn
          subst htype
          rw [List.mem_singleton, join_relative] at hhere
          exact .inl ⟨[n], size, modifiedTime, .file n size modifiedTime rest, hv, hhere⟩
        · cases hhere
      next => cases hhere
    · rcases ih hrest with ⟨p, s, t, hp, hv, he⟩ | ⟨p, c, hp, hv, he⟩
      · exact .inl ⟨p, s, t, .behindLeaf name entryType size modifiedTime hp, hv, he⟩
      · exact .inr ⟨p, c, .behindLeaf name entryType size modifiedTime hp, hv, he⟩
  | dir name content rest ihContent ihRest =>
    rcases List.mem_append.mp h with hhere | hrest
    · split at hhere
      next n hn =>
        obtain ⟨rfl, hvn⟩ := listedName_eq_some hn
        rw [join_relative] at hhere
        dsimp only at hhere
        split_ifs at hhere
        · rw [List.mem_singleton] at hhere
          exact .inr ⟨[n], content, .dir n content rest, hvn, hhere⟩
        · rcases ihContent hhere with ⟨p, s, t, hp, hv, he⟩ | ⟨p, c, hp, hv, he⟩
          · rw [List.append_assoc] at he
            exact .inl ⟨n :: p, s, t, .inside n rest hp, hvn.append hv, he⟩
          · rw [List.append_assoc] at he
            exact .inr ⟨n :: p, c, .inside n rest hp, hvn.append hv, he⟩
      next => cases hhere
    · rcases ihRest hrest with ⟨p, s, t, hp, hv, he⟩ | ⟨p, c, hp, hv, he⟩
      · exact .inl ⟨p, s, t, .behindDir name content hp, hv, he⟩
      · exact .inr ⟨p, c, .behindDir name content hp, hv, he⟩

/-! ## The directories a listing makes -/

/-- The directories that are made for a name, the names of each: those the name leads through, up
to its last slash. -/
def madeDirs (name : PathStr) (ds : List Name) : Prop := ds ≠ [] ∧ ds <+: (pieces name).dropLast

theorem madeDirs_relative (hp : p ≠ []) {ds : List Name} :
    madeDirs (relative p) ds ↔ ds ≠ [] ∧ ds <+: p.dropLast.map (·.1) := by
  rw [madeDirs, pieces_relative hp, List.map_dropLast]

theorem madeDirs_emptyDir (hp : p ≠ []) {ds : List Name} :
    madeDirs (emptyDir (relative p)).name ds ↔ ds ≠ [] ∧ ds <+: p.map (·.1) := by
  have hpieces : pieces (emptyDir (relative p)).name = p.map (·.1) ++ [[]] := by
    show pieces (relative p ++ '/' :: []) = _
    rw [pieces_append_slash, pieces_relative hp]
    rfl
  rw [madeDirs, hpieces, List.dropLast_concat]

/-- A beginning of the names of a path is the names of a beginning of it. -/
theorem exists_of_isPrefix_map {ds : List Name} (h : ds <+: p.map (·.1)) :
    ∃ d more, p = d ++ more ∧ ds = d.map (·.1) := by
  obtain ⟨rest, hrest⟩ := h
  obtain ⟨d, more, hp, hd, -⟩ := List.map_eq_append_iff.mp hrest.symm
  exact ⟨d, more, hp, hd.symm⟩

/-- **A listing makes the directories that can be seen**, and no others. -/
theorem mem_madeDirs_iff {ds : List Name} :
    (∃ entry ∈ readDirRecursive includeHidden [] es, madeDirs entry.name ds) ↔
      ∃ d content, ds = d.map (·.1) ∧ es.Has d (.dir content) ∧ Visible includeHidden d := by
  constructor
  · rintro ⟨entry, hentry, hmade⟩
    have hstand : Stand includeHidden [] es entry := stand_of_mem hentry
    rcases hstand with ⟨p, size, modifiedTime, hp, hv, rfl⟩ | ⟨p, content, hp, hv, rfl⟩
    · obtain ⟨hne, hbegins⟩ := (madeDirs_relative hp.ne_nil).mp hmade
      obtain ⟨d, more, hd, rfl⟩ := exists_of_isPrefix_map hbegins
      -- the file's own name is left
      have hsplit : p = d ++ (more ++ [p.getLast hp.ne_nil]) := by
        rw [← List.append_assoc, ← hd, List.dropLast_append_getLast]
      rw [hsplit] at hp hv
      obtain ⟨content, hcontent⟩ := hp.through (by simpa using hne) (by simp)
      exact ⟨d, content, rfl, hcontent, hv.of_append⟩
    · obtain ⟨hne, hbegins⟩ := (madeDirs_emptyDir hp.ne_nil).mp hmade
      obtain ⟨d, more, rfl, rfl⟩ := exists_of_isPrefix_map hbegins
      by_cases hmore : more = []
      · subst hmore
        rw [List.append_nil] at hp hv
        exact ⟨d, content, rfl, hp, hv⟩
      · obtain ⟨inner, hinner⟩ := hp.through (by simpa using hne) hmore
        exact ⟨d, inner, rfl, hinner, hv.of_append⟩
  · rintro ⟨d, content, rfl, hd, hv⟩
    have hne : d.map (·.1) ≠ [] := by simpa using hd.ne_nil
    obtain ⟨hshown, hitself⟩ := mem_readDirRecursive_of_dir [] hd hv
    rw [List.nil_append] at hshown hitself
    cases hlist : readDirRecursive includeHidden (relative d) content with
    | nil => exact ⟨_, hitself hlist, (madeDirs_emptyDir hd.ne_nil).mpr ⟨hne, List.prefix_rfl⟩⟩
    | cons entry more =>
      have hmem : entry ∈ readDirRecursive includeHidden (relative d) content := by
        rw [hlist]
        exact List.mem_cons_self
      refine ⟨entry, hshown entry hmem, ?_⟩
      rcases stand_of_mem hmem with ⟨p, s, t, hp, -, rfl⟩ | ⟨p, c, hp, -, rfl⟩
      · have hdp : d ++ p ≠ [] := List.append_ne_nil_of_left_ne_nil hd.ne_nil _
        refine (madeDirs_relative hdp).mpr ⟨hne, ?_⟩
        rw [List.dropLast_append_of_ne_nil hp.ne_nil, List.map_append]
        exact List.prefix_append _ _
      · have hdp : d ++ p ≠ [] := List.append_ne_nil_of_left_ne_nil hd.ne_nil _
        refine (madeDirs_emptyDir hdp).mpr ⟨hne, ?_⟩
        rw [List.map_append]
        exact List.prefix_append _ _

end

/-! ## The whole listing -/

/-- A listing of a tree: every file that can be seen, once, and no other; and names that make the
directories that can be seen. -/
structure Lists (includeHidden : Bool) (es : Entries) (files : List FileEntry) : Prop where
  once : (files.map FileEntry.name).Nodup
  file : ∀ p size modifiedTime, es.Has p (.file size modifiedTime) → Visible includeHidden p →
    ⟨relative p, size, modifiedTime⟩ ∈ files
  only : ∀ entry ∈ files, entry.name.getLast? ≠ some '/' →
    ∃ p size modifiedTime, es.Has p (.file size modifiedTime) ∧ Visible includeHidden p ∧
      entry = ⟨relative p, size, modifiedTime⟩
  dirs : ∀ ds : List Name, (∃ entry ∈ files, madeDirs entry.name ds) ↔
    ∃ d content, ds = d.map (·.1) ∧ es.Has d (.dir content) ∧ Visible includeHidden d

theorem lists_readDirRecursive (includeHidden : Bool) {es : Entries} (h : es.Distinct) :
    Lists includeHidden es (readDirRecursive includeHidden [] es) where
  once := nodup_readDirRecursive h
  file _ _ _ hp hv := mem_readDirRecursive_of_file [] hp hv
  only entry hentry hlast := by
    have hstand : Stand includeHidden [] es entry := stand_of_mem hentry
    rcases hstand with hfile | ⟨p, content, -, -, rfl⟩
    · exact hfile
    · exact absurd List.getLast?_concat hlast
  dirs _ := mem_madeDirs_iff

/-- **What is listed of a directory.** Whatever is in it, each file that can be seen is listed once
under its path from there, with its size, and no other file is; and the names make the directories
below it that can be seen, and no others. -/
theorem getRecursiveFiles_lists {path : PathStr} (hpath : path ≠ []) (includeHidden : Bool)
    (directory : Directory) :
    ∃ files, getRecursiveFiles path includeHidden (.dir directory) = .ok files ∧
      Lists includeHidden directory.entries files := by
  rw [getRecursiveFiles, if_neg hpath]
  exact ⟨_, rfl, lists_readDirRecursive includeHidden directory.distinct⟩

def oneLetter (c : Char) (h : c ≠ '/' ∧ c ≠ '.') : FileName :=
  ⟨[c], List.cons_ne_nil _ _, by simpa using h.1.symm, by simpa using h.2, by simp⟩

/-- Two nested directories with nothing in them, a file, and a hidden directory. -/
def nestedEntries : Entries :=
  .dir (some (oneLetter 'a' (by decide))) (.dir (some (oneLetter 'b' (by decide))) .nil .nil)
    (.leaf (some (oneLetter 'f' (by decide))) .file 3 7
      (.dir (some ⟨".h".toList, by decide⟩) .nil .nil))

theorem nestedEntries_distinct : nestedEntries.Distinct := by
  refine ⟨?_, ⟨?_, trivial, trivial⟩, ?_, ?_, trivial, trivial⟩
  · rintro n hn
    cases List.mem_singleton.mp hn
    decide
  · exact fun _ _ => List.not_mem_nil
  · rintro n hn
    cases List.mem_singleton.mp hn
    decide
  · exact fun _ _ => List.not_mem_nil

/-- One directory is made for the nested ones, and nothing is said of the hidden one. -/
theorem getRecursiveFiles_lists_nested :
    ("r".toList : PathStr) ≠ [] ∧
      ∃ files, getRecursiveFiles "r".toList false (.dir ⟨_, nestedEntries_distinct⟩) = .ok files ∧
        files.map FileEntry.name = ["a/b/".toList, "f".toList] ∧
        Lists false nestedEntries files := by
  have hpath : ("r".toList : PathStr) ≠ [] := by decide
  obtain ⟨files, hfiles, hlists⟩ :=
    getRecursiveFiles_lists hpath false ⟨_, nestedEntries_distinct⟩
  refine ⟨hpath, files, hfiles, ?_, hlists⟩
  obtain rfl : _ = files := Except.ok.inj (Eq.trans (by rfl) hfiles)
  decide

end HopToDesk.Transfer
