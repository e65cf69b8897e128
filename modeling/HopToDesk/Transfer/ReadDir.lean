import HopToDesk.Transfer.Job

/-!
# Listing a directory

`get_recursive_files` of `libs/hbb_common/src/fs.rs`. What the system answers is a tree of entries,
in the order it gives them. A name that is not UTF-8 is read as no name, and its entry is left out;
so are links, and directories that cannot be read. An empty directory is listed as its name with a
slash behind it.
-/

set_option autoImplicit false

namespace HopToDesk.Transfer

open Kit UnixPath

/-- What an entry of a directory can be called. -/
def FileName := { n : Name // n ≠ [] ∧ '/' ∉ n ∧ n ≠ ['.'] ∧ n ≠ ['.', '.'] }
deriving DecidableEq

inductive FileType
  | file
  | dir
  | dirLink
  | fileLink
deriving DecidableEq

/-- The entries of a directory. A `leaf` is an entry that is not looked into. -/
inductive Entries
  | nil
  | leaf (name : Option FileName) (entryType : FileType) (size modifiedTime : Nat) (rest : Entries)
  | dir (name : Option FileName) (content rest : Entries)

namespace Entries

def names : Entries → List FileName
  | nil => []
  | leaf name _ _ _ rest => name.toList ++ rest.names
  | dir name _ rest => name.toList ++ rest.names

/-- No two entries of a directory have one name, at any depth. -/
def Distinct : Entries → Prop
  | nil => True
  | leaf name _ _ _ rest => (∀ n ∈ name.toList, n ∉ rest.names) ∧ rest.Distinct
  | dir name content rest =>
    (∀ n ∈ name.toList, n ∉ rest.names) ∧ content.Distinct ∧ rest.Distinct

end Entries

structure Directory where
  entries : Entries
  distinct : entries.Distinct

/-- What the system finds under a path. -/
inductive Found
  | dir (directory : Directory)
  | unreadable (err : String)
  | file (size modifiedTime : Nat)
  | missing

/-- The name under which `read_dir` lists an entry, if it does. -/
def listedName (includeHidden : Bool) (name : Option FileName) : Option FileName :=
  name.filter fun n => includeHidden || n.1.head? != some '.'

/-- The entry that stands for an empty directory. -/
def emptyDir (name : PathStr) : FileEntry := ⟨name ++ ['/'], 0, 0⟩

/-- `read_dir_recursive`, of a directory that can be read. -/
def readDirRecursive (includeHidden : Bool) (pre : PathStr) : Entries → List FileEntry
  | .nil => []
  | .leaf name entryType size modifiedTime rest =>
    (match listedName includeHidden name with
      | some n => if entryType = .file then [⟨UnixPath.join pre n.1, size, modifiedTime⟩] else []
      | none => []) ++ readDirRecursive includeHidden pre rest
  | .dir name content rest =>
    (match listedName includeHidden name with
      | some n =>
        let tmp := readDirRecursive includeHidden (UnixPath.join pre n.1) content
        if tmp.isEmpty then [emptyDir (UnixPath.join pre n.1)] else tmp
      | none => []) ++ readDirRecursive includeHidden pre rest

/-- There is nothing under the empty path. -/
def getRecursiveFiles (path : PathStr) (includeHidden : Bool) (found : Found) :
    Except String (List FileEntry) :=
  if path = [] then .error "Not exists"
  else
    match found with
    | .dir directory => .ok (readDirRecursive includeHidden [] directory.entries)
    | .unreadable err => .error err
    | .file size modifiedTime => .ok [⟨[], size, modifiedTime⟩]
    | .missing => .error "Not exists"

/-! ## What is listed -/

theorem FileName.toComp (n : FileName) : UnixPath.toComp n.1 = some (.name n.1) := by
  obtain ⟨n, hne, -, hdot, hdots⟩ := n
  unfold UnixPath.toComp
  rw [if_neg hne, if_neg hdot, if_neg hdots]

theorem FileName.comps (n : FileName) : (parse n.1).comps = [.name n.1] := by
  show (pieces n.1).filterMap UnixPath.toComp = _
  rw [pieces_of_no_slash n.2.2.1, List.filterMap_cons_some n.toComp, List.filterMap_nil]

theorem FileName.relative (n : FileName) : isAbsolute n.1 = false := by
  obtain ⟨n, -, hslash, -⟩ := n
  unfold isAbsolute
  apply decide_eq_false
  intro h
  exact hslash (List.mem_of_mem_head? h)

theorem comps_join_name (pre : PathStr) (n : FileName) :
    (parse (UnixPath.join pre n.1)).comps = (parse pre).comps ++ [.name n.1] := by
  rw [comps_join pre n.relative, n.comps]

theorem comps_emptyDir (name : PathStr) :
    (parse (emptyDir name).name).comps = (parse name).comps := by
  show (pieces (name ++ '/' :: [])).filterMap UnixPath.toComp = _
  rw [pieces_append_slash, List.filterMap_append]
  exact List.append_nil _

/-- A listed entry lies below an entry of the directory. -/
def Below (pre : PathStr) (n : FileName) (entry : FileEntry) : Prop :=
  ∃ more : List Name,
    (parse entry.name).comps = (parse pre).comps ++ .name n.1 :: more.map Comp.name

theorem below_leaf (pre : PathStr) (n : FileName) (size modifiedTime : Nat) :
    Below pre n ⟨UnixPath.join pre n.1, size, modifiedTime⟩ :=
  ⟨[], comps_join_name pre n⟩

theorem below_emptyDir (pre : PathStr) (n : FileName) :
    Below pre n (emptyDir (UnixPath.join pre n.1)) :=
  ⟨[], (comps_emptyDir _).trans (comps_join_name pre n)⟩

theorem Below.up {pre : PathStr} {n m : FileName} {entry : FileEntry}
    (h : Below (UnixPath.join pre n.1) m entry) : Below pre n entry := by
  obtain ⟨more, hcomps⟩ := h
  refine ⟨m.1 :: more, ?_⟩
  rw [hcomps, comps_join_name, List.append_assoc]
  rfl

theorem Below.name_eq {pre : PathStr} {n m : FileName} {entry entry' : FileEntry}
    (h : Below pre n entry) (h' : Below pre m entry') (hname : entry.name = entry'.name) : n = m := by
  obtain ⟨more, hcomps⟩ := h
  obtain ⟨more', hcomps'⟩ := h'
  rw [hname, hcomps'] at hcomps
  have htail := List.append_cancel_left hcomps
  injection htail with hhead
  injection hhead with hnm
  exact Subtype.ext hnm.symm

theorem mem_of_listedName {includeHidden : Bool} {name : Option FileName} {n : FileName}
    (h : listedName includeHidden name = some n) : n ∈ name.toList :=
  Option.mem_toList.mpr (Option.filter_eq_some_iff.mp h).1

theorem below_of_mem {includeHidden : Bool} {pre : PathStr} {entries : Entries} {entry : FileEntry}
    (h : entry ∈ readDirRecursive includeHidden pre entries) :
    ∃ n ∈ entries.names, Below pre n entry := by
  induction entries generalizing pre with
  | nil => cases h
  | leaf name entryType size modifiedTime rest ih =>
    rcases List.mem_append.mp h with h | h
    · split at h
      next n hn =>
        split_ifs at h
        · cases List.mem_singleton.mp h
          exact ⟨n, List.mem_append_left _ (mem_of_listedName hn), below_leaf pre n _ _⟩
        · cases h
      next => cases h
    · obtain ⟨n, hn, hbelow⟩ := ih h
      exact ⟨n, List.mem_append_right _ hn, hbelow⟩
  | dir name content rest ihContent ihRest =>
    rcases List.mem_append.mp h with h | h
    · split at h
      next n hn =>
        refine ⟨n, List.mem_append_left _ (mem_of_listedName hn), ?_⟩
        dsimp only at h
        split_ifs at h
        · cases List.mem_singleton.mp h
          exact below_emptyDir pre n
        · obtain ⟨m, -, hbelow⟩ := ihContent h
          exact hbelow.up
      next => cases h
    · obtain ⟨n, hn, hbelow⟩ := ihRest h
      exact ⟨n, List.mem_append_right _ hn, hbelow⟩

/-- What an entry lists lies below its name, and what the rest lists below other names. -/
theorem nodup_append_rest {includeHidden : Bool} {pre : PathStr} {name : Option FileName}
    {n : FileName} {rest : Entries} {here : List FileEntry}
    (hn : listedName includeHidden name = some n) (hother : ∀ n ∈ name.toList, n ∉ rest.names)
    (hhere : (here.map FileEntry.name).Nodup) (hbelow : ∀ entry ∈ here, Below pre n entry)
    (hrest : ((readDirRecursive includeHidden pre rest).map FileEntry.name).Nodup) :
    ((here ++ readDirRecursive includeHidden pre rest).map FileEntry.name).Nodup := by
  rw [List.map_append]
  refine List.Nodup.append hhere hrest ?_
  intro x hx hx'
  obtain ⟨entry, hentry, rfl⟩ := List.mem_map.mp hx
  obtain ⟨entry', hentry', hname⟩ := List.mem_map.mp hx'
  obtain ⟨m, hm, hbelow'⟩ := below_of_mem hentry'
  have hnm := (hbelow entry hentry).name_eq hbelow' hname.symm
  exact hother n (mem_of_listedName hn) (hnm ▸ hm)

/-- No name is listed twice. -/
theorem nodup_readDirRecursive {includeHidden : Bool} {pre : PathStr} {entries : Entries}
    (h : entries.Distinct) :
    ((readDirRecursive includeHidden pre entries).map FileEntry.name).Nodup := by
  induction entries generalizing pre with
  | nil => exact List.nodup_nil
  | leaf name entryType size modifiedTime rest ih =>
    obtain ⟨hother, hrest⟩ := h
    unfold readDirRecursive
    split
    next n hn =>
      split_ifs
      · refine nodup_append_rest hn hother ?_ ?_ (ih hrest)
        · exact List.nodup_singleton _
        intro entry hentry
        cases List.mem_singleton.mp hentry
        exact below_leaf pre n _ _
      · exact ih hrest
    next => exact ih hrest
  | dir name content rest ihContent ihRest =>
    obtain ⟨hother, hcontent, hrest⟩ := h
    unfold readDirRecursive
    split
    next n hn =>
      dsimp only
      split_ifs
      · refine nodup_append_rest hn hother ?_ ?_ (ihRest hrest)
        · exact List.nodup_singleton _
        intro entry hentry
        cases List.mem_singleton.mp hentry
        exact below_emptyDir pre n
      · apply nodup_append_rest hn hother (ihContent hcontent) _ (ihRest hrest)
        intro entry hentry
        obtain ⟨m, -, hbelow⟩ := below_of_mem hentry
        exact hbelow.up
    next => exact ihRest hrest

/-- **What `get_recursive_files` lists is listed once, and does not climb.** -/
theorem getRecursiveFiles_ok {path : PathStr} {includeHidden : Bool} {found : Found}
    {files : List FileEntry} (h : getRecursiveFiles path includeHidden found = .ok files) :
    path ≠ [] ∧ (files.map FileEntry.name).Nodup ∧
      ∀ entry ∈ files, .up ∉ (parse entry.name).comps := by
  unfold getRecursiveFiles at h
  split_ifs at h with hpath
  refine ⟨hpath, ?_⟩
  cases found with
  | dir directory =>
    injection h with h
    subst h
    refine ⟨nodup_readDirRecursive directory.distinct, ?_⟩
    intro entry hentry
    obtain ⟨n, -, more, hcomps⟩ := below_of_mem hentry
    rw [hcomps]
    simp [parse, pieces, UnixPath.toComp]
  | file size modifiedTime =>
    injection h with h
    subst h
    refine ⟨List.nodup_singleton _, ?_⟩
    intro entry hentry
    cases List.mem_singleton.mp hentry
    simp [parse, pieces, UnixPath.toComp]
  | unreadable err => cases h
  | missing => cases h

end HopToDesk.Transfer
