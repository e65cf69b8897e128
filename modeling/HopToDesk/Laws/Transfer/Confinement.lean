import HopToDesk.Kit.DiskLaws
import HopToDesk.Transfer.HandleFs

/-!
# Where a receiver writes

Every path a write job uses is its destination joined with a file name of its list, or that with a
suffix. When no name is absolute and none has a `..` in it, these stay at or below the destination
(`Kit.UnixPath.resolve_join`). The directories on the way to the destination may be made as well,
and the empty name, which stands for a destination that is itself a file, puts the two files with a
suffix beside it.

An open file is written without a path, so the invariant of a run says of each job that its open
file, wherever it has been renamed to, is inside (`Held`). A rename moves it only to where a path
of some job leads.

The names are not checked anywhere: with an absolute name or one that climbs, the receiver writes
where the name says (`writes_outside`).
-/

set_option autoImplicit false

namespace HopToDesk.Transfer

open Kit UnixPath

/-- The places that are at or below a destination in `dests`, and the two beside one when there
is an empty name. -/
def Inside (cwd : Place) (dests : PathStr → Prop) (single : Prop) (q : Place) : Prop :=
  ∃ p, dests p ∧ (resolve cwd (parse p) <+: q ∨
    (single ∧ (q = resolve cwd (parse (p ++ downloadSuffix)) ∨
      q = resolve cwd (parse (p ++ digestSuffix)))))

/-- An access to places inside, or the making of a directory on the way to a destination. -/
def Confined (cwd : Place) (dests : PathStr → Prop) (single : Prop) (a : Access) : Prop :=
  (∀ q ∈ a.places, Inside cwd dests single q) ∨
    ∃ q p, a = .mkdir q ∧ dests p ∧ q ∈ visited cwd (parse p)

/-- A name that may stand in the list. -/
def NameOk (single : Prop) (name : PathStr) : Prop := Descends name ∧ (name = [] → single)

/-- What an open file is written to is inside. -/
def Held (cwd : Place) (dests : PathStr → Prop) (single : Prop) (d : Disk) :
    Option DataStream → Prop
  | some (.fileStream h) => h.ino < d.next ∧
      ∀ {q data}, d.get q = some (.file h.ino data) → Inside cwd dests single q
  | _ => True

structure JobOk (cwd : Place) (dests : PathStr → Prop) (single : Prop) (d : Disk)
    (job : TransferJob) : Prop where
  dest : ∀ p, job.dataSource = .filePath p → dests p
  names : ∀ entry ∈ job.files, NameOk single entry.name
  held : Held cwd dests single d job.dataStream

structure DiskOk (cwd : Place) (d : Disk) : Prop where
  cwd : d.cwd = cwd
  inodes : d.Inodes

/-- A disk has changed inside only. -/
def Moved (cwd : Place) (dests : PathStr → Prop) (single : Prop) (d d' : Disk) : Prop :=
  Disk.Within (Confined cwd dests single) (Inside cwd dests single) d d'

section Paths

variable {cwd : Place} {dests : PathStr → Prop} {single : Prop} {p name : PathStr}

theorem inside_of_prefix {q q' : Place} (h : resolve cwd (parse p) <+: q) (hp : dests p)
    (hq : q <+: q') : Inside cwd dests single q' :=
  ⟨p, hp, .inl (h.trans hq)⟩

theorem prefix_join (hname : NameOk single name) :
    resolve cwd (parse p) <+: resolve cwd (parse (TransferJob.join p name)) := by
  unfold TransferJob.join
  split_ifs
  · exact List.prefix_refl _
  · exact resolve_join cwd p hname.1

theorem inside_suffix (hp : dests p) (hname : NameOk single name) {suffix : PathStr}
    (h : suffix = downloadSuffix ∨ suffix = digestSuffix) :
    Inside cwd dests single (resolve cwd (parse (TransferJob.join p name ++ suffix))) := by
  refine ⟨p, hp, ?_⟩
  unfold TransferJob.join
  split_ifs with hempty
  · refine .inr ⟨hname.2 hempty, ?_⟩
    rcases h with rfl | rfl
    · exact .inl rfl
    · exact .inr rfl
  · refine .inl (resolve_join_append cwd p hname.1 ?_ ?_ ?_)
    · rcases h with rfl | rfl <;> decide
    · rcases h with rfl | rfl <;> decide
    · intro hjoin
      unfold join at hjoin
      rw [if_neg (by rw [hname.1.1]; exact Bool.false_ne_true)] at hjoin
      split_ifs at hjoin
      · exact hempty (List.append_eq_nil_iff.mp hjoin).2
      · exact nomatch (List.append_eq_nil_iff.mp hjoin).2

theorem confined_single {a : Access} {q : Place} (h : a.places = [q])
    (hq : Inside cwd dests single q) : Confined cwd dests single a :=
  .inl fun q' hq' => by
    rw [h, List.mem_singleton] at hq'
    exact hq' ▸ hq

/-- The directories on the way to a file of the list. -/
theorem confined_mkdir (hp : dests p) (hname : NameOk single name) {q : Place}
    (hq : q ∈ visited cwd (parse (TransferJob.join p name))) :
    Confined cwd dests single (.mkdir q) := by
  have hway : q ∈ visited cwd (parse p) ∨ resolve cwd (parse p) <+: q := by
    unfold TransferJob.join at hq
    split_ifs at hq
    · exact .inl hq
    · exact visited_join cwd p hname.1 hq
  rcases hway with h | h
  · exact .inr ⟨q, p, rfl, hp, h⟩
  · exact confined_single rfl ⟨p, hp, .inl h⟩

end Paths

section Disks

variable {cwd : Place} {dests : PathStr → Prop} {single : Prop} {d d' d'' : Disk}

theorem Moved.trans (h : Moved cwd dests single d d') (h' : Moved cwd dests single d' d'') :
    Moved cwd dests single d d'' :=
  Disk.Within.trans h h'

theorem Moved.diskOk (h : Moved cwd dests single d d') (hd : DiskOk cwd d) : DiskOk cwd d' :=
  ⟨h.cwd.trans hd.cwd, h.inodes hd.inodes⟩

theorem Moved.held (h : Moved cwd dests single d d') {stream : Option DataStream}
    (hs : Held cwd dests single d stream) : Held cwd dests single d' stream := by
  match stream, hs with
  | none, _ => trivial
  | some (.bufStream _ _), _ => trivial
  | some (.fileStream handle), hs =>
    exact ⟨hs.1.trans_le h.next, fun hq => Disk.Within.held h hs.2 hq⟩

theorem Moved.jobOk (h : Moved cwd dests single d d') {job : TransferJob}
    (hj : JobOk cwd dests single d job) : JobOk cwd dests single d' job :=
  ⟨hj.dest, hj.names, h.held hj.held⟩

end Disks

/-! ## The operations of a job -/

section Operations

variable {cwd : Place} {dests : PathStr → Prop} {single : Prop} {d d' : Disk} {p name : PathStr}

theorem moved_mkdirs (hd : DiskOk cwd d) (hp : dests p) (hname : NameOk single name) :
    Moved cwd dests single d (d.createDirAll (parse (TransferJob.join p name))).2 :=
  Disk.Within.createDirAll _ fun _ hq => confined_mkdir hp hname (hd.cwd ▸ hq)

theorem moved_mkdirs_parent (hd : DiskOk cwd d) (hp : dests p) (hname : NameOk single name)
    {pp : Parsed} (hpp : UnixPath.parent (parse (TransferJob.join p name)) = some pp) :
    Moved cwd dests single d (d.createDirAll pp).2 :=
  Disk.Within.createDirAll _ fun _ hq => confined_mkdir hp hname (visited_parent hpp (hd.cwd ▸ hq))

theorem inside_place {s : PathStr} (hd : DiskOk cwd d)
    (h : Inside cwd dests single (resolve cwd (parse s))) : Inside cwd dests single (d.place s) :=
  (congrArg (fun c => Inside cwd dests single (resolve c (parse s))) hd.cwd).mpr h

variable {suffix : PathStr}

theorem moved_removeFile (hd : DiskOk cwd d) (hp : dests p) (hname : NameOk single name)
    (hs : suffix = downloadSuffix ∨ suffix = digestSuffix)
    (h : d.removeFile (TransferJob.join p name ++ suffix) = .ok d') :
    Moved cwd dests single d d' :=
  Disk.Within.removeFile (confined_single rfl (inside_place hd (inside_suffix hp hname hs))) h

theorem moved_createFile (hd : DiskOk cwd d) {s : PathStr}
    (hin : Inside cwd dests single (d.place s)) {h : Handle} (hc : d.createFile s = .ok (h, d')) :
    Moved cwd dests single d d' ∧ Held cwd dests single d' (some (.fileStream h)) := by
  have hmoved : Moved cwd dests single d d' :=
    Disk.Within.createFile (confined_single rfl hin) hin hc
  have hat := Disk.createFile_at hc
  have hi := hmoved.inodes hd.inodes
  refine ⟨hmoved, hi.fresh hat, fun hq => ?_⟩
  rw [hi.inj hq hat]
  exact hin

theorem moved_writeFile (hd : DiskOk cwd d) (hp : dests p) (hname : NameOk single name)
    (hs : suffix = downloadSuffix ∨ suffix = digestSuffix) {bytes : Content}
    (h : d.writeFile (TransferJob.join p name ++ suffix) bytes = .ok d') :
    Moved cwd dests single d d' := by
  have hin : Inside cwd dests single (d.place (TransferJob.join p name ++ suffix)) :=
    inside_place hd (inside_suffix hp hname hs)
  exact Disk.Within.writeFile hd.inodes (confined_single rfl hin) (confined_single rfl hin) hin h

theorem moved_openWrite (hd : DiskOk cwd d) (hp : dests p) (hname : NameOk single name)
    (hs : suffix = downloadSuffix ∨ suffix = digestSuffix) {h : Handle}
    (ho : d.openWrite (TransferJob.join p name ++ suffix) = .ok (h, d')) :
    Moved cwd dests single d d' ∧ Held cwd dests single d' (some (.fileStream h)) := by
  have hin : Inside cwd dests single (d.place (TransferJob.join p name ++ suffix)) :=
    inside_place hd (inside_suffix hp hname hs)
  have hmoved : Moved cwd dests single d d' :=
    Disk.Within.openWrite (confined_single rfl hin) (confined_single rfl hin) hin ho
  have hat := Disk.openWrite_at ho
  have hi := hmoved.inodes hd.inodes
  refine ⟨hmoved, hi.fresh hat.choose_spec, fun hq => ?_⟩
  rw [hi.inj hq hat.choose_spec]
  exact hin

/-- A file opened for reading is where its path says. A directory opened so is no file. -/
theorem moved_openRead (hd : DiskOk cwd d) {s : PathStr}
    (hin : Inside cwd dests single (resolve cwd (parse s))) {h : Handle}
    (ho : d.openRead s = .ok (h, d')) :
    Moved cwd dests single d d' ∧ Held cwd dests single d' (some (.fileStream h)) := by
  have hmoved : Moved cwd dests single d d' := Disk.Within.openRead ho
  have hi := hmoved.inodes hd.inodes
  refine ⟨hmoved, ?_⟩
  rcases Disk.openRead_cases ho with ⟨data, hat⟩ | ⟨hlt, hnone⟩
  · refine ⟨hi.fresh hat, fun hq => ?_⟩
    rw [hi.inj hq hat]
    exact inside_place (hmoved.diskOk hd) hin
  · exact ⟨hlt, fun hq => absurd hq (hnone hd.inodes)⟩

theorem moved_rename (hd : DiskOk cwd d) (hp : dests p) (hname : NameOk single name)
    (h : d.rename (TransferJob.join p name ++ downloadSuffix) (TransferJob.join p name) = .ok d') :
    Moved cwd dests single d d' := by
  have hsrc : Inside cwd dests single (d.place (TransferJob.join p name ++ downloadSuffix)) :=
    inside_place hd (inside_suffix hp hname (.inl rfl))
  have hdst : Inside cwd dests single (d.place (TransferJob.join p name)) :=
    inside_place hd ⟨p, hp, .inl (prefix_join hname)⟩
  refine Disk.Within.rename (.inl fun q hq => ?_) (fun hq => ?_) h
  · rcases List.mem_pair.mp hq with rfl | rfl
    · exact hsrc
    · exact hdst
  · rw [Disk.place, hd.cwd] at hq
    exact inside_of_prefix (prefix_join hname) hp hq

theorem moved_setFileMtime (hd : DiskOk cwd d) (hp : dests p) (hname : NameOk single name)
    (h : d.setFileMtime (TransferJob.join p name) = .ok d') : Moved cwd dests single d d' :=
  Disk.Within.setFileMtime
    (confined_single rfl (inside_place hd ⟨p, hp, .inl (prefix_join hname)⟩)) h

theorem moved_createMarkers (hd : DiskOk cwd d) (hp : dests p) {names : List PathStr}
    (hnames : ∀ name ∈ names, NameOk single name) :
    Moved cwd dests single d (TransferJob.createMarkers p names d) := by
  induction names generalizing d with
  | nil => exact .refl d
  | cons name names ih =>
    have hrest := fun d (hd : DiskOk cwd d) =>
      ih (d := d) hd fun n hn => hnames n (List.mem_cons_of_mem _ hn)
    unfold TransferJob.createMarkers at hrest ⊢
    rw [List.foldl_cons]
    split_ifs
    · have hmkdirs : Moved cwd dests single d _ :=
        moved_mkdirs hd hp (hnames name List.mem_cons_self)
      exact hmkdirs.trans (hrest _ (hmkdirs.diskOk hd))
    · exact hrest d hd

end Operations

namespace JobOk

variable {cwd : Place} {dests : PathStr → Prop} {single : Prop} {d d' : Disk} {job : TransferJob}

/-- The file a job is at is one of its list. -/
theorem current (hj : JobOk cwd dests single d job) {p : PathStr} {entry : FileEntry}
    (h : job.current = some (p, entry)) : dests p ∧ NameOk single entry.name := by
  unfold TransferJob.current at h
  split at h
  · rename_i q _ hsource
    rw [Option.map_eq_some_iff] at h
    obtain ⟨e, he, heq⟩ := h
    cases heq
    exact ⟨hj.dest _ hsource, hj.names _ (List.mem_of_getElem? he)⟩
  · exact nomatch h

theorem modifyTime (hj : JobOk cwd dests single d job) (hd : DiskOk cwd d) :
    Moved cwd dests single d (job.modifyTime d) := by
  unfold TransferJob.modifyTime
  split
  · exact .refl d
  · rename_i p entry hcur
    obtain ⟨hp, hname⟩ := hj.current hcur
    have hremove : Moved cwd dests single d _ :=
      Disk.Within.orSame fun h => moved_removeFile hd hp hname (.inr rfl) h
    have hd₁ := hremove.diskOk hd
    have hrename : Moved cwd dests single _ _ :=
      Disk.Within.orSame fun h => moved_rename hd₁ hp hname h
    have hd₂ := hrename.diskOk hd₁
    exact (hremove.trans hrename).trans
      (Disk.Within.orSame fun h => moved_setFileMtime hd₂ hp hname h)

theorem removeDownloadFile (hj : JobOk cwd dests single d job) (hd : DiskOk cwd d) :
    Moved cwd dests single d (job.removeDownloadFile d) := by
  unfold TransferJob.removeDownloadFile
  split
  · exact .refl d
  · rename_i p entry hcur
    obtain ⟨hp, hname⟩ := hj.current hcur
    have hremove : Moved cwd dests single d _ :=
      Disk.Within.orSame fun h => moved_removeFile hd hp hname (.inl rfl) h
    exact hremove.trans
      (Disk.Within.orSame fun h => moved_removeFile (hremove.diskOk hd) hp hname (.inr rfl) h)

/-- Both suffixed paths of a file are inside, and making them ready touches nothing else. -/
theorem receivePaths (hd : DiskOk cwd d) {p : PathStr}
    (hp : dests p) {entry : FileEntry} (hname : NameOk single entry.name) {path : PathStr}
    {digestPath : Option PathStr} (h : job.receivePaths p entry d = (path, digestPath, d')) :
    Moved cwd dests single d d' ∧ Inside cwd dests single (resolve cwd (parse path)) ∧
      ∀ dp ∈ digestPath, dp = TransferJob.join p entry.name ++ digestSuffix := by
  unfold TransferJob.receivePaths at h
  split at h
  · cases h
    exact ⟨.refl d, ⟨p, hp, .inl (List.prefix_refl _)⟩, fun _ hdp => nomatch hdp⟩
  · dsimp only at h
    split at h
    · rename_i pp hpp
      cases h
      refine ⟨moved_mkdirs_parent hd hp hname hpp, inside_suffix hp hname (.inl rfl), ?_⟩
      exact fun dp hdp => (Option.mem_some_iff.mp hdp).symm
    · cases h
      refine ⟨.refl d, inside_suffix hp hname (.inl rfl), ?_⟩
      exact fun dp hdp => (Option.mem_some_iff.mp hdp).symm

theorem removeDigest (hd : DiskOk cwd d) {p : PathStr} (hp : dests p) {name : PathStr}
    (hname : NameOk single name) {digestPath : Option PathStr}
    (hdp : ∀ dp ∈ digestPath, dp = TransferJob.join p name ++ digestSuffix)
    (h : TransferJob.removeDigest d digestPath = .ok d') : Moved cwd dests single d d' := by
  unfold TransferJob.removeDigest at h
  split at h
  · rename_i dp
    obtain rfl := hdp dp rfl
    split_ifs at h
    · exact moved_removeFile hd hp hname (.inr rfl) h
    · cases h
      exact .refl d
  · cases h
    exact .refl d

/-- What an operation on a job leaves: the disk has changed inside only, and the job is as it has
to be. -/
def Leaves (cwd : Place) (dests : PathStr → Prop) (single : Prop) (d : Disk) (job' : TransferJob)
    (d' : Disk) : Prop :=
  Moved cwd dests single d d' ∧ JobOk cwd dests single d' job'

theorem startFile (hj : JobOk cwd dests single d job) (hd : DiskOk cwd d) {p : PathStr}
    (hp : dests p) (fileNum : Int) {entry : FileEntry} (hname : NameOk single entry.name)
    {outcome : Except JobError Unit} {job' : TransferJob}
    (h : job.startFile p fileNum entry d = (outcome, job', d')) :
    Leaves cwd dests single d job' d' := by
  have hmodify := hj.modifyTime hd
  have hd₁ := hmodify.diskOk hd
  unfold TransferJob.startFile at h
  rcases hpaths : ({ job with fileNum } : TransferJob).receivePaths p entry (job.modifyTime d)
    with ⟨path, digestPath, d₂⟩
  obtain ⟨hdirs, hin, hdp⟩ := receivePaths hd₁ hp hname hpaths
  have hmoved := hmodify.trans hdirs
  have hd₂ := hmoved.diskOk hd
  simp only [hpaths] at h
  split at h
  · cases h
    exact ⟨hmoved, hj.dest, hj.names, hmoved.held hj.held⟩
  · rename_i d₃ hremove
    have hmoved := hmoved.trans (removeDigest hd₂ hp hname hdp hremove)
    have hd₃ := hmoved.diskOk hd
    split at h
    · cases h
      exact ⟨hmoved, hj.dest, hj.names, hmoved.held hj.held⟩
    · rename_i handle d₄ hc
      obtain ⟨hcreate, hheld⟩ := moved_createFile hd₃ (inside_place hd₃ hin) hc
      have hmoved := hmoved.trans hcreate
      have hdigest : Moved cwd dests single d₄ d' := by
        cases h
        split
        · rename_i dp
          obtain rfl := hdp dp rfl
          exact Disk.Within.orSame fun h =>
            moved_writeFile (hmoved.diskOk hd) hp hname (.inr rfl) h
        · exact .refl d₄
      cases h
      exact ⟨hmoved.trans hdigest, hj.dest, hj.names, hdigest.held hheld⟩

theorem writeData (hj : JobOk cwd dests single d job) (z : Zstd)
    (block : FileTransferBlock) {outcome : Except JobError Unit} {job' : TransferJob}
    (h : job.writeData z block d = (outcome, job', d')) : Leaves cwd dests single d job' d' := by
  unfold TransferJob.writeData at h
  split at h
  · cases h
    exact ⟨.refl d, hj⟩
  · rename_i stream hstream
    have hheld := hj.held
    rw [hstream] at hheld
    dsimp only at h
    split at h
    · cases h
      exact ⟨.refl d, hj⟩
    · rename_i stream' d₁ hw
      cases h
      cases stream with
      | fileStream handle =>
        unfold TransferJob.writeStream at hw
        dsimp only at hw
        split at hw
        · rename_i handle' d₂ hwrite
          cases hw
          have hmoved : Moved cwd dests single d d' :=
            Disk.Within.writeAll (fun hq => confined_single rfl (hheld.2 hq)) hwrite
          refine ⟨hmoved, hj.dest, hj.names, ?_⟩
          have hino : handle'.ino = handle.ino := Disk.writeAll_ino hwrite
          have hheld' : Held cwd dests single d' (some (.fileStream handle)) := hmoved.held hheld
          exact ⟨hino ▸ hheld'.1, fun hq => hheld'.2 (hino ▸ hq)⟩
        · exact nomatch hw
      | bufStream data pos =>
        cases hw
        exact ⟨.refl d, hj.dest, hj.names, trivial⟩

theorem write (hj : JobOk cwd dests single d job) (hd : DiskOk cwd d) (z : Zstd)
    (block : FileTransferBlock) {outcome : Except JobError Unit} {job' : TransferJob}
    (h : job.write z block d = (outcome, job', d')) : Leaves cwd dests single d job' d' := by
  unfold TransferJob.write at h
  split at h
  · cases h
    exact ⟨.refl d, hj⟩
  · split at h
    · rename_i p hsource
      split at h
      · cases h
        exact ⟨.refl d, hj⟩
      · rename_i entry hentry
        have hp := hj.dest p hsource
        have hname := hj.names entry (List.mem_of_getElem? hentry)
        split at h
        · cases h
          have hmkdirs := moved_mkdirs hd hp hname
          exact ⟨hmkdirs, hj.dest, hj.names, hmkdirs.held hj.held⟩
        · split at h
          · split at h
            · rename_i hstart
              cases h
              exact hj.startFile hd hp _ hname hstart
            · rename_i job₁ d₁ hstart
              obtain ⟨hmoved, hj₁⟩ := hj.startFile hd hp _ hname hstart
              obtain ⟨hmoved', hj'⟩ := hj₁.writeData z block h
              exact ⟨hmoved.trans hmoved', hj'⟩
          · exact hj.writeData z block h
    · split at h
      · exact hj.writeData z block h
      · rename_i c _ _ _
        have hj' : JobOk cwd dests single d { job with dataStream := some (.bufStream c 0) } :=
          ⟨hj.dest, hj.names, trivial⟩
        exact hj'.writeData z block h

theorem setFiles (hj : JobOk cwd dests single d job) (hd : DiskOk cwd d) {files : List FileEntry}
    (hnames : ∀ entry ∈ files, NameOk single entry.name) :
    Leaves cwd dests single d (job.setFiles files d).1 (job.setFiles files d).2 := by
  have hmoved : Moved cwd dests single d (job.setFiles files d).2 := by
    unfold TransferJob.setFiles
    dsimp only
    split
    · rename_i p hsource
      refine moved_createMarkers hd (hj.dest p hsource) fun name hname => ?_
      obtain ⟨entry, hentry, rfl⟩ := List.mem_map.mp hname
      exact hnames entry hentry
    · exact .refl d
  exact ⟨hmoved, hj.dest, hnames, hmoved.held hj.held⟩

theorem setStreamOffset (hj : JobOk cwd dests single d job) (hd : DiskOk cwd d) {fileNum : Nat}
    {offset : Nat} {job' : TransferJob}
    (h : job.setStreamOffset fileNum offset d = some (job', d')) :
    Leaves cwd dests single d job' d' := by
  unfold TransferJob.setStreamOffset at h
  split at h
  · cases h
    exact ⟨.refl d, hj⟩
  · rename_i p hsource
    split at h
    · exact nomatch h
    · rename_i entry hentry
      have hp := hj.dest p hsource
      have hname := hj.names entry (List.mem_of_getElem? hentry)
      dsimp only at h
      split at h
      · cases h
        exact ⟨.refl d, hj⟩
      · rename_i handle d₁ hopen
        cases h
        have hopened : Moved cwd dests single d d' ∧
            Held cwd dests single d' (some (.fileStream handle)) := by
          split at hopen
          · exact moved_openWrite hd hp hname (.inl rfl) hopen
          · split at hopen
            · exact moved_openRead hd ⟨p, hp, .inl (prefix_join hname)⟩ hopen
            · exact nomatch hopen
        exact ⟨hopened.1, hj.dest, hj.names, hopened.2⟩

theorem confirm (hj : JobOk cwd dests single d job) (hd : DiskOk cwd d) {fileNum : Int}
    {union : Option TransferJob.Confirm} {job' : TransferJob}
    (h : job.confirm fileNum union d = some (job', d')) :
    Leaves cwd dests single d job' d' := by
  unfold TransferJob.confirm at h
  split at h
  · cases h
    exact ⟨.refl d, hj⟩
  · split at h
    · cases h
      exact ⟨.refl d, hj.dest, hj.names, trivial⟩
    · cases h
      exact ⟨.refl d, hj.dest, hj.names, hj.held⟩
    · rename_i offset
      dsimp only at h
      split at h
      · have hj' : JobOk cwd dests single d (job.setFileConfirmed true) :=
          ⟨hj.dest, hj.names, hj.held⟩
        exact hj'.setStreamOffset hd h
      · cases h
        exact ⟨.refl d, hj.dest, hj.names, hj.held⟩
    · cases h
      exact ⟨.refl d, hj⟩

end JobOk

/-! ## The jobs of a receiver -/

theorem getJob_mem {id : Int} {jobs : List TransferJob} {job : TransferJob}
    (h : getJob id jobs = some job) : job ∈ jobs :=
  List.mem_of_find?_eq_some h

theorem mem_setJob {id : Int} {job' job : TransferJob} {jobs : List TransferJob}
    (h : job ∈ setJob id job' jobs) : job = job' ∨ job ∈ jobs := by
  induction jobs with
  | nil => exact nomatch h
  | cons j jobs ih =>
    unfold setJob at h
    split_ifs at h
    · exact (List.mem_cons.mp h).imp_right (List.mem_cons_of_mem _)
    · rcases List.mem_cons.mp h with rfl | h
      · exact .inr List.mem_cons_self
      · exact (ih h).imp_right (List.mem_cons_of_mem _)

theorem removeJob_mem {id : Int} {jobs jobs' : List TransferJob} {job : Option TransferJob}
    (h : removeJob id jobs = (job, jobs')) : (∀ j ∈ job, j ∈ jobs) ∧ ∀ j ∈ jobs', j ∈ jobs := by
  cases h
  exact ⟨fun _ hj => getJob_mem hj, fun _ hj => List.mem_of_mem_eraseP hj⟩

/-- Every job of the receiver is as it has to be. -/
structure ReceiverOk (cwd : Place) (dests : PathStr → Prop) (single : Prop) (s : Receiver) :
    Prop where
  disk : DiskOk cwd s.disk
  jobs : ∀ job ∈ s.writeJobs, JobOk cwd dests single s.disk job

/-- What an operation brings may be used. -/
structure OpOk (dests : PathStr → Prop) (single : Prop) (op : Op) : Prop where
  dest : ∀ p ∈ op.dest, dests p
  names : ∀ name ∈ op.names, NameOk single name

namespace ReceiverOk

variable {cwd : Place} {dests : PathStr → Prop} {single : Prop} {s s' : Receiver}

/-- A job has been put back, and the disk has changed inside. -/
theorem set (hs : ReceiverOk cwd dests single s) (id : Int) {job' : TransferJob} {d' : Disk}
    (h : JobOk.Leaves cwd dests single s.disk job' d') :
    ReceiverOk cwd dests single
      { s with writeJobs := setJob id job' s.writeJobs, disk := d' } where
  disk := h.1.diskOk hs.disk
  jobs job hjob := by
    rcases mem_setJob hjob with rfl | hjob
    · exact h.2
    · exact h.1.jobOk (hs.jobs job hjob)

/-- A job has been taken out, and the disk has changed inside. -/
theorem remove (hs : ReceiverOk cwd dests single s) {id : Int} {job : Option TransferJob}
    {jobs' : List TransferJob} (hremove : removeJob id s.writeJobs = (job, jobs')) {d' : Disk}
    (h : Moved cwd dests single s.disk d') :
    ReceiverOk cwd dests single { s with writeJobs := jobs', disk := d' } where
  disk := h.diskOk hs.disk
  jobs j hj := h.jobOk (hs.jobs j ((removeJob_mem hremove).2 j hj))

/-- What one operation preserves, for `handle_fs`. -/
theorem handleFs (z : Zstd) (hs : ReceiverOk cwd dests single s) {fs : FS}
    (hop : OpOk dests single (.fs fs)) (h : s.handleFs z fs = some s') :
    ReceiverOk cwd dests single s' ∧ Moved cwd dests single s.disk s'.disk := by
  cases fs with
  | newWrite path id fileNum files overwriteDetection =>
    cases h
    have hp := hop.dest path rfl
    have hnames : ∀ name ∈ (files.map fun f =>
        ({ name := f.1, size := 0, modifiedTime := f.2 } : FileEntry)).map (·.name),
        NameOk single name := by
      rw [List.map_map]
      exact hop.names
    have hmoved := moved_createMarkers hs.disk hp hnames
    refine ⟨⟨hmoved.diskOk hs.disk, fun job hjob => ?_⟩, hmoved⟩
    rcases List.mem_append.mp hjob with hjob | hjob
    · exact hmoved.jobOk (hs.jobs job hjob)
    · obtain rfl := List.mem_singleton.mp hjob
      refine ⟨fun p hsource => ?_, fun entry hentry => ?_, trivial⟩
      · cases hsource
        exact hp
      · exact hnames _ (List.mem_map_of_mem hentry)
  | cancelWrite id =>
    unfold Receiver.handleFs at h
    dsimp only at h
    split at h
    · rename_i job jobs' hremove
      cases h
      have hjob := hs.jobs job ((removeJob_mem hremove).1 job rfl)
      have hmoved := hjob.removeDownloadFile hs.disk
      exact ⟨hs.remove hremove hmoved, hmoved⟩
    · cases h
      exact ⟨hs, .refl _⟩
  | writeDone id fileNum =>
    unfold Receiver.handleFs at h
    dsimp only at h
    split at h
    · rename_i job jobs' hremove
      cases h
      have hjob := hs.jobs job ((removeJob_mem hremove).1 job rfl)
      have hmoved := hjob.modifyTime hs.disk
      have hok := hs.remove hremove hmoved
      exact ⟨⟨hok.disk, hok.jobs⟩, hmoved⟩
    · cases h
      exact ⟨hs, .refl _⟩
  | writeError id fileNum err =>
    unfold Receiver.handleFs at h
    dsimp only at h
    split at h
    · rename_i job jobs' hremove
      cases h
      have hok := hs.remove hremove (.refl _)
      exact ⟨⟨hok.disk, hok.jobs⟩, .refl _⟩
    · cases h
      exact ⟨hs, .refl _⟩
  | writeBlock id fileNum data compressed =>
    unfold Receiver.handleFs at h
    dsimp only at h
    split at h
    · rename_i job hget
      rcases hwrite : job.write z { id, fileNum, data, compressed } s.disk with ⟨outcome, job', d'⟩
      have hleaves := (hs.jobs job (getJob_mem hget)).write hs.disk z _ hwrite
      have hok := hs.set id hleaves
      simp only [hwrite] at h
      split at h
      · cases h
        exact ⟨hok, hleaves.1⟩
      · cases h
        exact ⟨⟨hok.disk, hok.jobs⟩, hleaves.1⟩
    · cases h
      exact ⟨hs, .refl _⟩
  | checkDigest id fileNum fileSize lastModified isUpload check =>
    unfold Receiver.handleFs at h
    dsimp only at h
    split at h
    · rename_i job hget
      have hjob := hs.jobs job (getJob_mem hget)
      split at h
      · split at h
        · cases h
          have hleaves : JobOk.Leaves cwd dests single s.disk
              (job.setDigest fileSize lastModified) s.disk :=
            ⟨.refl _, hjob.dest, hjob.names, hjob.held⟩
          have hok := hs.set id hleaves
          exact ⟨⟨hok.disk, hok.jobs⟩, .refl _⟩
        · cases h
          exact ⟨⟨hs.disk, hs.jobs⟩, .refl _⟩
      · cases h
        exact ⟨hs, .refl _⟩
    · cases h
      exact ⟨hs, .refl _⟩
  | sendConfirm id fileNum union =>
    unfold Receiver.handleFs at h
    dsimp only at h
    split at h
    · rename_i job hget
      rw [Option.map_eq_some_iff] at h
      obtain ⟨⟨job', d'⟩, hconfirm, rfl⟩ := h
      have hleaves := (hs.jobs job (getJob_mem hget)).confirm hs.disk hconfirm
      exact ⟨hs.set id hleaves, hleaves.1⟩
    · cases h
      exact ⟨hs, .refl _⟩

/-- What one operation preserves. -/
theorem step (z : Zstd) (hs : ReceiverOk cwd dests single s) {op : Op} (hop : OpOk dests single op)
    (h : s.step z op = some s') :
    ReceiverOk cwd dests single s' ∧ Moved cwd dests single s.disk s'.disk := by
  cases op with
  | fs fs => exact hs.handleFs z hop h
  | dir id files =>
    unfold Receiver.step at h
    dsimp only at h
    split at h
    · rename_i job hget
      cases h
      have hnames : ∀ entry ∈ files, NameOk single entry.name :=
        fun entry hentry => hop.names _ (List.mem_map_of_mem hentry)
      have hleaves := (hs.jobs job (getJob_mem hget)).setFiles hs.disk hnames
      exact ⟨hs.set id hleaves, hleaves.1⟩
    · cases h
      exact ⟨hs, .refl _⟩

end ReceiverOk

/-! ## A run -/

/-- A destination named in a run. -/
def DestOf (ops : List Op) (p : PathStr) : Prop := ∃ op ∈ ops, op.dest = some p

/-- A run that has had an empty name. -/
def HasEmptyName (ops : List Op) : Prop := ∃ op ∈ ops, [] ∈ op.names

/-- **A receiver writes inside its destinations.** In every run from no jobs in which no name is
absolute or climbs, each access is to places at or below a destination of the run, or makes a
directory on the way to one, or, when there has been an empty name, is to the two files beside
a destination. -/
theorem writes_inside (z : Zstd) {start : Receiver} (hstart : start.writeJobs = [])
    (hinodes : start.disk.Inodes) {ops : List Op} {s : Receiver}
    (h : (receiving z start).Run ops s)
    (hnames : ∀ op ∈ ops, ∀ name ∈ op.names, Descends name) :
    ∃ accesses, s.disk.log = start.disk.log ++ accesses ∧
      ∀ a ∈ accesses, Confined start.disk.cwd (DestOf ops) (HasEmptyName ops) a := by
  have hops : ∀ op ∈ ops, OpOk (DestOf ops) (HasEmptyName ops) op := fun op hop =>
    { dest := fun p hp => ⟨op, hop, hp⟩
      names := fun name hname =>
        ⟨hnames op hop name hname, fun hempty => ⟨op, hop, hempty ▸ hname⟩⟩ }
  have hinv : ReceiverOk start.disk.cwd (DestOf ops) (HasEmptyName ops) s ∧
      Moved start.disk.cwd (DestOf ops) (HasEmptyName ops) start.disk s.disk := by
    refine (h.restrict hops).invariant (I := fun s =>
      ReceiverOk start.disk.cwd (DestOf ops) (HasEmptyName ops) s ∧
        Moved start.disk.cwd (DestOf ops) (HasEmptyName ops) start.disk s.disk) ?_ ?_
    · rintro s rfl
      exact ⟨⟨⟨rfl, hinodes⟩, fun job hjob => absurd (hstart ▸ hjob) List.not_mem_nil⟩, .refl _⟩
    · rintro s op s' ⟨hok, hmoved⟩ ⟨hop, hstep⟩
      obtain ⟨hok', hmoved'⟩ := hok.step z hop hstep
      exact ⟨hok', hmoved.trans hmoved'⟩
  exact hinv.2.log

/-! ## Examples -/

/-- A stored archive: nothing is smaller, nothing fails. -/
def storedZstd : Zstd := { compress := some, decodeAll := some }

/-- A receiver with the directory `/d`. -/
def receiverAtD : Receiver :=
  { writeJobs := [], disk := Disk.blank.put [['d']] .dir, sent := [] }

theorem inodes_receiverAtD : receiverAtD.disk.Inodes := Disk.inodes_blank.put_dir _

/-- One job with one file, received and done. -/
def oneFile (dest name : PathStr) : List Op :=
  [.fs (.newWrite dest 1 0 [(name, 0)] false), .fs (.writeBlock 1 0 [104, 105] false),
    .fs (.writeDone 1 0)]

/-- A job with a marker, a file below it and a second file, resumed in the middle. -/
def threeEntries : List Op :=
  [.fs (.newWrite ['/', 'd', '/', 't'] 7 0 [(['s', '/'], 0), (['s', '/', 'a'], 0), (['b'], 0)] true),
    .fs (.writeBlock 7 0 [] false), .fs (.sendConfirm 7 1 (some (.offsetBlk 0))),
    .fs (.writeBlock 7 1 [104] false), .fs (.writeBlock 7 2 [105] false),
    .fs (.sendConfirm 7 2 (some (.offsetBlk 1))), .fs (.writeBlock 7 2 [106] false),
    .fs (.writeDone 7 2)]

/-- Every name of the example descends, so it writes below `/d/t`. -/
theorem writes_inside_three : ∃ s, receiverAtD.run storedZstd threeEntries = some s ∧
    ∃ accesses, s.disk.log = receiverAtD.disk.log ++ accesses ∧
      ∀ a ∈ accesses, Confined receiverAtD.disk.cwd (DestOf threeEntries)
        (HasEmptyName threeEntries) a := by
  have hsome : (receiverAtD.run storedZstd threeEntries).isSome := by decide +kernel
  obtain ⟨s, hs⟩ := Option.isSome_iff_exists.mp hsome
  exact ⟨s, hs, writes_inside storedZstd rfl inodes_receiverAtD (run_receiving hs) (by decide)⟩

/-- Every access of a run is to places at or below `p`. -/
def AllBelow (start s : Receiver) (p : PathStr) : Prop :=
  ∀ a ∈ s.disk.log.drop start.disk.log.length, ∀ q ∈ a.places,
    resolve start.disk.cwd (parse p) <+: q

instance (start s : Receiver) (p : PathStr) : Decidable (AllBelow start s p) :=
  inferInstanceAs (Decidable (∀ a ∈ _, _))

/-- A run of the example receiver does not stay below `p`. -/
def Leaks (ops : List Op) (p : PathStr) : Prop :=
  ∃ s, (receiving storedZstd receiverAtD).Run ops s ∧ ¬ AllBelow receiverAtD s p

theorem leaks_of_run {ops : List Op} {p : PathStr}
    (h : (receiverAtD.run storedZstd ops).any fun s => ¬ AllBelow receiverAtD s p) :
    Leaks ops p := by
  obtain ⟨s, hs, hp⟩ := (Option.any_eq_true _ _).mp h
  exact ⟨s, run_receiving hs, of_decide_eq_true hp⟩

/-- Two jobs: the first receives into a directory that has the name of a file of the second on its
way in, and is still at it when the second is done. -/
def renamedUnder : List Op :=
  [.fs (.newWrite (['/', 'd', '/', 'f'] ++ downloadSuffix) 1 0 [(['x'], 0)] false),
    .fs (.writeBlock 1 0 [104] false), .fs (.newWrite ['/', 'd'] 2 0 [(['f'], 0)] false),
    .fs (.writeDone 2 0), .fs (.writeBlock 1 0 [105] false)]

/-- **Names can lead outside**, by climbing or by being absolute. Besides: a directory on the way
to the destination is made; an empty name writes beside the destination; and what one job does can
move what another still writes to. -/
theorem writes_outside :
    Leaks (oneFile ['/', 'd'] ['.', '.', '/', 'x']) ['/', 'd'] ∧
      Leaks (oneFile ['/', 'd'] ['/', 'x']) ['/', 'd'] ∧
      Leaks (oneFile ['/', 'e', '/', 'y'] ['x']) ['/', 'e', '/', 'y'] ∧
      Leaks (oneFile ['/', 'd', '/', 'y'] []) ['/', 'd', '/', 'y'] ∧
      (∃ s, (receiving storedZstd receiverAtD).Run renamedUnder s ∧
        s.disk.log.getLast? = some (.write [['d'], ['f'], 'x' :: downloadSuffix])) := by
  refine ⟨leaks_of_run ?_, leaks_of_run ?_, leaks_of_run ?_, leaks_of_run ?_, ?_⟩
  · decide +kernel
  · decide +kernel
  · decide +kernel
  · decide +kernel
  · have hlast : ((receiverAtD.run storedZstd renamedUnder).bind fun s => s.disk.log.getLast?) =
        some (.write [['d'], ['f'], 'x' :: downloadSuffix]) := by decide +kernel
    obtain ⟨s, hs, hw⟩ := Option.bind_eq_some_iff.mp hlast
    exact ⟨s, run_receiving hs, hw⟩

end HopToDesk.Transfer
