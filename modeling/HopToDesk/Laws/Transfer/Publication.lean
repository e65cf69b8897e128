import HopToDesk.Laws.Transfer.Writing

/-!
# When files get their names

A file is received under its `.download` path and is given its own name when a block of another
file starts. The law of this module: in a run whose calls of `write` all find what `WriteOk` asks,
each final path holds, after every call, what it held before the job, or all that the transfer
sends for that file.

The invariant follows the open file. While the job is at the entry it was opened for, it lies at
the `.download` path and holds what has arrived. Once the job has moved on it is there still, or is
complete under its own name. A start that fails leaves the old file open, and leaves what made it
fail (`Blocked`), so that while nothing is open no later block of that entry can start it in the
middle.

The condition is about three things the code does not look at: what a first block finds at the
`.download` path, where the open file is when a block goes on, and names that differ by a suffix.
-/

set_option autoImplicit false

namespace HopToDesk.Transfer

open Kit UnixPath

/-- A job, the disk as it was before it, and the transfer it receives. -/
structure Plan where
  z : Zstd
  id : Int
  p : PathStr
  files : List FileEntry
  disk : Disk
  blocks : List FileTransferBlock

namespace Plan

variable (P : Plan)

abbrev final (e : FileEntry) : Place := resolve P.disk.cwd (parse (finalPath P.p e))

abbrev download (e : FileEntry) : Place := resolve P.disk.cwd (parse (downloadPath P.p e))

abbrev digest (e : FileEntry) : Place := resolve P.disk.cwd (parse (digestPath P.p e))

abbrev Final (q : Place) : Prop := Transfer.Final P.disk.cwd P.p P.files q

abbrev Regular (i : Nat) (e : FileEntry) : Prop := Transfer.Regular P.files i e

abbrev Apart (i : Nat) (e : FileEntry) : Prop := Transfer.Apart P.disk.cwd P.p P.files i e

/-- Each final path holds what it held, or the whole file. -/
def Whole (d : Disk) : Prop :=
  ∀ i e, P.Regular i e → d.view (P.final e) = P.disk.view (P.final e) ∨
    d.view (P.final e) = some (.file (content P.z P.blocks i))

end Plan

/-- What stops an entry from being started. -/
def Blocked (p : PathStr) (d : Disk) (e : FileEntry) : Prop :=
  d.get (d.place (digestPath p e)) = some .dir ∨ d.get (d.place (downloadPath p e)) = some .dir ∨
    (d.get (site d.cwd (finalPath p e)) ≠ some .dir ∧
      ∀ {pp}, UnixPath.parent (parse (finalPath p e)) = some pp → d.Settled (visited d.cwd pp))

/-- The file that is open, and the entry it was opened for. -/
structure OpenFile (P : Plan) (s : Writing) (before : List FileTransferBlock) (h : Handle) (i : Nat)
    (e : FileEntry) : Prop where
  regular : P.Regular i e
  apart : P.Apart i e
  begun : ∃ b ∈ before, b.num = i
  writable : h.writable = true
  place : (asUsize s.job.fileNum = i ∧
      s.disk.get (P.download e) = some (.file h.ino (content P.z before i)) ∧
      h.offset = (content P.z before i).length) ∨
    (asUsize s.job.fileNum ≠ i ∧ ∀ {q data}, s.disk.get q = some (.file h.ino data) →
      q = P.download e ∨ (q = P.final e ∧ data = content P.z P.blocks i))

/-- What is open. -/
def StreamOk (P : Plan) (s : Writing) (before : List FileTransferBlock) : Prop :=
  match s.job.dataStream with
  | none => ∀ {e}, P.Regular (asUsize s.job.fileNum) e →
      (∃ b ∈ before, b.num = asUsize s.job.fileNum) → Blocked P.p s.disk e
  | some (.bufStream _ _) => False
  | some (.fileStream h) => ∃ i e, OpenFile P s before h i e

/-- The invariant of a run that has had the blocks `before`. -/
structure Inv (P : Plan) (s : Writing) (before : List FileTransferBlock) : Prop where
  id : s.job.id = P.id
  generic : s.job.jobType = .generic
  source : s.job.dataSource = .filePath P.p
  files : s.job.files = P.files
  cwd : s.disk.cwd = P.disk.cwd
  sound : s.disk.Sound
  whole : P.Whole s.disk
  last : ∀ b ∈ before, b.num < P.files.length → b.num ≤ asUsize s.job.fileNum ∧
    ∃ b' ∈ before, b'.num = asUsize s.job.fileNum
  stream : StreamOk P s before

/-! ## What has arrived -/

section Sorted

variable {id : Int} {blocks before : List FileTransferBlock} {b : FileTransferBlock}

/-- When a block of a later file comes, all of a file that has begun has arrived. -/
theorem content_complete (z : Zstd) (ht : IsTransfer id blocks) (hpre : before ++ [b] <+: blocks)
    {i : Nat} (hbegun : ∃ b' ∈ before, b'.num = i) (hne : b.num ≠ i) :
    content z before i = content z blocks i := by
  obtain ⟨rest, rfl⟩ := hpre
  obtain ⟨b', hb', rfl⟩ := hbegun
  have hsorted := ht.sorted
  rw [List.append_assoc, List.pairwise_append] at hsorted
  obtain ⟨-, hrest, hcross⟩ := hsorted
  have hlt : b'.num < b.num := lt_of_le_of_ne (hcross b' hb' b (by simp)) hne.symm
  rw [List.append_assoc, content_append, content_of_none z ([b] ++ rest), List.append_nil]
  intro c hc
  have hge : b.num ≤ c.num := by
    rcases List.mem_cons.mp hc with rfl | hc
    · exact le_rfl
    · exact (List.pairwise_cons.mp hrest).1 c hc
  omega

end Sorted

/-! ## Leaving an entry -/

section Leave

variable {P : Plan} {s : Writing} {before : List FileTransferBlock} {b : FileTransferBlock}

/-- Where the open file is. -/
theorem OpenFile.at_ {h : Handle} {i : Nat} {e : FileEntry} (ho : OpenFile P s before h i e)
    (hs : s.disk.Sound) {q : Place} {data : Content}
    (hq : s.disk.get q = some (.file h.ino data)) :
    q = P.download e ∨ (q = P.final e ∧ data = content P.z P.blocks i) := by
  rcases ho.place with ⟨-, hdownload, -⟩ | ⟨-, hplaces⟩
  · exact .inl (hs.inodes.inj hq hdownload)
  · exact hplaces hq

theorem Plan.Whole.congr {d d' : Disk} (h : P.Whole d)
    (hsame : ∀ q, P.Final q → d'.get q = d.get q) : P.Whole d' := by
  intro i e hr
  rw [Disk.view_of_get (hsame _ ⟨i, e, hr, rfl⟩)]
  exact h i e hr

/-- What finishing the entry before leaves. -/
structure Left (P : Plan) (s : Writing) (d₁ : Disk) : Prop where
  cwd : d₁.cwd = P.disk.cwd
  sound : d₁.Sound
  whole : P.Whole d₁
  there : ∀ {q}, P.Final q → s.disk.get q ≠ none → d₁.get q ≠ none

/-- The open file has stayed, or is complete under its own name. -/
def StillOpen (P : Plan) (s : Writing) (before : List FileTransferBlock) (d₁ : Disk) : Prop :=
  ∀ {h i e}, s.job.dataStream = some (.fileStream h) → OpenFile P s before h i e →
    ∀ {q data}, d₁.get q = some (.file h.ino data) →
      q = P.download e ∨ (q = P.final e ∧ data = content P.z P.blocks i)

theorem Inv.current_eq (hI : Inv P s before) :
    s.job.current = (P.files[asUsize s.job.fileNum]?).map (P.p, ·) := by
  unfold TransferJob.current
  rw [hI.generic, hI.source, hI.files]

/-- All but one place, which is no final path, is as it was. -/
theorem Inv.left_local (hI : Inv P s before) {d₁ : Disk} {q₀ : Place}
    (hlocal : Disk.Local s.disk d₁ q₀) (hfinal : ¬ P.Final q₀)
    (hfile : ∀ {i data}, d₁.get q₀ ≠ some (.file i data)) :
    Left P s d₁ ∧ StillOpen P s before d₁ := by
  have hsame (q : Place) (hq : P.Final q) : d₁.get q = s.disk.get q :=
    hlocal.others fun heq => hfinal (heq ▸ hq)
  refine ⟨⟨hlocal.cwd.trans hI.cwd, hlocal.sound hI.sound, hI.whole.congr hsame,
    fun hq hne => by rwa [hsame _ hq]⟩, ?_⟩
  intro h i e _ ho q data hq
  refine ho.at_ hI.sound ?_
  rw [← hlocal.others]
  · exact hq
  · rintro rfl
    exact hfile hq

/-- The file that was open for the entry has got its name, and all of it had arrived. -/
theorem Inv.left_published (hI : Inv P s before) (ht : IsTransfer P.id P.blocks)
    (hpre : before ++ [b] <+: P.blocks) {c : FileEntry}
    (hc : P.Regular (asUsize s.job.fileNum) c) (hapart : P.Apart (asUsize s.job.fileNum) c)
    {h : Handle} {data : Content} (hne : b.num ≠ asUsize s.job.fileNum)
    (hstream : s.job.dataStream = some (.fileStream h))
    (hdownload : s.disk.get (P.download c) = some (.file h.ino data)) {d₁ : Disk}
    (hpub : Published s.disk d₁ P.p c h.ino data) :
    Left P s d₁ ∧ StillOpen P s before d₁ := by
  have hstreamOk := hI.stream
  unfold StreamOk at hstreamOk
  rw [hstream] at hstreamOk
  obtain ⟨i, e, ho⟩ := hstreamOk
  -- the open file is that of the entry the job is at
  have hi : asUsize s.job.fileNum = i := by
    rcases ho.at_ hI.sound hdownload with hd | ⟨hf, -⟩
    · exact ho.apart.alone hc (final_eq_of_download hd)
    · exact absurd ⟨i, e, ho.regular, hf⟩ hapart.download
  subst hi
  obtain rfl : c = e := Option.some.inj (hc.1.symm.trans ho.regular.1)
  have hdata : data = content P.z P.blocks (asUsize s.job.fileNum) := by
    rcases ho.place with ⟨-, hget, -⟩ | ⟨hno, -⟩
    · rw [hdownload] at hget
      simp only [Option.some.injEq, Entry.file.injEq, true_and] at hget
      rw [hget]
      exact content_complete P.z ht hpre ho.begun hne
    · exact absurd rfl hno
  have hcwd := hI.cwd
  have hfinal : d₁.get (P.final c) = some (.file h.ino data) := by
    have hget := hpub.final
    rwa [Disk.place, hcwd] at hget
  have hothers {q : Place} (hf : q ≠ P.final c) (hq : P.Final q) : d₁.get q = s.disk.get q := by
    refine hpub.others ?_ ?_ ?_
    · rw [Disk.place, hcwd]
      exact hf
    · rw [Disk.place, hcwd]
      rintro rfl
      exact hapart.download hq
    · rw [Disk.place, hcwd]
      rintro rfl
      exact hapart.digest hq
  refine ⟨⟨hpub.cwd.trans hcwd, hpub.sound, ?_, ?_⟩, ?_⟩
  · intro j e' hr
    by_cases hj : P.final e' = P.final c
    · obtain rfl := hapart.alone hr hj
      refine .inr ?_
      rw [hj, Disk.view_file hfinal, hdata]
    · rw [Disk.view_of_get (hothers hj ⟨j, e', hr, rfl⟩)]
      exact hI.whole j e' hr
  · intro q hq hthere
    by_cases heq : q = P.final c
    · rw [heq, hfinal]
      exact Option.some_ne_none _
    · rwa [hothers heq hq]
  · intro h' i' e' hstream' ho' q data' hq
    obtain rfl : h = h' := by
      rw [hstream] at hstream'
      exact DataStream.fileStream.inj (Option.some.inj hstream')
    obtain rfl := hpub.sound.inodes.inj hq hfinal
    rw [hfinal] at hq
    simp only [Option.some.injEq, Entry.file.injEq, true_and] at hq
    -- both name the one entry
    have hi' : asUsize s.job.fileNum = i' := by
      rcases ho'.at_ hI.sound hdownload with hd | ⟨hf, -⟩
      · exact ho'.apart.alone hc (final_eq_of_download hd)
      · exact absurd ⟨i', e', ho'.regular, hf⟩ hapart.download
    subst hi'
    obtain rfl : c = e' := Option.some.inj (hc.1.symm.trans ho'.regular.1)
    exact .inr ⟨rfl, hq ▸ hdata⟩

/-- What finishing the entry before leaves, when the next start has found what it asks. -/
theorem Inv.left (hI : Inv P s before) (ht : IsTransfer P.id P.blocks)
    (hpre : before ++ [b] <+: P.blocks)
    (hstarts : b.num ≠ asUsize s.job.fileNum ∨ s.job.dataStream = none) {e : FileEntry}
    (hok : StartOk P.p s b.num e) :
    Left P s (s.job.modifyTime s.disk) ∧ StillOpen P s before (s.job.modifyTime s.disk) := by
  have hcur := hI.current_eq
  cases hc : P.files[asUsize s.job.fileNum]? with
  | none =>
    rw [hc] at hcur
    rw [modifyTime_none hcur]
    refine ⟨⟨hI.cwd, hI.sound, hI.whole, fun _ hne => hne⟩, ?_⟩
    intro h i e _ ho q data hq
    exact ho.at_ hI.sound hq
  | some c =>
    rw [hc] at hcur
    have hcur : s.job.current = some (P.p, c) := hcur
    have hlisted : s.job.files[asUsize s.job.fileNum]? = some c := hI.files ▸ hc
    have hdigest : ¬ P.Final (s.disk.place (digestPath P.p c)) := by
      have hno := hok.digest hlisted
      rwa [hI.cwd, hI.files] at hno
    have hfails (hfails : ∃ err, (withoutDigest P.p c s.disk).rename (downloadPath P.p c)
        (finalPath P.p c) = .error err) :
        Left P s (s.job.modifyTime s.disk) ∧ StillOpen P s before (s.job.modifyTime s.disk) := by
      refine hI.left_local (local_modifyTime hcur hfails) hdigest fun {i data} => ?_
      rw [get_modifyTime_fails hcur hfails]
      exact get_withoutDigest P.p c s.disk
    cases hmarker : isMarker c.name with
    | true =>
      have hsound := (local_withoutDigest P.p c s.disk).sound hI.sound
      exact hfails (rename_marker_fails hsound hmarker)
    | false =>
      obtain ⟨hapart, hpublishes⟩ := hok.publishes ⟨hlisted, hmarker⟩
      rw [hI.cwd, hI.files] at hapart
      rcases hpublishes with ⟨h, data, hstream, hstat⟩ | herr
      · rcases modifyTime_cases hI.sound hcur hstat with herr | hpub
        · exact hfails herr
        · have hne : b.num ≠ asUsize s.job.fileNum := by
            rcases hstarts with hne | hnone
            · exact hne
            · cases hstream.symm.trans hnone
          have hget := Disk.stat_file hstat
          rw [Disk.place, hI.cwd] at hget
          exact hI.left_published ht hpre ⟨hc, hmarker⟩ hapart hne hstream hget hpub
      · exact hfails herr

end Leave

/-! ## A start that fails -/

section Blocked

variable {p : PathStr} {e : FileEntry} {d d₁ d' : Disk}

/-- What made a start fail is there afterwards. -/
theorem StartFails.blocked (hs : d₁.Sound) (h : StartFails p e (withWay p e d₁) d') :
    Blocked p d' e := by
  have hlocal := h.spec.1
  have hs' := hlocal.sound (sound_withWay hs)
  have hplace (s : PathStr) : d'.place s = (withWay p e d₁).place s := by
    unfold Disk.place
    rw [hlocal.cwd]
  cases h with
  | digest hdir heq =>
    subst heq
    exact .inl hdir
  | create hremoved hfails =>
    rcases Disk.createFile_fails hfails (endsAsDir_download p e) with hdir | ⟨hnone, hno⟩
    · exact .inr (.inl hdir)
    · rw [dropLast_download] at hno
      rcases hremoved with rfl | ⟨i, data, hget, -⟩
      · refine .inr (.inr ⟨hno, fun {pp} hpp => ?_⟩)
        rw [cwd_withWay]
        unfold withWay
        rw [hpp]
        exact Disk.createDirs_settled _ _
      · -- the digest that was there lay in the missing directory
        have hparent := (sound_withWay hs).parents hget
        rw [dropLast_digest] at hparent
        refine absurd ?_ hno
        rw [hlocal.cwd, hlocal.others]
        · exact hparent
        · exact site_ne_digest _ _ _

/-- As long as it is there, every start fails. -/
theorem Blocked.not_started (hs : d.Sound) (hb : Blocked p d e)
    (hcwd : d₁.cwd = d.cwd) (hget : ∀ q, d₁.get q = (withoutDigest p e d).get q) {h : Handle}
    {digest : Content} : ¬ Started p e (withWay p e d₁) d' h digest := by
  rintro ⟨hnodir, d₂, d₃, hlocal, hc, -⟩
  have hcwd₁ : (withWay p e d₁).cwd = d.cwd := (cwd_withWay p e d₁).trans hcwd
  rw [Disk.place, hcwd₁] at hnodir hlocal
  have hcwd₂ : d₂.cwd = d.cwd := hlocal.cwd.trans hcwd₁
  have hcreate := (Disk.createFile_cases hc).2.2.2
  rw [Disk.place, hcwd₂] at hcreate
  have hdownload : d₂.get (resolve d.cwd (parse (downloadPath p e))) =
      (withWay p e d₁).get (resolve d.cwd (parse (downloadPath p e))) :=
    hlocal.others (download_ne_digest d.cwd p e e)
  rcases hb with hdir | hdir | ⟨hno, hsettled⟩
  · rw [withoutDigest_dir hdir] at hget
    exact hnodir (withWay_keeps ((hget _).trans hdir))
  · have hthere : d₂.get (resolve d.cwd (parse (downloadPath p e))) = some .dir := by
      refine hdownload.trans (withWay_keeps ((hget _).trans ?_))
      exact ((local_withoutDigest p e d).others (download_ne_digest d.cwd p e e)).trans hdir
    rcases hcreate with ⟨data, hfile, -⟩ | ⟨hnone, -, -, -⟩
    · cases hthere.symm.trans hfile
    · cases hthere.symm.trans hnone
  · have hempty {q : Place} (hq : q.dropLast = site d.cwd (finalPath p e)) : d.get q = none := by
      by_contra hne
      obtain ⟨entry, hentry⟩ := Option.ne_none_iff_exists'.mp hne
      exact hno (hq ▸ hs.parents hentry)
    rw [withoutDigest_none (hempty (dropLast_digest _ _ _))] at hget
    have hway : withWay p e d₁ = d₁ := by
      unfold withWay
      split
      · rename_i pp hpp
        unfold Disk.createDirAll
        rw [hcwd]
        exact Disk.createDirs_of_settled ((hsettled hpp).congr hget)
      · rfl
    rw [hway] at hlocal hdownload
    rcases hcreate with ⟨data, hfile, -⟩ | ⟨-, hparent, -, -⟩
    · rw [hdownload, hget, hempty (dropLast_download _ _ _)] at hfile
      cases hfile
    · rw [dropLast_download, hlocal.others, hget] at hparent
      · exact hno hparent
      · exact site_ne_digest _ _ _

end Blocked

/-! ## One call of `write` -/

section Step

variable {P : Plan} {s : Writing} {before : List FileTransferBlock} {b : FileTransferBlock}
  {e : FileEntry}

theorem num_le (ht : IsTransfer P.id P.blocks) (hpre : before ++ [b] <+: P.blocks) :
    ∀ b' ∈ before, b'.num ≤ b.num := by
  intro b' hb'
  have hsorted := ht.sorted.sublist hpre.sublist
  exact (List.pairwise_append.mp hsorted).2.2 b' hb' b List.mem_cons_self

theorem Regular.lt {files : List FileEntry} {i : Nat} (h : Regular files i e) :
    i < files.length :=
  (List.getElem?_eq_some_iff.mp h.1).1

/-- A block of a file that has begun finds the job at that file. -/
theorem Inv.num_of_begun (hI : Inv P s before) (ht : IsTransfer P.id P.blocks)
    (hpre : before ++ [b] <+: P.blocks) (hr : P.Regular b.num e)
    (hbegun : ∃ b' ∈ before, b'.num = b.num) : b.num = asUsize s.job.fileNum := by
  obtain ⟨b', hb', heq⟩ := hbegun
  obtain ⟨hle, b'', hb'', hnum⟩ := hI.last b' hb' (heq ▸ hr.lt)
  have hge := num_le ht hpre b'' hb''
  omega

theorem last_snoc (ht : IsTransfer P.id P.blocks) (hpre : before ++ [b] <+: P.blocks) :
    ∀ b' ∈ before ++ [b], b'.num < P.files.length → b'.num ≤ b.num ∧
      ∃ b'' ∈ before ++ [b], b''.num = b.num := by
  intro b' hb' _
  refine ⟨?_, b, by simp, rfl⟩
  rcases List.mem_append.mp hb' with hb' | hb'
  · exact num_le ht hpre b' hb'
  · rw [List.mem_singleton.mp hb']

theorem begun_snoc {i : Nat} (h : ∃ b' ∈ before, b'.num = i) :
    ∃ b' ∈ before ++ [b], b'.num = i := by
  obtain ⟨b', hb', hi⟩ := h
  exact ⟨b', List.mem_append_left _ hb', hi⟩

/-- The job has moved on, and the open file has stayed or is complete. -/
theorem OpenFile.moved {h : Handle} {i : Nat} (ho : OpenFile P s before h i e) {s' : Writing}
    (hnum : asUsize s'.job.fileNum ≠ i)
    (hplace : ∀ {q data}, s'.disk.get q = some (.file h.ino data) →
      q = P.download e ∨ (q = P.final e ∧ data = content P.z P.blocks i)) :
    OpenFile P s' (before ++ [b]) h i e :=
  ⟨ho.regular, ho.apart, begun_snoc ho.begun, ho.writable, .inr ⟨hnum, hplace⟩⟩

theorem Inv.unlisted (hI : Inv P s before) (h : P.files[b.num]? = none) :
    Inv P s (before ++ [b]) := by
  have hout : P.files.length ≤ b.num := List.getElem?_eq_none_iff.mp h
  refine { hI with last := ?_, stream := ?_ }
  · intro b' hb' hlt
    rcases List.mem_append.mp hb' with hb' | hb'
    · obtain ⟨hle, hlast⟩ := hI.last b' hb' hlt
      exact ⟨hle, begun_snoc hlast⟩
    · rw [List.mem_singleton.mp hb'] at hlt
      omega
  · have hstream := hI.stream
    unfold StreamOk at hstream ⊢
    split at hstream
    · rintro e hr ⟨b', hb', hnum⟩
      rcases List.mem_append.mp hb' with hb' | hb'
      · exact hstream hr ⟨b', hb', hnum⟩
      · have hlt := Regular.lt hr
        rw [List.mem_singleton.mp hb'] at hnum
        omega
    · exact hstream
    · obtain ⟨i, e, ho⟩ := hstream
      have hne : b.num ≠ i := by
        have hlt := Regular.lt ho.regular
        omega
      refine ⟨i, e, ho.regular, ho.apart, begun_snoc ho.begun, ho.writable, ?_⟩
      rw [content_snoc_of_ne P.z before hne]
      exact ho.place

theorem Inv.marker (hI : Inv P s before) (ht : IsTransfer P.id P.blocks)
    (hpre : before ++ [b] <+: P.blocks) (he : P.files[b.num]? = some e)
    (hmarker : isMarker e.name = true)
    (hclear : WayClear s.disk P.p P.files (parse (finalPath P.p e))) :
    Inv P ⟨{ s.job with fileNum := b.fileNum },
      (s.disk.createDirAll (parse (finalPath P.p e))).2⟩ (before ++ [b]) := by
  have hget := Disk.get_createDirs s.disk (visited s.disk.cwd (parse (finalPath P.p e)))
  have hfile {q : Place} {i : Nat} {data : Content}
      (h : (s.disk.createDirAll (parse (finalPath P.p e))).2.get q = some (.file i data)) :
      s.disk.get q = some (.file i data) := by
    rcases hget q with hq | ⟨-, -, hq⟩
    · exact hq.symm.trans h
    · cases hq.symm.trans h
  refine {
    id := hI.id
    generic := hI.generic
    source := hI.source
    files := hI.files
    cwd := (Disk.cwd_createDirAll _ _).trans hI.cwd
    sound := hI.sound.createDirAll _
    whole := hI.whole.congr fun q hq => ?_
    last := last_snoc ht hpre
    stream := ?_ }
  · rcases hget q with hsame | ⟨hvisited, hnone, -⟩
    · exact hsame
    · exact absurd hnone (hclear q hvisited (hI.cwd.symm ▸ hq))
  · have hstream := hI.stream
    unfold StreamOk at hstream ⊢
    dsimp only
    split at hstream
    · intro e' hr
      obtain rfl : e = e' := Option.some.inj (he.symm.trans hr.1)
      cases hmarker.symm.trans hr.2
    · exact hstream.elim
    · obtain ⟨i, e', ho⟩ := hstream
      refine ⟨i, e', ho.moved (fun hi => ?_) fun hq => ho.at_ hI.sound (hfile hq)⟩
      have hi : b.num = i := hi
      subst hi
      obtain rfl : e = e' := Option.some.inj (he.symm.trans ho.regular.1)
      cases hmarker.symm.trans ho.regular.2

/-- The disk once the entry before is finished and the way to this one is made. -/
theorem Inv.way (hI : Inv P s before) {d₁ : Disk} (hleft : Left P s d₁)
    (hway : ∀ {pp}, UnixPath.parent (parse (finalPath P.p e)) = some pp →
      WayClear s.disk P.p P.files pp) :
    (withWay P.p e d₁).cwd = P.disk.cwd ∧ (withWay P.p e d₁).Sound ∧
      P.Whole (withWay P.p e d₁) := by
  refine ⟨(cwd_withWay _ _ _).trans hleft.cwd, sound_withWay hleft.sound,
    hleft.whole.congr fun q hq => ?_⟩
  rcases get_withWay P.p e d₁ q with hsame | ⟨⟨pp, hpp, hvisited⟩, hnone, -⟩
  · exact hsame
  · rw [hleft.cwd, ← hI.cwd] at hvisited
    exact absurd hnone (hleft.there hq (hway hpp q hvisited (hI.cwd.symm ▸ hq)))

theorem Inv.start_fails (hI : Inv P s before) (ht : IsTransfer P.id P.blocks)
    (hpre : before ++ [b] <+: P.blocks) (hr : P.Regular b.num e) (hapart : P.Apart b.num e)
    (hstarts : b.num ≠ asUsize s.job.fileNum ∨ s.job.dataStream = none) {d₁ d' : Disk}
    (hleft : Left P s d₁) (hopen : StillOpen P s before d₁)
    (hway : (withWay P.p e d₁).cwd = P.disk.cwd ∧ (withWay P.p e d₁).Sound ∧
      P.Whole (withWay P.p e d₁)) (hfails : StartFails P.p e (withWay P.p e d₁) d') :
    Inv P ⟨{ s.job with fileNum := b.fileNum }, d'⟩ (before ++ [b]) := by
  obtain ⟨hcwd, hsound, hwhole⟩ := hway
  obtain ⟨hlocal, hfile⟩ := hfails.spec
  rw [Disk.place, hcwd] at hlocal
  refine {
    id := hI.id
    generic := hI.generic
    source := hI.source
    files := hI.files
    cwd := hlocal.cwd.trans hcwd
    sound := hlocal.sound hsound
    whole := hwhole.congr fun q hq => hlocal.others fun heq => hapart.digest (heq ▸ hq)
    last := last_snoc ht hpre
    stream := ?_ }
  have hstream := hI.stream
  unfold StreamOk at hstream ⊢
  dsimp only
  cases hs : s.job.dataStream with
  | none =>
    intro e' hr' _
    obtain rfl : e = e' := Option.some.inj (hr.1.symm.trans hr'.1)
    exact hfails.blocked hleft.sound
  | some stream =>
    rw [hs] at hstream
    cases stream with
    | bufStream data pos => exact hstream
    | fileStream h =>
      obtain ⟨i, e', ho⟩ := hstream
      refine ⟨i, e', ho.moved (fun hi => ?_) fun hq => ?_⟩
      · have hi : b.num = i := hi
        have hnum := hI.num_of_begun ht hpre hr (hi ▸ ho.begun)
        rcases hstarts with hne | hnone
        · exact hne hnum
        · cases hs.symm.trans hnone
      · exact hopen hs ho (withWay_file (hfile hq))

theorem Inv.started (hI : Inv P s before) (ht : IsTransfer P.id P.blocks)
    (hpre : before ++ [b] <+: P.blocks) (hr : P.Regular b.num e) (hapart : P.Apart b.num e)
    (hnew : content P.z before b.num = []) {d₁ d' : Disk}
    (hway : (withWay P.p e d₁).cwd = P.disk.cwd ∧ (withWay P.p e d₁).Sound ∧
      P.Whole (withWay P.p e d₁)) {h : Handle} {digest : Content}
    (hstarted : Started P.p e (withWay P.p e d₁) d' h digest) :
    ∃ job d'', ({ s.job with fileNum := b.fileNum, dataStream := some (.fileStream h) } :
        TransferJob).writeData P.z b d' = (.ok (), job, d'') ∧
      Inv P ⟨job, d''⟩ (before ++ [b]) := by
  obtain ⟨hcwd, hsound, hwhole⟩ := hway
  obtain ⟨hcwd', -, hsound', hoffset, hwritable, hdownload, hothers, -⟩ := hstarted.spec hsound
  simp only [Disk.place, hcwd] at hdownload hothers
  have hstream : ({ s.job with fileNum := b.fileNum, dataStream := some (.fileStream h) } :
      TransferJob).dataStream = some (.fileStream h) := rfl
  obtain ⟨d'', finishedSize, transferred, hw, hdata⟩ :=
    writeData_file P.z b d' hstream hwritable
  rw [Disk.writeAll_ok hwritable hsound'.inodes hdownload] at hw
  obtain ⟨-, hd''⟩ := Prod.mk.inj (Except.ok.inj hw)
  have hlocal : Disk.Local d' d'' (P.download e) := hd'' ▸ .put_file hdownload _
  refine ⟨_, _, hdata, {
    id := hI.id
    generic := hI.generic
    source := hI.source
    files := hI.files
    cwd := hlocal.cwd.trans (hcwd'.trans hcwd)
    sound := hlocal.sound hsound'
    whole := hwhole.congr fun q hq => ?_
    last := last_snoc ht hpre
    stream := ?_ }⟩
  · have hne : q ≠ P.download e := by
      rintro rfl
      exact hapart.download hq
    rw [hlocal.others hne, hothers hne]
    rintro rfl
    exact hapart.digest hq
  · refine ⟨b.num, e, hr, hapart, ⟨b, by simp, rfl⟩, hwritable, .inl ⟨rfl, ?_, ?_⟩⟩
    · rw [← hd'', content_snoc, hnew, hoffset]
      simp [Disk.splice]
    · rw [content_snoc, hnew, hoffset]
      simp

theorem Inv.start (hI : Inv P s before) (ht : IsTransfer P.id P.blocks)
    (hpre : before ++ [b] <+: P.blocks) (hid : b.id = s.job.id) (hr : P.Regular b.num e)
    (hstarts : b.num ≠ asUsize s.job.fileNum ∨ s.job.dataStream = none)
    (hok : StartOk P.p s b.num e) : Inv P (s.next P.z (.block b)) (before ++ [b]) := by
  obtain ⟨hleft, hopen⟩ := hI.left ht hpre hstarts hok
  have hapart : P.Apart b.num e := by
    have hapart := hok.apart
    rwa [hI.cwd, hI.files] at hapart
  have hway := hI.way hleft fun hpp => hI.files ▸ hok.way hpp
  have hlisted : Regular s.job.files b.num e := hI.files.symm ▸ hr
  have hwrite := write_start P.z s.disk hid hI.source hlisted hstarts
  unfold Writing.next
  dsimp only
  rcases startFile_cases hI.generic b.fileNum s.disk with
    ⟨err, d', hstart, hfails⟩ | ⟨h, d', hstart, hstarted⟩
  · rw [hwrite, hstart]
    exact hI.start_fails ht hpre hr hapart hstarts hleft hopen hway hfails
  · have hnew : content P.z before b.num = [] := by
      apply content_of_none
      intro b' hb' hnum
      have hat := hI.num_of_begun ht hpre hr ⟨b', hb', hnum⟩
      have hnone : s.job.dataStream = none := hstarts.resolve_left (not_not.mpr hat)
      have hblocked := hI.stream
      unfold StreamOk at hblocked
      rw [hnone] at hblocked
      have hblocked : Blocked P.p s.disk e := hblocked (hat ▸ hr) ⟨b', hb', hnum.trans hat⟩
      -- the entry is still the one the job is at, so nothing is given its name
      have hcur : s.job.current = some (P.p, e) := by
        rw [hI.current_eq, ← hat, hr.1]
        rfl
      have hrename := ((hok.publishes (hat ▸ hlisted)).2.resolve_left
        fun ⟨h, data, hsome, _⟩ => nomatch hnone.symm.trans hsome)
      refine hblocked.not_started hI.sound ?_ (get_modifyTime_fails hcur hrename) hstarted
      exact (local_modifyTime hcur hrename).cwd
    obtain ⟨job, d'', hdata, hI'⟩ := hI.started ht hpre hr hapart hnew hway hstarted
    rw [hwrite, hstart]
    dsimp only
    rw [hdata]
    exact hI'

/-- A block that goes on with the file the job is at. -/
theorem Inv.more (hI : Inv P s before) (ht : IsTransfer P.id P.blocks)
    (hpre : before ++ [b] <+: P.blocks) (hid : b.id = s.job.id) (hr : P.Regular b.num e)
    (hnum : b.num = asUsize s.job.fileNum) {h : Handle}
    (hopen : s.job.dataStream = some (.fileStream h))
    (hnot : ∀ {q data}, s.disk.get q = some (.file h.ino data) → ¬ P.Final q) :
    Inv P (s.next P.z (.block b)) (before ++ [b]) := by
  have hstream := hI.stream
  unfold StreamOk at hstream
  rw [hopen] at hstream
  obtain ⟨i, e', ho⟩ := hstream
  have hlisted : Regular s.job.files b.num e := hI.files.symm ▸ hr
  have hsome : s.job.dataStream ≠ none := by
    rw [hopen]
    exact Option.some_ne_none _
  have hwrite : s.job.write P.z b s.disk = s.job.writeData P.z b s.disk :=
    write_more hid hI.source hlisted hnum hsome
  obtain ⟨d', finishedSize, transferred, hw, hdata⟩ :=
    writeData_file P.z b s.disk hopen ho.writable
  have hnext : s.next P.z (.block b) = ⟨{ s.job with
      dataStream := some (.fileStream { h with
        offset := h.offset + (TransferJob.payload P.z b).length })
      finishedSize, transferred }, d'⟩ := by
    unfold Writing.next
    dsimp only
    rw [hwrite, hdata]
  rw [hnext]
  -- the bytes go to the `.download` path of the open file's entry, or nowhere
  have hlocal : Disk.Local s.disk d' (P.download e') := by
    obtain ⟨-, ⟨q, data, hq, rfl⟩ | ⟨rfl, -⟩⟩ := Disk.writeAll_cases hI.sound.inodes hw
    · rcases ho.at_ hI.sound hq with rfl | ⟨rfl, -⟩
      · exact .put_file hq _
      · exact absurd ⟨i, e', ho.regular, rfl⟩ (hnot hq)
    · exact .refl _ _
  refine {
    id := hI.id
    generic := hI.generic
    source := hI.source
    files := hI.files
    cwd := hlocal.cwd.trans hI.cwd
    sound := hlocal.sound hI.sound
    whole := hI.whole.congr fun q hq => hlocal.others ?_
    last := ?_
    stream := ⟨i, e', ho.regular, ho.apart, begun_snoc ho.begun, ho.writable, ?_⟩ }
  · rintro rfl
    exact ho.apart.download hq
  · dsimp only
    rw [← hnum]
    exact last_snoc ht hpre
  · rcases ho.place with ⟨hi, hget, hoffset⟩ | ⟨hi, hplaces⟩
    · have hi' : b.num = i := hnum.trans hi
      subst hi'
      rw [Disk.writeAll_ok ho.writable hI.sound.inodes hget] at hw
      obtain ⟨-, rfl⟩ := Prod.mk.inj (Except.ok.inj hw)
      refine .inl ⟨hi, ?_, ?_⟩
      · rw [content_snoc, hoffset]
        simp
      · rw [content_snoc, List.length_append, ← hoffset]
    · refine .inr ⟨hi, fun {q data} hq => .inl ?_⟩
      by_contra hne
      have hq' : s.disk.get q = some (.file h.ino data) := by rwa [hlocal.others hne] at hq
      rcases ho.at_ hI.sound hq' with heq | ⟨rfl, -⟩
      · exact hne heq
      · exact hnot hq' ⟨i, e', ho.regular, rfl⟩

/-- **What one call of `write` preserves.** -/
theorem Inv.write (hI : Inv P s before) (ht : IsTransfer P.id P.blocks)
    (hpre : before ++ [b] <+: P.blocks) (hok : WriteOk P.p s b) :
    Inv P (s.next P.z (.block b)) (before ++ [b]) := by
  have hid : b.id = s.job.id := by
    rw [hI.id]
    exact ht.ids b (hpre.subset (by simp))
  cases he : P.files[b.num]? with
  | none =>
    have hnext : s.next P.z (.block b) = s := by
      unfold Writing.next
      dsimp only
      rw [write_unlisted hid hI.source (hI.files.symm ▸ he)]
    rw [hnext]
    exact hI.unlisted he
  | some e =>
    have hlisted : s.job.files[b.num]? = some e := hI.files.symm ▸ he
    cases hmarker : isMarker e.name with
    | true =>
      unfold Writing.next
      dsimp only
      rw [write_marker hid hI.source hlisted hmarker]
      exact hI.marker ht hpre he hmarker (hI.files ▸ hok.marker hlisted hmarker)
    | false =>
      have hr : P.Regular b.num e := ⟨he, hmarker⟩
      by_cases hstarts : b.num ≠ asUsize s.job.fileNum ∨ s.job.dataStream = none
      · exact hI.start ht hpre hid hr hstarts (hok.start ⟨hlisted, hmarker⟩ hstarts)
      · obtain ⟨hnum, hsome⟩ := not_or.mp hstarts
        have hnum := not_not.mp hnum
        cases hopen : s.job.dataStream with
        | none => exact absurd hopen hsome
        | some stream =>
          cases stream with
          | bufStream data pos =>
            have hstream := hI.stream
            unfold StreamOk at hstream
            rw [hopen] at hstream
            exact hstream.elim
          | fileStream h =>
            refine hI.more ht hpre hid hr hnum hopen fun hq => ?_
            have hnot := hok.more ⟨hlisted, hmarker⟩ hnum hopen hq
            rwa [hI.cwd, hI.files] at hnot

end Step

/-! ## A run -/

/-- A new job of the plan, at any entry. -/
def Plan.start (P : Plan) (fileNum : Int) (enableOverwriteDetection : Bool) : Writing where
  job := .new P.id .generic (.filePath P.p) fileNum P.files enableOverwriteDetection
  disk := P.disk

theorem Inv.new {P : Plan} (hs : P.disk.Sound) (fileNum : Int) (overwrite : Bool) :
    Inv P (P.start fileNum overwrite) [] where
  id := rfl
  generic := rfl
  source := rfl
  files := rfl
  cwd := rfl
  sound := hs
  whole _ _ _ := .inl rfl
  last _ hb := nomatch hb
  stream := fun _ ⟨_, hb, _⟩ => nomatch hb

/-- A digest only waits to be written. -/
theorem Inv.digest {P : Plan} {s : Writing} {before : List FileTransferBlock}
    (hI : Inv P s before) (size modified : Nat) :
    Inv P (s.next P.z (.digest size modified)) before := by
  refine { hI with stream := ?_ }
  have hstream := hI.stream
  unfold StreamOk at hstream ⊢
  unfold Writing.next TransferJob.setDigest
  dsimp only
  split at hstream
  · intro e hr
    exact hstream hr
  · exact hstream
  · obtain ⟨i, e, ho⟩ := hstream
    exact ⟨i, e, ho.regular, ho.apart, ho.begun, ho.writable, ho.place⟩

/-- What a run preserves. -/
theorem Inv.run {P : Plan} (hs : P.disk.Sound) (ht : IsTransfer P.id P.blocks) {fileNum : Int}
    {overwrite : Bool} {events : List Event} {s : Writing}
    (h : ((Writing.system P.z (P.start fileNum overwrite)).restrict (EventOk P.p)).Run events s)
    (hpre : blocksOf events <+: P.blocks) : Inv P s (blocksOf events) := by
  induction h with
  | start h =>
    cases h
    exact .new hs fileNum overwrite
  | @snoc events s event s' _ hstep ih =>
    obtain ⟨hok, rfl⟩ := hstep
    cases event with
    | digest size modified =>
      have hsame : blocksOf (events ++ [.digest size modified]) = blocksOf events := by
        simp [blocksOf]
      rw [hsame] at hpre ⊢
      exact (ih hpre).digest size modified
    | block b =>
      have hmore : blocksOf (events ++ [.block b]) = blocksOf events ++ [b] := by simp [blocksOf]
      rw [hmore] at hpre ⊢
      exact (ih ((List.prefix_append _ _).trans hpre)).write ht hpre hok

/-- **Files are published whole.** In a run of a job whose calls of `write` all find what
`WriteOk` asks, and whose blocks are the first of a transfer, each final path of the list holds
after every call what it held before the job, or all that the transfer sends for the file; and the
file that is open, which may be a part, lies at a `.download` path unless it is complete. -/
theorem published_whole {P : Plan} (hs : P.disk.Sound) (ht : IsTransfer P.id P.blocks)
    {fileNum : Int} {overwrite : Bool} {events : List Event} {s : Writing}
    (h : ((Writing.system P.z (P.start fileNum overwrite)).restrict (EventOk P.p)).Run events s)
    (hpre : blocksOf events <+: P.blocks) :
    (∀ i e, P.Regular i e → s.disk.view (P.final e) = P.disk.view (P.final e) ∨
      s.disk.view (P.final e) = some (.file (content P.z P.blocks i))) ∧
    ∀ h q data, s.job.dataStream = some (.fileStream h) →
      s.disk.get q = some (.file h.ino data) → ∃ i e, P.Regular i e ∧
        (q = P.download e ∨ (q = P.final e ∧ data = content P.z P.blocks i)) := by
  have hI := Inv.run hs ht h hpre
  refine ⟨hI.whole, fun h q data hopen hq => ?_⟩
  have hstream := hI.stream
  unfold StreamOk at hstream
  rw [hopen] at hstream
  obtain ⟨i, e, ho⟩ := hstream
  exact ⟨i, e, ho.regular, ho.at_ hI.sound hq⟩

/-! ## Examples -/

/-- A block of job 1 with its bytes as they are. -/
def plainBlock (fileNum : Int) (data : Content) : FileTransferBlock :=
  { id := 1, fileNum, data, compressed := false }

/-- Two files, each in two blocks. -/
def twoFiles : List FileTransferBlock :=
  [plainBlock 0 [104], plainBlock 0 [105], plainBlock 1 [106], plainBlock 1 [107]]

/-- The files `a` and `b` come to the directory `/d` of a disk. -/
def planAt (disk : Disk) : Plan where
  z := { compress := some, decodeAll := some }
  id := 1
  p := ['/', 'd']
  files := [⟨['a'], 0, 0⟩, ⟨['b'], 0, 0⟩]
  disk
  blocks := twoFiles

theorem isTransfer_twoFiles : IsTransfer 1 twoFiles where
  ids := by decide
  sorted := by decide

def diskWithD : Disk := Disk.blank.withDir [['d']]

theorem sound_diskWithD : diskWithD.Sound := Disk.sound_blank.withDir rfl

/-- When the directory is empty every call finds what it asks for. -/
theorem published_whole_two : ∃ s,
    ((Writing.system (planAt diskWithD).z ((planAt diskWithD).start 0 true)).restrict
      (EventOk (planAt diskWithD).p)).Run (twoFiles.map Event.block) s ∧
    (∀ i e, (planAt diskWithD).Regular i e →
      s.disk.view ((planAt diskWithD).final e) = diskWithD.view ((planAt diskWithD).final e) ∨
        s.disk.view ((planAt diskWithD).final e) =
          some (.file (content (planAt diskWithD).z twoFiles i))) ∧
    ∀ h q data, s.job.dataStream = some (.fileStream h) →
      s.disk.get q = some (.file h.ino data) → ∃ i e, (planAt diskWithD).Regular i e ∧
        (q = (planAt diskWithD).download e ∨ (q = (planAt diskWithD).final e ∧
          data = content (planAt diskWithD).z twoFiles i)) := by
  have hsome : (((planAt diskWithD).start 0 true).checkedRun (planAt diskWithD).z
      (planAt diskWithD).p (twoFiles.map Event.block)).isSome := by decide +kernel
  obtain ⟨s, hs⟩ := Option.isSome_iff_exists.mp hsome
  have hrun := Writing.run_of_checkedRun (.start rfl) hs
  have hblocks : blocksOf (twoFiles.map Event.block) <+: (planAt diskWithD).blocks := by decide
  exact ⟨s, hrun, published_whole sound_diskWithD isTransfer_twoFiles hrun hblocks⟩

/-- An interrupted transfer has left `a.download`. -/
def diskWithStale : Disk := diskWithD.withFile [['d'], 'a' :: downloadSuffix] [120]

/-- There is a directory where the digest of `b` goes. -/
def diskWithDigestDir : Disk := diskWithD.withDir [['d'], 'b' :: digestSuffix]

theorem sound_diskWithStale : diskWithStale.Sound := sound_diskWithD.withFile rfl rfl

theorem sound_diskWithDigestDir : diskWithDigestDir.Sound := sound_diskWithD.withDir rfl

/-- After the first `n` blocks the final path of `a` shows something that neither was there nor
is what is sent. -/
def Torn (disk : Disk) (n : Nat) : Prop :=
  ∃ s, (Writing.system (planAt disk).z ((planAt disk).start 0 true)).Run
      ((twoFiles.take n).map Event.block) s ∧
    s.disk.view ((planAt disk).final ⟨['a'], 0, 0⟩) ≠
      disk.view ((planAt disk).final ⟨['a'], 0, 0⟩) ∧
    s.disk.view ((planAt disk).final ⟨['a'], 0, 0⟩) ≠
      some (.file (content (planAt disk).z twoFiles 0))

/-- **Not every run publishes whole files.** The first block gives a stale `.download` file its
final name; and where the second file cannot be started, its second block goes to the first file,
which has its final name by then. -/
theorem published_torn :
    (diskWithStale.Sound ∧ Torn diskWithStale 1) ∧
      (diskWithDigestDir.Sound ∧ Torn diskWithDigestDir 4) := by
  refine ⟨⟨sound_diskWithStale, _, Writing.run_foldl _ _ _, ?_, ?_⟩,
    ⟨sound_diskWithDigestDir, _, Writing.run_foldl _ _ _, ?_, ?_⟩⟩
  · decide +kernel
  · decide +kernel
  · decide +kernel
  · decide +kernel

end HopToDesk.Transfer
