import HopToDesk.Laws.Transfer.Receiving

/-!
# Files that arrive

Between two entries the receiver's disk is as it should be (`Upto`), or all but the last file is,
which has all its bytes and waits for its name (`Filling`). The first block of another file gives it
the name, and so does the end of the job. The block of a marker does not: it moves the number on, and
no later step comes back to the file.

Not every entry need come: `B` says what is to arrive of each, and is `none` where nothing is.
-/

set_option autoImplicit false

namespace HopToDesk.Transfer

open Kit UnixPath

namespace Trip

variable {T : Trip} {B : Nat → Option Content} {K : Place → Prop} {n k : Nat} {d d' : Disk}
  {e : FileEntry} {q : Place} {s : Writing} {blocks : List FileTransferBlock}

/-- A receiver after some blocks. -/
def after (T : Trip) (s : Writing) (blocks : List FileTransferBlock) : Writing :=
  (blocks.map Event.block).foldl (Writing.next T.z) s

theorem after_append (blocks rest : List FileTransferBlock) :
    T.after s (blocks ++ rest) = T.after (T.after s blocks) rest := by
  simp only [after, List.map_append, List.foldl_append]

/-- The disk when the job is finished. -/
def finish (s : Writing) : Disk := s.job.modifyTime s.disk

theorem Accepts.safe (hv : T.Accepts) : T.Safe (IsFile T.disk) n := by
  intro j e _ he
  exact ⟨(hv.fresh he).2, fun _ => (hv.fresh he).1⟩

theorem Accepts.kept (hv : T.Accepts) : T.Kept (IsFile T.disk) n T.disk :=
  ⟨rfl, hv.sound, fun hq => hq, fun hq => hq, .inl⟩

/-! ## Between two entries -/

/-- What is to arrive of the entries before the `k`th is at the receiver, and the only new files are
theirs and those of `E`. -/
structure Upto (T : Trip) (B : Nat → Option Content) (k : Nat) (E : Place → Prop) (d : Disk) :
    Prop where
  kept : T.Kept (IsFile T.disk) k d
  only : ∀ {q}, IsFile d q →
    IsFile T.disk q ∨ (∃ j e, j < k ∧ T.Regular j e ∧ q = T.final e) ∨ E q
  published : ∀ {j e c}, j < k → T.Regular j e → B j = some c →
    d.view (T.final e) = some (.file c)
  markers : ∀ {j e}, j < k → T.Marker j e → B j ≠ none → d.get (T.final e) = some .dir

/-- No temporary file is there. -/
abbrev Before (T : Trip) (B : Nat → Option Content) (k : Nat) (d : Disk) : Prop :=
  T.Upto B k (fun _ => False) d

/-- The file `k` is open, and holds `c`. -/
structure Filling (T : Trip) (B : Nat → Option Content) (k : Nat) (e : FileEntry) (c : Content)
    (job : TransferJob) (d : Disk) : Prop where
  at_ : T.JobAt k job
  upto : T.Upto B k (fun q => q = T.download e ∨ q = T.digest e) d
  stream : ∃ h, job.dataStream = some (.fileStream h) ∧ h.writable = true ∧ h.offset = c.length ∧
    d.get (T.download e) = some (.file h.ino c)

/-- Nothing is to arrive of the entries from the `k`th to the `m`th. -/
theorem Upto.skip (h : T.Before B k d) {m : Nat} (hkm : k ≤ m)
    (hnone : ∀ i, k ≤ i → i < m → B i = none) : T.Before B m d where
  kept := h.kept.mono hkm
  only hq := (h.only hq).imp_right fun hq => hq.imp_left fun ⟨j, e, hj, hr⟩ =>
    ⟨j, e, hj.trans_le hkm, hr⟩
  published := by
    intro j e c hj hr hB
    by_cases hlt : j < k
    · exact h.published hlt hr hB
    · cases (hnone j (not_lt.mp hlt) hj).symm.trans hB
  markers := by
    intro j e hj he hB
    by_cases hlt : j < k
    · exact h.markers hlt he hB
    · exact absurd (hnone j (not_lt.mp hlt) hj) hB

section Fit

variable {E : Place → Prop} (hv : T.Accepts) (hp : T.Plain) (hroom : T.Room)

include hroom in
/-- No file's final path is a directory. -/
theorem Kept.final_not_dir (h : T.Kept K k d) (hr : T.Regular n e) :
    d.get (T.final e) ≠ some .dir := by
  intro hdir
  rcases h.made hdir with hdir | ⟨j, e', -, he', hpre, hne⟩
  · exact hroom.vacant hr hdir
  · by_cases hij : n = j
    · subst hij
      obtain rfl := Option.some.inj (hr.1.symm.trans he')
      exact hne hr.2 rfl
    · exact hroom.leaf hr he' hij hpre

include hroom in
/-- No file is in the way of the next entry. -/
theorem Upto.way (h : T.Before B k d) (he : T.Listed k e) (hpre : q <+: T.final e)
    (hq : q = T.final e → isMarker e.name = true) : ¬ IsFile d q := by
  intro hfile
  rcases h.only hfile with hold | ⟨j, e', hj, hr', rfl⟩ | hno
  · by_cases heq : q = T.final e
    · subst heq
      exact hroom.marker ⟨he, hq rfl⟩ hold
    · exact hroom.way he hpre heq hold
  · exact hroom.leaf hr' he hj.ne hpre
  · exact hno

include hv hroom in
/-- There is nothing to stop a file from being given its name. -/
theorem Filling.publishes {c : Content} {job : TransferJob} (h : T.Filling B k e c job d)
    (hr : T.Regular k e) : ∃ i, d.get (T.download e) = some (.file i c) ∧
      Published d (job.modifyTime d) T.p e i c := by
  obtain ⟨handle, -, -, -, hget⟩ := h.stream
  have hsound := h.upto.kept.sound
  have hcwd := h.upto.kept.cwd
  have hstat : d.stat (downloadPath T.p e) = some (.file handle.ino c) := by
    rw [Disk.stat_of_get (endsAsDir_download T.p e), Disk.place, hcwd]
    exact hget
  refine ⟨handle.ino, hget, (modifyTime_cases hsound (h.at_.current hr.1) hstat).resolve_left ?_⟩
  rintro ⟨err, herr⟩
  have hlocal := local_withoutDigest T.p e d
  have hstat' : (withoutDigest T.p e d).stat (downloadPath T.p e) = some (.file handle.ino c) := by
    rw [Disk.stat_of_get (endsAsDir_download T.p e), Disk.place, hlocal.cwd, hlocal.others, hcwd]
    · exact hget
    · exact download_ne_digest d.cwd T.p e e
  have hparent := (hlocal.sound hsound).parents (Disk.stat_file hstat')
  have hok := Disk.rename_file_ok hstat' (hv.regular hr) ?_ ?_ ?_
  · cases hok.symm.trans herr
  · exact download_ne_final _ T.p e
  · intro hdir
    have hdir := hlocal.dirs hdir
    rw [Disk.place, hlocal.cwd, hcwd] at hdir
    exact h.upto.kept.final_not_dir hroom hr hdir
  · rw [Disk.place, hlocal.cwd, hcwd] at hparent ⊢
    rw [dropLast_download] at hparent
    rw [resolve_file (hv.regular hr), List.dropLast_concat]
    exact hparent

include hv hp hroom in
/-- Finishing a file that is complete. -/
theorem Filling.finish {c : Content} {job : TransferJob} (h : T.Filling B k e c job d)
    (hr : T.Regular k e) (hc : ∀ c', B k = some c' → c = c') :
    T.Before B (k + 1) (job.modifyTime d) := by
  obtain ⟨i, hget, hpub⟩ := h.publishes hv hroom hr
  have hcurrent := h.at_.current hr.1
  have hkept := h.upto.kept
  have hcwd := hkept.cwd
  have hfinal := hkept.final_not_dir hroom hr
  have hat : (job.modifyTime d).get (T.final e) = some (.file i c) := by
    have hat := hpub.final
    rwa [Disk.place, hcwd] at hat
  have hgone : (job.modifyTime d).get (T.download e) = none := by
    have hgone := hpub.download
    rwa [Disk.place, hcwd] at hgone
  have hdigest : ¬ IsFile (job.modifyTime d) (T.digest e) := by
    rintro ⟨i, data, hfile⟩
    have hno := @hpub.digest i data
    rw [Disk.place, hcwd] at hno
    exact hno hfile
  have hothers {q : Place} (hf : q ≠ T.final e) (ht : q ≠ T.download e) (hg : q ≠ T.digest e) :
      (job.modifyTime d).get q = d.get q := by
    apply hpub.others <;> rw [Disk.place, hcwd] <;> assumption
  refine ⟨(hkept.modifyTime hv hp hr.1 hcurrent hv.safe).mono (Nat.le_succ k), fun {q} hq => ?_,
    fun {j e' c'} hj hr' hB => ?_, fun {j e'} hj he' hB => ?_⟩
  · by_cases hf : q = T.final e
    · exact .inr (.inl ⟨k, e, Nat.lt_succ_self k, hr, hf⟩)
    · have ht : q ≠ T.download e := by
        rintro rfl
        obtain ⟨i, data, hfile⟩ := hq
        cases hgone.symm.trans hfile
      have hg : q ≠ T.digest e := by
        rintro rfl
        exact hdigest hq
      rcases h.upto.only (hq.congr (hothers hf ht hg).symm) with hold | ⟨j, e', hj, hr', heq⟩ | htmp
      · exact .inl hold
      · exact .inr (.inl ⟨j, e', hj.trans (Nat.lt_succ_self k), hr', heq⟩)
      · exact absurd htmp (not_or.mpr ⟨ht, hg⟩)
  · rcases (Nat.lt_succ_iff.mp hj).lt_or_eq with hlt | rfl
    · have hf : T.final e' ≠ T.final e := fun heq => hlt.ne (hp.alone hr' hr.1 heq)
      obtain ⟨ht, hg⟩ := hroom.temporary hr hr'
      rw [Disk.view_of_get (hothers hf ht hg)]
      exact h.upto.published hlt hr' hB
    · obtain rfl := Option.some.inj (hr.1.symm.trans hr'.1)
      rw [Disk.view_file hat, hc c' hB]
  · have hlt : j < k := by
      rcases (Nat.lt_succ_iff.mp hj).lt_or_eq with hlt | rfl
      · exact hlt
      · obtain rfl := Option.some.inj (hr.1.symm.trans he'.1)
        cases hr.2.symm.trans he'.2
    have hdir := h.upto.markers hlt he' hB
    rw [hothers]
    · exact hdir
    · intro heq
      exact hfinal (heq ▸ hdir)
    · intro heq
      cases (heq ▸ hdir).symm.trans hget
    · intro heq
      exact (hkept.vacant hv hp hr).2 (heq ▸ hdir)

/-- The receiver is at no file: at a marker, or nothing has come yet. -/
def Idle (T : Trip) (k : Nat) (job : TransferJob) (d : Disk) : Prop :=
  (∃ j e, j < k ∧ T.Marker j e ∧ T.JobAt j job) ∨
    (d = T.disk ∧ job.dataStream = none ∧ ∃ n, T.JobAt n job)

include hv hp in
/-- Then there is nothing to finish. -/
theorem Upto.idle_entry {job : TransferJob} (h : T.Before B k d) (hidle : T.Idle k job d) :
    ∃ n, T.JobAt n job ∧ ∀ {e}, T.Listed n e → ¬ IsFile d (T.digest e) ∧
      ∃ err, d.rename (downloadPath T.p e) (finalPath T.p e) = .error err := by
  rcases hidle with ⟨j, e, -, he, hat⟩ | ⟨rfl, -, n, hat⟩
  · refine ⟨j, hat, fun {e'} he' => ?_⟩
    obtain rfl := Option.some.inj (he.1.symm.trans he')
    refine ⟨fun hfile => ?_, rename_marker_fails h.kept.sound he.2⟩
    rcases h.only hfile with hold | ⟨i, e', -, hr', heq⟩ | hno
    · exact (hv.fresh he.1).2 hold
    · refine hv.empty he hr' (heq ▸ ?_)
      have hdigest : T.digest e = _ := digest_marker he.2
      rw [hdigest]
      exact List.prefix_append _ _
    · exact hno
  · refine ⟨n, hat, fun {e} he => ⟨(hv.fresh he).2, ?_⟩⟩
    cases hmarker : isMarker e.name with
    | true => exact rename_marker_fails hv.sound hmarker
    | false =>
      have hstat : T.disk.stat (downloadPath T.p e) = none := by
        rw [Disk.stat_of_get (endsAsDir_download T.p e), Disk.place]
        cases hget : T.disk.get (T.download e) with
        | none => rfl
        | some entry =>
          cases entry with
          | dir => exact absurd hget (hp.vacant ⟨he, hmarker⟩).1
          | file i data => exact absurd ⟨i, data, hget⟩ (hv.fresh he).1
      refine ⟨.notFound, ?_⟩
      simp only [Disk.rename, hstat]

/-- With no digest and no rename, finishing changes nothing. -/
theorem Kept.modifyTime_same {job : TransferJob} (h : T.Kept K k d) (hat : T.JobAt n job)
    (hentry : ∀ {e}, T.Listed n e → ¬ IsFile d (T.digest e) ∧
      ∃ err, d.rename (downloadPath T.p e) (finalPath T.p e) = .error err) :
    (∀ q, (job.modifyTime d).get q = d.get q) ∧ (job.modifyTime d).cwd = d.cwd ∧
      (job.modifyTime d).Sound := by
  cases he : T.files[n]? with
  | none =>
    rw [modifyTime_none (hat.current_none he)]
    exact ⟨fun _ => rfl, rfl, h.sound⟩
  | some e =>
    obtain ⟨hdigest, hfails⟩ := hentry he
    have hcurrent := hat.current he
    have hwithout : Transfer.withoutDigest T.p e d = d := by
      cases hget : d.get (d.place (digestPath T.p e)) with
      | none => exact withoutDigest_none hget
      | some entry =>
        cases entry with
        | dir => exact withoutDigest_dir hget
        | file i data =>
          rw [Disk.place, h.cwd] at hget
          exact absurd ⟨i, data, hget⟩ hdigest
    have hfails : ∃ err, (Transfer.withoutDigest T.p e d).rename (downloadPath T.p e)
        (finalPath T.p e) = .error err := hwithout.symm ▸ hfails
    have hlocal := local_modifyTime hcurrent hfails
    refine ⟨fun q => ?_, hlocal.cwd, hlocal.sound h.sound⟩
    rw [get_modifyTime_fails hcurrent hfails, hwithout]

include hv hp in
theorem Upto.idle {job : TransferJob} (h : T.Before B k d) (hidle : T.Idle k job d) :
    T.Before B k (job.modifyTime d) := by
  obtain ⟨n, hat, hentry⟩ := h.idle_entry hv hp hidle
  obtain ⟨hget, hcwd, hsound⟩ := h.kept.modifyTime_same hat hentry
  refine ⟨⟨hcwd.trans h.kept.cwd, hsound, fun hq => (hget _).trans (h.kept.dirs hq),
    fun hq => (h.kept.files hq).congr (hget _), fun hq => h.kept.made ((hget _).symm.trans hq)⟩,
    fun hq => h.only (hq.congr (hget _).symm), fun hj hr hB => ?_,
    fun hj he hB => (hget _).trans (h.markers hj he hB)⟩
  rw [Disk.view_of_get (hget _)]
  exact h.published hj hr hB

/-! ## The blocks of one entry -/

/-- What comes up at places that are neither directories nor final paths. -/
theorem Upto.grow {E' : Place → Prop} (h : T.Upto B k E d) (hkept : T.Kept (IsFile T.disk) k d')
    (hweaker : ∀ {q}, E q → E' q) (hfile : ∀ {q}, IsFile d' q → IsFile d q ∨ E' q)
    (hkeeps : ∀ {q entry}, ¬ E' q → d.get q = some entry → d'.get q = some entry)
    (hfinal : ∀ {j e'}, T.Regular j e' → ¬ E' (T.final e'))
    (hdir : ∀ {q}, d.get q = some .dir → ¬ E' q) : T.Upto B k E' d' where
  kept := hkept
  only hq := by
    rcases hfile hq with hq | hq
    · exact (h.only hq).imp_right fun hq => hq.imp_right hweaker
    · exact .inr (.inr hq)
  published hj hr hB := by
    obtain ⟨i, hget⟩ := Disk.get_of_view_file (h.published hj hr hB)
    exact Disk.view_file (hkeeps (hfinal hr) hget)
  markers hj he hB := hkeeps (hdir (h.markers hj he hB)) (h.markers hj he hB)

include hroom in
/-- The temporary paths of a file are such places. -/
theorem Room.not_temporary (hr : T.Regular k e) {j : Nat} {e' : FileEntry} (hr' : T.Regular j e') :
    ¬ (T.final e' = T.download e ∨ T.final e' = T.digest e) := by
  obtain ⟨hdownload, hdigest⟩ := hroom.temporary hr hr'
  rintro (heq | heq)
  · exact hdownload heq
  · exact hdigest heq

include hv hp in
theorem Kept.not_temporary (h : T.Kept K k d) (hr : T.Regular k e) (hq : d.get q = some .dir) :
    ¬ (q = T.download e ∨ q = T.digest e) := by
  obtain ⟨hdownload, hdigest⟩ := h.vacant hv hp hr
  rintro (rfl | rfl)
  · exact hdownload hq
  · exact hdigest hq

include hv hp hroom in
/-- With the entries before it at the receiver, a file can be started. -/
theorem Upto.starts {job : TransferJob} (hat : T.JobAt n job) (h : T.Before B k (job.modifyTime d))
    (hr : T.Regular k e) : ∃ handle d', job.startFile T.p k e d =
        (.ok (), { job with fileNum := k, dataStream := some (.fileStream handle) }, d') ∧
      Started T.p e (withWay T.p e (job.modifyTime d)) d' handle job.digest.json := by
  have hway := h.kept.withWay hv le_rfl hr
  obtain ⟨hdownload, hdigest⟩ := hway.vacant hv hp hr
  have hplace (s : PathStr) :
      (withWay T.p e (job.modifyTime d)).place s = resolve T.disk.cwd (parse s) := by
    rw [Disk.place, hway.cwd]
  have hsite : (withWay T.p e (job.modifyTime d)).get (site T.disk.cwd (finalPath T.p e)) =
      some .dir := by
    simp only [withWay, parent_file (hv.regular hr)]
    have hdir := h.kept.sound.createDirAll_at ⟨isAbsolute (finalPath T.p e), stem (finalPath T.p e)⟩
      fun q hq i data hget => ?_
    · rw [h.kept.cwd] at hdir
      exact hdir
    · rw [h.kept.cwd] at hq
      obtain ⟨hpre, hne⟩ := hv.way_regular hr (parent_file (hv.regular hr)) hq
      exact h.way hroom hr.1 hpre (fun heq => absurd heq hne) ⟨i, data, hget⟩
  rcases startFile_cases hat.generic k d (p := T.p) (e := e) with
    ⟨err, d', -, hfails⟩ | ⟨handle, d', hstart, hstarted⟩
  · exfalso
    have hlocal := hfails.spec.1
    rw [hplace] at hlocal
    cases hfails with
    | digest hdir =>
      rw [hplace] at hdir
      exact hdigest hdir
    | create _ hcreate =>
      have hplace' (s : PathStr) : d'.place s = resolve T.disk.cwd (parse s) := by
        rw [Disk.place, hlocal.cwd, hway.cwd]
      rcases Disk.createFile_fails hcreate (endsAsDir_download T.p e) with hdir | ⟨-, hparent⟩
      · rw [hplace'] at hdir
        exact hdownload (hlocal.dirs hdir)
      · rw [hplace', dropLast_download, hlocal.others (site_ne_digest T.disk.cwd T.p e)] at hparent
        exact hparent hsite
  · exact ⟨handle, d', hstart, hstarted⟩

include hv hp hroom in
/-- Data for the open file. -/
theorem Filling.data {c : Content} {job : TransferJob} (h : T.Filling B k e c job d)
    (hr : T.Regular k e) (b : FileTransferBlock) :
    T.Filling B k e (c ++ TransferJob.payload T.z b) (job.writeData T.z b d).2.1
      (job.writeData T.z b d).2.2 := by
  obtain ⟨handle, hstream, hwritable, hoffset, hget⟩ := h.stream
  obtain ⟨d', finishedSize, transferred, hw, hdata⟩ := writeData_file T.z b d hstream hwritable
  obtain ⟨hat, hkept⟩ := h.upto.kept.writeData h.at_ T.z b
  rw [hdata] at hat hkept ⊢
  rw [Disk.writeAll_ok hwritable h.upto.kept.sound.inodes hget, hoffset, Disk.splice_end] at hw
  obtain ⟨-, rfl⟩ := Prod.mk.inj (Except.ok.inj hw)
  refine ⟨hat, h.upto.grow hkept (fun hq => hq) (fun {q} hq => ?_) (fun {q entry} hno hq => ?_)
    (hroom.not_temporary hr) (h.upto.kept.not_temporary hv hp hr), ⟨_, rfl, hwritable, ?_, ?_⟩⟩
  · by_cases heq : q = T.download e
    · exact .inr (.inl heq)
    · exact .inl (hq.congr (Disk.get_put_of_ne d heq _).symm)
  · rw [Disk.get_note, Disk.get_put_of_ne d (not_or.mp hno).1]
    exact hq
  · rw [hoffset, List.length_append]
  · exact Disk.get_put_self d _ _

/-- The receiver turns to the file `k`, which the entries before it have not opened. -/
structure Turn (T : Trip) (B : Nat → Option Content) (k : Nat) (s : Writing) : Prop where
  before : T.Before B k (s.job.modifyTime s.disk)
  job : ∃ n, T.JobAt n s.job ∧ (n ≠ k ∨ s.job.dataStream = none)

include hv hp hroom in
/-- **The first block of a file opens it.** -/
theorem Turn.first (h : T.Turn B k s) (hr : T.Regular k e) {b : FileTransferBlock} (hid : b.id = T.id)
    (hnum : b.fileNum = k) :
    T.Filling B k e (TransferJob.payload T.z b) (s.next T.z (.block b)).job
      (s.next T.z (.block b)).disk := by
  obtain ⟨n, hat, hstarts⟩ := h.job
  have hnum' : b.num = k := by simp only [FileTransferBlock.num, hnum, asUsize_natCast]
  have hr' : Transfer.Regular s.job.files b.num e := hnum'.symm ▸ hat.regular hr
  have hstarts' : b.num ≠ asUsize s.job.fileNum ∨ s.job.dataStream = none := by
    rw [hnum', hat.num, asUsize_natCast]
    exact hstarts.imp_left Ne.symm
  obtain ⟨handle, d', hstart, hstarted⟩ := h.before.starts hv hp hroom hat hr
  obtain ⟨hat', hkept'⟩ := h.before.kept.startFile hv hp hat hv.safe hr
  have hway := h.before.kept.withWay hv le_rfl hr
  have hplace (s' : PathStr) : (withWay T.p e (s.job.modifyTime s.disk)).place s' =
      resolve T.disk.cwd (parse s') := by
    rw [Disk.place, hway.cwd]
  obtain ⟨-, -, -, hoffset, hwritable, hfile, hothers, -⟩ := hstarted.spec hway.sound
  simp only [hplace] at hfile hothers
  rw [hstart] at hat' hkept'
  have hfilling : T.Filling B k e []
      { s.job with fileNum := k, dataStream := some (.fileStream handle) } d' := by
    refine ⟨hat', h.before.grow hkept' False.elim (fun {q} hq => ?_) (fun {q entry} hno hq => ?_)
      (hroom.not_temporary hr) (h.before.kept.not_temporary hv hp hr),
      ⟨handle, rfl, hwritable, hoffset, hfile⟩⟩
    · by_cases htmp : q = T.download e ∨ q = T.digest e
      · exact .inr htmp
      · obtain ⟨hqt, hqg⟩ := not_or.mp htmp
        obtain ⟨i, data, hget⟩ := hq
        rw [hothers hqt hqg] at hget
        exact .inl ⟨i, data, withWay_file hget⟩
    · obtain ⟨hqt, hqg⟩ := not_or.mp hno
      rw [hothers hqt hqg]
      exact withWay_keeps hq
  have hdata := hfilling.data hv hp hroom hr b
  rw [List.nil_append] at hdata
  have hwrite : s.job.write T.z b s.disk = ({ s.job with
      fileNum := k
      dataStream := some (.fileStream handle) } : TransferJob).writeData T.z b d' := by
    rw [write_start T.z s.disk (hid.trans hat.id.symm) hat.source hr' hstarts', hnum, hstart]
  simp only [Writing.next, hwrite]
  exact hdata

include hv hp hroom in
/-- A further block goes on with it. -/
theorem Filling.next {c : Content} (h : T.Filling B k e c s.job s.disk) (hr : T.Regular k e)
    {b : FileTransferBlock} (hid : b.id = T.id) (hnum : b.fileNum = k) :
    T.Filling B k e (c ++ TransferJob.payload T.z b) (s.next T.z (.block b)).job
      (s.next T.z (.block b)).disk := by
  have hnum' : b.num = k := by simp only [FileTransferBlock.num, hnum, asUsize_natCast]
  have hcur : b.num = asUsize s.job.fileNum := by rw [hnum', h.at_.num, asUsize_natCast]
  obtain ⟨handle, hstream, -⟩ := h.stream
  have hopen : s.job.dataStream ≠ none := by
    rw [hstream]
    exact Option.some_ne_none _
  have hwrite := write_more (z := T.z) (d := s.disk) (hid.trans h.at_.id.symm) h.at_.source
    (hnum'.symm ▸ h.at_.regular hr) hcur hopen
  simp only [Writing.next, hwrite]
  exact h.data hv hp hroom hr b

include hv hp hroom in
/-- **All the blocks of a file.** -/
theorem Turn.file (h : T.Turn B k s) (hr : T.Regular k e) (hne : blocks ≠ [])
    (hids : ∀ b ∈ blocks, b.id = T.id ∧ b.fileNum = k) :
    T.Filling B k e (blocks.flatMap (TransferJob.payload T.z)) (T.after s blocks).job
      (T.after s blocks).disk := by
  induction blocks using List.reverseRecOn with
  | nil => exact absurd rfl hne
  | append_singleton blocks b ih =>
    obtain ⟨hid, hnum⟩ := hids b (List.mem_append_right _ List.mem_cons_self)
    rw [after_append, List.flatMap_append, List.flatMap_singleton]
    by_cases hfirst : blocks = []
    · subst hfirst
      exact h.first hv hp hroom hr hid hnum
    · exact (ih hfirst fun b hb => hids b (List.mem_append_left _ hb)).next hv hp hroom hr hid hnum

/-- What the block of a marker does to a receiver. -/
theorem JobAt.markerBlock (hat : T.JobAt n s.job) (he : T.Marker k e) {b : FileTransferBlock}
    (hid : b.id = T.id) (hnum : b.fileNum = k) : T.JobAt k (s.next T.z (.block b)).job ∧
      (s.next T.z (.block b)).disk = (s.disk.createDirAll (parse (finalPath T.p e))).2 := by
  have hnum' : b.num = k := by simp only [FileTransferBlock.num, hnum, asUsize_natCast]
  have hwrite := write_marker (z := T.z) (d := s.disk) (hid.trans hat.id.symm) hat.source
    (by rw [hat.files, hnum']; exact he.1) he.2
  simp only [Writing.next, hwrite]
  exact ⟨⟨hat.id, hat.generic, hat.source, hat.files, hnum⟩, trivial⟩

include hv hroom in
/-- The block of a marker makes its directory. -/
theorem Upto.marker (h : T.Before B k d) (he : T.Marker k e) :
    T.Before B (k + 1) (d.createDirAll (parse (finalPath T.p e))).2 := by
  refine ⟨(h.kept.marker hv le_rfl he).mono (Nat.le_succ k), fun {q} hq => ?_,
    fun {j e' c} hj hr' hB => ?_, fun {j e'} hj he' hB => ?_⟩
  · obtain ⟨i, data, hget⟩ := hq
    rcases Disk.get_createDirs d (visited d.cwd (parse (finalPath T.p e))) q with
      hsame | ⟨-, -, hdir⟩
    · refine (h.only ⟨i, data, hsame.symm.trans hget⟩).imp_right fun hq => hq.imp_left ?_
      intro ⟨j, e', hj, hr', heq⟩
      exact ⟨j, e', hj.trans (Nat.lt_succ_self k), hr', heq⟩
    · exact nomatch hdir.symm.trans hget
  · have hlt : j < k := by
      refine (Nat.lt_succ_iff.mp hj).lt_of_ne ?_
      rintro rfl
      obtain rfl := Option.some.inj (he.1.symm.trans hr'.1)
      exact nomatch hr'.2.symm.trans he.2
    obtain ⟨i, hget⟩ := Disk.get_of_view_file (h.published hlt hr' hB)
    exact Disk.view_file (Disk.createDirs_keeps hget)
  · rcases (Nat.lt_succ_iff.mp hj).lt_or_eq with hlt | rfl
    · exact Disk.createDirs_keeps (h.markers hlt he' hB)
    · obtain rfl := Option.some.inj (he.1.symm.trans he'.1)
      have hdir := h.kept.sound.createDirAll_at (parse (finalPath T.p e)) fun q hq i data hget => ?_
      · rw [h.kept.cwd] at hdir
        exact hdir
      · rw [h.kept.cwd] at hq
        exact h.way hroom he.1 (hv.way_marker he.1 hq) (fun _ => he.2) ⟨i, data, hget⟩

end Fit

end Trip

end HopToDesk.Transfer
