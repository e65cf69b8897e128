import HopToDesk.Laws.Transfer.Writing
import HopToDesk.Transfer.Sending

/-!
# What a receiver leaves as it is

Whatever blocks a receiver is given, directories stay directories, files stay files but for the
temporary ones of the entries it comes to, and it makes no directories but those on the way to an
entry (`Kept`). This holds for every list that is `Plain`, also when the transfer goes wrong, and so
says what the receiver's disk has to be like before a transfer that goes well.
-/

set_option autoImplicit false

namespace HopToDesk.Transfer

open Kit UnixPath

theorem IsFile.congr {d d' : Disk} {q : Place} (hfile : IsFile d q) (h : d'.get q = d.get q) :
    IsFile d' q := by
  obtain ⟨i, data, hget⟩ := hfile
  exact ⟨i, data, h.trans hget⟩

namespace Trip

variable {T : Trip}

/-- A directory on the way to an entry that is not after the `n`th, or that of a marker. -/
def OnWay (T : Trip) (n : Nat) (q : Place) : Prop :=
  ∃ j e, j ≤ n ∧ T.Listed j e ∧ q <+: T.final e ∧ (isMarker e.name = false → q ≠ T.final e)

/-- A disk during a transfer. The places `K` are those whose files have to stay. -/
structure Kept (T : Trip) (K : Place → Prop) (n : Nat) (d : Disk) : Prop where
  cwd : d.cwd = T.disk.cwd
  sound : d.Sound
  dirs : ∀ {q}, T.disk.get q = some .dir → d.get q = some .dir
  files : ∀ {q}, K q → IsFile d q
  made : ∀ {q}, d.get q = some .dir → T.disk.get q = some .dir ∨ T.OnWay n q

/-- No temporary path from the `n`th entry on is to stay. -/
def Safe (T : Trip) (K : Place → Prop) (n : Nat) : Prop :=
  ∀ {j e}, n ≤ j → T.Listed j e → ¬ K (T.digest e) ∧ (isMarker e.name = false → ¬ K (T.download e))

variable {K : Place → Prop} {n m : Nat} {d d' : Disk} {e : FileEntry} {q : Place}

theorem Safe.mono (h : T.Safe K n) (hnm : n ≤ m) : T.Safe K m :=
  fun hj => h (hnm.trans hj)

theorem OnWay.mono (h : T.OnWay n q) (hnm : n ≤ m) : T.OnWay m q := by
  obtain ⟨j, e, hj, h⟩ := h
  exact ⟨j, e, hj.trans hnm, h⟩

theorem Kept.mono (h : T.Kept K n d) (hnm : n ≤ m) : T.Kept K m d :=
  { h with made := fun hq => (h.made hq).imp_right fun hway => hway.mono hnm }

/-! ## The paths of an entry -/

section Paths

variable (hv : T.Accepts)
include hv

theorem Accepts.finalPath_not_up (he : T.Listed n e) : .up ∉ (parse (finalPath T.p e)).comps := by
  have hname := hv.names he
  simp only [finalPath, TransferJob.join]
  split_ifs with hempty
  · exact hv.climbs
  · rw [comps_join T.p hname.1, List.mem_append, not_or]
    exact ⟨hv.climbs, hname.not_up⟩

/-- A file's final and temporary paths are in one directory. -/
theorem Accepts.final_eq (hr : T.Regular n e) :
    T.final e = site T.disk.cwd (finalPath T.p e) ++ [tip (finalPath T.p e)] :=
  resolve_file (hv.regular hr) _

theorem Accepts.download_not_prefix (hr : T.Regular n e) : ¬ T.download e <+: T.final e := by
  intro hpre
  apply download_ne_final T.disk.cwd T.p e
  apply hpre.eq_of_length
  have hdownload : T.download e = _ := resolve_download T.disk.cwd T.p e
  rw [hdownload, hv.final_eq hr, List.length_append, List.length_append]
  rfl

theorem Accepts.digest_not_prefix (hr : T.Regular n e) : ¬ T.digest e <+: T.final e := by
  intro hpre
  apply digest_ne_final T.disk.cwd T.p e
  apply hpre.eq_of_length
  have hdigest : T.digest e = _ := resolve_digest T.disk.cwd T.p e
  rw [hdigest, hv.final_eq hr, List.length_append, List.length_append]
  rfl

/-- The places on the way to a file are above it. -/
theorem Accepts.way_regular (hr : T.Regular n e) {pp : Parsed}
    (hpp : UnixPath.parent (parse (finalPath T.p e)) = some pp)
    (hq : q ∈ visited T.disk.cwd pp) : q <+: T.final e ∧ q ≠ T.final e := by
  have hsite : resolve T.disk.cwd pp = site T.disk.cwd (finalPath T.p e) := by
    obtain rfl := Option.some.inj ((parent_file (hv.regular hr)).symm.trans hpp)
    rfl
  have hup : .up ∉ pp.comps := by
    obtain rfl := Option.some.inj ((parent_file (hv.regular hr)).symm.trans hpp)
    have hnot := hv.finalPath_not_up hr.1
    rw [comps_eq, List.mem_append, not_or] at hnot
    exact hnot.1
  have hpre := visited_prefix hup hq
  rw [hsite] at hpre
  rw [hv.final_eq hr]
  refine ⟨hpre.trans (List.prefix_append _ _), fun heq => ?_⟩
  have hlen := hpre.length_le
  rw [heq, List.length_append, List.length_singleton] at hlen
  omega

theorem Accepts.way_marker (he : T.Listed n e) (hq : q ∈ visited T.disk.cwd (parse (finalPath T.p e))) :
    q <+: T.final e :=
  visited_prefix (hv.finalPath_not_up he) hq

end Paths

/-! ## What each operation keeps -/

section Operations

variable (hv : T.Accepts) (hp : T.Plain)

/-- A change at one place that may change. -/
theorem Kept.at (h : T.Kept K n d) {q₀ : Place} (hlocal : Disk.Local d d' q₀)
    (hdir : d.get q₀ = some .dir → d'.get q₀ = some .dir) (hfile : K q₀ → IsFile d' q₀) :
    T.Kept K n d' where
  cwd := hlocal.cwd.trans h.cwd
  sound := hlocal.sound h.sound
  dirs hq := by
    rename_i q
    by_cases heq : q = q₀
    · subst heq
      exact hdir (h.dirs hq)
    · exact (hlocal.others heq).trans (h.dirs hq)
  files hq := by
    rename_i q
    by_cases heq : q = q₀
    · subst heq
      exact hfile hq
    · exact (h.files hq).congr (hlocal.others heq)
  made hq := h.made (hlocal.dirs hq)

/-- Making directories on the way to an entry. -/
theorem Kept.mkdir (h : T.Kept K n d) (hnm : n ≤ m) {qs : List Place}
    (hsound : (d.createDirs qs).2.Sound) (hqs : ∀ q ∈ qs, T.OnWay m q) :
    T.Kept K m (d.createDirs qs).2 where
  cwd := (Disk.cwd_createDirs d qs).trans h.cwd
  sound := hsound
  dirs hq := Disk.createDirs_keeps (h.dirs hq)
  files hq := by
    obtain ⟨i, data, hget⟩ := h.files hq
    exact ⟨i, data, Disk.createDirs_keeps hget⟩
  made hq := by
    rename_i q
    rcases Disk.get_createDirs d qs q with hsame | ⟨hmem, -⟩
    · exact (h.made (hsame.symm.trans hq)).imp_right fun hway => hway.mono hnm
    · exact .inr (hqs q hmem)

theorem Kept.withWay (hv : T.Accepts) (h : T.Kept K n d) (hnm : n ≤ m) (hr : T.Regular m e) :
    T.Kept K m (withWay T.p e d) := by
  simp only [Transfer.withWay, parent_file (hv.regular hr)]
  apply h.mkdir hnm
  · exact h.sound.createDirAll _
  · intro q hq
    rw [h.cwd] at hq
    obtain ⟨hpre, hne⟩ := hv.way_regular hr (parent_file (hv.regular hr)) hq
    exact ⟨m, e, le_rfl, hr.1, hpre, fun _ => hne⟩

theorem Kept.marker (hv : T.Accepts) (h : T.Kept K n d) (hnm : n ≤ m) (he : T.Marker m e) :
    T.Kept K m (d.createDirAll (parse (finalPath T.p e))).2 := by
  apply h.mkdir hnm
  · exact h.sound.createDirAll _
  · intro q hq
    rw [h.cwd] at hq
    exact ⟨m, e, le_rfl, he.1, hv.way_marker he.1 hq, fun hno => nomatch he.2.symm.trans hno⟩

include hv hp in
/-- Where a file is received, there is no directory. -/
theorem Kept.vacant (h : T.Kept K n d) (hr : T.Regular n e) :
    d.get (T.download e) ≠ some .dir ∧ d.get (T.digest e) ≠ some .dir := by
  constructor
  · intro hdir
    rcases h.made hdir with hdir | ⟨j, e', hj, he', hpre, -⟩
    · exact (hp.vacant hr).1 hdir
    · rcases hj.lt_or_eq with hlt | rfl
      · exact (hp.unmade hr hlt he').1 hpre
      · obtain rfl := Option.some.inj (hr.1.symm.trans he')
        exact hv.download_not_prefix hr hpre
  · intro hdir
    rcases h.made hdir with hdir | ⟨j, e', hj, he', hpre, -⟩
    · exact (hp.vacant hr).2 hdir
    · rcases hj.lt_or_eq with hlt | rfl
      · exact (hp.unmade hr hlt he').2 hpre
      · obtain rfl := Option.some.inj (hr.1.symm.trans he')
        exact hv.digest_not_prefix hr hpre

theorem Kept.withoutDigest (h : T.Kept K n d) (hsafe : ¬ K (T.digest e)) :
    T.Kept K n (withoutDigest T.p e d) := by
  have hplace : d.place (digestPath T.p e) = T.digest e := by rw [Disk.place, h.cwd]
  refine h.at (local_withoutDigest T.p e d) (fun hdir => ?_) fun hK => ?_
  · rw [withoutDigest_dir hdir]
    exact hdir
  · rw [hplace] at hK
    exact absurd hK hsafe

include hv hp in
/-- Finishing the file the receiver is at. -/
theorem Kept.modifyTime (h : T.Kept K n d) {job : TransferJob} (he : T.Listed n e)
    (hcurrent : job.current = some (T.p, e)) (hsafe : T.Safe K n) :
    T.Kept K n (job.modifyTime d) := by
  obtain ⟨hdigest, hdownload⟩ := hsafe le_rfl he
  have hplace (s : PathStr) : d.place s = resolve T.disk.cwd (parse s) := by
    rw [Disk.place, h.cwd]
  have hfails (hfails : ∃ err, (Transfer.withoutDigest T.p e d).rename (downloadPath T.p e)
      (finalPath T.p e) = .error err) : T.Kept K n (job.modifyTime d) := by
    have hkept := h.withoutDigest hdigest
    have hget := get_modifyTime_fails hcurrent hfails
    have hlocal := local_modifyTime hcurrent hfails
    exact {
      cwd := hlocal.cwd.trans h.cwd
      sound := hlocal.sound h.sound
      dirs := fun hq => (hget _).trans (hkept.dirs hq)
      files := fun hq => (hkept.files hq).congr (hget _)
      made := fun hq => hkept.made ((hget _).symm.trans hq) }
  cases hmarker : isMarker e.name with
  | true =>
    exact hfails (rename_marker_fails ((local_withoutDigest T.p e d).sound h.sound) hmarker)
  | false =>
    have hr : T.Regular n e := ⟨he, hmarker⟩
    have hdown : d.get (d.place (downloadPath T.p e)) ≠ some .dir := by
      rw [hplace]
      exact (h.vacant hv hp hr).1
    cases hget : d.get (d.place (downloadPath T.p e)) with
    | none =>
      apply hfails
      have hnone : (Transfer.withoutDigest T.p e d).stat (downloadPath T.p e) = none := by
        have hlocal := local_withoutDigest T.p e d
        rw [Disk.stat_of_get (endsAsDir_download T.p e), Disk.place, hlocal.cwd, hlocal.others]
        · exact hget
        · exact download_ne_digest d.cwd T.p e e
      refine ⟨.notFound, ?_⟩
      simp only [Disk.rename, hnone]
    | some entry =>
      cases entry with
      | dir => exact absurd hget hdown
      | file i data =>
        have hstat : d.stat (downloadPath T.p e) = some (.file i data) := by
          rw [Disk.stat_of_get (endsAsDir_download T.p e)]
          exact hget
        rcases modifyTime_cases h.sound hcurrent hstat with herr | hpub
        · exact hfails herr
        · have hfinal := hpub.final
          have hvacant := hpub.vacant
          have hothers := @hpub.others
          simp only [hplace] at hfinal hvacant hothers
          refine ⟨hpub.cwd.trans h.cwd, hpub.sound, fun {q} hq => ?_, fun {q} hq => ?_,
            fun hq => h.made (hpub.dirs hq)⟩
          · have hdir := h.dirs hq
            by_cases hqg : q = T.digest e
            · subst hqg
              exact absurd hdir (h.vacant hv hp hr).2
            · rw [hothers _ _ hqg]
              · exact hdir
              · rintro rfl
                exact hvacant hdir
              · rintro rfl
                exact (h.vacant hv hp hr).1 hdir
          · by_cases hqf : q = T.final e
            · subst hqf
              exact ⟨i, data, hfinal⟩
            · refine (h.files hq).congr (hothers hqf ?_ ?_)
              · rintro rfl
                exact hdownload hmarker hq
              · rintro rfl
                exact hdigest hq

end Operations

/-! ## A run -/

/-- The receiver's job, at an entry. -/
structure JobAt (T : Trip) (n : Nat) (job : TransferJob) : Prop where
  id : job.id = T.id
  generic : job.jobType = .generic
  source : job.dataSource = .filePath T.p
  files : job.files = T.files
  num : job.fileNum = n

theorem JobAt.current {job : TransferJob} (h : T.JobAt n job) (he : T.Listed n e) :
    job.current = some (T.p, e) := by
  simp only [TransferJob.current, h.generic, h.source, h.files, h.num, asUsize_natCast, he]
  rfl

theorem JobAt.current_none {job : TransferJob} (h : T.JobAt n job) (hn : T.files[n]? = none) :
    job.current = none := by
  simp only [TransferJob.current, h.generic, h.source, h.files, h.num, asUsize_natCast, hn]
  rfl

theorem JobAt.regular {job : TransferJob} (h : T.JobAt n job) (hr : T.Regular m e) :
    Transfer.Regular job.files m e := by
  rw [h.files]
  exact hr

/-- An entry before a listed one is listed. -/
theorem listed_of_le (hnm : n ≤ m) (he : T.Listed m e) : ∃ e', T.Listed n e' := by
  have hlt := (List.getElem?_eq_some_iff.mp he).1
  exact ⟨_, List.getElem?_eq_getElem (hnm.trans_lt hlt)⟩

section Run

variable (hv : T.Accepts) (hp : T.Plain) {job : TransferJob} {b : FileTransferBlock}

theorem Kept.writeData (h : T.Kept K n d) (hat : T.JobAt n job) (z : Zstd) (b : FileTransferBlock) :
    T.JobAt n (job.writeData z b d).2.1 ∧ T.Kept K n (job.writeData z b d).2.2 := by
  simp only [TransferJob.writeData]
  split
  · exact ⟨hat, h⟩
  · rename_i stream hstream
    split
    · exact ⟨hat, h⟩
    · rename_i stream' d' hw
      refine ⟨⟨hat.id, hat.generic, hat.source, hat.files, hat.num⟩, ?_⟩
      cases stream with
      | bufStream data pos =>
        cases hw
        exact h
      | fileStream handle =>
        simp only [TransferJob.writeStream] at hw
        split at hw
        · rename_i handle' d'' hwrite
          cases hw
          obtain ⟨-, ⟨q, data, hq, rfl⟩ | ⟨rfl, -⟩⟩ := Disk.writeAll_cases h.sound.inodes hwrite
          · refine h.at (.put_file hq _) (fun hdir => nomatch hq.symm.trans hdir) fun _ => ?_
            exact ⟨_, _, Disk.get_put_self d q _⟩
          · exact h
        · exact nomatch hw

include hv hp in
/-- Starting a file, whether it goes well or not. -/
theorem Kept.startFile (h : T.Kept K m (job.modifyTime d)) (hat : T.JobAt n job)
    (hsafe : T.Safe K m) (hr : T.Regular m e) :
    T.JobAt m (job.startFile T.p m e d).2.1 ∧ T.Kept K m (job.startFile T.p m e d).2.2 := by
  have hway := h.withWay hv le_rfl hr
  have hplace (s : PathStr) :
      (Transfer.withWay T.p e (job.modifyTime d)).place s = resolve T.disk.cwd (parse s) := by
    rw [Disk.place, hway.cwd]
  obtain ⟨hdownload, hdigest⟩ := hway.vacant hv hp hr
  have hdigestK := (hsafe le_rfl hr.1).1
  rcases startFile_cases hat.generic m d (p := T.p) (e := e) with
    ⟨err, d', hstart, hfails⟩ | ⟨handle, d', hstart, hstarted⟩
  · rw [hstart]
    refine ⟨⟨hat.id, hat.generic, hat.source, hat.files, rfl⟩, ?_⟩
    have hlocal := hfails.spec.1
    rw [hplace] at hlocal
    exact hway.at hlocal (fun hdir => absurd hdir hdigest) fun hK => absurd hK hdigestK
  · rw [hstart]
    refine ⟨⟨hat.id, hat.generic, hat.source, hat.files, rfl⟩, ?_⟩
    obtain ⟨hcwd, -, hsound, -, -, hfile, hothers, hdirs⟩ := hstarted.spec hway.sound
    simp only [hplace] at hfile hothers
    refine ⟨hcwd.trans hway.cwd, hsound, fun {q} hq => ?_, fun {q} hq => ?_,
      fun hq => hway.made (hdirs hq)⟩
    · have hdir := hway.dirs hq
      rw [hothers]
      · exact hdir
      · rintro rfl
        exact hdownload hdir
      · rintro rfl
        exact hdigest hdir
    · by_cases hqt : q = T.download e
      · subst hqt
        exact ⟨_, _, hfile⟩
      · refine (hway.files hq).congr (hothers hqt ?_)
        rintro rfl
        exact hdigestK hq

include hv hp in
/-- **A block leaves what has to stay.** -/
theorem Kept.write (h : T.Kept K n d) (hat : T.JobAt n job) (hsafe : T.Safe K n) (hnm : n ≤ m)
    (he : T.Listed m e) (hid : b.id = T.id) (hnum : b.fileNum = m) :
    T.JobAt m (job.write T.z b d).2.1 ∧ T.Kept K m (job.write T.z b d).2.2 := by
  have hid' : b.id = job.id := hid.trans hat.id.symm
  have hnum' : b.num = m := by simp only [FileTransferBlock.num, hnum, asUsize_natCast]
  have hcur : asUsize job.fileNum = n := by rw [hat.num, asUsize_natCast]
  cases hmarker : isMarker e.name with
  | true =>
    rw [write_marker hid' hat.source (by rw [hat.files, hnum']; exact he) hmarker]
    exact ⟨⟨hat.id, hat.generic, hat.source, hat.files, hnum⟩, h.marker hv hnm ⟨he, hmarker⟩⟩
  | false =>
    have hr : T.Regular m e := ⟨he, hmarker⟩
    have hr' : Transfer.Regular job.files b.num e := hnum'.symm ▸ hat.regular hr
    by_cases hstarts : b.num ≠ asUsize job.fileNum ∨ job.dataStream = none
    · rw [write_start T.z d hid' hat.source hr' hstarts, hnum]
      obtain ⟨e', he'⟩ := listed_of_le hnm he
      have hfinished := (h.modifyTime hv hp he' (hat.current he') hsafe).mono hnm
      obtain ⟨hat', h'⟩ := hfinished.startFile hv hp hat (hsafe.mono hnm) hr
      split
      · rename_i err job' d' hstart
        rw [hstart] at hat' h'
        exact ⟨hat', h'⟩
      · rename_i job' d' hstart
        rw [hstart] at hat' h'
        exact h'.writeData hat' T.z b
    · obtain ⟨hsame, hopen⟩ := not_or.mp hstarts
      have hsame := not_not.mp hsame
      obtain rfl : n = m := by rw [← hnum', hsame, hcur]
      rw [write_more hid' hat.source hr' hsame hopen]
      exact h.writeData hat T.z b

end Run

end Trip

end HopToDesk.Transfer
