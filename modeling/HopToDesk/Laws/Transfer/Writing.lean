import HopToDesk.Kit.DiskTree
import HopToDesk.Transfer.Writing

/-!
# What one call of `write` does to the disk

The three paths of an entry are never the same place, and the temporary ones tell entries apart as
well as their final paths do. On these rest the two laws this module is about: what `modify_time`
does, which either gives the file at the `.download` path its final name or leaves all but the
digest alone, and what `startFile` does after it.
-/

set_option autoImplicit false

namespace HopToDesk.Transfer

open Kit UnixPath

/-! ## What blocks carry -/

section Content

variable (z : Zstd) (blocks : List FileTransferBlock)

theorem content_append (blocks' : List FileTransferBlock) (i : Nat) :
    content z (blocks ++ blocks') i = content z blocks i ++ content z blocks' i := by
  unfold content
  rw [List.filter_append, List.flatMap_append]

theorem content_snoc (b : FileTransferBlock) :
    content z (blocks ++ [b]) b.num = content z blocks b.num ++ TransferJob.payload z b := by
  rw [content_append]
  simp [content]

theorem content_snoc_of_ne {b : FileTransferBlock} {i : Nat} (h : b.num ≠ i) :
    content z (blocks ++ [b]) i = content z blocks i := by
  rw [content_append]
  simp [content, h]

theorem content_of_none {i : Nat} (h : ∀ b ∈ blocks, b.num ≠ i) : content z blocks i = [] := by
  unfold content
  rw [List.filter_eq_nil_iff.mpr]
  · rfl
  · intro b hb
    simpa using h b hb

end Content

/-! ## The paths of an entry -/

section Paths

variable (cwd : Place) (p : PathStr) (e e' : FileEntry)

theorem resolve_download : resolve cwd (parse (downloadPath p e)) =
    site cwd (finalPath p e) ++ [tip (finalPath p e) ++ downloadSuffix] :=
  resolve_suffix cwd _ (by decide) (by decide)

theorem resolve_digest : resolve cwd (parse (digestPath p e)) =
    site cwd (finalPath p e) ++ [tip (finalPath p e) ++ digestSuffix] :=
  resolve_suffix cwd _ (by decide) (by decide)

theorem endsAsDir_download : endsAsDir (downloadPath p e) = false :=
  endsAsDir_suffix _ (by decide) (by decide)

theorem endsAsDir_digest : endsAsDir (digestPath p e) = false :=
  endsAsDir_suffix _ (by decide) (by decide)

theorem dropLast_download : (resolve cwd (parse (downloadPath p e))).dropLast =
    site cwd (finalPath p e) := by
  rw [resolve_download, List.dropLast_concat]

theorem dropLast_digest : (resolve cwd (parse (digestPath p e))).dropLast =
    site cwd (finalPath p e) := by
  rw [resolve_digest, List.dropLast_concat]

theorem site_ne_digest : site cwd (finalPath p e) ≠ resolve cwd (parse (digestPath p e)) := by
  rw [resolve_digest]
  intro h
  simpa using congrArg List.length h

theorem download_ne_digest : resolve cwd (parse (downloadPath p e)) ≠
    resolve cwd (parse (digestPath p e')) := by
  intro h
  rw [resolve_download, resolve_digest] at h
  have hlast := (List.append_inj' h rfl).2
  have hends := congrArg List.getLast? (List.singleton_injective hlast)
  simp [downloadSuffix, digestSuffix] at hends

/-- A suffix changes what a path names. -/
theorem suffix_ne_final {suffix : PathStr} (hne : suffix ≠ []) (s : PathStr) :
    site cwd s ++ [tip s ++ suffix] ≠ resolve cwd (parse s) := by
  intro h
  rw [resolve_site] at h
  cases hcomp : toComp (tip s) with
  | none =>
    rw [hcomp] at h
    have hlen := congrArg List.length h
    simp at hlen
  | some c =>
    rw [hcomp] at h
    cases c with
    | up =>
      have hlen := congrArg List.length h
      simp [walk] at hlen
      omega
    | name n =>
      have hn : n = tip s := by
        unfold toComp at hcomp
        split_ifs at hcomp
        · cases hcomp
        · exact (Comp.name.inj (Option.some.inj hcomp)).symm
      have hlast := (List.append_inj' h rfl).2
      have heq := List.singleton_injective hlast
      rw [hn] at heq
      exact hne (List.append_right_eq_self.mp heq)

theorem download_ne_final :
    resolve cwd (parse (downloadPath p e)) ≠ resolve cwd (parse (finalPath p e)) := by
  rw [resolve_download]
  exact suffix_ne_final cwd (by decide) _

theorem digest_ne_final :
    resolve cwd (parse (digestPath p e)) ≠ resolve cwd (parse (finalPath p e)) := by
  rw [resolve_digest]
  exact suffix_ne_final cwd (by decide) _

variable {cwd p e e'}

/-- Entries with one temporary path have one final path. -/
theorem final_eq_of_download
    (h : resolve cwd (parse (downloadPath p e)) = resolve cwd (parse (downloadPath p e'))) :
    resolve cwd (parse (finalPath p e)) = resolve cwd (parse (finalPath p e')) := by
  rw [resolve_download, resolve_download] at h
  obtain ⟨hsite, htip⟩ := List.append_inj' h rfl
  have htip := List.append_cancel_right (List.singleton_injective htip)
  rw [resolve_site, resolve_site, hsite, htip]

/-- The name of a marker ends in a slash, and so does its path. -/
theorem tip_marker (h : isMarker e.name = true) : tip (finalPath p e) = [] := by
  have hlast : e.name.getLast? = some '/' := of_decide_eq_true h
  obtain ⟨name, hname⟩ := List.getLast?_eq_some_iff.mp hlast
  have hpath : ∃ before, finalPath p e = before ++ ['/'] := by
    unfold finalPath TransferJob.join
    rw [if_neg (by rw [hname]; exact List.append_ne_nil_of_right_ne_nil _ (List.cons_ne_nil _ _)),
      hname]
    unfold join
    split_ifs
    · exact ⟨name, rfl⟩
    · exact ⟨p ++ name, (List.append_assoc _ _ _).symm⟩
    · exact ⟨p ++ '/' :: name, by simp⟩
  obtain ⟨before, hpath⟩ := hpath
  unfold tip
  simp only [hpath, pieces_append_slash before []]
  exact List.getLast_append_of_ne_nil _ (List.cons_ne_nil _ _)

/-- What would be given a marker's name is below it. -/
theorem download_marker (h : isMarker e.name = true) :
    resolve cwd (parse (downloadPath p e)) =
      resolve cwd (parse (finalPath p e)) ++ [downloadSuffix] := by
  rw [resolve_download, resolve_site, tip_marker h]
  rfl

theorem digest_marker (h : isMarker e.name = true) :
    resolve cwd (parse (digestPath p e)) =
      resolve cwd (parse (finalPath p e)) ++ [digestSuffix] := by
  rw [resolve_digest, resolve_site, tip_marker h]
  rfl

end Paths

/-! ## Finishing a file -/

section Finish

variable {d d' : Disk} {p : PathStr} {e : FileEntry} {job : TransferJob}

/-- The disk once the digest is gone, or would be. -/
def withoutDigest (p : PathStr) (e : FileEntry) (d : Disk) : Disk :=
  d.orSame (d.removeFile (digestPath p e))

theorem modifyTime_eq (h : job.current = some (p, e)) (d : Disk) :
    job.modifyTime d =
      let d₁ := withoutDigest p e d
      let d₂ := d₁.orSame (d₁.rename (downloadPath p e) (finalPath p e))
      d₂.orSame (d₂.setFileMtime (finalPath p e)) := by
  unfold TransferJob.modifyTime
  rw [h]
  rfl

theorem modifyTime_none (h : job.current = none) (d : Disk) : job.modifyTime d = d := by
  unfold TransferJob.modifyTime
  rw [h]

theorem local_withoutDigest (p : PathStr) (e : FileEntry) (d : Disk) :
    Disk.Local d (withoutDigest p e d) (d.place (digestPath p e)) :=
  .orSame fun h => .removeFile h

/-- Afterwards there is no digest, or a directory in its place. -/
theorem get_withoutDigest (p : PathStr) (e : FileEntry) (d : Disk) {i : Nat} {data : Content} :
    (withoutDigest p e d).get (d.place (digestPath p e)) ≠ some (.file i data) := by
  intro hget
  have hends := endsAsDir_digest p e
  unfold withoutDigest at hget
  rcases Disk.orSame_cases d (d.removeFile (digestPath p e)) with hsame | hok
  · rw [hsame] at hget
    have hstat : d.stat (digestPath p e) = some (.file i data) := by
      rw [Disk.stat_of_get hends]
      exact hget
    rw [Disk.removeFile_ok hstat] at hsame
    have hnone := Disk.get_drop_self d (d.place (digestPath p e))
    have hsome := (congrArg (fun d' => Disk.get d' (d.place (digestPath p e))) hsame).trans hget
    exact nomatch hnone.symm.trans hsome
  · obtain ⟨_, _, _, heq⟩ := Disk.removeFile_cases hok
    rw [heq, Disk.get_note, Disk.get_drop_self] at hget
    exact nomatch hget

/-- A directory in its place stays. -/
theorem withoutDigest_dir (h : d.get (d.place (digestPath p e)) = some .dir) :
    withoutDigest p e d = d := by
  unfold withoutDigest
  rcases Disk.orSame_cases d (d.removeFile (digestPath p e)) with hsame | hok
  · exact hsame
  · obtain ⟨i, data, hget, -⟩ := Disk.removeFile_cases hok
    exact nomatch h.symm.trans hget

theorem withoutDigest_none (h : d.get (d.place (digestPath p e)) = none) :
    withoutDigest p e d = d := by
  unfold withoutDigest
  rcases Disk.orSame_cases d (d.removeFile (digestPath p e)) with hsame | hok
  · exact hsame
  · obtain ⟨i, data, hget, -⟩ := Disk.removeFile_cases hok
    exact nomatch h.symm.trans hget

/-- When the rename fails, finishing a file takes its digest away and nothing else. -/
theorem get_modifyTime_fails (h : job.current = some (p, e))
    (hfails : ∃ err, (withoutDigest p e d).rename (downloadPath p e) (finalPath p e) = .error err)
    (q : Place) : (job.modifyTime d).get q = (withoutDigest p e d).get q := by
  obtain ⟨err, hfails⟩ := hfails
  rw [modifyTime_eq h]
  simp only [hfails]
  exact Disk.get_setFileMtime _ _ q

theorem local_modifyTime (h : job.current = some (p, e))
    (hfails : ∃ err, (withoutDigest p e d).rename (downloadPath p e) (finalPath p e) = .error err) :
    Disk.Local d (job.modifyTime d) (d.place (digestPath p e)) := by
  obtain ⟨err, hfails⟩ := hfails
  rw [modifyTime_eq h]
  simp only [hfails]
  exact (local_withoutDigest p e d).trans (.orSame fun hm => .setFileMtime hm _)

/-- What finishing a file has done when the file at the `.download` path has got its name. -/
structure Published (d d' : Disk) (p : PathStr) (e : FileEntry) (i : Nat) (data : Content) :
    Prop where
  cwd : d'.cwd = d.cwd
  next : d.next ≤ d'.next
  sound : d'.Sound
  final : d'.get (d.place (finalPath p e)) = some (.file i data)
  download : d'.get (d.place (downloadPath p e)) = none
  digest : ∀ {i data}, d'.get (d.place (digestPath p e)) ≠ some (.file i data)
  others : ∀ {q}, q ≠ d.place (finalPath p e) → q ≠ d.place (downloadPath p e) →
    q ≠ d.place (digestPath p e) → d'.get q = d.get q
  vacant : d.get (d.place (finalPath p e)) ≠ some .dir
  dirs : ∀ {q}, d'.get q = some .dir → d.get q = some .dir

theorem modifyTime_cases (hs : d.Sound) (h : job.current = some (p, e)) {i : Nat} {data : Content}
    (hstat : d.stat (downloadPath p e) = some (.file i data)) :
    (∃ err, (withoutDigest p e d).rename (downloadPath p e) (finalPath p e) = .error err) ∨
      Published d (job.modifyTime d) p e i data := by
  have hlocal := local_withoutDigest p e d
  have hplace (s : PathStr) : (withoutDigest p e d).place s = d.place s := by
    unfold Disk.place
    rw [hlocal.cwd]
  have hends := endsAsDir_download p e
  have hdownload : (withoutDigest p e d).get (d.place (downloadPath p e)) =
      some (.file i data) :=
    (hlocal.others (download_ne_digest d.cwd p e e)).trans (Disk.stat_file hstat)
  have hstat₁ : (withoutDigest p e d).stat (downloadPath p e) = some (.file i data) := by
    rw [Disk.stat_of_get hends, hplace]
    exact hdownload
  cases hr : (withoutDigest p e d).rename (downloadPath p e) (finalPath p e) with
  | error err => exact .inl ⟨err, rfl⟩
  | ok d₂ =>
    rcases Disk.rename_file_cases hstat₁ hr with ⟨-, hsame⟩ | ⟨hd₂, -, hvacant, -⟩
    · rw [hplace, hplace] at hsame
      exact absurd hsame (download_ne_final d.cwd p e)
    · rw [hplace, hplace] at hd₂
      rw [hplace, hlocal.others (digest_ne_final d.cwd p e).symm] at hvacant
      have hrest : Disk.Local d₂ (job.modifyTime d) (d.place (digestPath p e)) := by
        rw [modifyTime_eq h]
        simp only [hr]
        exact .orSame fun hm => .setFileMtime hm _
      have hget (q : Place) : (job.modifyTime d).get q = d₂.get q := by
        rw [modifyTime_eq h]
        simp only [hr]
        exact Disk.get_setFileMtime _ _ q
      have hcwd : d₂.cwd = d.cwd := by
        rw [hd₂]
        exact hlocal.cwd
      have hnext : d.next ≤ d₂.next := by
        rw [hd₂]
        exact hlocal.next
      have hothers {q : Place} (hf : q ≠ d.place (finalPath p e))
          (ht : q ≠ d.place (downloadPath p e)) : d₂.get q = (withoutDigest p e d).get q := by
        rw [hd₂, Disk.get_note, Disk.get_put_of_ne _ hf, Disk.get_drop_of_ne _ ht]
      refine .inr ⟨hrest.cwd.trans hcwd, hnext.trans hrest.next,
        hrest.sound (Disk.rename_file_sound (hlocal.sound hs) hstat₁ hr), ?_, ?_, ?_, ?_, hvacant,
        ?_⟩
      · rw [hget, hd₂, Disk.get_note, Disk.get_put_self]
      · rw [hget, hd₂, Disk.get_note, Disk.get_put_of_ne _ (download_ne_final d.cwd p e),
          Disk.get_drop_self]
      · intro i data
        rw [hget, hothers (digest_ne_final d.cwd p e) (download_ne_digest d.cwd p e e).symm]
        exact get_withoutDigest p e d
      · intro q hf ht hg
        rw [hget, hothers hf ht, hlocal.others hg]
      · intro q hq
        rw [hget] at hq
        apply hlocal.dirs
        rw [hothers] at hq
        · exact hq
        · rintro rfl
          rw [hd₂, Disk.get_note, Disk.get_put_self] at hq
          exact nomatch hq
        · rintro rfl
          rw [hd₂, Disk.get_note, Disk.get_put_of_ne _ (download_ne_final d.cwd p e),
            Disk.get_drop_self] at hq
          exact nomatch hq

/-- What would be given a marker's name stays where it is. -/
theorem rename_marker_fails (hs : d.Sound) (hmarker : isMarker e.name = true) :
    ∃ err, d.rename (downloadPath p e) (finalPath p e) = .error err := by
  have hbelow : d.place (downloadPath p e) = d.place (finalPath p e) ++ [downloadSuffix] :=
    download_marker hmarker
  cases hr : d.rename (downloadPath p e) (finalPath p e) with
  | error err => exact ⟨err, rfl⟩
  | ok d' =>
    exfalso
    have hdir {entry : Entry} (h : d.get (d.place (downloadPath p e)) = some entry) :
        d.get (d.place (finalPath p e)) = some .dir := by
      have hparent := hs.parents h
      rwa [hbelow, List.dropLast_concat] at hparent
    unfold Disk.rename at hr
    dsimp only at hr
    split at hr
    · exact nomatch hr
    · rename_i i data hstat
      rw [hdir (Disk.stat_file hstat)] at hr
      exact nomatch hr
    · rename_i hstat
      have hget := Disk.stat_dir hstat
      rw [if_neg (download_ne_final d.cwd p e), hdir hget, if_neg, if_pos] at hr
      · exact nomatch hr
      · unfold Disk.hasChild
        rw [List.any_eq_true]
        refine ⟨⟨_, .dir⟩, Disk.get_eq_some_iff.mp hget, ?_⟩
        simp [hbelow]
      · rw [hbelow]
        intro hpre
        have hlen := hpre.length_le
        simp at hlen

end Finish

/-! ## Starting a file -/

section Start

variable {d : Disk} {p : PathStr} {e : FileEntry} {job : TransferJob}

/-- The disk once the directories on the way to a file are made. -/
def withWay (p : PathStr) (e : FileEntry) (d : Disk) : Disk :=
  match UnixPath.parent (parse (finalPath p e)) with
  | some pp => (d.createDirAll pp).2
  | none => d

theorem receivePaths_generic (h : job.jobType = .generic) (d : Disk) :
    job.receivePaths p e d = (downloadPath p e, some (digestPath p e), withWay p e d) := by
  unfold TransferJob.receivePaths
  rw [h]
  rfl

@[simp]
theorem cwd_withWay (p : PathStr) (e : FileEntry) (d : Disk) : (withWay p e d).cwd = d.cwd := by
  unfold withWay
  split
  · exact Disk.cwd_createDirAll d _
  · rfl

theorem sound_withWay (hs : d.Sound) : (withWay p e d).Sound := by
  unfold withWay
  split
  · exact hs.createDirAll _
  · exact hs

/-- What was there stays, and some directories may be new. -/
theorem get_withWay (p : PathStr) (e : FileEntry) (d : Disk) (q : Place) :
    (withWay p e d).get q = d.get q ∨
      ((∃ pp, UnixPath.parent (parse (finalPath p e)) = some pp ∧ q ∈ visited d.cwd pp) ∧
        d.get q = none ∧ (withWay p e d).get q = some .dir) := by
  unfold withWay
  split
  · rename_i pp hpp
    refine (Disk.get_createDirs d (visited d.cwd pp) q).imp_right fun h => ?_
    exact ⟨⟨pp, hpp, h.1⟩, h.2⟩
  · exact .inl rfl

theorem withWay_keeps {q : Place} {entry : Entry} (h : d.get q = some entry) :
    (withWay p e d).get q = some entry := by
  rcases get_withWay p e d q with hq | ⟨-, hq, -⟩
  · exact hq.trans h
  · exact nomatch h.symm.trans hq

theorem withWay_file {q : Place} {i : Nat} {data : Content}
    (h : (withWay p e d).get q = some (.file i data)) : d.get q = some (.file i data) := by
  rcases get_withWay p e d q with hq | ⟨-, -, hq⟩
  · exact hq.symm.trans h
  · exact nomatch hq.symm.trans h

/-- How `startFile` fails, and with what disk. -/
inductive StartFails (p : PathStr) (e : FileEntry) (d₁ d' : Disk) : Prop
  | digest (hdir : d₁.get (d₁.place (digestPath p e)) = some .dir) (heq : d' = d₁)
  | create {err : DiskError}
      (hremoved : d' = d₁ ∨ ∃ i data,
        d₁.get (d₁.place (digestPath p e)) = some (.file i data) ∧
        d' = (d₁.drop (d₁.place (digestPath p e))).note (.remove (d₁.place (digestPath p e))))
      (hfails : d'.createFile (downloadPath p e) = .error err)

/-- What `startFile` does once it has created the file. -/
def Started (p : PathStr) (e : FileEntry) (d₁ d' : Disk) (h : Handle) (digest : Content) : Prop :=
  d₁.get (d₁.place (digestPath p e)) ≠ some .dir ∧
    ∃ d₂ d₃, Disk.Local d₁ d₂ (d₁.place (digestPath p e)) ∧
      d₂.createFile (downloadPath p e) = .ok (h, d₃) ∧
      d' = d₃.orSame (d₃.writeFile (digestPath p e) digest)

theorem startFile_cases (hgeneric : job.jobType = .generic) (n : Int) (d : Disk) :
    (∃ err d', job.startFile p n e d = (.error err, { job with fileNum := n }, d') ∧
        StartFails p e (withWay p e (job.modifyTime d)) d') ∨
      (∃ h d', job.startFile p n e d =
          (.ok (), { job with fileNum := n, dataStream := some (.fileStream h) }, d') ∧
        Started p e (withWay p e (job.modifyTime d)) d' h job.digest.json) := by
  have hpaths : ({ job with fileNum := n } : TransferJob).receivePaths p e (job.modifyTime d) =
      (downloadPath p e, some (digestPath p e), withWay p e (job.modifyTime d)) :=
    receivePaths_generic hgeneric _
  unfold TransferJob.startFile
  simp only [hpaths]
  cases hremove : TransferJob.removeDigest (withWay p e (job.modifyTime d))
      (some (digestPath p e)) with
  | error err =>
    refine .inl ⟨_, _, rfl, .digest ?_ rfl⟩
    unfold TransferJob.removeDigest at hremove
    dsimp only at hremove
    split_ifs at hremove with hexists
    unfold Disk.removeFile at hremove
    split at hremove
    · exact nomatch hremove
    · rename_i hstat
      exact Disk.stat_dir hstat
    · rename_i hstat
      unfold Disk.pathExists at hexists
      rw [hstat] at hexists
      exact nomatch hexists
  | ok d₂ =>
    have hremoved : d₂ = withWay p e (job.modifyTime d) ∧ (withWay p e (job.modifyTime d)).get
          ((withWay p e (job.modifyTime d)).place (digestPath p e)) ≠ some .dir ∨
        ∃ i data, (withWay p e (job.modifyTime d)).get
          ((withWay p e (job.modifyTime d)).place (digestPath p e)) = some (.file i data) ∧
        d₂ = ((withWay p e (job.modifyTime d)).drop
          ((withWay p e (job.modifyTime d)).place (digestPath p e))).note
            (.remove ((withWay p e (job.modifyTime d)).place (digestPath p e))) := by
      unfold TransferJob.removeDigest at hremove
      dsimp only at hremove
      split_ifs at hremove with hexists
      · exact .inr (Disk.removeFile_cases hremove)
      · cases hremove
        refine .inl ⟨rfl, fun hdir => hexists ?_⟩
        unfold Disk.pathExists
        rw [Disk.stat_of_get (endsAsDir_digest p e), hdir]
        rfl
    dsimp only
    cases hc : d₂.createFile (downloadPath p e) with
    | error err => exact .inl ⟨_, _, rfl, .create (hremoved.imp_left And.left) hc⟩
    | ok r =>
      refine .inr ⟨r.1, _, rfl, ?_, d₂, r.2, ?_, hc, rfl⟩
      · rcases hremoved with ⟨-, hdir⟩ | ⟨i, data, hget, -⟩
        · exact hdir
        · rw [hget]
          exact nofun
      · rcases hremoved with ⟨rfl, -⟩ | ⟨i, data, hget, rfl⟩
        · exact .refl _ _
        · exact .drop hget _

/-- A failed start has made directories and has perhaps taken the digest away. -/
theorem StartFails.spec {d₁ d' : Disk} (h : StartFails p e d₁ d') :
    Disk.Local d₁ d' (d₁.place (digestPath p e)) ∧
      ∀ {q i data}, d'.get q = some (.file i data) → d₁.get q = some (.file i data) := by
  cases h with
  | digest hdir heq =>
    subst heq
    exact ⟨.refl _ _, id⟩
  | create hremoved hfails =>
    rcases hremoved with rfl | ⟨i, data, hget, rfl⟩
    · exact ⟨.refl _ _, id⟩
    · refine ⟨.drop hget _, fun {q i' data'} hq => ?_⟩
      rw [Disk.get_note] at hq
      by_cases heq : q = d₁.place (digestPath p e)
      · subst heq
        rw [Disk.get_drop_self] at hq
        exact nomatch hq
      · rwa [Disk.get_drop_of_ne _ heq] at hq

namespace Started

variable {d₁ d' : Disk} {h : Handle} {digest : Content}

/-- The disk after a start: a new empty file at the `.download` path; the digest; the rest as it
was. -/
theorem spec (hst : Started p e d₁ d' h digest) (hs : d₁.Sound) :
    d'.cwd = d₁.cwd ∧ d₁.next ≤ d'.next ∧ d'.Sound ∧ h.offset = 0 ∧ h.writable = true ∧
      d'.get (d₁.place (downloadPath p e)) = some (.file h.ino []) ∧
      (∀ {q}, q ≠ d₁.place (downloadPath p e) → q ≠ d₁.place (digestPath p e) →
        d'.get q = d₁.get q) ∧
      ∀ {q}, d'.get q = some .dir → d₁.get q = some .dir := by
  obtain ⟨-, d₂, d₃, hlocal, hc, rfl⟩ := hst
  have hcreate := Disk.Local.createFile hc
  have hs₃ := hcreate.sound (hlocal.sound hs)
  have hcwd₃ : d₃.cwd = d₁.cwd := hcreate.cwd.trans hlocal.cwd
  have hwrite : Disk.Local d₃ (d₃.orSame (d₃.writeFile (digestPath p e) digest))
      (d₃.place (digestPath p e)) := .orSame fun hw => .writeFile hs₃.inodes hw
  obtain ⟨-, hoffset, hwritable, -⟩ := Disk.createFile_cases hc
  have hplace (s : PathStr) : d₂.place s = d₁.place s := by
    unfold Disk.place
    rw [hlocal.cwd]
  have hplace₃ (s : PathStr) : d₃.place s = d₁.place s := by
    unfold Disk.place
    rw [hcwd₃]
  refine ⟨hwrite.cwd.trans hcwd₃, (hlocal.next.trans hcreate.next).trans hwrite.next,
    hwrite.sound hs₃, hoffset, hwritable, ?_, ?_, fun hq => hlocal.dirs (hcreate.dirs
      (hwrite.dirs hq))⟩
  · rw [hwrite.others]
    · rw [← hplace]
      exact Disk.createFile_at hc
    · rw [hplace₃]
      exact download_ne_digest d₁.cwd p e e
  · intro q ht hg
    rw [hwrite.others, hcreate.others, hlocal.others hg]
    · rw [hplace]
      exact ht
    · rw [hplace₃]
      exact hg

end Started

end Start

/-! ## The branches of `write` -/

section Branches

variable {z : Zstd} {job : TransferJob} {b : FileTransferBlock} {d : Disk} {p : PathStr}
  {e : FileEntry}

theorem write_unlisted (hid : b.id = job.id) (hsource : job.dataSource = .filePath p)
    (h : job.files[b.num]? = none) :
    job.write z b d = (.error (.text "Wrong file number"), job, d) := by
  unfold TransferJob.write
  rw [if_neg (not_not.mpr hid), hsource]
  dsimp only
  rw [show job.files[asUsize b.fileNum]? = none from h]

theorem write_marker (hid : b.id = job.id) (hsource : job.dataSource = .filePath p)
    (h : job.files[b.num]? = some e) (hmarker : isMarker e.name = true) :
    job.write z b d = (.ok (), { job with fileNum := b.fileNum },
      (d.createDirAll (parse (finalPath p e))).2) := by
  unfold TransferJob.write
  rw [if_neg (not_not.mpr hid), hsource]
  dsimp only
  rw [show job.files[asUsize b.fileNum]? = some e from h]
  dsimp only
  exact if_pos hmarker

theorem write_start (z : Zstd) (d : Disk) (hid : b.id = job.id)
    (hsource : job.dataSource = .filePath p) (h : Regular job.files b.num e)
    (hstarts : b.num ≠ asUsize job.fileNum ∨ job.dataStream = none) :
    job.write z b d = match job.startFile p b.fileNum e d with
      | (.error err, job, d) => (.error err, job, d)
      | (.ok (), job, d) => job.writeData z b d := by
  unfold TransferJob.write
  rw [if_neg (not_not.mpr hid), hsource]
  dsimp only
  rw [show job.files[asUsize b.fileNum]? = some e from h.1]
  dsimp only
  have hbranch : asUsize b.fileNum ≠ asUsize job.fileNum ∨ job.dataStream.isNone = true :=
    hstarts.imp_right Option.isNone_iff_eq_none.mpr
  have hregular : ¬ isMarker e.name = true := by
    rw [h.2]
    exact Bool.false_ne_true
  exact (if_neg hregular).trans (if_pos hbranch)

theorem write_more (hid : b.id = job.id) (hsource : job.dataSource = .filePath p)
    (h : Regular job.files b.num e) (hnum : b.num = asUsize job.fileNum)
    (hopen : job.dataStream ≠ none) : job.write z b d = job.writeData z b d := by
  unfold TransferJob.write
  rw [if_neg (not_not.mpr hid), hsource]
  dsimp only
  rw [show job.files[asUsize b.fileNum]? = some e from h.1]
  dsimp only
  rw [if_neg (by rw [h.2]; exact Bool.false_ne_true), if_neg]
  rintro (hne | hnone)
  · exact hne hnum
  · exact hopen (Option.isNone_iff_eq_none.mp hnone)

/-- Writing to a stream that is an open file always succeeds. -/
theorem writeData_file (z : Zstd) (b : FileTransferBlock) (d : Disk) {h : Handle}
    (hstream : job.dataStream = some (.fileStream h)) (hwritable : h.writable = true) :
    ∃ d' finishedSize transferred,
      d.writeAll h (TransferJob.payload z b) =
        .ok ({ h with offset := h.offset + (TransferJob.payload z b).length }, d') ∧
      job.writeData z b d = (.ok (), { job with
        dataStream := some (.fileStream { h with
          offset := h.offset + (TransferJob.payload z b).length })
        finishedSize, transferred }, d') := by
  obtain ⟨d', hw⟩ := Disk.writeAll_total hwritable d (TransferJob.payload z b)
  refine ⟨d', job.finishedSize + (TransferJob.payload z b).length,
    job.transferred + b.data.length, hw, ?_⟩
  unfold TransferJob.writeData TransferJob.writeStream
  simp only [hstream, hw]

end Branches

end HopToDesk.Transfer
