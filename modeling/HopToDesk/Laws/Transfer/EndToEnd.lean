import HopToDesk.Laws.Transfer.Arriving
import HopToDesk.Laws.Transfer.Sending

/-!
# A transfer from end to end

The first block of another file gives a file its name, and so does the end of the job. The block of a
marker does not: it moves the number on, and no later step comes back to the file. So a list with a
file directly before a marker is never delivered, and every other list is, if there is room for it.
-/

set_option autoImplicit false

namespace HopToDesk.Transfer

open Kit UnixPath

namespace Trip

variable {T : Trip} {K : Place → Prop} {n m k : Nat} {d : Disk} {e : FileEntry} {s : Writing}
  {blocks : List FileTransferBlock}

/-! ## Any list -/

section Any

variable (hv : T.Accepts) (hp : T.Plain)
include hv hp

theorem Kept.finish (h : T.Kept K n s.disk) (hat : T.JobAt n s.job) (hsafe : T.Safe K n) :
    T.Kept K n (finish s) := by
  cases he : T.files[n]? with
  | some e => exact h.modifyTime hv hp he (hat.current he) hsafe
  | none =>
    simp only [Trip.finish, modifyTime_none (hat.current_none he)]
    exact h

/-- The blocks of one entry. -/
theorem Kept.entry (h : T.Kept K n s.disk) (hat : T.JobAt n s.job) (hsafe : T.Safe K n)
    (hnm : n ≤ m) (he : T.Listed m e) (hids : ∀ b ∈ blocks, b.id = T.id ∧ b.fileNum = m) :
    ∃ n', n ≤ n' ∧ n' ≤ m ∧ T.JobAt n' (T.after s blocks).job ∧
      T.Kept K n' (T.after s blocks).disk := by
  induction blocks generalizing s n with
  | nil => exact ⟨n, le_rfl, hnm, hat, h⟩
  | cons b blocks ih =>
    obtain ⟨hid, hnum⟩ := hids b List.mem_cons_self
    obtain ⟨hat', h'⟩ := h.write hv hp hat hsafe hnm he hid hnum
    obtain ⟨n', hn', hm', hrest⟩ := ih (s := s.next T.z (.block b)) h' hat' (hsafe.mono hnm) le_rfl
      fun b hb => hids b (List.mem_cons_of_mem _ hb)
    exact ⟨n', hnm.trans hn', hm', hrest⟩

/-- **A whole transfer leaves what has to stay.** -/
theorem Kept.run (hemitted : Emitted T.z T.id T.files T.bytes m blocks) (h : T.Kept K n s.disk)
    (hat : T.JobAt n s.job) (hsafe : T.Safe K n) (hnm : n ≤ m) :
    ∃ n', T.Kept K n' (Trip.finish (T.after s blocks)) := by
  induction hemitted generalizing s n with
  | done => exact ⟨n, h.finish hv hp hat hsafe⟩
  | @entry m blocks rest hm hentry _ ih =>
    have he : T.Listed m T.files[m] := List.getElem?_eq_getElem hm
    obtain ⟨n', hn', hm', hat', h'⟩ := h.entry hv hp hat hsafe hnm he hentry.ids
    obtain ⟨n'', hkept⟩ := ih h' hat' (hsafe.mono hn') (hm'.trans (Nat.le_succ m))
    exact ⟨n'', after_append blocks rest ▸ hkept⟩

end Any

theorem jobAt_start (T : Trip) (overwrite : Bool) : T.JobAt 0 (T.start overwrite).job :=
  ⟨rfl, rfl, rfl, rfl, rfl⟩

theorem received_eq (overwrite : Bool) (blocks : List FileTransferBlock) :
    received T.z (T.start overwrite) blocks = finish (T.after (T.start overwrite) blocks) := rfl

/-- **What is delivered had room.** -/
theorem Delivered.room (hv : T.Accepts) (hp : T.Plain) {overwrite : Bool}
    (hemitted : Emitted T.z T.id T.files T.bytes 0 blocks)
    (h : T.Delivered (received T.z (T.start overwrite) blocks)) : T.Room := by
  obtain ⟨n, hkept⟩ := hv.kept.run hv hp hemitted (s := T.start overwrite) (jobAt_start T overwrite)
    hv.safe le_rfl
  rw [received_eq] at h
  have hfile {i e} (hr : T.Regular i e) : IsFile (finish (T.after (T.start overwrite) blocks)) (T.final e) := by
    obtain ⟨ino, hget⟩ := Disk.get_of_view_file (h.files hr)
    exact ⟨ino, _, hget⟩
  have hsome {i e} (he : T.Listed i e) :
      ∃ entry, (finish (T.after (T.start overwrite) blocks)).get (T.final e) = some entry := by
    cases hmarker : isMarker e.name with
    | true => exact ⟨_, h.markers ⟨he, hmarker⟩⟩
    | false =>
      obtain ⟨ino, data, hget⟩ := hfile ⟨he, hmarker⟩
      exact ⟨_, hget⟩
  have habove {q i e} (he : T.Listed i e) (hpre : q <+: T.final e) (hne : q ≠ T.final e)
      (hq : IsFile (finish (T.after (T.start overwrite) blocks)) q) : False := by
    obtain ⟨ino, data, hget⟩ := hq
    obtain ⟨entry, hentry⟩ := hsome he
    have hnone := hkept.sound.none_of_prefix (hget ▸ nofun) hpre hne.symm
    exact nomatch hnone.symm.trans hentry
  constructor
  · intro i j e e' hr hr'
    exact ⟨fun heq => (h.temporary hr).1 (heq ▸ hfile hr'),
      fun heq => (h.temporary hr).2 (heq ▸ hfile hr')⟩
  · intro i j e e' hr he' hne hpre
    exact habove he' hpre (fun heq => hne (hp.alone hr he' heq)) (hfile hr)
  · intro i e hr hdir
    obtain ⟨ino, data, hget⟩ := hfile hr
    exact nomatch hget.symm.trans (hkept.dirs hdir)
  · intro i e q he hpre hne hq
    exact habove he hpre hne (hkept.files hq)
  · intro i e he hq
    obtain ⟨ino, data, hget⟩ := hkept.files hq
    exact nomatch hget.symm.trans (h.markers he)

/-! ## The whole list -/

section Fit

variable (hv : T.Accepts) (hp : T.Plain) (hroom : T.Room)

/-- All of every entry is to arrive. -/
def all (T : Trip) (i : Nat) : Option Content := some (T.bytes i)

/-- A receiver that has had the blocks of the entries before the `k`th. The last of them is a file,
or it is not. -/
inductive Ready (T : Trip) : Nat → Writing → Prop
  | idle {k : Nat} {s : Writing} (h : T.Before T.all k s.disk) (hidle : T.Idle k s.job s.disk)
      (hlast : ∀ {i e}, k = i + 1 → ¬ T.Regular i e) : Ready T k s
  | full {j : Nat} {e : FileEntry} {s : Writing} (hr : T.Regular j e)
      (h : T.Filling T.all j e (T.bytes j) s.job s.disk) : Ready T (j + 1) s

include hv in
theorem ready_start (overwrite : Bool) : T.Ready 0 (T.start overwrite) := by
  refine .idle ⟨hv.kept, .inl, ?_, ?_⟩ (.inr ⟨rfl, rfl, 0, jobAt_start T overwrite⟩) ?_
  · exact fun hj => absurd hj (Nat.not_lt_zero _)
  · exact fun hj => absurd hj (Nat.not_lt_zero _)
  · intro i e hzero
    cases hzero

include hv hp hroom in
theorem Ready.finish (h : T.Ready k s) : T.Before T.all k (Trip.finish s) := by
  cases h with
  | idle h hidle => exact h.idle hv hp hidle
  | full hr h => exact h.finish hv hp hroom hr fun c' hc => Option.some.inj hc

include hv hp hroom in
theorem Ready.turn (h : T.Ready k s) : T.Turn T.all k s := by
  refine ⟨h.finish hv hp hroom, ?_⟩
  cases h with
  | idle h hidle =>
    rcases hidle with ⟨j, e, hj, -, hat⟩ | ⟨-, hclosed, n, hat⟩
    · exact ⟨j, hat, .inl hj.ne⟩
    · exact ⟨n, hat, .inr hclosed⟩
  | @full j e s hr h => exact ⟨j, h.at_, .inl (Nat.lt_succ_self j).ne⟩

theorem Ready.jobAt (h : T.Ready k s) : ∃ n, T.JobAt n s.job := by
  cases h with
  | idle _ hidle =>
    rcases hidle with ⟨j, e, -, -, hat⟩ | ⟨-, -, n, hat⟩
    · exact ⟨j, hat⟩
    · exact ⟨n, hat⟩
  | @full j e s hr h => exact ⟨j, h.at_⟩

/-- What the block of a marker does to a receiver. -/
theorem JobAt.marker (hat : T.JobAt n s.job) (he : T.Marker k e)
    (hentry : EntryBlocks T.z T.id T.files T.bytes k blocks) :
    T.JobAt k (T.after s blocks).job ∧
      (T.after s blocks).disk = (s.disk.createDirAll (parse (finalPath T.p e))).2 := by
  obtain ⟨b, rfl⟩ := List.length_eq_one_iff.mp (hentry.marker he.1 he.2)
  obtain ⟨hid, hnum⟩ := hentry.ids b List.mem_cons_self
  exact hat.markerBlock he hid hnum

include hv hp hroom in
/-- **One entry.** A marker is one for a receiver that is idle. -/
theorem Ready.entry (h : T.Ready k s) (hk : k < T.files.length)
    (hentry : EntryBlocks T.z T.id T.files T.bytes k blocks)
    (hmarker : ∀ {e}, T.Marker k e → T.Before T.all k s.disk) : T.Ready (k + 1) (T.after s blocks) := by
  have he : T.Listed k T.files[k] := List.getElem?_eq_getElem hk
  cases hname : isMarker T.files[k].name with
  | true =>
    obtain ⟨n, hat⟩ := h.jobAt
    obtain ⟨hat', hdisk⟩ := hat.marker ⟨he, hname⟩ hentry
    refine .idle ?_ (.inl ⟨k, _, Nat.lt_succ_self k, ⟨he, hname⟩, hat'⟩) ?_
    · rw [hdisk]
      exact (hmarker ⟨he, hname⟩).marker hv hroom ⟨he, hname⟩
    · intro i e heq hr
      obtain rfl := Nat.succ.inj heq
      obtain rfl := Option.some.inj (he.symm.trans hr.1)
      cases hname.symm.trans hr.2
  | false =>
    have hr : T.Regular k T.files[k] := ⟨he, hname⟩
    have hfile := (h.turn hv hp hroom).file hv hp hroom hr hentry.nonempty hentry.ids
    rw [hentry.payload hr] at hfile
    exact .full hr hfile

include hv hp hroom in
/-- **A list with no file directly before a marker arrives.** -/
theorem Ready.run (hparted : T.Parted) (h : T.Ready k s)
    (hemitted : Emitted T.z T.id T.files T.bytes k blocks) :
    T.Before T.all T.files.length (Trip.finish (T.after s blocks)) := by
  induction hemitted generalizing s with
  | done => exact h.finish hv hp hroom
  | @entry k blocks rest hk hentry _ ih =>
    rw [after_append]
    refine ih (h.entry hv hp hroom hk hentry fun {e} he => ?_)
    cases h with
    | idle h _ _ => exact h
    | full hr _ => exact absurd he (hparted hr)

include hp in
/-- The file before a marker has to stay where it is. -/
theorem safe_stuck (hv : T.Accepts) {j : Nat} (hr : T.Regular j e) :
    T.Safe (fun q => IsFile T.disk q ∨ q = T.download e) (j + 1) := by
  intro c e' hj he'
  refine ⟨?_, fun hregular => ?_⟩
  · rintro (hold | heq)
    · exact (hv.fresh he').2 hold
    · exact download_ne_digest _ T.p e e' heq.symm
  · rintro (hold | heq)
    · exact (hv.fresh he').1 hold
    · have hsame := hp.alone hr he' (final_eq_of_download heq).symm
      omega

include hv hp hroom in
/-- **A file directly before a marker is left under its temporary name.** -/
theorem Ready.stuck (h : T.Ready k s) (hemitted : Emitted T.z T.id T.files T.bytes k blocks)
    {i : Nat} {e e' : FileEntry} (hr : T.Regular i e) (he : T.Marker (i + 1) e') (hi : k ≤ i + 1) :
    ∃ j e, T.Regular j e ∧ IsFile (Trip.finish (T.after s blocks)) (T.download e) := by
  induction hemitted generalizing s with
  | done => exact absurd (List.getElem?_eq_some_iff.mp he.1).1 hi.not_gt
  | @entry k blocks rest hk hentry hrest ih =>
    rw [after_append]
    cases h with
    | idle hbefore hidle hlast =>
      have hne : k ≠ i + 1 := fun heq => hlast heq hr
      have hready : T.Ready k s := .idle hbefore hidle hlast
      exact ih (hready.entry hv hp hroom hk hentry fun _ => hbefore) (by omega)
    | @full j eⱼ _ hrⱼ hfull =>
      by_cases hmarker : ∃ e'', T.Marker (j + 1) e''
      · obtain ⟨e'', he''⟩ := hmarker
        obtain ⟨handle, -, -, -, hget⟩ := hfull.stream
        obtain ⟨hat, hdisk⟩ := hfull.at_.marker he'' hentry
        have hkept : T.Kept (fun q => IsFile T.disk q ∨ q = T.download eⱼ) j s.disk := {
          hfull.upto.kept with
          files := by
            rintro q (hold | rfl)
            · exact hfull.upto.kept.files hold
            · exact ⟨_, _, hget⟩ }
        have hkept' := hkept.marker hv (Nat.le_succ j) he''
        rw [← hdisk] at hkept'
        obtain ⟨n, hend⟩ := hkept'.run hv hp hrest hat (safe_stuck hp hv hrⱼ) (Nat.le_succ _)
        exact ⟨j, eⱼ, hrⱼ, hend.files (.inr rfl)⟩
      · have hne : j + 1 ≠ i + 1 := fun heq => hmarker ⟨e', heq ▸ he⟩
        exact ih ((Ready.full hrⱼ hfull).entry hv hp hroom hk hentry
          fun {e''} he'' => absurd ⟨e'', he''⟩ hmarker) (by omega)

include hv hroom in
/-- With every entry at the receiver, all is delivered. -/
theorem Upto.delivered (h : T.Before T.all T.files.length d) : T.Delivered d where
  files hr := h.published (List.getElem?_eq_some_iff.mp hr.1).1 hr rfl
  markers he := h.markers (List.getElem?_eq_some_iff.mp he.1).1 he (Option.some_ne_none _)
  temporary := by
    intro i e hr
    have hno {q : Place} (hold : ¬ IsFile T.disk q)
        (hfinal : ∀ {j e'}, T.Regular j e' → T.final e' ≠ q) : ¬ IsFile d q := by
      intro hq
      rcases h.only hq with hq | ⟨j, e', -, hr', heq⟩ | hq
      · exact hold hq
      · exact hfinal hr' heq.symm
      · exact hq
    exact ⟨hno (hv.fresh hr.1).1 fun hr' => (hroom.temporary hr hr').1,
      hno (hv.fresh hr.1).2 fun hr' => (hroom.temporary hr hr').2⟩

end Fit

section Delivery

variable {overwrite : Bool} (hv : T.Accepts) (hp : T.Plain)
  (hemitted : Emitted T.z T.id T.files T.bytes 0 blocks)
include hv hp hemitted

theorem delivered_of_parted (hroom : T.Room) (hparted : T.Parted) :
    T.Delivered (received T.z (T.start overwrite) blocks) := by
  rw [received_eq]
  exact ((ready_start hv overwrite).run hv hp hroom hparted hemitted).delivered hv hroom

theorem Delivered.parted (h : T.Delivered (received T.z (T.start overwrite) blocks)) : T.Parted := by
  intro i e e' hr he
  have hroom := h.room hv hp hemitted
  obtain ⟨j, eⱼ, hrⱼ, hfile⟩ := (ready_start hv overwrite).stuck hv hp hroom hemitted hr he
    (Nat.zero_le _)
  exact (h.temporary hrⱼ).1 hfile

end Delivery

/-- **When a transfer arrives.** The sender emits its list; and of what it emits, a plain list is
delivered exactly when there is room for it and no file is directly before a marker. -/
theorem transfer_delivered (hv : T.Valid) (sends receives direct : Bool) :
    (∃ blocks, Sends T.z (sender T.id T.src T.files sends direct) T.source blocks) ∧
      ∀ blocks, Sends T.z (sender T.id T.src T.files sends direct) T.source blocks → T.Plain →
        (T.Delivered (received T.z (T.start receives) blocks) ↔ T.Room ∧ T.Parted) := by
  obtain ⟨blocks, hsends, hemitted⟩ := sender_emits T.id hv.zstd hv.inodes hv.readable sends direct
  have hv := hv.toAccepts
  refine ⟨⟨blocks, hsends⟩, fun blocks' hsends' hp => ?_⟩
  obtain rfl := hsends.unique hsends'
  constructor
  · intro h
    exact ⟨h.room hv hp hemitted, h.parted hv hp hemitted⟩
  · intro ⟨hroom, hparted⟩
    exact delivered_of_parted hv hp hemitted hroom hparted

/-! ## Examples -/

/-- The file `a` of a sender. -/
def fileA : FileEntry := ⟨['a'], 1, 0⟩

/-- The empty directory `m`. -/
def markerM : FileEntry := ⟨['m', '/'], 0, 0⟩

/-- A sender with the file `/s/a`. -/
def diskWithA : Disk := (Disk.blank.withDir [['s']]).withFile [['s'], ['a']] [104]

/-- These go to the directory `/d`, which is not there yet. -/
def tripOf (files : List FileEntry) : Trip where
  z := { compress := some, decodeAll := some }
  id := 1
  src := ['/', 's']
  p := ['/', 'd']
  files
  source := diskWithA
  disk := Disk.blank
  bytes _ := [104]

theorem not_isFile_blank {q : Place} : ¬ IsFile Disk.blank q := by
  rintro ⟨i, data, hget⟩
  obtain rfl := Disk.get_blank (hget ▸ Option.some_ne_none _)
  exact nomatch hget

section Example

variable {files : List FileEntry} (h : ∀ e ∈ files, e = fileA ∨ e = markerM)
include h

theorem tripOf_regular {i : Nat} {e : FileEntry} (hr : (tripOf files).Regular i e) : e = fileA := by
  rcases h e (List.mem_of_getElem? hr.1) with rfl | rfl
  · rfl
  · exact nomatch hr.2

theorem tripOf_marker {i : Nat} {e : FileEntry} (he : (tripOf files).Marker i e) : e = markerM := by
  rcases h e (List.mem_of_getElem? he.1) with rfl | rfl
  · exact nomatch he.2
  · rfl

theorem valid_tripOf : (tripOf files).Valid where
  zstd data := ⟨data, rfl, rfl⟩
  inodes := ((Disk.sound_blank.withDir rfl).withFile rfl rfl).inodes
  readable hr := by
    obtain rfl := tripOf_regular h hr
    exact ⟨0, show (tripOf []).source.stat (TransferJob.join (tripOf []).src fileA.name) =
      some (.file 0 [104]) by decide⟩
  sound := Disk.sound_blank
  climbs := show .up ∉ (parse (tripOf []).p).comps by decide
  names he := by
    rcases h _ (List.mem_of_getElem? he) with rfl | rfl
    · decide
    · decide
  regular hr := by
    obtain rfl := tripOf_regular h hr
    show endsAsDir (finalPath (tripOf []).p fileA) = false
    decide
  empty he hr := by
    obtain rfl := tripOf_marker h he
    obtain rfl := tripOf_regular h hr
    show ¬ (tripOf []).final markerM <+: (tripOf []).final fileA
    decide
  fresh _ := ⟨not_isFile_blank, not_isFile_blank⟩

theorem plain_tripOf (hnodup : files.Nodup) : (tripOf files).Plain where
  alone hr he hfinal := by
    rename_i i j e e'
    obtain rfl := tripOf_regular h hr
    rcases h _ (List.mem_of_getElem? he) with rfl | rfl
    · exact (List.getElem?_inj (List.getElem?_eq_some_iff.mp hr.1).1 hnodup).mp (hr.1.trans he.symm)
    · exact absurd hfinal (show (tripOf []).final fileA ≠ (tripOf []).final markerM by decide)
  vacant hr := by
    obtain rfl := tripOf_regular h hr
    show Disk.blank.get ((tripOf []).download fileA) ≠ some .dir ∧
      Disk.blank.get ((tripOf []).digest fileA) ≠ some .dir
    decide
  unmade hr _ he := by
    obtain rfl := tripOf_regular h hr
    have hno : ∀ e ∈ [fileA, markerM], ¬ (tripOf []).download fileA <+: (tripOf []).final e ∧
        ¬ (tripOf []).digest fileA <+: (tripOf []).final e := by decide
    exact hno _ (by simpa using h _ (List.mem_of_getElem? he))

theorem room_tripOf (hnodup : files.Nodup) : (tripOf files).Room where
  temporary hr hr' := by
    obtain rfl := tripOf_regular h hr
    obtain rfl := tripOf_regular h hr'
    show (tripOf []).final fileA ≠ (tripOf []).download fileA ∧
      (tripOf []).final fileA ≠ (tripOf []).digest fileA
    decide
  leaf hr he hne := by
    obtain rfl := tripOf_regular h hr
    rcases h _ (List.mem_of_getElem? he) with rfl | rfl
    · exact absurd ((List.getElem?_inj (List.getElem?_eq_some_iff.mp hr.1).1 hnodup).mp
        (hr.1.trans he.symm)) hne
    · show ¬ (tripOf []).final fileA <+: (tripOf []).final markerM
      decide
  vacant hr := by
    obtain rfl := tripOf_regular h hr
    show Disk.blank.get ((tripOf []).final fileA) ≠ some .dir
    decide
  way _ _ _ := not_isFile_blank
  marker _ := not_isFile_blank

end Example

theorem parted_markerFirst : (tripOf [markerM, fileA]).Parted := by
  intro i e e' hr he
  match i with
  | 0 =>
    cases hr.1
    exact nomatch hr.2
  | 1 => exact nomatch he.1
  | i + 2 => exact nomatch hr.1

/-- With the marker first, the file and the directory arrive. -/
theorem transfer_delivered_markerFirst :
    (∃ blocks, Sends (tripOf [markerM, fileA]).z
      (sender 1 ['/', 's'] [markerM, fileA] true false) diskWithA blocks) ∧
    ∀ blocks, Sends (tripOf [markerM, fileA]).z
      (sender 1 ['/', 's'] [markerM, fileA] true false) diskWithA blocks →
        (tripOf [markerM, fileA]).Delivered
          (received (tripOf [markerM, fileA]).z ((tripOf [markerM, fileA]).start true) blocks) := by
  have hfiles : ∀ e ∈ [markerM, fileA], e = fileA ∨ e = markerM := by decide
  obtain ⟨hsends, hall⟩ := transfer_delivered (valid_tripOf hfiles) true true false
  refine ⟨hsends, fun blocks h => (hall blocks h (plain_tripOf hfiles (by decide))).mpr ?_⟩
  exact ⟨room_tripOf hfiles (by decide), parted_markerFirst⟩

/-- **Not every transfer arrives.** With the marker after it, the file stays under its temporary
name. -/
theorem transfer_not_delivered : (tripOf [fileA, markerM]).Valid ∧
    ∃ blocks, Sends (tripOf [fileA, markerM]).z
        (sender 1 ['/', 's'] [fileA, markerM] true false) diskWithA blocks ∧
      ¬ (tripOf [fileA, markerM]).Delivered
        (received (tripOf [fileA, markerM]).z ((tripOf [fileA, markerM]).start true) blocks) := by
  have hfiles : ∀ e ∈ [fileA, markerM], e = fileA ∨ e = markerM := by decide
  have hv := valid_tripOf hfiles
  obtain ⟨blocks, hsends, hemitted⟩ := sender_emits 1 hv.zstd hv.inodes hv.readable true false
  refine ⟨hv, blocks, hsends, fun h => ?_⟩
  have hparted : (tripOf [fileA, markerM]).Parted :=
    h.parted hv.toAccepts (plain_tripOf hfiles (by decide)) hemitted
  have hfile : (tripOf [fileA, markerM]).Regular 0 fileA := ⟨rfl, rfl⟩
  have hmarker : (tripOf [fileA, markerM]).Marker 1 markerM := ⟨rfl, rfl⟩
  exact hparted hfile hmarker

end Trip

end HopToDesk.Transfer
