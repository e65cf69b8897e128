import HopToDesk.Transfer.Sending

/-!
# What a sender emits

The blocks come entry after entry. A marker gives one empty block; a file gives blocks whose
payloads put together are its bytes, the last of them empty. So every entry has a block, and the
receiver hears of each. The sender stops: an open file gets shorter with every block that is not
empty, and an empty one ends it.
-/

set_option autoImplicit false

namespace HopToDesk.Transfer

open Kit UnixPath

section Chunks

variable {z : Zstd} {d : Disk} {q : Place} {ino : Nat} {data : Content}

/-- The loop fills the buffer, or takes all there is: then a second read gives nothing. -/
theorem fill_file (hi : d.Inodes) (hq : d.get q = some (.file ino data)) (bufSize k turns : Nat)
    {buf : Content} (hbuf : (data.drop k).take bufSize = buf) :
    TransferJob.fill d bufSize (turns + 2) (.fileStream ⟨ino, k, false⟩) [] =
      .ok (buf, .fileStream ⟨ino, k + buf.length, false⟩) := by
  have hfirst : TransferJob.readStream (.fileStream ⟨ino, k, false⟩)
      (bufSize - ([] : Content).length) d =
        .ok (buf, .fileStream ⟨ino, k + buf.length, false⟩) := by
    simp only [TransferJob.readStream, Disk.read_file hi hq, List.length_nil, Nat.sub_zero, hbuf]
  rw [TransferJob.fill]
  simp only [hfirst, List.nil_append]
  split
  · rfl
  · rename_i hgoes
    have hend : data.drop (k + buf.length) = [] := by
      rw [List.drop_eq_nil_iff]
      rw [← hbuf] at hgoes ⊢
      simp only [List.length_take, List.length_drop] at hgoes ⊢
      omega
    have hsecond : TransferJob.readStream (.fileStream ⟨ino, k + buf.length, false⟩)
        (bufSize - buf.length) d = .ok ([], .fileStream ⟨ino, k + buf.length, false⟩) := by
      simp [TransferJob.readStream, Disk.read_file hi hq, hend]
    rw [TransferJob.fill]
    simp [hsecond]

theorem bufSize_pos (job : TransferJob) : 0 < job.bufSize := by
  unfold TransferJob.bufSize
  split
  · norm_num
  · norm_num

/-- Compressed or not, a block carries what was read. -/
theorem payload_pack (hz : z.RoundTrip) (job : TransferJob) (name : PathStr) (buf : Content)
    (id fileNum : Int) :
    TransferJob.payload z ⟨id, fileNum, (job.pack z name buf).1, (job.pack z name buf).2⟩ =
      buf := by
  obtain ⟨packed, hpack, hunpack⟩ := hz buf
  have hcompress : z.compressOrEmpty buf = packed := by simp [Zstd.compressOrEmpty, hpack]
  have hdecompress : z.decompress packed = buf := by simp [Zstd.decompress, hunpack]
  simp only [TransferJob.pack, hcompress]
  split
  · split
    · split
      · simp [TransferJob.payload, hdecompress]
      · simp [TransferJob.payload]
    · simp [TransferJob.payload]
  · simp [TransferJob.payload]

end Chunks

/-! ## One call of `read` -/

/-- A sender is at an entry of its list. -/
structure AtEntry (id : Int) (src : PathStr) (files : List FileEntry) (job : TransferJob) (n : Nat) :
    Prop where
  id : job.id = id
  generic : job.jobType = .generic
  source : job.dataSource = .filePath src
  files : job.files = files
  num : job.fileNum = n

/-- Nothing has to be confirmed any more. -/
def Clear (job : TransferJob) : Prop :=
  job.enableOverwriteDetection = true → job.fileConfirmed = true

section Read

variable {z : Zstd} {id : Int} {src : PathStr} {files : List FileEntry} {job : TransferJob}
  {n : Nat} {d : Disk} {e : FileEntry} {q : Place} {ino : Nat} {data : Content}

theorem AtEntry.next (h : AtEntry id src files job n) :
    AtEntry id src files { job.nextFile with dataStream := none } (n + 1) :=
  ⟨h.id, h.generic, h.source, h.files, by simp [TransferJob.nextFile, h.num]⟩

theorem read_end (h : AtEntry id src files job n) (hn : files[n]? = none) (io) :
    job.read z d io = (.ok .nothing, { job with dataStream := none }, d) := by
  simp [TransferJob.read, h.source, h.files, h.num, hn]

theorem read_marker (h : AtEntry id src files job n) (hn : files[n]? = some e)
    (hmarker : isMarker e.name = true) (io) :
    job.read z d io = (.ok (.block ⟨id, n, [], false⟩), job.nextFile, d) := by
  simp [TransferJob.read, h.source, h.files, h.num, hn, hmarker, h.id]

/-- With an open file that is confirmed, `read` goes straight to the file. -/
theorem read_open (z : Zstd) (d : Disk) (h : AtEntry id src files job n) (hr : Regular files n e)
    {handle : Handle} (hstream : job.dataStream = some (.fileStream handle)) (hclear : Clear job)
    (io) : job.read z d io = job.readBlock z e.name (.fileStream handle) d io := by
  have hasks : ¬ (job.jobType = .generic ∧ job.enableOverwriteDetection = true ∧
      ¬ job.fileConfirmed = true) := fun hasks => hasks.2.2 (hclear hasks.2.1)
  simp only [TransferJob.read, h.source, h.files, h.num, asUsize_natCast, hr.1, hr.2, hstream,
    Bool.false_eq_true, if_false, TransferJob.readConfirmed]
  exact if_neg hasks

/-- A read that gives something. -/
theorem readBlock_chunk (hz : z.RoundTrip) (h : AtEntry id src files job n) (hi : d.Inodes)
    (hq : d.get q = some (.file ino data)) {k : Nat} {buf : Content}
    (hbuf : (data.drop k).take job.bufSize = buf) (hne : buf ≠ []) (digest : FileDigest) :
    ∃ block job', job.readBlock z e.name (.fileStream ⟨ino, k, false⟩) d (.fine digest) =
        (.ok (.block block), job', d) ∧
      block.id = id ∧ block.fileNum = n ∧ TransferJob.payload z block = buf ∧
      AtEntry id src files job' n ∧ (Clear job → Clear job') ∧
      job'.dataStream = some (.fileStream ⟨ino, k + buf.length, false⟩) := by
  obtain ⟨turns, hturns⟩ := Nat.exists_eq_add_of_lt (bufSize_pos job)
  have hfill : TransferJob.fill d job.bufSize (job.bufSize + 1) (.fileStream ⟨ino, k, false⟩) [] =
      .ok (buf, .fileStream ⟨ino, k + buf.length, false⟩) := by
    have hfuel : job.bufSize + 1 = turns + 2 := by omega
    rw [hfuel]
    exact fill_file hi hq job.bufSize k turns hbuf
  have hlen : ¬ buf.length = 0 := fun hzero => hne (List.length_eq_zero_iff.mp hzero)
  let opened : TransferJob :=
    { job with dataStream := some (.fileStream ⟨ino, k + buf.length, false⟩) }
  refine ⟨⟨job.id, job.fileNum, (opened.pack z e.name buf).1, (opened.pack z e.name buf).2⟩,
    { opened with
      finishedSize := opened.finishedSize + buf.length
      transferred := opened.transferred + (opened.pack z e.name buf).1.length },
    ?_, h.id, h.num, payload_pack hz opened e.name buf _ _,
    ⟨h.id, h.generic, h.source, h.files, h.num⟩, fun hc => hc, rfl⟩
  simp only [TransferJob.readBlock, TransferJob.Io.fine, hfill, TransferJob.orFails, hlen, if_false]
  rfl

/-- A read at the end of the file: an empty block, and the next entry. -/
theorem readBlock_end (h : AtEntry id src files job n) (hi : d.Inodes)
    (hq : d.get q = some (.file ino data)) {k : Nat} (hend : data.drop k = [])
    (digest : FileDigest) :
    ∃ job', job.readBlock z e.name (.fileStream ⟨ino, k, false⟩) d (.fine digest) =
        (.ok (.block ⟨job.id, job.fileNum, [], false⟩), job', d) ∧
      AtEntry id src files job' (n + 1) ∧ job'.dataStream = none ∧ job'.fileIsWaiting = false := by
  obtain ⟨turns, hturns⟩ := Nat.exists_eq_add_of_lt (bufSize_pos job)
  have hfill : TransferJob.fill d job.bufSize (job.bufSize + 1) (.fileStream ⟨ino, k, false⟩) [] =
      .ok ([], .fileStream ⟨ino, k + ([] : Content).length, false⟩) := by
    have hfuel : job.bufSize + 1 = turns + 2 := by omega
    rw [hfuel]
    exact fill_file hi hq job.bufSize k turns (by rw [hend, List.take_nil])
  let opened : TransferJob :=
    { job with dataStream := some (.fileStream ⟨ino, k + ([] : Content).length, false⟩) }
  have hopened : AtEntry id src files opened n := ⟨h.id, h.generic, h.source, h.files, h.num⟩
  refine ⟨{ opened.nextFile with dataStream := none }, ?_, hopened.next, rfl, rfl⟩
  simp only [TransferJob.readBlock, TransferJob.Io.fine, hfill, TransferJob.orFails,
    List.length_nil, if_true]
  split
  · rename_i hsource
    cases hsource.symm.trans h.source
  · rfl

/-- The first call at a file opens it, and asks for a confirmation when that is the custom. -/
theorem read_opens (h : AtEntry id src files job n) (hr : Regular files n e)
    (hclosed : job.dataStream = none)
    (hstat : d.stat (TransferJob.join src e.name) = some (.file ino data)) :
    ∃ job', AtEntry id src files job' n ∧
      job'.dataStream = some (.fileStream ⟨ino, 0, false⟩) ∧ Clear job' ∧
      ∀ blocks, Sends z job' d blocks → Sends z job d blocks := by
  have hopen : d.openRead (TransferJob.join src e.name) = .ok (⟨ino, 0, false⟩, d) := by
    simp [Disk.openRead, hstat]
  let opened : TransferJob :=
    { job with
      dataStream := some (.fileStream ⟨ino, 0, false⟩)
      fileConfirmed := false
      fileIsWaiting := false }
  have hread (digest : FileDigest) : job.read z d (.fine digest) =
      opened.readConfirmed z e.name (.fileStream ⟨ino, 0, false⟩) d (.fine digest) := by
    have hfile : job.files[asUsize job.fileNum]? = some e := by
      rw [h.files, h.num, asUsize_natCast]
      exact hr.1
    simp only [TransferJob.read, hfile, hr.2, hclosed, Bool.false_eq_true, if_false]
    split
    · rename_i hsource
      obtain rfl := DataSource.filePath.inj (hsource.symm.trans h.source)
      simp only [hopen]
      rfl
    · rename_i hsource
      cases hsource.symm.trans h.source
  cases hdetects : job.enableOverwriteDetection with
  | false =>
    have hclear : Clear opened := by
      intro hdetects'
      cases hdetects.symm.trans hdetects'
    have hopened : AtEntry id src files opened n := ⟨h.id, h.generic, h.source, h.files, h.num⟩
    refine ⟨opened, hopened, rfl, hclear, fun blocks hsends => ?_⟩
    have hsame (digest : FileDigest) :
        job.read z d (.fine digest) = opened.read z d (.fine digest) := by
      rw [read_open z d hopened hr rfl hclear, hread]
      have hasks : ¬ (opened.jobType = .generic ∧ opened.enableOverwriteDetection = true ∧
          ¬ opened.fileConfirmed = true) := by
        intro hasks
        cases hdetects.symm.trans hasks.2.1
      exact if_neg hasks
    cases hsends with
    | done hnone hidle => exact .done ((hsame _).trans hnone) hidle
    | confirm hasked hconfirm hrest => exact .confirm ((hsame _).trans hasked) hconfirm hrest
    | block hsome hrest => exact .block ((hsame _).trans hsome) hrest
  | true =>
    have hasks : opened.jobType = .generic ∧ opened.enableOverwriteDetection = true ∧
        ¬ opened.fileConfirmed = true := ⟨h.generic, hdetects, Bool.false_ne_true⟩
    have hasked : job.read z d (.fine ⟨0, 0⟩) = (.ok (.digest ⟨job.id, job.fileNum, 0, 0, false,
        false, 0, job.isResume⟩), { opened with fileIsWaiting := true }, d) := by
      rw [hread]
      simp only [TransferJob.readConfirmed, if_pos hasks]
      rfl
    refine ⟨({ opened with fileIsWaiting := true } : TransferJob).setFileConfirmed true,
      ⟨h.id, h.generic, h.source, h.files, h.num⟩, rfl, fun _ => rfl, fun blocks hsends => ?_⟩
    refine .confirm hasked ?_ hsends
    simp [TransferJob.confirm]

/-- The numbers of a digest only go into its message. -/
theorem read_fine (z : Zstd) (job : TransferJob) (d : Disk) (digest digest' : FileDigest) :
    job.read z d (.fine digest) = job.read z d (.fine digest') ∨
      ∃ asked asked' job' d', job.read z d (.fine digest) = (.ok (.digest asked), job', d') ∧
        job.read z d (.fine digest') = (.ok (.digest asked'), job', d') := by
  have hconfirmed (job : TransferJob) (name : PathStr) (stream : DataStream) (d : Disk) :
      job.readConfirmed z name stream d (.fine digest) =
          job.readConfirmed z name stream d (.fine digest') ∨
        ∃ asked asked' job' d',
          job.readConfirmed z name stream d (.fine digest) = (.ok (.digest asked), job', d') ∧
          job.readConfirmed z name stream d (.fine digest') = (.ok (.digest asked'), job', d') := by
    unfold TransferJob.readConfirmed
    split
    · split
      · exact .inl rfl
      · cases stream with
        | bufStream data pos => exact .inl rfl
        | fileStream h => exact .inr ⟨_, _, _, _, rfl, rfl⟩
    · exact .inl rfl
  unfold TransferJob.read
  split
  · split
    · exact .inl rfl
    · split
      · exact .inl rfl
      · split
        · exact hconfirmed _ _ _ _
        · cases d.openRead _ with
          | error err => exact .inl rfl
          | ok x => exact hconfirmed _ _ _ _
  · split
    · exact hconfirmed _ _ _ _
    · exact hconfirmed _ _ _ _

end Read

/-! ## The whole list -/

/-- The blocks of one entry. -/
structure EntryBlocks (z : Zstd) (id : Int) (files : List FileEntry) (bytes : Nat → Content) (n : Nat)
    (blocks : List FileTransferBlock) : Prop where
  nonempty : blocks ≠ []
  ids : ∀ b ∈ blocks, b.id = id ∧ b.fileNum = n
  payload : ∀ {e}, Regular files n e → blocks.flatMap (TransferJob.payload z) = bytes n
  marker : ∀ {e}, files[n]? = some e → isMarker e.name = true → blocks.length = 1

/-- The blocks of the entries from the `n`th on. -/
inductive Emitted (z : Zstd) (id : Int) (files : List FileEntry) (bytes : Nat → Content) :
    Nat → List FileTransferBlock → Prop
  | done : Emitted z id files bytes files.length []
  | entry {n : Nat} {blocks rest : List FileTransferBlock} (hn : n < files.length)
      (h : EntryBlocks z id files bytes n blocks) (hrest : Emitted z id files bytes (n + 1) rest) :
      Emitted z id files bytes n (blocks ++ rest)

section Whole

variable {z : Zstd} {id : Int} {src : PathStr} {files : List FileEntry} {bytes : Nat → Content}
  {d : Disk}

/-- The rest of an open file, and then what comes after it. -/
theorem sends_file (hz : z.RoundTrip) (hi : d.Inodes) {n : Nat} {e : FileEntry}
    (hr : Regular files n e) {q : Place} {ino : Nat} {data : Content}
    (hq : d.get q = some (.file ino data))
    (hnext : ∀ job, AtEntry id src files job (n + 1) → job.dataStream = none →
      job.fileIsWaiting = false → ∃ rest, Sends z job d rest ∧ Emitted z id files bytes (n + 1) rest)
    {job : TransferJob} (h : AtEntry id src files job n) {k : Nat}
    (hstream : job.dataStream = some (.fileStream ⟨ino, k, false⟩)) (hclear : Clear job) :
    ∃ blocks rest, Sends z job d (blocks ++ rest) ∧ Emitted z id files bytes (n + 1) rest ∧
      blocks ≠ [] ∧ (∀ b ∈ blocks, b.id = id ∧ b.fileNum = n) ∧
      blocks.flatMap (TransferJob.payload z) = data.drop k := by
  induction hleft : data.length - k using Nat.strong_induction_on generalizing job k with
  | _ left ih =>
    have hread := read_open z d h hr hstream hclear (.fine ⟨0, 0⟩)
    by_cases hend : data.drop k = []
    · obtain ⟨job', hblock, hat, hclosed, hidle⟩ := readBlock_end h hi hq hend ⟨0, 0⟩
      obtain ⟨rest, hsends, hemitted⟩ := hnext job' hat hclosed hidle
      refine ⟨[⟨job.id, job.fileNum, [], false⟩], rest, .block (hread.trans hblock) hsends, hemitted,
        List.cons_ne_nil _ _, ?_, ?_⟩
      · intro b hb
        obtain rfl := List.mem_singleton.mp hb
        exact ⟨h.id, h.num⟩
      · simp [TransferJob.payload, hend]
    · obtain ⟨buf, hbuf⟩ : ∃ buf, (data.drop k).take job.bufSize = buf := ⟨_, rfl⟩
      have hpos := bufSize_pos job
      have hlen : buf.length = min job.bufSize (data.length - k) := by
        rw [← hbuf, List.length_take, List.length_drop]
      have hmore : 0 < data.length - k := by
        rw [List.drop_eq_nil_iff] at hend
        omega
      have hne : buf ≠ [] := by
        intro hnil
        rw [hnil, List.length_nil] at hlen
        omega
      obtain ⟨block, job', hblock, hid, hnum, hpayload, hat, hclear', hstream'⟩ :=
        readBlock_chunk hz h hi hq hbuf hne ⟨0, 0⟩
      have hshorter : data.length - (k + buf.length) < left := by omega
      obtain ⟨blocks, rest, hsends, hemitted, -, hids, hcontent⟩ :=
        ih _ hshorter hat hstream' (hclear' hclear) rfl
      refine ⟨block :: blocks, rest, .block (hread.trans hblock) hsends, hemitted,
        List.cons_ne_nil _ _, ?_, ?_⟩
      · intro b hb
        rcases List.mem_cons.mp hb with rfl | hb
        · exact ⟨hid, hnum⟩
        · exact hids b hb
      · have hrest : data.drop (k + buf.length) = (data.drop k).drop job.bufSize := by
          rw [List.drop_drop, List.drop_eq_drop_iff, hlen]
          omega
        rw [List.flatMap_cons, hpayload, hcontent, hrest, ← hbuf, List.take_append_drop]

/-- **A sender that is clear to send goes through its whole list.** -/
theorem sends_from (hz : z.RoundTrip) (hi : d.Inodes) (hreadable : Readable d src files bytes) (n : Nat)
    {job : TransferJob} (h : AtEntry id src files job n) (hn : n ≤ files.length)
    (hclosed : job.dataStream = none) (hidle : job.fileIsWaiting = false) :
    ∃ blocks, Sends z job d blocks ∧ Emitted z id files bytes n blocks := by
  induction hleft : files.length - n generalizing job n with
  | zero =>
    obtain rfl : n = files.length := by omega
    have hnone : files[files.length]? = none := List.getElem?_eq_none le_rfl
    exact ⟨[], .done (read_end h hnone (.fine ⟨0, 0⟩)) hidle, .done⟩
  | succ left ih =>
    have hlt : n < files.length := by omega
    obtain ⟨e, he⟩ : ∃ e, files[n]? = some e := ⟨_, List.getElem?_eq_getElem hlt⟩
    have hrest : ∀ job, AtEntry id src files job (n + 1) → job.dataStream = none →
        job.fileIsWaiting = false →
        ∃ rest, Sends z job d rest ∧ Emitted z id files bytes (n + 1) rest :=
      fun job hat hclosed hidle => ih (n + 1) hat (by omega) hclosed hidle (by omega)
    cases hmarker : isMarker e.name with
    | true =>
      obtain ⟨rest, hsends, hemitted⟩ := hrest job.nextFile
        ⟨h.id, h.generic, h.source, h.files, by simp [TransferJob.nextFile, h.num]⟩ hclosed rfl
      refine ⟨[⟨id, n, [], false⟩] ++ rest, .block (read_marker h he hmarker (.fine ⟨0, 0⟩)) hsends,
        .entry hlt ⟨?_, ?_, ?_, ?_⟩ hemitted⟩
      · exact List.cons_ne_nil _ _
      · intro b hb
        obtain rfl := List.mem_singleton.mp hb
        exact ⟨rfl, rfl⟩
      · intro e' hr
        obtain rfl := Option.some.inj (he.symm.trans hr.1)
        exact nomatch hmarker.symm.trans hr.2
      · intro _ _ _
        rfl
    | false =>
      have hr : Regular files n e := ⟨he, hmarker⟩
      obtain ⟨ino, hstat⟩ := hreadable hr
      obtain ⟨job', hat, hstream, hclear, hopens⟩ := read_opens h hr hclosed hstat
      obtain ⟨blocks, rest, hsends, hemitted, hsome, hids, hcontent⟩ :=
        sends_file hz hi hr (Disk.stat_file hstat) hrest hat hstream hclear
      refine ⟨blocks ++ rest, hopens _ hsends, .entry hlt ⟨hsome, hids, ?_, ?_⟩ hemitted⟩
      · intro _ _
        exact hcontent
      · intro e' he' hmarker'
        obtain rfl := Option.some.inj (he.symm.trans he')
        exact nomatch hmarker.symm.trans hmarker'

/-- What a sender emits is determined. -/
theorem Sends.unique {job : TransferJob} {blocks blocks' : List FileTransferBlock}
    (h : Sends z job d blocks) (h' : Sends z job d blocks') : blocks = blocks' := by
  induction h generalizing blocks' with
  | @done job job' d d' digest hread hidle =>
    cases h' with
    | done => rfl
    | @confirm _ _ _ _ _ _ digest' _ _ hread' =>
      rcases read_fine z job d digest digest' with heq | ⟨_, _, _, _, hasked, -⟩
      · cases hread.symm.trans (heq.trans hread')
      · cases hread.symm.trans hasked
    | @block _ _ _ _ digest' _ _ hread' =>
      rcases read_fine z job d digest digest' with heq | ⟨_, _, _, _, hasked, -⟩
      · cases hread.symm.trans (heq.trans hread')
      · cases hread.symm.trans hasked
  | @confirm job job' job'' d d' d'' digest asked blocks hread hconfirm _ ih =>
    cases h' with
    | @done _ _ _ _ digest' hread' =>
      rcases read_fine z job d digest digest' with heq | ⟨_, _, _, _, -, hasked⟩
      · cases hread.symm.trans (heq.trans hread')
      · cases hread'.symm.trans hasked
    | @confirm _ _ _ _ _ _ digest' _ _ hread' hconfirm' hrest' =>
      rcases read_fine z job d digest digest' with heq | ⟨_, _, _, _, hasked, hasked'⟩
      · cases hread.symm.trans (heq.trans hread')
        cases hconfirm.symm.trans hconfirm'
        exact ih hrest'
      · cases hread.symm.trans hasked
        cases hread'.symm.trans hasked'
        cases hconfirm.symm.trans hconfirm'
        exact ih hrest'
    | @block _ _ _ _ digest' _ _ hread' =>
      rcases read_fine z job d digest digest' with heq | ⟨_, _, _, _, -, hasked⟩
      · cases hread.symm.trans (heq.trans hread')
      · cases hread'.symm.trans hasked
  | @block job job' d d' digest block blocks hread _ ih =>
    have hsame {digest' : FileDigest} {r : Except JobError TransferJob.Yield × TransferJob × Disk}
        (hread' : job.read z d (.fine digest') = r) : r = (.ok (.block block), job', d') := by
      rcases read_fine z job d digest digest' with heq | ⟨_, _, _, _, hasked, -⟩
      · exact hread'.symm.trans (heq.symm.trans hread)
      · cases hread.symm.trans hasked
    cases h' with
    | done hread' => cases hsame hread'
    | confirm hread' => cases hsame hread'
    | block hread' hrest' =>
      cases hsame hread'
      rw [ih hrest']

/-- **What a sender emits, it emits entry after entry, and all of it.** -/
theorem sender_emits (id : Int) (hz : z.RoundTrip) (hi : d.Inodes)
    (hreadable : Readable d src files bytes) (overwrite direct : Bool) :
    ∃ blocks, Sends z (sender id src files overwrite direct) d blocks ∧
      Emitted z id files bytes 0 blocks :=
  sends_from hz hi hreadable 0 ⟨rfl, rfl, rfl, rfl, rfl⟩ (Nat.zero_le _) rfl rfl

end Whole

end HopToDesk.Transfer
