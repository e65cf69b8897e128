import HopToDesk.Laws.Transfer.Reading
import HopToDesk.Transfer.Isolation

/-!
# What a sender has told

What the reading end has sent says what has become of its files (`Tells`): of a file that was
emitted, its blocks; of one that failed, an error with the number after it. Blocks come in the order
of the list, a marker has one block, and a file is asked about before its first block. Until a file
fails there are only digests and blocks, and then the last message says that the job is done.
-/

set_option autoImplicit false

namespace HopToDesk.Transfer

open Kit UnixPath
open TransferJob (Io Yield Confirm payload)
open ReadJob (orFails_ok)

/-- The blocks among the messages. -/
def blocksIn (sent : List Message) : List FileTransferBlock :=
  sent.filterMap fun
    | .block block => some block
    | _ => none

@[simp]
theorem blocksIn_append (sent sent' : List Message) :
    blocksIn (sent ++ sent') = blocksIn sent ++ blocksIn sent' := List.filterMap_append ..

@[simp]
theorem blocksIn_block (b : FileTransferBlock) : blocksIn [.block b] = [b] := rfl

theorem mem_blocksIn {sent : List Message} {b : FileTransferBlock} :
    b ∈ blocksIn sent ↔ Message.block b ∈ sent := by
  unfold blocksIn
  rw [List.mem_filterMap]
  constructor
  · rintro ⟨m, hm, heq⟩
    split at heq
    · cases heq
      exact hm
    · cases heq
  · intro hb
    exact ⟨_, hb, rfl⟩

/-- What the first of two messages allows of the second. -/
def Allows (files : List FileEntry) : Message → Message → Prop
  | .block b, .block b' => b.num < b'.num ∨ b.num = b'.num ∧ ∃ e, Regular files b.num e
  | .block b, .digest asked => b.num < asUsize asked.fileNum
  | _, _ => True

/-- The job of a message. -/
def Message.id : Message → Int
  | .digest asked => asked.id
  | .block b => b.id
  | .done id _ | .error id _ _ => id

/-- A digest or a block. -/
def Message.Plain : Message → Prop
  | .digest _ | .block _ => True
  | _ => False

/-- A file that is being read stays a file. -/
theorem fill_fileStream {d : Disk} {bufSize turns : Nat} {handle : Handle} {buf buf' : Content}
    {stream : DataStream}
    (h : TransferJob.fill d bufSize turns (.fileStream handle) buf = .ok (buf', stream)) :
    ∃ handle', stream = .fileStream handle' := by
  induction turns generalizing handle buf with
  | zero =>
    cases h
    exact ⟨handle, rfl⟩
  | succ turns ih =>
    unfold TransferJob.fill TransferJob.readStream at h
    cases hread : d.read handle (bufSize - buf.length) with
    | error err =>
      simp only [hread] at h
      cases h
    | ok x =>
      simp only [hread] at h
      split_ifs at h
      · cases h
        exact ⟨_, rfl⟩
      · exact ih h

namespace Trip

variable {T : Trip}

/-- What has been sent, for a job at the number `n`. -/
structure Tells (T : Trip) (sent : List Message) (r : ReadJob) (n : Nat) : Prop where
  id : r.job.id = T.id
  source : r.job.dataSource = .filePath T.src
  files : r.job.files = T.files
  num : r.job.fileNum = (n : Int)
  entered : r.entered = 0
  stream : ∀ {stream}, r.job.dataStream = some stream → ∃ h, stream = .fileStream h
  ids : ∀ m ∈ sent, m.id = T.id
  order : sent.Pairwise (Allows T.files)
  blocks : ∀ b ∈ blocksIn sent, b.fileNum = (b.num : Int) ∧ b.num ≤ n ∧ b.num < T.files.length
  /-- With a block of the file sent, it is open and confirmed. -/
  begun : ∀ b ∈ blocksIn sent, b.num = n → (∃ e, T.Regular n e) ∧ r.job.dataStream ≠ none ∧
    (r.job.jobType = .generic → r.job.enableOverwriteDetection = true → r.job.fileConfirmed = true)
  body : content T.z (blocksIn sent) n = r.body
  emitted : ∀ {i entered body}, .emitted i entered body ∈ r.past → i < n ∧ entered = 0 ∧
    content T.z (blocksIn sent) i = body ∧ ∃ b ∈ blocksIn sent, b.num = i
  reported : ∀ {i passed}, .reported i passed ∈ r.past → i < T.files.length ∧
    ∃ err, .error T.id ((i + 1 : Nat) : Int) err ∈ sent
  spotless : r.Spotless → r.job.fileError = none ∧ ∀ m ∈ sent, m.Plain

/-- What a call of `read` makes the loop send. -/
def said (result : Except JobError Yield) (job : TransferJob) : List Message :=
  match result with
  | .error err => [.error job.id job.fileNum err]
  | .ok (.block b) => [.block b]
  | .ok (.digest asked) => [.digest asked]
  | .ok .nothing => []

section Tells

variable {sent : List Message} {r : ReadJob} {n : Nat} {job : TransferJob} {io : Io} {d : Disk}

/-- The job changes in nothing that has been told. -/
theorem Tells.set (h : T.Tells sent r n) (hid : job.id = r.job.id)
    (hsource : job.dataSource = r.job.dataSource) (hfiles : job.files = r.job.files)
    (hnum : job.fileNum = r.job.fileNum) (htype : job.jobType = r.job.jobType)
    (hdetects : job.enableOverwriteDetection = r.job.enableOverwriteDetection)
    (hstream : job.dataStream = r.job.dataStream)
    (hconfirmed : r.job.fileConfirmed = true → job.fileConfirmed = true)
    (herror : job.fileError = r.job.fileError) : T.Tells sent { r with job } n := by
  refine { h with
    id := hid.trans h.id
    source := hsource.trans h.source
    files := hfiles.trans h.files
    num := hnum.trans h.num
    stream := ?_
    begun := ?_
    spotless := ?_ }
  · intro stream hopen
    exact h.stream (hstream.symm.trans hopen)
  · intro b hb hbn
    obtain ⟨hr, hopen, hconfirms⟩ := h.begun b hb hbn
    refine ⟨hr, hstream.symm ▸ hopen, fun hgeneric hdet => hconfirmed (hconfirms ?_ ?_)⟩
    · exact htype.symm.trans hgeneric
    · exact hdetects.symm.trans hdet
  · intro hspotless
    obtain ⟨hnone, hplain⟩ := h.spotless hspotless
    exact ⟨herror.trans hnone, hplain⟩

/-! ### What may be sent next -/

theorem Tells.mem_blocks (h : T.Tells sent r n) {b : FileTransferBlock} (hb : Message.block b ∈ sent) :
    b.num ≤ n := (h.blocks b (mem_blocksIn.mpr hb)).2.1

theorem Tells.order_snoc (h : T.Tells sent r n) {m : Message}
    (hm : ∀ {b}, Message.block b ∈ sent → Allows T.files (.block b) m) :
    (sent ++ [m]).Pairwise (Allows T.files) := by
  rw [List.pairwise_append]
  refine ⟨h.order, List.pairwise_singleton _ _, fun m₀ hm₀ m' hm' => ?_⟩
  obtain rfl := List.mem_singleton.mp hm'
  cases m₀ with
  | block b => exact hm hm₀
  | digest asked => trivial
  | done id fileNum => trivial
  | error id fileNum err => trivial

/-- A block of the file the job is at. -/
theorem Tells.order_block (h : T.Tells sent r n) {b : FileTransferBlock} (hb : b.num = n) :
    (sent ++ [Message.block b]).Pairwise (Allows T.files) := by
  apply h.order_snoc
  intro b' hb'
  rcases (h.mem_blocks hb').lt_or_eq with hlt | heq
  · exact .inl (hb ▸ hlt)
  · exact .inr ⟨heq.trans hb.symm, heq ▸ (h.begun b' (mem_blocksIn.mpr hb') heq).1⟩

/-- A digest, while no block of the file has been sent. -/
theorem Tells.order_digest (h : T.Tells sent r n) (hnone : ∀ b ∈ blocksIn sent, b.num ≠ n)
    {asked : FileTransferDigest} (hasked : asked.fileNum = (n : Int)) :
    (sent ++ [Message.digest asked]).Pairwise (Allows T.files) := by
  apply h.order_snoc
  intro b hb
  show b.num < asUsize asked.fileNum
  rw [hasked, asUsize_natCast]
  exact lt_of_le_of_ne (h.mem_blocks hb) (hnone b (mem_blocksIn.mpr hb))

/-! ### The steps of a job -/

/-- The job leaves its file for the next. What it sends at that carries nothing. -/
theorem Tells.leave (h : T.Tells sent r n) (ms : List Message) {outcome : Outcome}
    (hid : job.id = r.job.id) (hsource : job.dataSource = r.job.dataSource)
    (hfiles : job.files = r.job.files) (hnum : job.fileNum = r.job.fileNum + 1)
    (hstream : ∀ {stream}, job.dataStream = some stream → ∃ h, stream = .fileStream h)
    (hids : ∀ m ∈ ms, m.id = T.id) (horder : (sent ++ ms).Pairwise (Allows T.files))
    (hblocks : ∀ b ∈ blocksIn ms, b.fileNum = (n : Int) ∧ n < T.files.length ∧ payload T.z b = [])
    (hemitted : ∀ {i entered body}, outcome = .emitted i entered body →
      i = n ∧ entered = r.entered ∧ body = r.body ∧ ∃ b, b ∈ blocksIn ms)
    (hreported : ∀ {i passed}, outcome = .reported i passed → i = n ∧ n < T.files.length ∧
      ∃ err, .error T.id ((n + 1 : Nat) : Int) err ∈ ms)
    (hspotless : (∀ i passed, outcome ≠ .reported i passed) →
      job.fileError = r.job.fileError ∧ ∀ m ∈ ms, m.Plain) :
    T.Tells (sent ++ ms) (r.leave job outcome) (n + 1) := by
  have hnums : ∀ b ∈ blocksIn ms, b.num = n := by
    intro b hb
    rw [FileTransferBlock.num, (hblocks b hb).1, asUsize_natCast]
  have hempty : content T.z (blocksIn ms) n = [] := by
    unfold content
    rw [List.flatMap_eq_nil_iff]
    intro b hb
    exact (hblocks b (List.mem_filter.mp hb).1).2.2
  have hbelow : ∀ b ∈ blocksIn (sent ++ ms), b.num ≤ n := by
    intro b hb
    rw [blocksIn_append, List.mem_append] at hb
    rcases hb with hb | hb
    · exact (h.blocks b hb).2.1
    · exact (hnums b hb).le
  refine {
    id := hid.trans h.id
    source := hsource.trans h.source
    files := hfiles.trans h.files
    num := ?_
    entered := rfl
    stream := hstream
    ids := List.forall_mem_append.mpr ⟨h.ids, hids⟩
    order := horder
    blocks := ?_
    begun := ?_
    body := ?_
    emitted := ?_
    reported := ?_
    spotless := ?_ }
  · show job.fileNum = ((n + 1 : Nat) : Int)
    rw [hnum, h.num, Nat.cast_succ]
  · intro b hb
    have hle := hbelow b hb
    rw [blocksIn_append, List.mem_append] at hb
    rcases hb with hb | hb
    · obtain ⟨hcast, -, hlt⟩ := h.blocks b hb
      exact ⟨hcast, hle.trans (Nat.le_succ n), hlt⟩
    · obtain ⟨hcast, hlt, -⟩ := hblocks b hb
      rw [hnums b hb]
      exact ⟨hcast, Nat.le_succ n, hlt⟩
  · intro b hb hbn
    have hle := hbelow b hb
    omega
  · apply content_of_none
    intro b hb
    have hle := hbelow b hb
    omega
  · intro i entered body hpast
    rw [blocksIn_append, content_append]
    rcases List.mem_append.mp hpast with hpast | hlast
    · obtain ⟨hi, hentered, hcontent, b, hb, hbi⟩ := h.emitted hpast
      refine ⟨hi.trans (Nat.lt_succ_self n), hentered, ?_, b, List.mem_append_left _ hb, hbi⟩
      rw [hcontent, content_of_none T.z (blocksIn ms), List.append_nil]
      intro b' hb'
      rw [hnums b' hb']
      exact hi.ne'
    · obtain ⟨rfl, rfl, rfl, b, hb⟩ := hemitted (List.mem_singleton.mp hlast).symm
      refine ⟨Nat.lt_succ_self i, h.entered, ?_, b, List.mem_append_right _ hb, hnums b hb⟩
      rw [hempty, List.append_nil]
      exact h.body
  · intro i passed hpast
    rcases List.mem_append.mp hpast with hpast | hlast
    · obtain ⟨hlt, err, herr⟩ := h.reported hpast
      exact ⟨hlt, err, List.mem_append_left _ herr⟩
    · obtain ⟨rfl, hlt, err, herr⟩ := hreported (List.mem_singleton.mp hlast).symm
      exact ⟨hlt, err, List.mem_append_right _ herr⟩
  · intro hnone
    have hbefore : r.Spotless := fun i passed hmem => hnone i passed (List.mem_append_left _ hmem)
    have houtcome : ∀ i passed, outcome ≠ .reported i passed := by
      rintro i passed rfl
      exact hnone i passed (List.mem_append_right _ List.mem_cons_self)
    obtain ⟨herror, hplain⟩ := h.spotless hbefore
    obtain ⟨hsame, hms⟩ := hspotless houtcome
    exact ⟨hsame.trans herror, List.forall_mem_append.mpr ⟨hplain, hms⟩⟩

/-- The last block of an entry, which is empty. -/
theorem Tells.finish (h : T.Tells sent r n) (hn : n < T.files.length) (hid : job.id = r.job.id)
    (hsource : job.dataSource = r.job.dataSource) (hfiles : job.files = r.job.files)
    (hnum : job.fileNum = r.job.fileNum + 1) (herror : job.fileError = r.job.fileError)
    (hstream : ∀ {stream}, job.dataStream = some stream → ∃ h, stream = .fileStream h) :
    T.Tells (sent ++ [.block ⟨r.job.id, r.job.fileNum, [], false⟩])
      (r.leave job (.emitted (asUsize r.job.fileNum) r.entered r.body)) (n + 1) := by
  have hindex : asUsize r.job.fileNum = n := by rw [h.num, asUsize_natCast]
  apply h.leave _ hid hsource hfiles hnum hstream
  · intro m hm
    obtain rfl := List.mem_singleton.mp hm
    exact h.id
  · exact h.order_block (b := ⟨r.job.id, r.job.fileNum, [], false⟩) hindex
  · intro b hb
    obtain rfl := List.mem_singleton.mp hb
    exact ⟨h.num, hn, rfl⟩
  · intro i entered body heq
    cases heq
    exact ⟨hindex, rfl, rfl, _, List.mem_cons_self⟩
  · intro i passed heq
    cases heq
  · intro _
    refine ⟨herror, fun m hm => ?_⟩
    obtain rfl := List.mem_singleton.mp hm
    trivial

/-- A file that fails. -/
theorem Tells.fail (h : T.Tells sent r n) (hn : n < T.files.length) (err : JobError)
    (hid : job.id = r.job.id) (hsource : job.dataSource = r.job.dataSource)
    (hfiles : job.files = r.job.files) (hnum : job.fileNum = r.job.fileNum + 1)
    (hclosed : job.dataStream = none) :
    T.Tells (sent ++ [.error job.id job.fileNum err])
      (r.leave job (.reported (asUsize r.job.fileNum) true)) (n + 1) := by
  have hindex : asUsize r.job.fileNum = n := by rw [h.num, asUsize_natCast]
  apply h.leave _ hid hsource hfiles hnum
  · intro stream hopen
    cases hclosed.symm.trans hopen
  · intro m hm
    obtain rfl := List.mem_singleton.mp hm
    exact hid.trans h.id
  · exact h.order_snoc fun _ => trivial
  · intro b hb
    cases hb
  · intro i entered body heq
    cases heq
  · intro i passed heq
    cases heq
    refine ⟨hindex, hn, err, ?_⟩
    rw [hid, h.id, hnum, h.num, ← Nat.cast_succ]
    exact List.mem_cons_self
  · intro hnot
    exact absurd rfl (hnot _ _)

/-- A file that is skipped. -/
theorem Tells.skip (h : T.Tells sent r n) (i : Nat) (hid : job.id = r.job.id)
    (hsource : job.dataSource = r.job.dataSource) (hfiles : job.files = r.job.files)
    (hnum : job.fileNum = r.job.fileNum + 1) (hclosed : job.dataStream = none)
    (herror : job.fileError = r.job.fileError) :
    T.Tells sent (r.leave job (.skipped i)) (n + 1) := by
  have hleft : T.Tells (sent ++ []) (r.leave job (.skipped i)) (n + 1) := by
    apply h.leave [] hid hsource hfiles hnum
    · intro stream hopen
      cases hclosed.symm.trans hopen
    · exact List.forall_mem_nil _
    · rw [List.append_nil]
      exact h.order
    · exact List.forall_mem_nil _
    · intro i entered body heq
      cases heq
    · intro i passed heq
      cases heq
    · exact fun _ => ⟨herror, List.forall_mem_nil _⟩
  rwa [List.append_nil] at hleft

/-- A skip past the end of the list, which is of no file. -/
theorem Tells.beyond (h : T.Tells sent r n) (hn : T.files.length ≤ n)
    {job : TransferJob} {i : Nat} (hleft : T.Tells sent (r.leave job (.skipped i)) (n + 1)) :
    T.Tells sent { r with job } (n + 1) := by
  have hbody : r.body = [] := by
    rw [← h.body]
    apply content_of_none
    intro b hb
    have hlt := (h.blocks b hb).2.2
    omega
  refine { hleft with
    entered := h.entered
    body := hleft.body.trans hbody.symm
    emitted := fun hpast => hleft.emitted (List.mem_append_left _ hpast)
    reported := fun hpast => hleft.reported (List.mem_append_left _ hpast)
    spotless := fun hspotless => hleft.spotless ?_ }
  intro i passed hpast
  rcases List.mem_append.mp hpast with hpast | hlast
  · exact hspotless i passed hpast
  · cases List.mem_singleton.mp hlast

/-! One message more. -/

theorem Tells.ids_snoc (h : T.Tells sent r n) {m : Message} (hid : m.id = r.job.id) :
    ∀ m' ∈ sent ++ [m], m'.id = T.id :=
  List.forall_mem_append.mpr ⟨h.ids, List.forall_mem_singleton.mpr (hid.trans h.id)⟩

theorem Tells.reported_append (h : T.Tells sent r n) (told : List Message) {i : Nat}
    {passed : Bool} (hpast : .reported i passed ∈ r.past) : i < T.files.length ∧
      ∃ err, .error T.id ((i + 1 : Nat) : Int) err ∈ sent ++ told := by
  obtain ⟨hlt, err, herr⟩ := h.reported hpast
  exact ⟨hlt, err, List.mem_append_left _ herr⟩

theorem Tells.spotless_snoc (h : T.Tells sent r n) {m : Message} (hplain : m.Plain)
    (hspotless : r.Spotless) : r.job.fileError = none ∧ ∀ m' ∈ sent ++ [m], m'.Plain := by
  obtain ⟨hnone, hall⟩ := h.spotless hspotless
  exact ⟨hnone, List.forall_mem_append.mpr ⟨hall, List.forall_mem_singleton.mpr hplain⟩⟩

/-- A block that is not the last of its file. -/
theorem Tells.more (h : T.Tells sent r n) (hr : ∃ e, T.Regular n e) {b : FileTransferBlock}
    (hid : b.id = r.job.id) (hnum : b.fileNum = r.job.fileNum)
    (hopen : r.job.dataStream ≠ none)
    (hconfirmed : r.job.jobType = .generic → r.job.enableOverwriteDetection = true →
      r.job.fileConfirmed = true) :
    T.Tells (sent ++ [.block b]) { r with body := r.body ++ payload T.z b } n := by
  have hbn : b.num = n := by rw [FileTransferBlock.num, hnum, h.num, asUsize_natCast]
  obtain ⟨e, hr⟩ := hr
  have hn : n < T.files.length := (List.getElem?_eq_some_iff.mp hr.1).1
  refine { h with
    ids := h.ids_snoc hid
    order := h.order_block hbn
    blocks := ?_
    begun := fun _ _ _ => ⟨⟨e, hr⟩, hopen, hconfirmed⟩
    body := ?_
    emitted := ?_
    reported := fun hpast => h.reported_append _ hpast
    spotless := h.spotless_snoc trivial }
  · intro b' hb'
    rw [blocksIn_append, List.mem_append] at hb'
    rcases hb' with hb' | hb'
    · exact h.blocks b' hb'
    · obtain rfl := List.mem_singleton.mp hb'
      exact ⟨by rw [hbn, hnum, h.num], hbn.le, hbn ▸ hn⟩
  · rw [blocksIn_append, blocksIn_block, ← hbn, content_snoc, hbn, h.body]
  · intro i entered body hpast
    obtain ⟨hi, hentered, hcontent, b', hb', hb'i⟩ := h.emitted hpast
    rw [blocksIn_append, blocksIn_block, content_snoc_of_ne _ _ (hbn.trans_ne hi.ne')]
    exact ⟨hi, hentered, hcontent, b', List.mem_append_left _ hb', hb'i⟩

/-- A digest. The job waits for its confirmation. -/
theorem Tells.ask (h : T.Tells sent r n) {asked : FileTransferDigest} (hid : asked.id = r.job.id)
    (hnum : asked.fileNum = r.job.fileNum) (hgeneric : r.job.jobType = .generic)
    (hdetects : r.job.enableOverwriteDetection = true) (hnot : ¬ r.job.fileConfirmed = true) :
    T.Tells (sent ++ [.digest asked]) { r with job := { r.job with fileIsWaiting := true } } n := by
  have hnone : ∀ b ∈ blocksIn sent, b.num ≠ n := by
    intro b hb hbn
    exact hnot ((h.begun b hb hbn).2.2 hgeneric hdetects)
  have hblocks : blocksIn (sent ++ [Message.digest asked]) = blocksIn sent := by
    rw [blocksIn_append]
    exact List.append_nil _
  exact { h with
    ids := h.ids_snoc hid
    order := h.order_digest hnone (hnum.trans h.num)
    blocks := hblocks ▸ h.blocks
    begun := fun b hb hbn => absurd hbn (hnone b (hblocks ▸ hb))
    body := hblocks ▸ h.body
    emitted := fun hpast => hblocks ▸ h.emitted hpast
    reported := fun hpast => h.reported_append _ hpast
    spotless := h.spotless_snoc trivial }

/-! ### One call of `read` -/

/-- What a call has sent is told. -/
def Told (T : Trip) (sent : List Message) (out : Except JobError Yield × ReadJob × Disk) : Prop :=
  ∃ n, T.Tells (sent ++ said out.1 out.2.1.job) out.2.1 n

theorem Tells.moved (h : T.Tells sent r n) : r.job.fileNum + 1 ≠ r.job.fileNum := by
  rw [h.num]
  omega

section Open

variable {e : FileEntry} (h : T.Tells sent r n) (hr : T.Regular n e) {stream : DataStream}
include h hr

theorem Tells.readBlock (hopen : r.job.dataStream = some stream)
    (hconfirmed : r.job.jobType = .generic → r.job.enableOverwriteDetection = true →
      r.job.fileConfirmed = true) : T.Told sent (r.readBlock T.z e.name stream d io) := by
  have hn : n < T.files.length := (List.getElem?_eq_some_iff.mp hr.1).1
  have hmoved := h.moved
  unfold ReadJob.readBlock TransferJob.readBlock
  dsimp only
  split
  · rename_i err hfails
    simp only [ReadJob.record]
    rw [if_neg (by exact hmoved)]
    exact ⟨n + 1, h.fail hn err rfl rfl rfl rfl rfl⟩
  · rename_i buf stream' hfilled
    obtain ⟨handle, rfl⟩ : ∃ handle, stream' = .fileStream handle := by
      obtain ⟨handle, rfl⟩ := h.stream hopen
      exact fill_fileStream (orFails_ok hfilled)
    split_ifs with hend
    · split
      · rename_i hmemory
        cases hmemory.symm.trans h.source
      · simp only [ReadJob.record]
        rw [if_neg (by exact hmoved)]
        refine ⟨n + 1, h.finish hn rfl rfl rfl rfl rfl ?_⟩
        intro stream hsome
        cases hsome
    · simp only [ReadJob.record, if_true]
      have hstays : T.Tells sent { r with job := { r.job with
          dataStream := some (.fileStream handle)
          finishedSize := r.job.finishedSize + buf.length
          transferred := r.job.transferred + (r.job.pack T.z e.name buf).1.length } } n := by
        refine { h with
          stream := ?_
          begun := fun b hb hbn => ⟨⟨e, hr⟩, Option.some_ne_none _, hconfirmed⟩ }
        intro stream hsome
        exact ⟨handle, (Option.some.inj hsome).symm⟩
      exact ⟨n, hstays.more ⟨e, hr⟩ rfl rfl (Option.some_ne_none _) hconfirmed⟩

theorem Tells.readConfirmed (hopen : r.job.dataStream = some stream)
    (hdigest : ∃ digest, io.digest = .ok digest) : T.Told sent
      (let out := r.job.readConfirmed T.z e.name stream d io
       (out.1, r.record T.z out.1 out.2.1, out.2.2)) := by
  unfold TransferJob.readConfirmed
  split
  · rename_i hasks
    obtain ⟨hgeneric, hdetects, hnot⟩ := hasks
    split
    · refine ⟨n, ?_⟩
      show T.Tells (sent ++ []) r n
      rwa [List.append_nil]
    · obtain ⟨handle, rfl⟩ := h.stream hopen
      obtain ⟨digest, hdigest⟩ := hdigest
      simp only [TransferJob.currentDigest, hdigest]
      exact ⟨n, h.ask rfl rfl hgeneric hdetects hnot⟩
  · rename_i hasks
    refine h.readBlock hr hopen fun hgeneric hdetects => ?_
    by_contra hnot
    exact hasks ⟨hgeneric, hdetects, hnot⟩

end Open

/-- **What one call of `read` tells.** -/
theorem Tells.read (h : T.Tells sent r n) (hdigest : ∃ digest, io.digest = .ok digest) :
    T.Told sent (r.read T.z d io) := by
  have hmoved := h.moved
  cases hn : r.job.files[n]? with
  | none =>
    have hpast : T.files.length ≤ n := by
      rw [← h.files]
      exact List.getElem?_eq_none_iff.mp hn
    simp only [ReadJob.read, ReadJob.read_past h.source h.num hn, ReadJob.record]
    refine ⟨n, ?_⟩
    show T.Tells (sent ++ []) _ n
    rw [List.append_nil]
    refine { h with stream := ?_, begun := ?_ }
    · intro stream hopen
      cases hopen
    · intro b hb hbn
      have hlt := (h.blocks b hb).2.2
      omega
  | some e =>
    have hlisted : T.Listed n e := by
      rw [h.files] at hn
      exact hn
    have hlt : n < T.files.length := (List.getElem?_eq_some_iff.mp hlisted).1
    cases hmarker : isMarker e.name with
    | true =>
      simp only [ReadJob.read, ReadJob.read_at_marker h.source h.num hn hmarker, ReadJob.record]
      rw [if_neg (by exact hmoved), ← h.num]
      exact ⟨n + 1, h.finish hlt rfl rfl rfl rfl rfl h.stream⟩
    | false =>
      have hr : Transfer.Regular r.job.files n e := ⟨hn, hmarker⟩
      cases hopen : r.job.dataStream with
      | some stream =>
        simp only [ReadJob.read, ReadJob.read_at_open h.source h.num hr hopen]
        exact h.readConfirmed ⟨hlisted, hmarker⟩ hopen hdigest
      | none =>
        simp only [ReadJob.read, ReadJob.read_at_closed h.source h.num hr hopen]
        split
        · rename_i handle d' _
          have hopened : T.Tells sent { r with job := { r.job with
              dataStream := some (.fileStream handle)
              fileConfirmed := false
              fileIsWaiting := false } } n := by
            refine { h with stream := ?_, begun := ?_ }
            · intro stream hsome
              exact ⟨handle, (Option.some.inj hsome).symm⟩
            · intro b hb hbn
              exact absurd hopen (h.begun b hb hbn).2.1
          exact hopened.readConfirmed ⟨hlisted, hmarker⟩ rfl hdigest
        · rename_i err _
          simp only [ReadJob.record]
          rw [if_neg (by exact hmoved)]
          exact ⟨n + 1, h.fail hlt err rfl rfl rfl rfl hopen⟩

/-! ### A confirmation and a tick -/

theorem Tells.confirm (h : T.Tells sent r n) {fileNum : Int} {union : Option Confirm}
    (hunion : Unresumed union) {r' : ReadJob} {d' : Disk}
    (hr : r.confirm fileNum union d = some (r', d')) : ∃ n', T.Tells sent r' n' := by
  unfold ReadJob.confirm at hr
  rw [Option.map_eq_some_iff] at hr
  obtain ⟨⟨job, d₁⟩, hconfirm, heq⟩ := hr
  cases heq
  unfold TransferJob.confirm at hconfirm
  by_cases hsame : r.job.fileNum = fileNum
  · subst hsame
    have hindex : asUsize r.job.fileNum = n := by rw [h.num, asUsize_natCast]
    rw [if_neg (not_not.mpr rfl)] at hconfirm
    simp only [ReadJob.recordConfirm, hindex, ne_eq, not_true, if_false]
    rcases union with - | ⟨⟨⟩ | ⟨⟩⟩ | offset
    · cases hconfirm
      exact ⟨n, h⟩
    · cases hconfirm
      exact ⟨n, h.set rfl rfl rfl rfl rfl rfl rfl (fun _ => rfl) rfl⟩
    · cases hconfirm
      have hleft : T.Tells sent (r.leave r.job.setFileSkipped (.skipped n)) (n + 1) :=
        h.skip n rfl rfl rfl rfl rfl rfl
      refine ⟨n + 1, ?_⟩
      dsimp only
      split_ifs with hn
      · exact hleft
      · rw [h.files, not_lt] at hn
        exact h.beyond hn hleft
    · obtain rfl := hunion offset rfl
      dsimp only at hconfirm ⊢
      rw [if_neg (lt_irrefl 0)] at hconfirm
      cases hconfirm
      rw [if_pos (by rfl)]
      exact ⟨n, h.set rfl rfl rfl rfl rfl rfl rfl (fun _ => rfl) rfl⟩
  · rw [if_pos hsame] at hconfirm
    cases hconfirm
    refine ⟨n, ?_⟩
    unfold ReadJob.recordConfirm
    rw [if_pos hsame]
    exact h

/-- **What a tick tells.** When the job is over, the last message comes after it. -/
theorem Tells.serve (maxBytes blocks bytesSent : Nat) {ios : Nat → Io}
    (hdigests : ∀ n, ∃ digest, (ios n).digest = .ok digest) (h : T.Tells sent r n) (d : Disk) :
    ∃ told n', T.Tells (sent ++ told) (serve T.z maxBytes blocks bytesSent ios r d).job n' ∧
      (serve T.z maxBytes blocks bytesSent ios r d).sent = told ++
        if (serve T.z maxBytes blocks bytesSent ios r d).finished
        then [lastMessage (serve T.z maxBytes blocks bytesSent ios r d).job.job] else [] := by
  induction blocks generalizing bytesSent ios sent r d n with
  | zero =>
    refine ⟨[], n, ?_, rfl⟩
    rwa [List.append_nil]
  | succ blocks ih =>
    obtain ⟨n', hread⟩ := h.read (d := d) (hdigests 0)
    unfold Transfer.serve
    split
    · rename_i err job d' hcall
      rw [hcall] at hread
      exact ⟨_, n', hread, rfl⟩
    · rename_i block job d' hcall
      rw [hcall] at hread
      dsimp only
      by_cases hstop : blocks = 0 ∨ maxBytes ≤ bytesSent + block.data.length
      · rw [if_pos hstop]
        exact ⟨_, n', hread, rfl⟩
      · rw [if_neg hstop]
        obtain ⟨told, n'', hrest, hsent⟩ :=
          ih (bytesSent + block.data.length) (fun n => hdigests (n + 1)) hread d'
        refine ⟨.block block :: told, n'', ?_, ?_⟩
        · rw [List.append_cons]
          exact hrest
        · dsimp only at hsent ⊢
          rw [hsent]
          rfl
    · rename_i result job d' hloud hcall
      rw [hcall] at hread
      dsimp only
      by_cases hcompleted : job.job.jobCompleted = true
      · rw [if_pos hcompleted]
        cases result with
        | block b => exact absurd rfl (hloud b)
        | nothing => exact ⟨_, n', hread, rfl⟩
        | digest asked => exact ⟨_, n', hread, rfl⟩
      · rw [if_neg hcompleted]
        cases result with
        | block b => exact absurd rfl (hloud b)
        | nothing => exact ⟨_, n', hread, rfl⟩
        | digest asked => exact ⟨_, n', hread, rfl⟩

end Tells

/-! ## A run -/

/-- What a run of one job has sent: what it tells, and when it is over the last message. -/
def Sent (T : Trip) (s : Reader) : Prop :=
  (∃ r n, s.jobs = [r] ∧ s.ended = [] ∧ T.Tells s.sent r n) ∨
    ∃ r n told, s.jobs = [] ∧ s.ended = [r] ∧ s.sent = told ++ [lastMessage r.job] ∧
      T.Tells told r n

theorem Begins.sent {start : Nat} {job : TransferJob} (h : T.Begins start job) :
    T.Sent ⟨[.new job], T.source, [], []⟩ := by
  refine .inl ⟨_, start, rfl, rfl, ?_⟩
  exact {
    id := h.id
    source := h.source
    files := h.files
    num := h.num
    entered := rfl
    stream := fun hopen => nomatch h.closed.symm.trans hopen
    ids := List.forall_mem_nil _
    order := .nil
    blocks := List.forall_mem_nil _
    begun := fun b hb => nomatch hb
    body := rfl
    emitted := fun hpast => nomatch hpast
    reported := fun hpast => nomatch hpast
    spotless := fun _ => ⟨h.fine, List.forall_mem_nil _⟩ }

/-- **What a step sends is told.** -/
theorem Sent.next {s s' : Reader} (h : T.Sent s) {event : ReadEvent} (hevent : event.FromStart)
    (hs : s.next T.z event = some s') : T.Sent s' := by
  rcases h with ⟨r, n, hjobs, hended, htells⟩ | ⟨r, n, told, hjobs, hended, hsent, htells⟩
  · cases event with
    | tick direct ios =>
      cases hs
      unfold Reader.handleReadJobs
      rw [hjobs, List.span_eq_takeWhile_dropWhile]
      by_cases hlast : r.job.isLastJob = true
      · simp only [List.dropWhile_cons, hlast, if_true, List.dropWhile_nil]
        exact .inl ⟨r, n, hjobs, hended, htells⟩
      · simp only [List.takeWhile_cons, List.dropWhile_cons, hlast, if_false, Bool.false_eq_true]
        obtain ⟨told, n', hserved, hmessages⟩ := htells.serve (maxBytesPerTick direct)
          (maxBlocksPerTick direct) 0 hevent s.disk
        split_ifs with hfinished
        · rw [if_pos hfinished] at hmessages
          refine .inr ⟨_, n', s.sent ++ told, ?_, ?_, ?_, hserved⟩
          · simp
          · simp [hended]
          · dsimp only
            rw [hmessages, List.append_assoc]
        · rw [if_neg hfinished, List.append_nil] at hmessages
          refine .inl ⟨_, n', rfl, hended, ?_⟩
          dsimp only
          rw [hmessages]
          exact hserved
    | confirm id fileNum union =>
      obtain ⟨⟨jobs, disk⟩, hconfirm, heq⟩ := Option.map_eq_some_iff.mp hs
      cases heq
      rcases Reader.confirmJob_cases hconfirm with ⟨rfl, rfl⟩ | ⟨before, r₁, r', after, hall, rfl, hr⟩
      · exact .inl ⟨r, n, hjobs, hended, htells⟩
      · rw [hjobs] at hall
        obtain ⟨rfl, rfl, rfl⟩ : before = [] ∧ r₁ = r ∧ after = [] := by
          cases before with
          | nil =>
            cases hall
            exact ⟨rfl, rfl, rfl⟩
          | cons r₂ before => simp at hall
        obtain ⟨n', htells'⟩ := htells.confirm hevent hr
        exact .inl ⟨r', n', rfl, hended, htells'⟩
  · cases event with
    | tick direct ios =>
      cases hs
      unfold Reader.handleReadJobs
      rw [hjobs]
      exact .inr ⟨r, n, told, hjobs, hended, hsent, htells⟩
    | confirm id fileNum union =>
      obtain ⟨⟨jobs, disk⟩, hconfirm, heq⟩ := Option.map_eq_some_iff.mp hs
      cases heq
      rw [hjobs] at hconfirm
      cases hconfirm
      exact .inr ⟨r, n, told, rfl, hended, hsent, htells⟩

/-- What has been sent when the job is over. -/
theorem Begins.ended {start : Nat} {job : TransferJob} (h : T.Begins start job) {s : Reader}
    (hs : (T.sending job).Reachable s) {r : ReadJob} (hended : s.ended = [r]) :
    ∃ told n, s.sent = told ++ [lastMessage r.job] ∧ T.Tells told r n := by
  have hsent : T.Sent s := by
    refine System.Reachable.invariant (S := T.sending job) ?_ ?_ hs
    · rintro s₀ rfl
      exact h.sent
    · intro s₀ event s₁ hsent hstep
      exact hsent.next hstep.1 hstep.2
  rcases hsent with ⟨r', n, -, hnone, -⟩ | ⟨r', n, told, -, hended', hsent, htells⟩
  · cases hnone.symm.trans hended
  · obtain rfl : r' = r := List.singleton_injective (hended'.symm.trans hended)
    exact ⟨told, n, hsent, htells⟩

end Trip

end HopToDesk.Transfer
