import Mathlib.Data.Prod.Lex
import HopToDesk.Kit.System
import HopToDesk.Laws.Transfer.Serving

/-!
# A job comes to its end

A turn either finds the job waiting, or brings it on: to the next file, to a digest that goes out,
to some more of the file, or to its end. A confirmation that answers a digest brings it on as well
(`rank`). An error always takes the job to its next file, as long as the digests can be sent.

So a job sends at most one error for each of its files, and one more with its end: the last error
is sent again when the job is removed.
-/

set_option autoImplicit false

namespace HopToDesk.Transfer

open Kit UnixPath
open TransferJob (Io Yield Confirm)

/-! ## What is left of a stream -/

/-- The bytes that are left to read. -/
def left (d : Disk) : DataStream → Nat
  | .fileStream h =>
    match (d.placeOf h.ino).bind d.get with
    | some (.file _ data) => data.length - h.offset
    | _ => 0
  | .bufStream data pos => data.length - pos

section Streams

variable {d : Disk} {stream stream' : DataStream} {n : Nat} {bytes : Content}

/-- What is read is what there was left. -/
theorem left_readStream (h : TransferJob.readStream stream n d = .ok (bytes, stream')) :
    left d stream' + bytes.length = left d stream := by
  unfold TransferJob.readStream at h
  cases stream with
  | bufStream data pos =>
    cases h
    simp only [left, List.length_take, List.length_drop]
    omega
  | fileStream handle =>
    dsimp only at h
    split at h
    next bytes handle' hread =>
      cases h
      unfold Disk.read at hread
      split at hread
      next => cases hread
      next =>
        split at hread
        next ino data hfile =>
          cases hread
          simp only [left, hfile, List.length_take, List.length_drop]
          omega
        next => cases hread
    next => cases h

theorem left_fill {bufSize turns : Nat} {buf buf' : Content}
    (h : TransferJob.fill d bufSize turns stream buf = .ok (buf', stream')) :
    left d stream' + buf'.length = left d stream + buf.length := by
  induction turns generalizing stream buf with
  | zero =>
    cases h
    rfl
  | succ turns ih =>
    rw [TransferJob.fill] at h
    split at h
    next => cases h
    next bytes stream₁ hread =>
      have hleft := left_readStream hread
      dsimp only at h
      split at h
      · cases h
        rw [List.length_append]
        omega
      · have hrest := ih h
        rw [List.length_append] at hrest
        omega

/-- Bytes in memory stay bytes in memory, and reading them does not fail. -/
theorem fill_bufStream (data : Content) (pos bufSize turns : Nat) (buf : Content) :
    ∃ buf' pos', TransferJob.fill d bufSize turns (.bufStream data pos) buf =
      .ok (buf', .bufStream data pos') := by
  induction turns generalizing pos buf with
  | zero => exact ⟨buf, pos, rfl⟩
  | succ turns ih =>
    rw [TransferJob.fill, TransferJob.readStream]
    dsimp only
    split
    · exact ⟨_, _, rfl⟩
    · exact ih _ _

end Streams

/-! ## A block -/

/-- It is a stream of this source. -/
def OfSource : DataSource → DataStream → Prop
  | .filePath _, .fileStream _ => True
  | .memoryCursor _, .bufStream _ _ => True
  | _, _ => False

section Block

variable {z : Zstd} {job : TransferJob} {stream : DataStream} {d : Disk} {io : Io}

/-- What comes of a block: the read fails and the job leaves the file; the file is at its end and
the job leaves it; there is nothing more in memory; or there is some more. -/
theorem readBlock_cases (hof : OfSource job.dataSource stream) (hio : Serving.Works job io)
    (name : PathStr) :
    (∃ p err, job.dataSource = .filePath p ∧ job.readBlock z name stream d io =
      (.error err, { job.nextFile with dataStream := none, fileError := some err }, d)) ∨
    (∃ p b, job.dataSource = .filePath p ∧ job.readBlock z name stream d io =
      (.ok (.block b), { job.nextFile with dataStream := none }, d)) ∨
    (∃ data, job.dataSource = .memoryCursor data ∧ job.readBlock z name stream d io =
      (.ok .nothing, { job with dataStream := none }, d)) ∨
    ∃ b stream' finishedSize transferred, OfSource job.dataSource stream' ∧
      left d stream' < left d stream ∧ job.readBlock z name stream d io =
        (.ok (.block b), { job with
          dataStream := some stream', finishedSize, transferred }, d) := by
  unfold TransferJob.readBlock
  dsimp only
  cases hreads : TransferJob.orFails io.readFails
      (TransferJob.fill d job.bufSize (job.bufSize + 1) stream []) with
  | error err =>
    cases hsource : job.dataSource with
    | filePath p => exact .inl ⟨p, err, rfl, rfl⟩
    | memoryCursor data =>
      rw [hsource] at hof
      cases stream with
      | fileStream h => exact hof.elim
      | bufStream bytes pos =>
        obtain ⟨buf, pos', hfill⟩ :=
          fill_bufStream (d := d) bytes pos job.bufSize (job.bufSize + 1) []
        rw [hio.2 data hsource, hfill] at hreads
        cases hreads
  | ok x =>
    obtain ⟨buf, stream'⟩ := x
    have hfill := ReadJob.orFails_ok hreads
    have hof' : OfSource job.dataSource stream' := by
      cases stream with
      | fileStream h =>
        obtain ⟨h', rfl⟩ := fill_fileStream hfill
        revert hof
        cases job.dataSource with
        | filePath p => exact id
        | memoryCursor data => exact id
      | bufStream bytes pos =>
        obtain ⟨buf', pos', hfill'⟩ :=
          fill_bufStream (d := d) bytes pos job.bufSize (job.bufSize + 1) []
        cases hfill'.symm.trans hfill
        revert hof
        cases job.dataSource with
        | filePath p => exact id
        | memoryCursor data => exact id
    have hleft := left_fill hfill
    rw [List.length_nil, Nat.add_zero] at hleft
    dsimp only
    split
    next =>
      split
      next data hsource => exact .inr (.inr (.inl ⟨data, hsource, rfl⟩))
      next p hsource => exact .inr (.inl ⟨p, _, hsource, rfl⟩)
    next hmore =>
      refine .inr (.inr (.inr ⟨_, stream', _, _, hof', ?_, rfl⟩))
      omega

end Block

/-! ## Where a job is -/

namespace TransferJob

/-- The job asks before it sends. -/
def asks (self : TransferJob) : Bool :=
  decide (self.jobType = .generic) && self.enableOverwriteDetection

/-- The number of files that the job has not come past. -/
def ahead (self : TransferJob) : Nat := self.files.length - self.fileNum.toNat

/-- How far it is with its file: nothing open, not confirmed, or on its way. -/
def phase (self : TransferJob) : Nat :=
  match self.dataStream with
  | none => 2
  | some _ => if self.asks && !self.fileConfirmed then 1 else 0

end TransferJob

namespace Serving

/-- What brings a job to its end: files, then phases, then bytes. -/
def rank (s : Serving) : ℕ ×ₗ ℕ ×ₗ ℕ :=
  toLex (s.job.ahead, toLex (s.job.phase, (s.job.dataStream.map (left s.disk)).getD 0))

/-- A job of `L` files while its digests are answered: what is open is the file it is at, it waits
only for what it has asked, and is confirmed only where it waits. -/
structure Steady (L : Nat) (s : Serving) : Prop where
  length : s.job.files.length = L
  /-- No vector is longer. -/
  short : L < 2 ^ 63
  num : -2 ^ 31 ≤ s.job.fileNum
  inodes : s.disk.Inodes
  printer : ∀ {data}, s.job.dataSource = .memoryCursor data → s.job.jobType = .printer
  stream : ∀ {stream}, s.job.dataStream = some stream → OfSource s.job.dataSource stream
  listed : ∀ {stream p}, s.job.dataStream = some stream → s.job.dataSource = .filePath p →
    ∃ e, Regular s.job.files (asUsize s.job.fileNum) e
  asked : ∀ {stream}, s.job.dataStream = some stream → s.job.asks = true →
    s.job.fileIsWaiting = true
  waits : s.job.fileIsWaiting = true → s.job.asks = true ∧ s.job.dataStream ≠ none
  confirmed : s.job.fileConfirmed = true → s.job.fileIsWaiting = true
  count : s.errors + s.job.ahead ≤ L

/-- What a turn comes to. An error takes the job to its next file; and the job waits and all is as
before, or it is removed, or it has come on. -/
structure ComesOn (z : Zstd) (L : Nat) (s : Serving) (io : Io) : Prop where
  moves : ∀ {err}, (s.job.read z s.disk io).1 = .error err →
    (s.turn z io).job.fileNum = s.job.fileNum + 1
  comes : (s.turn z io = s ∧ s.job.fileIsWaiting = true ∧ s.job.fileConfirmed = false) ∨
    ((s.turn z io).removed = true ∧ (s.turn z io).errors ≤ L + 1) ∨
    ((s.turn z io).removed = false ∧ (s.turn z io).Steady L ∧ (s.turn z io).rank < s.rank)

section Steady

variable {z : Zstd} {L : Nat} {s s' : Serving} {io : Io}

theorem rank_lt_of_ahead (h : s'.job.ahead < s.job.ahead) : s'.rank < s.rank :=
  Prod.Lex.toLex_lt_toLex.mpr (.inl h)

theorem rank_lt_of_phase (h : s'.job.ahead = s.job.ahead) (hphase : s'.job.phase < s.job.phase) :
    s'.rank < s.rank :=
  Prod.Lex.toLex_lt_toLex.mpr (.inr ⟨h, Prod.Lex.toLex_lt_toLex.mpr (.inl hphase)⟩)

theorem rank_lt_of_left (h : s'.job.ahead = s.job.ahead) (hphase : s'.job.phase = s.job.phase)
    {stream stream' : DataStream} (hopen : s.job.dataStream = some stream)
    (hopen' : s'.job.dataStream = some stream')
    (hleft : left s'.disk stream' < left s.disk stream) : s'.rank < s.rank := by
  refine Prod.Lex.toLex_lt_toLex.mpr (.inr ⟨h, Prod.Lex.toLex_lt_toLex.mpr (.inr ⟨hphase, ?_⟩)⟩)
  rw [hopen, hopen']
  exact hleft

/-- A number that names a file is one of the list, counted from its start. -/
theorem Steady.toNat_num (h : s.Steady L) (hin : asUsize s.job.fileNum < L) :
    0 ≤ s.job.fileNum ∧ s.job.fileNum.toNat < L := by
  have hnum := h.num
  have hshort := h.short
  unfold asUsize at hin
  split at hin
  · omega
  · omega

/-- The job has come to its next file, with nothing open. -/
theorem Steady.onward (h : s.Steady L) (hin : asUsize s.job.fileNum < L)
    (hfiles : s'.job.files = s.job.files) (htype : s'.job.jobType = s.job.jobType)
    (hsource : s'.job.dataSource = s.job.dataSource) (hnum : s'.job.fileNum = s.job.fileNum + 1)
    (hclosed : s'.job.dataStream = none) (hwaits : s'.job.fileIsWaiting = false)
    (hconfirmed : s'.job.fileConfirmed = false) (hi : s'.disk.Inodes)
    (herrors : s'.errors ≤ s.errors + 1) : s'.Steady L ∧ s'.rank < s.rank := by
  obtain ⟨hpos, hlt⟩ := h.toNat_num hin
  have hlength := h.length
  have hahead : s'.job.ahead + 1 = s.job.ahead := by
    rw [TransferJob.ahead, TransferJob.ahead, hfiles, hnum]
    omega
  refine ⟨?_, rank_lt_of_ahead (by omega)⟩
  refine {
    length := hfiles ▸ hlength
    short := h.short
    num := by rw [hnum]; exact h.num.trans (Int.le.intro 1 rfl)
    inodes := hi
    printer := fun hmemory => htype.trans (h.printer (hsource ▸ hmemory))
    stream := fun hopen => by cases hclosed.symm.trans hopen
    listed := fun hopen => by cases hclosed.symm.trans hopen
    asked := fun hopen => by cases hclosed.symm.trans hopen
    waits := fun hwaiting => by cases hwaits.symm.trans hwaiting
    confirmed := fun hset => by cases hconfirmed.symm.trans hset
    count := ?_ }
  have hcount := h.count
  omega

/-- What a turn makes of a call of `read`. -/
theorem turn_of_read {result : Except JobError Yield} {job' : TransferJob} {d' : Disk}
    (hread : s.job.read z s.disk io = (result, job', d')) :
    (s.turn z io).job = job' ∧ (s.turn z io).disk = d' ∧
      (s.turn z io).removed = (readsNone result && job'.jobCompleted) ∧
      (s.turn z io).errors = s.errors + (messagesOf result job').countP Message.isError +
        (if readsNone result && job'.jobCompleted then [lastMessage job'] else []).countP
          Message.isError := by
  have hremoved : (s.turn z io).removed = (readsNone result && job'.jobCompleted) := by
    simp only [turn, hread]
  have hjob : (s.turn z io).job = job' := by simp only [turn, hread]
  refine ⟨hjob, by simp only [turn, hread], hremoved, ?_⟩
  rw [errors, sentMessages_turn, List.countP_append, List.countP_append, hread, hremoved, hjob]
  rfl

/-- A call of `read` that takes the job to its next file. -/
theorem Steady.leaves (h : s.Steady L) (hin : asUsize s.job.fileNum < L)
    {result : Except JobError Yield} {job' : TransferJob} {d' : Disk}
    (hread : s.job.read z s.disk io = (result, job', d')) (hloud : readsNone result = false)
    (hfiles : job'.files = s.job.files) (htype : job'.jobType = s.job.jobType)
    (hsource : job'.dataSource = s.job.dataSource) (hnum : job'.fileNum = s.job.fileNum + 1)
    (hclosed : job'.dataStream = none) (hwaits : job'.fileIsWaiting = false)
    (hconfirmed : job'.fileConfirmed = false) (hi : d'.Inodes) :
    ComesOn z L s io := by
  obtain ⟨rfl, rfl, hremoved, herrors⟩ := turn_of_read hread
  rw [hloud, Bool.false_and] at hremoved herrors
  have hone : (messagesOf result (s.turn z io).job).countP Message.isError ≤ 1 := by
    refine List.countP_le_length.trans ?_
    unfold messagesOf
    split
    · exact Nat.le_refl _
    · exact Nat.le_refl _
    · exact Nat.le_refl _
    · exact Nat.zero_le _
  refine ⟨fun _ => hnum, .inr (.inr ⟨hremoved, ?_⟩)⟩
  refine h.onward hin hfiles htype hsource hnum hclosed hwaits hconfirmed hi ?_
  rw [herrors]
  exact Nat.add_le_add_left hone _

/-- A call of `read` that is no error. -/
theorem ComesOn.of_ok {yield : Yield} {job' : TransferJob} {d' : Disk}
    (hread : s.job.read z s.disk io = (.ok yield, job', d'))
    (hcomes : (s.turn z io = s ∧ s.job.fileIsWaiting = true ∧ s.job.fileConfirmed = false) ∨
      ((s.turn z io).removed = true ∧ (s.turn z io).errors ≤ L + 1) ∨
      ((s.turn z io).removed = false ∧ (s.turn z io).Steady L ∧ (s.turn z io).rank < s.rank)) :
    ComesOn z L s io := by
  refine ⟨fun herr => ?_, hcomes⟩
  rw [hread] at herr
  cases herr

/-- A call of `read` after which the job is complete. -/
theorem Steady.over (h : s.Steady L) {job' : TransferJob} {d' : Disk}
    (hread : s.job.read z s.disk io = (.ok .nothing, job', d'))
    (hcompleted : job'.jobCompleted = true) : ComesOn z L s io := by
  obtain ⟨-, -, hremoved, herrors⟩ := turn_of_read hread
  rw [hcompleted, readsNone, Bool.and_self] at hremoved herrors
  refine .of_ok hread (.inr (.inl ⟨hremoved, ?_⟩))
  have hone : [lastMessage job'].countP Message.isError ≤ 1 := List.countP_le_length
  have hcount := h.count
  rw [herrors, if_pos rfl, messagesOf, List.countP_nil]
  omega

/-- The job is at the same file, with something open. -/
theorem Steady.stay (h : s.Steady L) (hfiles : s'.job.files = s.job.files)
    (hnum : s'.job.fileNum = s.job.fileNum) (hi : s'.disk.Inodes)
    (hprinter : ∀ {data}, s'.job.dataSource = .memoryCursor data → s'.job.jobType = .printer)
    {stream : DataStream} (hopen : s'.job.dataStream = some stream)
    (hof : OfSource s'.job.dataSource stream)
    (hlisted : ∀ {p}, s'.job.dataSource = .filePath p →
      ∃ e, Regular s.job.files (asUsize s.job.fileNum) e)
    (hasked : s'.job.fileIsWaiting = s'.job.asks)
    (hconfirmed : s'.job.fileConfirmed = true → s'.job.fileIsWaiting = true)
    (herrors : s'.errors = s.errors) : s'.Steady L := by
  have hahead : s'.job.ahead = s.job.ahead := by
    rw [TransferJob.ahead, TransferJob.ahead, hfiles, hnum]
  refine {
    length := hfiles ▸ h.length
    short := h.short
    num := hnum ▸ h.num
    inodes := hi
    printer := hprinter
    stream := ?_
    listed := ?_
    asked := fun _ hasks => hasked.trans hasks
    waits := fun hwaits => ⟨hasked ▸ hwaits, by rw [hopen]; exact Option.some_ne_none _⟩
    confirmed := hconfirmed
    count := by rw [herrors, hahead]; exact h.count }
  · intro stream' hopen'
    cases hopen.symm.trans hopen'
    exact hof
  · intro stream' p _ hsource
    rw [hfiles, hnum]
    exact hlisted hsource

/-- It is the same job, with this stream open, which it is to send from. -/
structure SendsFrom (job job₁ : TransferJob) (stream : DataStream) : Prop where
  files : job₁.files = job.files
  fileNum : job₁.fileNum = job.fileNum
  jobType : job₁.jobType = job.jobType
  source : ∀ {p}, job₁.dataSource = .filePath p → job.dataSource = .filePath p
  memory : ∀ {data}, job₁.dataSource = .memoryCursor data →
    ∃ data', job.dataSource = .memoryCursor data'
  opened : job₁.dataStream = some stream
  of : OfSource job₁.dataSource stream
  asked : job₁.fileIsWaiting = job₁.asks
  confirmed : job₁.fileConfirmed = job₁.asks

theorem SendsFrom.phase {job job₁ : TransferJob} {stream : DataStream}
    (h : SendsFrom job job₁ stream) :
    job₁.phase = 0 := by
  rw [TransferJob.phase, h.opened, h.confirmed]
  cases job₁.asks with
  | false => rfl
  | true => rfl

/-- A turn that sends from an open stream. -/
theorem Steady.block (h : s.Steady L) (hio : Works s.job io) {job₁ : TransferJob} {d₁ : Disk}
    {stream : DataStream} {name : PathStr}
    (hread : s.job.read z s.disk io = job₁.readBlock z name stream d₁ io)
    (hsends : SendsFrom s.job job₁ stream) (hi : d₁.Inodes)
    (hlisted : ∀ {p}, s.job.dataSource = .filePath p →
      ∃ e, Regular s.job.files (asUsize s.job.fileNum) e)
    (hbefore : s.job.phase = 2 ∨ s.job = job₁ ∧ s.disk = d₁) :
    ComesOn z L s io := by
  have hio₁ : Works job₁ io := by
    refine ⟨hio.1, fun data hmemory => ?_⟩
    obtain ⟨data', hmemory'⟩ := hsends.memory hmemory
    exact hio.2 data' hmemory'
  have hin : ∀ {p}, job₁.dataSource = .filePath p → asUsize s.job.fileNum < L := by
    intro p hsource
    obtain ⟨e, he, -⟩ := hlisted (hsends.source hsource)
    rw [← h.length]
    exact (List.getElem?_eq_some_iff.mp he).1
  rcases readBlock_cases (z := z) (d := d₁) hsends.of hio₁ name with
    ⟨p, err, hsource, hout⟩ | ⟨p, b, hsource, hout⟩ | ⟨data, hmemory, hout⟩ |
      ⟨b, stream', finishedSize, transferred, hof, hleft, hout⟩
  · exact h.leaves (hin hsource) (hread.trans hout) rfl hsends.files hsends.jobType
      (hsource.trans (hsends.source hsource).symm) (congrArg (· + 1) hsends.fileNum) rfl rfl rfl hi
  · exact h.leaves (hin hsource) (hread.trans hout) rfl hsends.files hsends.jobType
      (hsource.trans (hsends.source hsource).symm) (congrArg (· + 1) hsends.fileNum) rfl rfl rfl hi
  · obtain ⟨data', hmemory'⟩ := hsends.memory hmemory
    have htype : job₁.jobType = .printer := hsends.jobType.trans (h.printer hmemory')
    have hasks : job₁.asks = false := by
      rw [TransferJob.asks, htype]
      rfl
    refine h.over (hread.trans hout) ?_
    simp [TransferJob.jobCompleted, hsends.confirmed, hsends.asked, hasks]
  · obtain ⟨hjob, hdisk, hremoved, herrors⟩ := turn_of_read (hread.trans hout)
    have hprinter : ∀ {data}, (s.turn z io).job.dataSource = .memoryCursor data →
        (s.turn z io).job.jobType = .printer := by
      rw [hjob]
      intro data hmemory
      obtain ⟨data', hmemory'⟩ := hsends.memory hmemory
      exact hsends.jobType.trans (h.printer hmemory')
    have hfiles : (s.turn z io).job.files = s.job.files := by rw [hjob]; exact hsends.files
    have hnum : (s.turn z io).job.fileNum = s.job.fileNum := by rw [hjob]; exact hsends.fileNum
    have hopen : (s.turn z io).job.dataStream = some stream' := by rw [hjob]
    have hahead : (s.turn z io).job.ahead = s.job.ahead := by
      rw [TransferJob.ahead, TransferJob.ahead, hfiles, hnum]
    have hphase : (s.turn z io).job.phase = 0 := by
      rw [hjob, ← hsends.phase, TransferJob.phase, TransferJob.phase, hsends.opened]
      rfl
    refine .of_ok (hread.trans hout) (.inr (.inr ⟨hremoved, ?_, ?_⟩))
    · refine h.stay hfiles hnum ?_ hprinter hopen ?_ ?_ ?_ ?_ ?_
      · rw [hdisk]; exact hi
      · rw [hjob]; exact hof
      · intro p hsource
        rw [hjob] at hsource
        exact hlisted (hsends.source hsource)
      · rw [hjob]; exact hsends.asked
      · rw [hjob]
        intro hset
        exact (hsends.asked.trans hsends.confirmed.symm).trans hset
      · rw [herrors]
        rfl
    · rcases hbefore with htwo | ⟨hsame, hdisk'⟩
      · refine rank_lt_of_phase hahead ?_
        rw [hphase, htwo]
        exact Nat.two_pos
      · have hopened : s.job.dataStream = some stream := by
          rw [hsame]
          exact hsends.opened
        refine rank_lt_of_left hahead ?_ hopened hopen ?_
        · rw [hphase, hsame, hsends.phase]
        · rw [hdisk, hdisk']
          exact hleft

theorem opens_open {job : TransferJob} {d : Disk} {stream : DataStream}
    (hopen : job.dataStream = some stream) : job.opens d io = false := by
  unfold TransferJob.opens
  split
  · split
    · rfl
    · simp [hopen]
  · simp [hopen]

theorem readConfirmed_asks {job : TransferJob} {stream : DataStream} {d : Disk} {name : PathStr}
    (hasks : job.asks = true) (hconfirmed : job.fileConfirmed = false) :
    job.readConfirmed z name stream d io =
      if job.fileIsWaiting then (.ok .nothing, job, d)
      else match job.currentDigest stream io with
        | .error err => (.error err, job, d)
        | .ok digest => (.ok (.digest digest), { job with fileIsWaiting := true }, d) := by
  obtain ⟨hgeneric, hdetects⟩ := Bool.and_eq_true_iff.mp hasks
  unfold TransferJob.readConfirmed
  refine (if_pos ⟨of_decide_eq_true hgeneric, hdetects, by simp [hconfirmed]⟩).trans ?_
  rfl

theorem readConfirmed_sends {job : TransferJob} {stream : DataStream} {d : Disk} {name : PathStr}
    (hconfirmed : job.fileConfirmed = job.asks) :
    job.readConfirmed z name stream d io = job.readBlock z name stream d io := by
  unfold TransferJob.readConfirmed
  rw [if_neg]
  intro hall
  obtain ⟨hgeneric, hdetects, hset⟩ := hall
  refine hset (hconfirmed.trans ?_)
  rw [TransferJob.asks, hgeneric, hdetects]
  rfl

/-- A turn of a job that has something open. -/
theorem Steady.turn_open (h : s.Steady L) (hs : s.removed = false) (hio : Works s.job io)
    {stream : DataStream} (hopen : s.job.dataStream = some stream) {name : PathStr}
    (hread : s.job.read z s.disk io = s.job.readConfirmed z name stream s.disk io) :
    ComesOn z L s io := by
  have hwaits : s.job.fileIsWaiting = s.job.asks := by
    cases hasks : s.job.asks with
    | true => exact h.asked hopen hasks
    | false =>
      refine Bool.eq_false_iff.mpr fun hwaits => ?_
      cases hasks.symm.trans (h.waits hwaits).1
  by_cases hasked : s.job.asks = true ∧ s.job.fileConfirmed = false
  · -- It waits for its confirmation.
    obtain ⟨hasks, hconfirmed⟩ := hasked
    have hwaiting := hwaits.trans hasks
    rw [readConfirmed_asks hasks hconfirmed, if_pos hwaiting] at hread
    have hcompleted : s.job.jobCompleted = false := by
      have hdetects := (Bool.and_eq_true_iff.mp hasks).2
      simp [TransferJob.jobCompleted, hdetects, hwaiting]
    have hsame : s = ⟨s.job, s.disk, s.notes, false⟩ := by rw [← hs]
    refine .of_ok hread (.inl ⟨Eq.trans ?_ hsame.symm, hwaiting, hconfirmed⟩)
    simp only [turn, hread, opens_open hopen, messagesOf, hcompleted, Bool.and_false,
      Bool.false_eq_true, if_false, List.map_nil, List.append_nil]
  · have hconfirmed : s.job.fileConfirmed = s.job.asks := by
      cases hasks : s.job.asks with
      | true => exact (Bool.not_eq_false _).mp fun hset => hasked ⟨hasks, hset⟩
      | false =>
        refine Bool.eq_false_iff.mpr fun hset => ?_
        cases (hwaits.trans hasks).symm.trans (h.confirmed hset)
    rw [readConfirmed_sends hconfirmed] at hread
    have hsends : SendsFrom s.job s.job stream :=
      ⟨rfl, rfl, rfl, id, fun hmemory => ⟨_, hmemory⟩, hopen, h.stream hopen, hwaits, hconfirmed⟩
    exact h.block hio hread hsends h.inodes (fun hsource => h.listed hopen hsource)
      (.inr ⟨rfl, rfl⟩)

/-- A turn of a job that has just opened a file, or its data. -/
theorem Steady.turn_opened (h : s.Steady L) (hio : Works s.job io)
    (hclosed : s.job.dataStream = none) {job₁ : TransferJob} {d₁ : Disk} {stream : DataStream}
    {name : PathStr} (hread : s.job.read z s.disk io = job₁.readConfirmed z name stream d₁ io)
    (hi : d₁.Inodes) (hfiles : job₁.files = s.job.files) (hnum : job₁.fileNum = s.job.fileNum)
    (htype : job₁.jobType = s.job.jobType)
    (hsource : ∀ {p}, job₁.dataSource = .filePath p → s.job.dataSource = .filePath p)
    (hmemory : ∀ {data}, job₁.dataSource = .memoryCursor data →
      ∃ data', s.job.dataSource = .memoryCursor data')
    (hopened : job₁.dataStream = some stream) (hof : OfSource job₁.dataSource stream)
    (hconfirmed : job₁.fileConfirmed = false) (hwaits : job₁.fileIsWaiting = false)
    (hlisted : ∀ {p}, s.job.dataSource = .filePath p →
      ∃ e, Regular s.job.files (asUsize s.job.fileNum) e) : ComesOn z L s io := by
  have htwo : s.job.phase = 2 := by
    rw [TransferJob.phase, hclosed]
  cases hasks : job₁.asks with
  | false =>
    rw [readConfirmed_sends (hconfirmed.trans hasks.symm)] at hread
    have hsends : SendsFrom s.job job₁ stream :=
      ⟨hfiles, hnum, htype, hsource, hmemory, hopened, hof, hwaits.trans hasks.symm,
        hconfirmed.trans hasks.symm⟩
    exact h.block hio hread hsends hi hlisted (.inl htwo)
  | true =>
    -- Only a job with files asks.
    obtain ⟨digest, hdigest⟩ : ∃ digest, job₁.currentDigest stream io = .ok digest := by
      obtain ⟨digest, hdigest⟩ := hio.1
      cases hstream : stream with
      | fileStream handle =>
        simp only [TransferJob.currentDigest, hdigest]
        exact ⟨_, rfl⟩
      | bufStream data pos =>
        exfalso
        cases hsource₁ : job₁.dataSource with
        | filePath p =>
          rw [hsource₁, hstream] at hof
          exact hof
        | memoryCursor data' =>
          obtain ⟨data₀, hmemory₀⟩ := hmemory hsource₁
          have hprinter := htype.trans (h.printer hmemory₀)
          rw [TransferJob.asks, hprinter] at hasks
          cases hasks
    rw [readConfirmed_asks hasks hconfirmed, hwaits, if_neg Bool.false_ne_true, hdigest] at hread
    obtain ⟨hjob, hdisk, hremoved, herrors⟩ := turn_of_read hread
    have hcompleted : ({ job₁ with fileIsWaiting := true } : TransferJob).jobCompleted = false := by
      have hdetects : job₁.enableOverwriteDetection = true := (Bool.and_eq_true_iff.mp hasks).2
      simp [TransferJob.jobCompleted, hdetects]
    rw [hcompleted, Bool.and_false] at hremoved herrors
    have hfiles' : (s.turn z io).job.files = s.job.files := by rw [hjob]; exact hfiles
    have hnum' : (s.turn z io).job.fileNum = s.job.fileNum := by rw [hjob]; exact hnum
    have hopen' : (s.turn z io).job.dataStream = some stream := by rw [hjob]; exact hopened
    refine .of_ok hread (.inr (.inr ⟨hremoved, ?_, ?_⟩))
    · refine h.stay hfiles' hnum' ?_ ?_ hopen' ?_ ?_ ?_ ?_ ?_
      · rw [hdisk]; exact hi
      · rw [hjob]
        intro data hdata
        obtain ⟨data', hdata'⟩ := hmemory hdata
        exact htype.trans (h.printer hdata')
      · rw [hjob]; exact hof
      · intro p hp
        rw [hjob] at hp
        exact hlisted (hsource hp)
      · rw [hjob]; exact hasks.symm
      · rw [hjob]; intro _; rfl
      · rw [herrors]; rfl
    · refine rank_lt_of_phase ?_ ?_
      · rw [TransferJob.ahead, TransferJob.ahead, hfiles', hnum']
      · rw [htwo, TransferJob.phase, hopen']
        dsimp only
        split
        · exact Nat.one_lt_two
        · exact Nat.two_pos

/-- **A turn brings the job on, unless it waits.** -/
theorem Steady.turn (h : s.Steady L) (hs : s.removed = false) (hio : Works s.job io) :
    ComesOn z L s io := by
  cases hsource : s.job.dataSource with
  | memoryCursor data =>
    cases hopen : s.job.dataStream with
    | some stream =>
      have hread : s.job.read z s.disk io = s.job.readConfirmed z [] stream s.disk io := by
        simp only [TransferJob.read, hsource, hopen]
      exact h.turn_open hs hio hopen hread
    | none =>
      have hread : s.job.read z s.disk io = { s.job with
          dataSource := .memoryCursor []
          dataStream := some (.bufStream data 0) }.readConfirmed z [] (.bufStream data 0) s.disk
            io := by
        simp only [TransferJob.read, hsource, hopen]
      have hprinter := h.printer hsource
      have hidle : s.job.asks = false := by
        rw [TransferJob.asks, hprinter]
        rfl
      have hwaits : s.job.fileIsWaiting = false := by
        refine Bool.eq_false_iff.mpr fun hwaits => ?_
        cases hidle.symm.trans (h.waits hwaits).1
      have hconfirmed : s.job.fileConfirmed = false := by
        refine Bool.eq_false_iff.mpr fun hset => ?_
        cases hwaits.symm.trans (h.confirmed hset)
      refine h.turn_opened hio hopen hread h.inodes rfl rfl rfl ?_ ?_ rfl trivial hconfirmed hwaits
        ?_
      · intro p hp
        cases hp
      · exact fun _ => ⟨data, hsource⟩
      · intro p hp
        cases hsource.symm.trans hp
  | filePath p =>
    cases he : s.job.files[asUsize s.job.fileNum]? with
    | none =>
      have hirregular : ¬ ∃ e, Regular s.job.files (asUsize s.job.fileNum) e := by
        intro hregular
        obtain ⟨e, he', -⟩ := hregular
        cases he.symm.trans he'
      have hclosed : s.job.dataStream = none := by
        cases hopen : s.job.dataStream with
        | none => rfl
        | some stream => exact absurd (h.listed hopen hsource) hirregular
      have hwaits : s.job.fileIsWaiting = false :=
        Bool.eq_false_iff.mpr fun hwaits => (h.waits hwaits).2 hclosed
      have hconfirmed : s.job.fileConfirmed = false := by
        refine Bool.eq_false_iff.mpr fun hset => ?_
        cases hwaits.symm.trans (h.confirmed hset)
      refine h.over (reads_none z s.disk io hsource he).1 ?_
      simp [TransferJob.jobCompleted, hwaits, hconfirmed]
    | some e =>
      have hin : asUsize s.job.fileNum < L := by
        rw [← h.length]
        exact (List.getElem?_eq_some_iff.mp he).1
      cases hmarker : isMarker e.name with
      | true =>
        have hclosed : s.job.dataStream = none := by
          cases hopen : s.job.dataStream with
          | none => rfl
          | some stream =>
            obtain ⟨e', he', hfile⟩ := h.listed hopen hsource
            cases he.symm.trans he'
            cases hmarker.symm.trans hfile
        exact h.leaves hin (reads_marker z s.disk io hsource he hmarker).1 rfl rfl rfl rfl rfl
          hclosed rfl rfl h.inodes
      | false =>
        cases hopen : s.job.dataStream with
        | some stream =>
          exact h.turn_open hs hio hopen (reads_open z s.disk io hsource he hmarker hopen).1
        | none =>
          cases hopened : TransferJob.orFails io.openFails
              (s.disk.openRead (TransferJob.join p e.name)) with
          | error err =>
            exact h.leaves hin (reads_closed_fails z s.disk io hsource he hmarker hopen hopened).1
              rfl rfl rfl rfl rfl hopen rfl rfl h.inodes
          | ok x =>
            obtain ⟨handle, disk'⟩ := x
            have hd := (openRead_cases h.inodes (ReadJob.orFails_ok hopened)).1
            have hread := (reads_closed z s.disk io hsource he hmarker hopen hopened).1
            refine h.turn_opened hio hopen hread (hd.inodes h.inodes) rfl rfl rfl id ?_ rfl ?_ rfl
              rfl fun _ => ⟨e, he, hmarker⟩
            · exact fun hmemory => ⟨_, hmemory⟩
            · dsimp only
              rw [hsource]
              trivial

/-- What is noted of a confirmation is no message. -/
theorem sentMessages_confirmNotes (job : TransferJob) (fileNum : Int) (union : Option Confirm)
    (d : Disk) : sentMessages (job.confirmNotes fileNum union d) = [] := by
  unfold TransferJob.confirmNotes
  split
  · rfl
  · split
    · rfl
    · split
      · rfl
      · rfl
    · rfl

/-- A confirmation of the number a job is at skips the file or confirms it, and may open it. -/
theorem confirm_cases {job job' : TransferJob} {d d' : Disk} {union : Option Confirm} {p : PathStr}
    (hi : d.Inodes) (hsource : job.dataSource = .filePath p) (hunion : union ≠ none)
    {h : Handle} (hopen : job.dataStream = some (.fileStream h))
    (hconfirm : job.confirm job.fileNum union d = some (job', d')) :
    (job' = job.setFileSkipped ∧ d' = d) ∨
      ∃ h' transferred finishedSize, Disk.SameTree d d' ∧
        job' = { job.setFileConfirmed true with
          dataStream := some (.fileStream h'), transferred, finishedSize } := by
  unfold TransferJob.confirm at hconfirm
  rw [if_neg (not_not_intro rfl)] at hconfirm
  have hsame : job.setFileConfirmed true = { job.setFileConfirmed true with
      dataStream := some (.fileStream h) } := by rw [← hopen]; rfl
  split at hconfirm
  next =>
    cases hconfirm
    exact .inl ⟨rfl, rfl⟩
  next =>
    cases hconfirm
    exact .inr ⟨h, _, _, .refl d, hsame⟩
  next offset =>
    dsimp only at hconfirm
    split at hconfirm
    next =>
      have hsource' : (job.setFileConfirmed true).dataSource = .filePath p := hsource
      obtain ⟨hd, rfl | ⟨handle, transferred, finishedSize, rfl, -⟩⟩ :=
        ReadJob.setStreamOffset_cases hi hsource' hconfirm
      · exact .inr ⟨h, _, _, hd, hsame⟩
      · exact .inr ⟨handle, _, _, hd, rfl⟩
    next =>
      cases hconfirm
      exact .inr ⟨h, _, _, .refl d, hsame⟩
  next => exact absurd rfl hunion

/-- **A confirmation that is an answer brings the job on.** -/
theorem Steady.confirm (h : s.Steady L) (hs : s.removed = false) {fileNum : Int}
    {union : Option Confirm} (hanswer : Answered s (.confirm fileNum union))
    (hstep : step z s (.confirm fileNum union) s') :
    s'.removed = false ∧ s'.Steady L ∧ s'.rank < s.rank := by
  obtain ⟨hwaits, hconfirmed, rfl, hunion⟩ := hanswer
  obtain ⟨-, job, disk, hconfirm, rfl⟩ := hstep
  obtain ⟨hasks, hopen⟩ := h.waits hwaits
  obtain ⟨stream, hstream⟩ := Option.ne_none_iff_exists'.mp hopen
  obtain ⟨p, hsource⟩ : ∃ p, s.job.dataSource = .filePath p := by
    cases hsource : s.job.dataSource with
    | filePath p => exact ⟨p, rfl⟩
    | memoryCursor data =>
      rw [TransferJob.asks, h.printer hsource] at hasks
      cases hasks
  have hof := h.stream hstream
  rw [hsource] at hof
  obtain ⟨handle, rfl⟩ : ∃ handle, stream = .fileStream handle := by
    cases stream with
    | fileStream handle => exact ⟨handle, rfl⟩
    | bufStream data pos => exact hof.elim
  obtain ⟨e, he⟩ := h.listed hstream hsource
  have herrors : errors { s with
      job, disk
      notes := s.notes ++ s.job.confirmNotes s.job.fileNum union s.disk } = s.errors := by
    rw [errors, sentMessages_append, sentMessages_confirmNotes, List.append_nil]
    rfl
  refine ⟨hs, ?_⟩
  rcases confirm_cases h.inodes hsource hunion hstream hconfirm with
    ⟨rfl, rfl⟩ | ⟨handle', transferred, finishedSize, hd, rfl⟩
  · have hin : asUsize s.job.fileNum < L := by
      rw [← h.length]
      exact (List.getElem?_eq_some_iff.mp he.1).1
    exact h.onward hin rfl rfl rfl rfl rfl rfl rfl h.inodes (herrors.trans_le (Nat.le_succ _))
  · refine ⟨h.stay rfl rfl (hd.inodes h.inodes) h.printer rfl ?_ (fun _ => ⟨e, he⟩) ?_
      (fun _ => hwaits) herrors, rank_lt_of_phase rfl ?_⟩
    · show OfSource s.job.dataSource (.fileStream handle')
      rw [hsource]
      trivial
    · exact hwaits.trans hasks.symm
    · have hzero : TransferJob.phase { s.job.setFileConfirmed true with
          dataStream := some (.fileStream handle'), transferred, finishedSize } = 0 := by
        simp [TransferJob.phase, TransferJob.setFileConfirmed]
      have hone : s.job.phase = 1 := by
        rw [TransferJob.phase, hstream, hasks, hconfirmed]
        rfl
      rw [hzero, hone]
      exact Nat.one_pos

theorem Steady.changed (h : s.Steady L) {disk : Disk} (hd : Evolves s.disk disk) :
    Steady L { s with disk } := { h with inodes := hd.inodes h.inodes }

end Steady

/-! ## Runs -/

/-- A job as it is made: of files, or of data to print. -/
structure Made (job : TransferJob) : Prop where
  short : job.files.length < 2 ^ 63
  num : -2 ^ 31 ≤ job.fileNum
  printer : ∀ {data}, job.dataSource = .memoryCursor data → job.jobType = .printer
  closed : job.dataStream = none
  idle : job.fileIsWaiting = false ∧ job.fileConfirmed = false

section Runs

variable {z : Zstd} {job : TransferJob} {s s' : Serving}

theorem Made.steady (hjob : Made job) (hs : (system z job).init s) :
    s.removed = false ∧ s.Steady job.files.length := by
  obtain ⟨disk, hi, rfl⟩ := hs
  refine ⟨rfl, {
    length := rfl
    short := hjob.short
    num := hjob.num
    inodes := hi
    printer := hjob.printer
    stream := fun hopen => by cases hjob.closed.symm.trans hopen
    listed := fun hopen => by cases hjob.closed.symm.trans hopen
    asked := fun hopen => by cases hjob.closed.symm.trans hopen
    waits := fun hwaits => by cases hjob.idle.1.symm.trans hwaits
    confirmed := fun hset => by cases hjob.idle.2.symm.trans hset
    count := ?_ }⟩
  exact (Nat.zero_add _).trans_le (Nat.sub_le _ _)

/-- A job is steady until it is removed, and has sent no more errors than it may. -/
def SteadyOrOver (L : Nat) (s : Serving) : Prop :=
  (s.removed = false ∧ s.Steady L) ∨ (s.removed = true ∧ s.errors ≤ L + 1)

theorem SteadyOrOver.step {L : Nat} {event : ServeEvent} (h : s.SteadyOrOver L)
    (hanswered : s.Answered event) (hstep : step z s event s') : s'.SteadyOrOver L := by
  cases event with
  | turn io =>
    obtain ⟨hs, rfl⟩ := hstep
    obtain ⟨-, hsteady⟩ := h.resolve_right fun hover => by cases hs.symm.trans hover.1
    rcases (hsteady.turn hs hanswered).comes with ⟨hsame, -⟩ | hover | ⟨hs', hsteady', -⟩
    · rw [hsame]
      exact h
    · exact .inr hover
    · exact .inl ⟨hs', hsteady'⟩
  | confirm fileNum union =>
    have hs := hstep.1
    obtain ⟨-, hsteady⟩ := h.resolve_right fun hover => by cases hs.symm.trans hover.1
    obtain ⟨hs', hsteady', -⟩ := hsteady.confirm hs hanswered hstep
    exact .inl ⟨hs', hsteady'⟩
  | changed disk =>
    obtain ⟨hd, rfl⟩ := hstep
    exact h.imp (fun hsteady => ⟨hsteady.1, hsteady.2.changed hd⟩) id

theorem steadyOrOver_of_run (hjob : Made job) {events : List ServeEvent}
    (h : ((system z job).restrict Answered).Run events s) : s.SteadyOrOver job.files.length := by
  refine h.invariant (I := SteadyOrOver job.files.length) ?_ ?_
  · intro s hs
    exact .inl (hjob.steady (z := z) hs)
  · intro s event s' hsteady hstep
    exact hsteady.step hstep.1 hstep.2

/-- A fair run comes to the end of the job. -/
theorem Fair.exists_removed (hjob : Made job) {run : Nat → Serving} {events : Nat → ServeEvent}
    (h : Fair z job run events) : ∃ n, (run n).removed = true := by
  by_contra hnever
  have hthere : ∀ n, (run n).removed = false :=
    fun n => Bool.eq_false_iff.mpr fun hremoved => hnever ⟨n, hremoved⟩
  have hsteady : ∀ n, (run n).Steady job.files.length := by
    intro n
    have hn : (run n).SteadyOrOver job.files.length := by
      induction n with
      | zero => exact .inl (hjob.steady h.init)
      | succ n ih =>
        obtain ⟨hstep, hanswered⟩ := h.step n (hthere n)
        exact ih.step hanswered hstep
    exact (hn.resolve_right fun hover => by cases (hthere n).symm.trans hover.1).2
  -- What a step of the run does to the rank.
  have hanswer : ∀ n fileNum union, events n = .confirm fileNum union →
      (run (n + 1)).rank < (run n).rank := by
    intro n fileNum union hevent
    obtain ⟨hstep, hanswered⟩ := h.step n (hthere n)
    rw [hevent] at hstep hanswered
    exact ((hsteady n).confirm (hthere n) hanswered hstep).2.2
  have hturn : ∀ n io, events n = .turn io →
      (run (n + 1) = run n ∧ (run n).job.fileIsWaiting = true ∧
        (run n).job.fileConfirmed = false) ∨ (run (n + 1)).rank < (run n).rank := by
    intro n io hevent
    obtain ⟨hstep, hanswered⟩ := h.step n (hthere n)
    rw [hevent] at hstep hanswered
    obtain ⟨-, hnext⟩ := hstep
    have hremoved := hthere (n + 1)
    rw [hnext] at hremoved ⊢
    rcases ((hsteady n).turn (hthere n) hanswered).comes with hsame | hover | hon
    · exact .inl hsame
    · cases hremoved.symm.trans hover.1
    · exact .inr hon.2.2
  have hstay : ∀ n, ¬ (run n).removed = true → (run (n + 1)).rank ≤ (run n).rank := by
    intro n _
    cases hevent : events n with
    | turn io =>
      rcases hturn n io hevent with ⟨hsame, -⟩ | hless
      · exact (congrArg rank hsame).le
      · exact hless.le
    | confirm fileNum union => exact (hanswer n fileNum union hevent).le
    | changed disk => exact absurd hevent (h.quiet n disk)
  have hfall : ∀ n, ¬ (run n).removed = true →
      ∃ m ≥ n, (run m).removed = true ∨ (run (m + 1)).rank < (run m).rank := by
    intro n _
    obtain ⟨m, hm, io, hevent⟩ := h.turns n
    rcases hturn m io hevent with ⟨-, hwaits, hconfirmed⟩ | hless
    · obtain ⟨m', hm', fileNum, union, hevent'⟩ := h.answers m hwaits hconfirmed
      exact ⟨m', hm.trans hm', .inr (hanswer m' fileNum union hevent')⟩
    · exact ⟨m, hm, .inr hless⟩
  exact hnever (exists_done run (fun s => s.removed = true) rank hstay hfall)

/-- **A job comes to its end.** While the digests go out and each is confirmed once, every call of
`read` that fails takes the job to its next file, at most one error is sent for each of its files,
and one more when it is removed; and when the ticks and the answers go on, it is removed. -/
theorem comes_to_end (hjob : Made job) :
    (∀ (events : List ServeEvent) (s : Serving),
      ((system z job).restrict Answered).Run events s →
        s.errors ≤ job.files.length + 1 ∧ (s.removed = false → s.errors ≤ job.files.length ∧
          ∀ io err, Works s.job io → (s.job.read z s.disk io).1 = .error err →
            (s.turn z io).job.fileNum = s.job.fileNum + 1)) ∧
      ∀ (run : Nat → Serving) (events : Nat → ServeEvent), Fair z job run events →
        ∃ n, (run n).removed = true := by
  refine ⟨?_, fun run events hfair => hfair.exists_removed hjob⟩
  intro events s hrun
  rcases steadyOrOver_of_run hjob hrun with ⟨hs, hsteady⟩ | ⟨hs, herrors⟩
  · have hcount := hsteady.count
    refine ⟨by omega, fun _ => ⟨by omega, ?_⟩⟩
    intro io err hio herr
    exact (hsteady.turn hs hio).moves herr
  · refine ⟨herrors, fun hthere => ?_⟩
    cases hs.symm.trans hthere

theorem run_answered_turn {events : List ServeEvent}
    (h : ((system z job).restrict Answered).Run events s) (hs : s.removed = false) {io : Io}
    (hio : Works s.job io) :
    ((system z job).restrict Answered).Run (events ++ [.turn io]) (s.turn z io) :=
  h.snoc ⟨hio, hs, rfl⟩

theorem made_asksA : Made asksA where
  short := by decide
  num := by decide
  printer := fun hmemory => by cases hmemory
  closed := rfl
  idle := ⟨rfl, rfl⟩

/-- `/a` is not there: the error of opening it is sent when `read` fails and when the job is
removed. -/
theorem run_absent : ∃ s, ((system ⟨some, some⟩ asksA).restrict Answered).Run
      [.turn (.fine ⟨1, 0⟩), .turn (.fine ⟨1, 0⟩)] s ∧ s.errors = 2 := by
  have hstart : ((system ⟨some, some⟩ asksA).restrict Answered).Run [] (start asksA .blank) :=
    .start ⟨_, Disk.inodes_blank, rfl⟩
  have hworks (job : TransferJob) : Works job (.fine ⟨1, 0⟩) := ⟨⟨_, rfl⟩, fun _ _ => rfl⟩
  have hfailed := run_answered_turn hstart rfl (hworks _)
  have hremoved := run_answered_turn hfailed rfl (hworks _)
  exact ⟨_, hremoved, by decide +kernel⟩

/-- The end of that run. -/
theorem comes_to_end_absent : ∃ s, ((system ⟨some, some⟩ asksA).restrict Answered).Run
      [.turn (.fine ⟨1, 0⟩), .turn (.fine ⟨1, 0⟩)] s ∧ s.errors ≤ 2 := by
  obtain ⟨s, hrun, -⟩ := run_absent
  exact ⟨s, hrun, ((comes_to_end made_asksA).1 _ s hrun).1⟩

/-- A job may send more errors than it has files. -/
theorem errors_exceed_files : ¬ ∀ (z : Zstd) (job : TransferJob) (events : List ServeEvent)
    (s : Serving), Made job → ((system z job).restrict Answered).Run events s →
      s.errors ≤ job.files.length := by
  intro hall
  obtain ⟨s, hrun, herrors⟩ := run_absent
  have hle := hall _ _ _ s made_asksA hrun
  rw [herrors] at hle
  exact absurd hle (by decide)

end Runs

end Serving

end HopToDesk.Transfer
