import HopToDesk.Laws.Transfer.EndToEnd
import HopToDesk.Laws.Transfer.Telling

/-!
# No failure is isolated

As long as no file fails, the receiver is as the messages say (`Took`): at no file, at a marker, or at
a file that holds what has come of it. A confirmation moves it only before the first block, because
a file is asked about after the blocks of the one before, and the receiver is still at that one.

The first error ends this. It carries the number after that of the file, so following the errors from
file to file leads past the end of the list: some error has the number of a file that did not fail, or
of none. And the receiver has dropped the job with the file it was at.
-/

set_option autoImplicit false

namespace HopToDesk.Transfer

open Kit UnixPath
open TransferJob (Confirm payload)

/-- What is to arrive of each entry when these messages have come. -/
def arriving (z : Zstd) (sent : List Message) (i : Nat) : Option Content :=
  if ∃ b ∈ blocksIn sent, b.num = i then some (content z (blocksIn sent) i) else none

theorem arriving_some {z : Zstd} {sent : List Message} {i : Nat} {c : Content}
    (h : arriving z sent i = some c) :
    (∃ b ∈ blocksIn sent, b.num = i) ∧ content z (blocksIn sent) i = c := by
  unfold arriving at h
  split_ifs at h with hsome
  exact ⟨hsome, Option.some.inj h⟩

theorem arriving_none {z : Zstd} {sent : List Message} {i : Nat}
    (h : ∀ b ∈ blocksIn sent, b.num ≠ i) : arriving z sent i = none := by
  unfold arriving
  rw [if_neg]
  rintro ⟨b, hb, rfl⟩
  exact h b hb rfl

namespace Trip

variable {T : Trip} {B : Nat → Option Content}

/-- In a list with no file directly before a marker, no marker comes after a file. -/
theorem Parted.not_marker (hparted : T.Parted) {j : Nat} {e : FileEntry} (hr : T.Regular j e)
    {k : Nat} {e' : FileEntry} (hjk : j < k) : ¬ T.Marker k e' := by
  induction k, hjk using Nat.le_induction generalizing e' with
  | base => exact hparted hr
  | succ k _ ih =>
    intro he'
    obtain ⟨e'', he''⟩ := listed_of_le (Nat.le_succ k) he'.1
    cases hmarker : isMarker e''.name with
    | true => exact ih ⟨he'', hmarker⟩
    | false => exact hparted ⟨he'', hmarker⟩ he'

/-- A receiver that has had these messages. -/
inductive Took (T : Trip) (B : Nat → Option Content) (past : List Message) (job : TransferJob)
    (d : Disk) : Prop
  | none {n : Nat} (hnone : blocksIn past = []) (hat : T.JobAt n job)
      (hclosed : job.dataStream = none) (hd : d = T.disk)
  | marker {j : Nat} {e : FileEntry} (he : T.Marker j e) (hat : T.JobAt j job)
      (hlast : ∃ b ∈ blocksIn past, b.num = j) (hmax : ∀ b ∈ blocksIn past, b.num ≤ j)
      (h : T.Before B (j + 1) d)
  | file {j : Nat} {e : FileEntry} (hr : T.Regular j e)
      (hlast : ∃ b ∈ blocksIn past, b.num = j) (hmax : ∀ b ∈ blocksIn past, b.num ≤ j)
      (h : T.Filling B j e (content T.z (blocksIn past) j) job d)

section Took

variable {past rest : List Message} {job job' : TransferJob} {d : Disk} {m : Message}

/-- A message without a block, which leaves the job at its file. -/
theorem Took.set (h : T.Took B past job d) (hm : blocksIn [m] = [])
    (hat : ∀ {n}, T.JobAt n job → T.JobAt n job') (hstream : job'.dataStream = job.dataStream) :
    T.Took B (past ++ [m]) job' d := by
  have hsame : blocksIn (past ++ [m]) = blocksIn past := by
    rw [blocksIn_append, hm, List.append_nil]
  cases h with
  | none hnone hat' hclosed hd =>
    exact .none (hsame.trans hnone) (hat hat') (hstream.trans hclosed) hd
  | marker he hat' hlast hmax h =>
    exact .marker he (hat hat') (hsame ▸ hlast) (hsame ▸ hmax) h
  | file hr hlast hmax h =>
    refine .file hr (hsame ▸ hlast) (hsame ▸ hmax) ?_
    rw [hsame]
    exact ⟨hat h.at_, h.upto, hstream.symm ▸ h.stream⟩

section Block

variable (hv : T.Accepts) (hp : T.Plain) (hroom : T.Room) {b : FileTransferBlock} {s : Writing}

include hv hp hroom in
/-- The first block of an entry. -/
theorem Turn.took (h : T.Turn B b.num s) (hid : b.id = T.id) (hnum : b.fileNum = (b.num : Int))
    (hlt : b.num < T.files.length) (hbefore : ∀ b' ∈ blocksIn past, b'.num < b.num)
    (hmarker : ∀ {e}, T.Marker b.num e → T.Before B b.num s.disk) :
    T.Took B (past ++ [.block b]) (s.next T.z (.block b)).job (s.next T.z (.block b)).disk := by
  have hblocks : blocksIn (past ++ [.block b]) = blocksIn past ++ [b] := by
    rw [blocksIn_append, blocksIn_block]
  have hlast : ∃ b' ∈ blocksIn (past ++ [.block b]), b'.num = b.num := by
    rw [hblocks]
    exact ⟨b, List.mem_append_right _ List.mem_cons_self, rfl⟩
  have hmax : ∀ b' ∈ blocksIn (past ++ [.block b]), b'.num ≤ b.num := by
    intro b' hb'
    rw [hblocks, List.mem_append] at hb'
    rcases hb' with hb' | hb'
    · exact (hbefore b' hb').le
    · rw [List.mem_singleton.mp hb']
  have he : T.Listed b.num T.files[b.num] := List.getElem?_eq_getElem hlt
  cases hname : isMarker T.files[b.num].name with
  | true =>
    obtain ⟨n, hat, -⟩ := h.job
    obtain ⟨hat', hdisk⟩ := hat.markerBlock ⟨he, hname⟩ hid hnum
    refine .marker ⟨he, hname⟩ hat' hlast hmax ?_
    rw [hdisk]
    exact (hmarker ⟨he, hname⟩).marker hv hroom ⟨he, hname⟩
  | false =>
    refine .file ⟨he, hname⟩ hlast hmax ?_
    rw [hblocks, content_snoc, content_of_none, List.nil_append]
    · exact h.first hv hp hroom ⟨he, hname⟩ hid hnum
    · intro b' hb'
      exact (hbefore b' hb').ne

theorem blocksIn_split : blocksIn (past ++ .block b :: rest) =
    blocksIn past ++ ([b] ++ blocksIn rest) := by
  rw [List.append_cons, blocksIn_append, blocksIn_append, blocksIn_block, List.append_assoc]

variable {r : ReadJob} {n : Nat} (htells : T.Tells (past ++ .block b :: rest) r n)
include htells

/-- The blocks that come later are of no earlier entry. -/
theorem Tells.blocks_after : ∀ b' ∈ blocksIn rest, b.num ≤ b'.num := by
  intro b' hb'
  have horder := (List.pairwise_cons.mp (List.pairwise_append.mp htells.order).2.1).1
  rcases horder _ (mem_blocksIn.mp hb') with hlt | ⟨heq, -⟩
  · exact hlt.le
  · exact heq.le

/-- Those that came before are of no later one. -/
theorem Tells.blocks_before : ∀ b' ∈ blocksIn past,
    b'.num < b.num ∨ b'.num = b.num ∧ ∃ e, T.Regular b'.num e := by
  intro b' hb'
  exact (List.pairwise_append.mp htells.order).2.2 _ (mem_blocksIn.mp hb') _ List.mem_cons_self

/-- All of an earlier entry has come. -/
theorem Tells.content_before {i : Nat} (hi : i < b.num) :
    content T.z (blocksIn (past ++ .block b :: rest)) i = content T.z (blocksIn past) i := by
  rw [blocksIn_split, content_append, content_of_none T.z ([b] ++ blocksIn rest),
    List.append_nil]
  intro b' hb'
  rcases List.mem_append.mp hb' with hb' | hb'
  · rw [List.mem_singleton.mp hb']
    exact hi.ne'
  · exact (hi.trans_le (htells.blocks_after b' hb')).ne'

/-- Nothing is to arrive of an entry that was passed. -/
theorem Tells.arriving_passed {i : Nat} (hi : i < b.num) (hnone : ∀ b' ∈ blocksIn past, b'.num ≠ i) :
    arriving T.z (past ++ .block b :: rest) i = none := by
  apply arriving_none
  intro b' hb'
  rw [blocksIn_split, List.mem_append, List.mem_append] at hb'
  rcases hb' with hb' | hb' | hb'
  · exact hnone b' hb'
  · rw [List.mem_singleton.mp hb']
    exact hi.ne'
  · exact (hi.trans_le (htells.blocks_after b' hb')).ne'

include hv hp hroom in
/-- **What a block does.** -/
theorem Took.block (hparted : T.Parted)
    (h : T.Took (arriving T.z (past ++ .block b :: rest)) past s.job s.disk) :
    T.Took (arriving T.z (past ++ .block b :: rest)) (past ++ [.block b])
      (s.next T.z (.block b)).job (s.next T.z (.block b)).disk := by
  have hmem : b ∈ blocksIn (past ++ .block b :: rest) := by
    rw [mem_blocksIn]
    exact List.mem_append_right _ List.mem_cons_self
  obtain ⟨hnum, -, hlt⟩ := htells.blocks b hmem
  have hid : b.id = T.id := htells.ids _ (List.mem_append_right _ List.mem_cons_self)
  have hbefore := htells.blocks_before
  cases h with
  | @none n hnone hat hclosed hd =>
    have hzero : T.Before (arriving T.z (past ++ .block b :: rest)) 0 T.disk :=
      ⟨hv.kept, .inl, fun hj => absurd hj (Nat.not_lt_zero _),
        fun hj => absurd hj (Nat.not_lt_zero _)⟩
    have hready := hzero.skip (Nat.zero_le b.num) fun i _ hi => htells.arriving_passed hi
      fun b' hb' => by simp [hnone] at hb'
    rw [← hd] at hready
    have hturn : T.Turn (arriving T.z (past ++ .block b :: rest)) b.num s :=
      ⟨hready.idle hv hp (.inr ⟨hd, hclosed, n, hat⟩), n, hat, .inr hclosed⟩
    refine hturn.took hv hp hroom hid hnum hlt (fun b' hb' => ?_) fun _ => hready
    rw [hnone] at hb'
    cases hb'
  | @marker j e he hat hlast hmax h =>
    have hj : j < b.num := by
      obtain ⟨b', hb', rfl⟩ := hlast
      rcases hbefore b' hb' with hj | ⟨-, e', hr⟩
      · exact hj
      · obtain rfl := Option.some.inj (he.1.symm.trans hr.1)
        cases he.2.symm.trans hr.2
    have hready := h.skip hj fun i hi hib => htells.arriving_passed hib fun b' hb' => by
      have hle := hmax b' hb'
      omega
    have hturn : T.Turn (arriving T.z (past ++ .block b :: rest)) b.num s :=
      ⟨hready.idle hv hp (.inl ⟨j, e, hj, he, hat⟩), j, hat, .inl hj.ne⟩
    exact hturn.took hv hp hroom hid hnum hlt (fun b' hb' => (hmax b' hb').trans_lt hj)
      fun _ => hready
  | @file j e hr hlast hmax h =>
    have hle : j ≤ b.num := by
      obtain ⟨b', hb', rfl⟩ := hlast
      rcases hbefore b' hb' with hj | ⟨heq, -⟩
      · exact hj.le
      · exact heq.le
    rcases hle.lt_or_eq with hj | rfl
    · have hfinish := h.finish hv hp hroom hr fun c hc => by
        rw [← htells.content_before hj]
        exact (arriving_some hc).2
      have hready := hfinish.skip hj fun i hi hib => htells.arriving_passed hib fun b' hb' => by
        have hle := hmax b' hb'
        omega
      have hturn : T.Turn (arriving T.z (past ++ .block b :: rest)) b.num s :=
        ⟨hready, j, h.at_, .inl hj.ne⟩
      exact hturn.took hv hp hroom hid hnum hlt (fun b' hb' => (hmax b' hb').trans_lt hj)
        fun he => absurd he (hparted.not_marker hr hj)
    · have hblocks : blocksIn (past ++ [.block b]) = blocksIn past ++ [b] := by
        rw [blocksIn_append, blocksIn_block]
      refine .file hr ⟨b, ?_, rfl⟩ (fun b' hb' => ?_) ?_
      · rw [hblocks]
        exact List.mem_append_right _ List.mem_cons_self
      · rw [hblocks, List.mem_append] at hb'
        rcases hb' with hb' | hb'
        · exact hmax b' hb'
        · rw [List.mem_singleton.mp hb']
      · rw [hblocks, content_snoc]
        exact h.next hv hp hroom hr hid hnum

end Block

/-- The receiver has this one job. -/
structure Only (s : Receiver) (job : TransferJob) (d : Disk) : Prop where
  jobs : s.writeJobs = [job]
  disk : s.disk = d

/-- The job after a confirmation that does not resume: at the same file, or at the next. -/
theorem confirm_unresumed (job : TransferJob) {union : Option Confirm} (hunion : Unresumed union) (k : Int) :
    ∃ job', job.confirm k union d = some (job', d) ∧
      ((∀ {n}, T.JobAt n job → T.JobAt n job') ∧ job'.dataStream = job.dataStream ∨
        job.fileNum = k ∧ job' = job.setFileSkipped) := by
  unfold TransferJob.confirm
  split_ifs with hother
  · exact ⟨job, rfl, .inl ⟨fun hat => hat, rfl⟩⟩
  · rcases union with - | ⟨⟨⟩ | ⟨⟩⟩ | offset
    · exact ⟨job, rfl, .inl ⟨fun hat => hat, rfl⟩⟩
    · exact ⟨_, rfl, .inl ⟨fun hat => { hat with }, rfl⟩⟩
    · exact ⟨_, rfl, .inr ⟨not_not.mp hother, rfl⟩⟩
    · obtain rfl := hunion offset rfl
      exact ⟨_, rfl, .inl ⟨fun hat => { hat with }, rfl⟩⟩

variable (text : JobError → String) (answer : Answer) {s : Receiver}

theorem Only.take_block (h : Only s job d) {b : FileTransferBlock} (hid : job.id = b.id) :
    ∃ s', s.take T.z text (.block b, answer) = some s' ∧
      Only s' (Writing.next T.z ⟨job, d⟩ (.block b)).job
        (Writing.next T.z ⟨job, d⟩ (.block b)).disk := by
  have hget : getJob b.id s.writeJobs = some job := by
    simp [getJob, h.jobs, hid]
  simp only [Receiver.take, Message.ops, Receiver.run, List.map_cons, List.map_nil,
    List.foldlM_cons, List.foldlM_nil, Receiver.step, Receiver.handleFs, hget, h.disk]
  split
  · exact ⟨_, rfl, by simp [setJob, h.jobs, hid, Writing.next], rfl⟩
  · exact ⟨_, rfl, by simp [setJob, h.jobs, hid, Writing.next, Receiver.reply], rfl⟩

variable {answer} in
theorem Only.take_digest (h : Only s job d) (hanswer : Unresumed answer.union)
    {asked : FileTransferDigest} (hid : job.id = asked.id) :
    ∃ s' job', s.take T.z text (.digest asked, answer) = some s' ∧ Only s' job' d ∧
      ((∀ {n}, T.JobAt n job → T.JobAt n job') ∧ job'.dataStream = job.dataStream ∨
        job.fileNum = asked.fileNum ∧ ∃ digest, job' = { job with digest }.setFileSkipped) := by
  have hcheck : ∃ s₁ digest, s.handleFs T.z (.checkDigest asked.id asked.fileNum asked.fileSize
      asked.lastModified answer.isUpload answer.check) = some s₁ ∧
        Only s₁ { job with digest } d := by
    have hget : getJob asked.id s.writeJobs = some job := by
      simp [getJob, h.jobs, hid]
    simp only [Receiver.handleFs, hget]
    split
    · split
      · refine ⟨_, ⟨asked.fileSize, asked.lastModified⟩, rfl, ?_, h.disk⟩
        simp [Receiver.reply, setJob, h.jobs, hid, TransferJob.setDigest]
      · exact ⟨_, job.digest, rfl, h.jobs, h.disk⟩
    · exact ⟨s, job.digest, rfl, h.jobs, h.disk⟩
  obtain ⟨s₁, digest, hs₁, honly⟩ := hcheck
  obtain ⟨job', hconfirm, hjob'⟩ := confirm_unresumed (T := T) (d := d) { job with digest } hanswer
    asked.fileNum
  have hget : getJob asked.id s₁.writeJobs = some { job with digest } := by
    simp [getJob, honly.jobs, hid]
  refine ⟨{ s₁ with writeJobs := [job'], disk := d }, job', ?_, ⟨rfl, rfl⟩, ?_⟩
  · simp only [Receiver.take, Message.ops, Receiver.run, List.map_cons, List.map_nil,
      List.foldlM_cons, List.foldlM_nil, Receiver.step, hs₁, Option.bind_eq_bind,
      Option.bind_some]
    simp only [Receiver.handleFs, hget, honly.disk, hconfirm, Option.map_some]
    simp [setJob, honly.jobs, hid]
  · rcases hjob' with ⟨hat, hstream⟩ | ⟨hnum, hskipped⟩
    · exact .inl ⟨fun hat' => hat { hat' with }, hstream⟩
    · exact .inr ⟨hnum, digest, hskipped⟩

/-- **What a digest does.** With a block taken, the receiver is at an earlier entry. -/
theorem Took.digest {r : ReadJob} {n : Nat} {asked : FileTransferDigest}
    (htells : T.Tells (past ++ .digest asked :: rest) r n) (h : T.Took B past job d)
    (hjob' : (∀ {n}, T.JobAt n job → T.JobAt n job') ∧ job'.dataStream = job.dataStream ∨
      job.fileNum = asked.fileNum ∧ ∃ digest, job' = { job with digest }.setFileSkipped) :
    T.Took B (past ++ [.digest asked]) job' d := by
  rcases hjob' with ⟨hat, hstream⟩ | ⟨hnum, digest, rfl⟩
  · exact h.set rfl hat hstream
  · have hearlier {j : Nat} (hat : T.JobAt j job) : ¬ ∃ b ∈ blocksIn past, b.num = j := by
      rintro ⟨b, hb, rfl⟩
      have hlt : b.num < asUsize asked.fileNum :=
        (List.pairwise_append.mp htells.order).2.2 _ (mem_blocksIn.mp hb) _ List.mem_cons_self
      rw [← hnum, hat.num, asUsize_natCast] at hlt
      exact lt_irrefl _ hlt
    cases h with
    | @none k hnone hat hclosed hd =>
      refine .none (n := k + 1) ?_ { hat with num := ?_ } rfl hd
      · rw [blocksIn_append, hnone]
        rfl
      · show job.fileNum + 1 = ((k + 1 : Nat) : Int)
        rw [hat.num, Nat.cast_succ]
    | marker he hat hlast hmax h => exact absurd hlast (hearlier hat)
    | file hr hlast hmax h => exact absurd hlast (hearlier h.at_)

theorem Took.jobAt (h : T.Took B past job d) : ∃ n, T.JobAt n job := by
  cases h with
  | @none n hnone hat hclosed hd => exact ⟨n, hat⟩
  | @marker j e he hat hlast hmax h => exact ⟨j, hat⟩
  | @file j e hr hlast hmax h => exact ⟨j, h.at_⟩

section Run

variable (hv : T.Accepts) (hp : T.Plain) (hroom : T.Room) (hparted : T.Parted)
include hv hp hroom hparted

/-- **What the messages do,** as long as they are digests and blocks. -/
theorem Took.run {told : List Message} {r : ReadJob} {n : Nat} (htells : T.Tells told r n)
    (hplain : ∀ m ∈ told, m.Plain) {xs : List (Message × Answer)}
    (hxs : past ++ xs.map Prod.fst = told) (hanswers : ∀ x ∈ xs, Unresumed x.2.union)
    (honly : Only s job d) (h : T.Took (arriving T.z told) past job d) :
    ∃ s' job' d', s.takeAll T.z text xs = some s' ∧ Only s' job' d' ∧
      T.Took (arriving T.z told) told job' d' := by
  induction xs generalizing past s job d with
  | nil =>
    rw [List.map_nil, List.append_nil] at hxs
    exact ⟨s, job, d, rfl, honly, hxs ▸ h⟩
  | cons x xs ih =>
    obtain ⟨m, answer⟩ := x
    rw [List.map_cons] at hxs
    have hmem : m ∈ told := by
      rw [← hxs]
      exact List.mem_append_right _ List.mem_cons_self
    obtain ⟨k, hat⟩ := h.jobAt
    have hid : job.id = m.id := hat.id.trans (htells.ids m hmem).symm
    have hstep : ∃ s₁ job₁ d₁, s.take T.z text (m, answer) = some s₁ ∧ Only s₁ job₁ d₁ ∧
        T.Took (arriving T.z told) (past ++ [m]) job₁ d₁ := by
      subst hxs
      cases m with
      | digest asked =>
        obtain ⟨s₁, job₁, htake, honly₁, hjob₁⟩ :=
          honly.take_digest text (hanswers _ List.mem_cons_self) (T := T) hid
        exact ⟨s₁, job₁, d, htake, honly₁, h.digest htells hjob₁⟩
      | block b =>
        obtain ⟨s₁, htake, honly₁⟩ := honly.take_block (T := T) text answer hid
        exact ⟨s₁, _, _, htake, honly₁, h.block (s := ⟨job, d⟩) hv hp hroom htells hparted⟩
      | done id fileNum => exact (hplain _ hmem).elim
      | error id fileNum err => exact (hplain _ hmem).elim
    obtain ⟨s₁, job₁, d₁, htake, honly₁, htook₁⟩ := hstep
    have hxs₁ : past ++ [m] ++ xs.map Prod.fst = told := by
      rw [← hxs, List.append_assoc]
      rfl
    obtain ⟨s', job', d', hrest, honly', htook'⟩ :=
      ih hxs₁ (fun x hx => hanswers x (List.mem_cons_of_mem _ hx)) honly₁ htook₁
    refine ⟨s', job', d', ?_, honly', htook'⟩
    unfold Receiver.takeAll at hrest ⊢
    rw [List.foldlM_cons, htake]
    exact hrest

omit hparted in
/-- Finishing the job puts the last file where it belongs. -/
theorem Took.finish {told : List Message} (h : T.Took (arriving T.z told) told job d) {i : Nat}
    {c : Content} {e : FileEntry} (hi : arriving T.z told i = some c) (hr : T.Regular i e) :
    (job.modifyTime d).view (T.final e) = some (.file c) := by
  obtain ⟨⟨b, hb, rfl⟩, -⟩ := arriving_some hi
  cases h with
  | none hnone hat hclosed hd =>
    rw [hnone] at hb
    cases hb
  | @marker j e' he hat hlast hmax h =>
    have hidle : T.Idle (j + 1) job d := .inl ⟨j, e', Nat.lt_succ_self j, he, hat⟩
    exact (h.idle hv hp hidle).published (Nat.lt_succ_of_le (hmax b hb)) hr hi
  | @file j e' hr' hlast hmax h =>
    have hfinish := h.finish hv hp hroom hr' fun c' hc' => (arriving_some hc').2
    exact hfinish.published (Nat.lt_succ_of_le (hmax b hb)) hr hi

end Run

end Took

/-! ## The whole transfer -/

section Whole

variable {text : JobError → String} {r : ReadJob} {n : Nat} {told : List Message}

/-- Only a confirmation that resumes a file can make a receiver panic. -/
theorem step_isSome (s : Receiver) {fs : FS}
    (hfs : ∀ {id fileNum union}, fs = .sendConfirm id fileNum union → Unresumed union) :
    ∃ s', s.step T.z (.fs fs) = some s' := by
  simp only [Receiver.step]
  cases fs with
  | sendConfirm id fileNum union =>
    simp only [Receiver.handleFs]
    split
    · rename_i job _
      obtain ⟨job', hconfirm, -⟩ := confirm_unresumed (T := T) (d := s.disk) job (hfs rfl)
        fileNum
      rw [hconfirm]
      exact ⟨_, rfl⟩
    · exact ⟨_, rfl⟩
  | newWrite path id fileNum files overwriteDetection => exact ⟨_, rfl⟩
  | cancelWrite id =>
    simp only [Receiver.handleFs]
    split <;> exact ⟨_, rfl⟩
  | writeDone id fileNum =>
    simp only [Receiver.handleFs]
    split <;> exact ⟨_, rfl⟩
  | writeError id fileNum err =>
    simp only [Receiver.handleFs]
    split <;> exact ⟨_, rfl⟩
  | writeBlock id fileNum data compressed =>
    simp only [Receiver.handleFs]
    split
    · split <;> exact ⟨_, rfl⟩
    · exact ⟨_, rfl⟩
  | checkDigest id fileNum fileSize lastModified isUpload check =>
    simp only [Receiver.handleFs]
    split
    · split
      · split <;> exact ⟨_, rfl⟩
      · exact ⟨_, rfl⟩
    · exact ⟨_, rfl⟩

theorem run_isSome (s : Receiver) (ops : List FS)
    (hops : ∀ {id fileNum union}, .sendConfirm id fileNum union ∈ ops → Unresumed union) :
    ∃ s', s.run T.z (ops.map Op.fs) = some s' := by
  induction ops generalizing s with
  | nil => exact ⟨s, rfl⟩
  | cons fs ops ih =>
    have hfs : ∀ {id fileNum union}, fs = .sendConfirm id fileNum union → Unresumed union := by
      rintro id fileNum union rfl
      exact hops List.mem_cons_self
    obtain ⟨s₁, hs₁⟩ := step_isSome (T := T) s hfs
    obtain ⟨s', hs'⟩ := ih s₁ fun hmem => hops (List.mem_cons_of_mem _ hmem)
    refine ⟨s', ?_⟩
    unfold Receiver.run at hs' ⊢
    rw [List.map_cons, List.foldlM_cons, hs₁]
    exact hs'

variable (text) in
theorem takeAll_isSome (s : Receiver) (xs : List (Message × Answer))
    (hxs : ∀ x ∈ xs, Unresumed x.2.union) : ∃ s', s.takeAll T.z text xs = some s' := by
  induction xs generalizing s with
  | nil => exact ⟨s, rfl⟩
  | cons x xs ih =>
    have hops : ∀ {id fileNum union}, .sendConfirm id fileNum union ∈ x.1.ops text x.2 →
        Unresumed union := by
      intro id fileNum union hmem
      cases hm : x.1 with
      | digest asked =>
        rw [hm] at hmem
        simp only [Message.ops, List.mem_cons, reduceCtorEq, FS.sendConfirm.injEq, false_or,
          List.not_mem_nil, or_false] at hmem
        rw [hmem.2.2]
        exact hxs x List.mem_cons_self
      | block b =>
        rw [hm] at hmem
        cases List.mem_singleton.mp hmem
      | done id fileNum =>
        rw [hm] at hmem
        cases List.mem_singleton.mp hmem
      | error id fileNum err =>
        rw [hm] at hmem
        cases List.mem_singleton.mp hmem
    obtain ⟨s₁, hs₁⟩ := run_isSome (T := T) s (x.1.ops text x.2) hops
    obtain ⟨s', hs'⟩ := ih s₁ fun x hx => hxs x (List.mem_cons_of_mem _ hx)
    refine ⟨s', ?_⟩
    unfold Receiver.takeAll Receiver.take at hs' ⊢
    rw [List.foldlM_cons, hs₁]
    exact hs'

/-- **The errors lead past the list.** Every file that failed is named by the number after it, so
the file after it has failed as well, if each error names one that did. -/
theorem Tells.spotless_of_named (h : T.Tells told r n) {sent : List Message}
    (hsent : ∀ m ∈ told, m ∈ sent)
    (hnamed : ∀ {id fileNum : Int} {err : JobError}, Message.error id fileNum err ∈ sent →
      ∃ (i : Nat) (passed : Bool), .reported i passed ∈ r.past ∧ fileNum = i) : r.Spotless := by
  intro i passed hfailed
  have hnext {j : Nat} {passed : Bool} (hj : .reported j passed ∈ r.past) :
      ∃ passed, .reported (j + 1) passed ∈ r.past := by
    obtain ⟨-, err, herr⟩ := h.reported hj
    obtain ⟨k, passed, hk, heq⟩ := hnamed (hsent _ herr)
    obtain rfl : j + 1 = k := Int.ofNat_inj.mp heq
    exact ⟨passed, hk⟩
  have hall (m : Nat) : ∃ passed, .reported (i + m) passed ∈ r.past := by
    induction m with
    | zero => exact ⟨passed, hfailed⟩
    | succ m ih =>
      obtain ⟨passed, hm⟩ := ih
      exact hnext hm
  obtain ⟨passed, hlast⟩ := hall T.files.length
  have hlt := (h.reported hlast).1
  omega

/-- The last message of a list of several files, of which none has failed. -/
theorem Tells.lastMessage (h : T.Tells told r n) (hmulti : 2 ≤ T.files.length)
    (hspotless : r.Spotless) : lastMessage r.job = .done T.id r.job.fileNum := by
  have hskipped : r.job.jobSkipped = false := by
    unfold TransferJob.jobSkipped
    rw [h.files, Bool.and_eq_false_iff]
    right
    rw [beq_eq_false_iff_ne]
    omega
  unfold Transfer.lastMessage TransferJob.jobError
  rw [hskipped, if_neg Bool.false_ne_true, (h.spotless hspotless).1]
  dsimp only
  rw [h.id]

theorem jobAt_receiver (T : Trip) (start : Nat) (overwrite : Bool) : T.JobAt start
    (.new T.id .generic (.filePath T.p) start T.files overwrite) := ⟨rfl, rfl, rfl, rfl, rfl⟩

/-- **Without a failure, all that was sent arrives.** -/
theorem Tells.isolated (h : T.Tells told r n) (hv : T.Accepts) (hp : T.Plain) (hroom : T.Room)
    (hparted : T.Parted) (hmulti : 2 ≤ T.files.length) (hspotless : r.Spotless) {start : Nat}
    {overwrite : Bool} {xs : List (Message × Answer)}
    (hxs : xs.map Prod.fst = told ++ [Transfer.lastMessage r.job])
    (hanswers : ∀ x ∈ xs, Unresumed x.2.union) {s : Receiver}
    (hs : (T.receiver start overwrite).takeAll T.z text xs = some s) :
    T.Isolated r (told ++ [Transfer.lastMessage r.job]) s.disk := by
  have hplain := (h.spotless hspotless).2
  rw [h.lastMessage hmulti hspotless] at hxs ⊢
  obtain ⟨ys, zs, rfl, hys, hzs⟩ := List.map_eq_append_iff.mp hxs
  obtain ⟨⟨m, answer⟩, rfl, hm⟩ := List.map_eq_singleton_iff.mp hzs
  obtain rfl : m = .done T.id r.job.fileNum := hm
  have hstart : T.Took (arriving T.z told) []
      (.new T.id .generic (.filePath T.p) start T.files overwrite) T.disk :=
    .none rfl (jobAt_receiver T start overwrite) rfl rfl
  have honly : Only (T.receiver start overwrite)
      (.new T.id .generic (.filePath T.p) start T.files overwrite) T.disk := ⟨rfl, rfl⟩
  obtain ⟨s₁, job, d, hrun, honly, htook⟩ := hstart.run text hv hp hroom hparted h hplain hys
    (fun x hx => hanswers x (List.mem_append_left _ hx)) honly
  obtain ⟨k, hat⟩ := htook.jobAt
  have hdisk : s.disk = job.modifyTime d := by
    have hremove : removeJob T.id s₁.writeJobs = (some job, []) := by
      simp [removeJob, getJob, honly.jobs, hat.id]
    unfold Receiver.takeAll at hs hrun
    rw [List.foldlM_append, hrun] at hs
    simp only [Option.bind_eq_bind, Option.bind_some, List.foldlM_cons, List.foldlM_nil,
      Receiver.take, Message.ops, Receiver.run, List.map_cons, List.map_nil, Receiver.step,
      Receiver.handleFs, hremove] at hs
    cases hs
    rw [← honly.disk]
    rfl
  constructor
  · intro i body e hemitted hr
    obtain ⟨-, -, hcontent, b, hb, hbi⟩ := h.emitted hemitted
    have harrives : arriving T.z told i = some body := by
      unfold arriving
      rw [if_pos ⟨b, hb, hbi⟩, hcontent]
    rw [hdisk]
    exact htook.finish hv hp hroom harrives hr
  · intro id fileNum err herr
    rcases List.mem_append.mp herr with hmem | hlast
    · exact (hplain _ hmem).elim
    · cases List.mem_singleton.mp hlast

end Whole

/-- **When a failure is isolated: never.** The receiver takes every message; if a file has failed,
some error has the number of a file that has not. If none has, all that was sent is at its final
path, where a transfer without failures arrives at all. -/
theorem isolated_iff (hv : T.Accepts) (hmulti : 2 ≤ T.files.length) {start : Nat}
    {job : TransferJob} (hjob : T.Begins start job) {s : Reader}
    (hs : (T.sending job).Reachable s) {r : ReadJob} (hended : s.ended = [r])
    (text : JobError → String) (overwrite : Bool) {xs : List (Message × Answer)}
    (hxs : xs.map Prod.fst = s.sent) (hanswers : ∀ x ∈ xs, Unresumed x.2.union) :
    ∃ rcv, (T.receiver start overwrite).takeAll T.z text xs = some rcv ∧
      (T.Isolated r s.sent rcv.disk → r.Spotless) ∧
      (T.Plain → T.Room → T.Parted → (T.Isolated r s.sent rcv.disk ↔ r.Spotless)) := by
  obtain ⟨told, n, hsent, htells⟩ := hjob.ended hs hended
  obtain ⟨rcv, hrcv⟩ := takeAll_isSome (T := T) text (T.receiver start overwrite) xs hanswers
  have hfailed : T.Isolated r s.sent rcv.disk → r.Spotless := by
    intro h
    refine htells.spotless_of_named (fun m hm => ?_) h.named
    rw [hsent]
    exact List.mem_append_left _ hm
  refine ⟨rcv, hrcv, hfailed, fun hp hroom hparted => ⟨hfailed, fun hspotless => ?_⟩⟩
  rw [hsent] at hxs ⊢
  exact htells.isolated hv hp hroom hparted hmulti hspotless hxs hanswers hrcv

/-! ## Examples -/

/-- The file `b`, which the sender does not have. -/
def fileB : FileEntry := ⟨['b'], 1, 0⟩

/-- What a receiver without the file says to its digest. -/
def freshAnswer : Answer := ⟨false, .ok .noSuchFile, some (.offsetBlk 0)⟩

/-- A sender of these files, which asks for no confirmation. -/
def sendsAtOnce (files : List FileEntry) : TransferJob := sender 1 ['/', 's'] files false false

theorem begins_sendsAtOnce (files : List FileEntry) :
    (tripOf files).Begins 0 (sendsAtOnce files) := ⟨rfl, rfl, rfl, rfl, rfl, rfl⟩

/-- A sender of these files that has done nothing yet. -/
def atOnce (files : List FileEntry) : Reader := ⟨[.new (sendsAtOnce files)], diskWithA, [], []⟩

theorem reachable_atOnce (files : List FileEntry) :
    ((tripOf files).sending (sendsAtOnce files)).Reachable (atOnce files) := ⟨[], .start rfl⟩

theorem reachable_tick {files : List FileEntry} {s s' : Reader}
    (h : ((tripOf files).sending (sendsAtOnce files)).Reachable s)
    (hs : s.next (tripOf files).z Reader.fineTick = some s') :
    ((tripOf files).sending (sendsAtOnce files)).Reachable s' := by
  obtain ⟨events, hrun⟩ := h
  have hfine : Reader.fineTick.FromStart := fun n => ⟨⟨0, 0⟩, rfl⟩
  exact ⟨events ++ [Reader.fineTick], .snoc hrun ⟨hfine, hs⟩⟩

/-- With every file there, an empty directory and a file arrive. -/
theorem isolated_iff_markerFirst :
    ∃ s, ((tripOf [markerM, fileA]).sending (sendsAtOnce [markerM, fileA])).Reachable s ∧
      ∃ r, s.ended = [r] ∧ r.past = [.emitted 0 0 [], .emitted 1 0 [104]] ∧
      ∃ rcv, ((tripOf [markerM, fileA]).receiver 0 true).takeAll ⟨some, some⟩ (fun _ => "")
        (s.sent.map (·, freshAnswer)) = some rcv ∧
          (tripOf [markerM, fileA]).Isolated r s.sent rcv.disk := by
  have hsome : ((atOnce [markerM, fileA]).next (tripOf []).z Reader.fineTick).map
      (fun s => s.ended.map (·.past)) = some [[.emitted 0 0 [], .emitted 1 0 [104]]] := by
    decide +kernel
  obtain ⟨s, hs, hended⟩ := Option.map_eq_some_iff.mp hsome
  have hreach := reachable_tick (reachable_atOnce [markerM, fileA]) hs
  obtain ⟨r, hr, hpast⟩ := List.map_eq_singleton_iff.mp hended
  have hfiles : ∀ e ∈ [markerM, fileA], e = fileA ∨ e = markerM := by decide
  have hxs : (s.sent.map (·, freshAnswer)).map Prod.fst = s.sent := by simp [Function.comp_def]
  obtain ⟨rcv, hrcv, -, hiff⟩ := isolated_iff (valid_tripOf hfiles).toAccepts (by decide)
    (begins_sendsAtOnce _) hreach hr (fun _ => "") true hxs (by simp [freshAnswer, Unresumed])
  refine ⟨s, hreach, r, hr, hpast, rcv, hrcv, ?_⟩
  refine (hiff (plain_tripOf hfiles (by decide)) (room_tripOf hfiles (by decide))
    parted_markerFirst).mpr ?_
  intro i passed hmem
  rw [hpast] at hmem
  simp at hmem

/-- **A failure is not isolated.** The file `a` is sent to its end and `b` is not there. The errors
have the number 2, and `a` is left under its temporary name. -/
theorem not_isolated :
    ∃ s, ((tripOf [fileA, fileB]).sending (sendsAtOnce [fileA, fileB])).Reachable s ∧
      ∃ r, s.ended = [r] ∧ r.past = [.emitted 0 0 [104], .reported 1 true] ∧
      ∃ rcv, ((tripOf [fileA, fileB]).receiver 0 true).takeAll ⟨some, some⟩ (fun _ => "")
        (s.sent.map (·, freshAnswer)) = some rcv ∧
          ¬ (tripOf [fileA, fileB]).Isolated r s.sent rcv.disk := by
  have hsome : ((atOnce [fileA, fileB]).next (tripOf []).z Reader.fineTick).bind (fun s =>
      (s.next (tripOf []).z Reader.fineTick).bind fun s =>
        (((tripOf [fileA, fileB]).receiver 0 true).takeAll ⟨some, some⟩ (fun _ => "")
          (s.sent.map (·, freshAnswer))).map fun rcv =>
            (s.ended.map (·.past), rcv.disk.get ((tripOf []).final fileA))) =
        some ([[.emitted 0 0 [104], .reported 1 true]], none) := by decide +kernel
  obtain ⟨s₁, hs₁, hsome⟩ := Option.bind_eq_some_iff.mp hsome
  obtain ⟨s, hs, hsome⟩ := Option.bind_eq_some_iff.mp hsome
  have hreach := reachable_tick (reachable_tick (reachable_atOnce [fileA, fileB]) hs₁) hs
  obtain ⟨rcv, hrcv, heq⟩ := Option.map_eq_some_iff.mp hsome
  obtain ⟨hended, hnone⟩ := Prod.mk.inj heq
  obtain ⟨r, hr, hpast⟩ := List.map_eq_singleton_iff.mp hended
  refine ⟨s, hreach, r, hr, hpast, rcv, hrcv, fun h => ?_⟩
  have hfile : (tripOf [fileA, fileB]).Regular 0 fileA := ⟨rfl, rfl⟩
  have harrived : rcv.disk.view ((tripOf []).final fileA) = some (.file [104]) :=
    h.arrived (hpast ▸ List.mem_cons_self) hfile
  obtain ⟨ino, hget⟩ := Disk.get_of_view_file harrived
  cases hnone.symm.trans hget

end Trip

end HopToDesk.Transfer
