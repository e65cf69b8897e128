import HopToDesk.Kit.DiskTree
import HopToDesk.Transfer.Printing
import Mathlib.Data.List.Basic
import Mathlib.Tactic.Cases

/-!
# Remote printing: nothing is mixed up

The client prints, or stores, what the host has printed as long as no id is used twice in the list
of its jobs. A print job that finds a job with its id in the list is not found itself: its data goes
to the other job, which may be a file that is coming in. Just that, cancelling a job with the id of
the print job or answering a question about it with a no, and a print job that is stored under an id
that is taken are what has to be kept out (`Clashes`, `intact_iff`).
-/

set_option autoImplicit false

namespace HopToDesk.Transfer

open Kit UnixPath

/-! ## The blocks -/

section

variable {α : Type}

theorem toChunks_go (n : Nat) (xs : List α) (acc₁ : Array α) (acc₂ : Array (List α))
    (h₁ : acc₁.toList ≠ []) (h₂ : ∀ c ∈ acc₂.toList, c ≠ []) :
    (List.toChunks.go n xs acc₁ acc₂).flatten = acc₂.toList.flatten ++ acc₁.toList ++ xs ∧
      ∀ c ∈ List.toChunks.go n xs acc₁ acc₂, c ≠ [] := by
  have hsnoc : ∀ c ∈ acc₂.toList ++ [acc₁.toList], c ≠ [] :=
    List.forall_mem_append.mpr ⟨h₂, List.forall_mem_singleton.mpr h₁⟩
  induction xs generalizing acc₁ acc₂ with
  | nil =>
    simp only [List.toChunks.go, Array.toList_push, List.flatten_append, List.flatten_cons,
      List.flatten_nil, List.append_nil, true_and]
    exact hsnoc
  | cons x xs ih =>
    unfold List.toChunks.go
    split
    next =>
      have hpush : ∀ c ∈ (acc₂.push acc₁.toList).toList, c ≠ [] := by
        rw [Array.toList_push]
        exact hsnoc
      obtain ⟨hflatten, hne⟩ := ih ((Array.mkEmpty n).push x) (acc₂.push acc₁.toList)
        (by simp) hpush (List.forall_mem_append.mpr
          ⟨hpush, List.forall_mem_singleton.mpr (by simp)⟩)
      exact ⟨by simpa using hflatten, hne⟩
    next =>
      obtain ⟨hflatten, hne⟩ := ih (acc₁.push x) acc₂ (by simp) h₂
        (List.forall_mem_append.mpr ⟨h₂, List.forall_mem_singleton.mpr (by simp)⟩)
      exact ⟨by simpa using hflatten, hne⟩

/-- The chunks put together again, none of which is empty. -/
theorem toChunks_succ (n : Nat) (xs : List α) :
    (xs.toChunks (n + 1)).flatten = xs ∧ ∀ c ∈ xs.toChunks (n + 1), c ≠ [] := by
  cases xs with
  | nil => exact ⟨rfl, List.forall_mem_nil _⟩
  | cons x xs =>
    obtain ⟨hflatten, hne⟩ := toChunks_go (n + 1) xs #[x] #[] (List.cons_ne_nil x [])
      (List.forall_mem_nil _)
    exact ⟨hflatten, hne⟩

end

/-! ## The list of jobs -/

section

variable {id id' : Int} {jobs : List TransferJob} {job job' : TransferJob}

theorem id_of_getJob (h : getJob id jobs = some job) : job.id = id := by
  have hid := List.find?_some h
  exact of_decide_eq_true hid

theorem getJob_append (h : getJob id jobs = some job) (more : List TransferJob) :
    getJob id (jobs ++ more) = some job := by
  unfold getJob at h ⊢
  rw [List.find?_append, h, Option.some_or]

/-- The job writes to memory. -/
def TransferJob.inMemory (job : TransferJob) : Bool :=
  match job.dataSource with
  | .memoryCursor _ => true
  | .filePath _ => false

/-- How many do. -/
def cursors (jobs : List TransferJob) : Nat := jobs.countP (·.inMemory)

theorem cursors_snoc (jobs : List TransferJob) (job : TransferJob) :
    cursors (jobs ++ [job]) = cursors jobs + if job.inMemory then 1 else 0 := by
  simp [cursors, List.countP_append, List.countP_singleton]

theorem inMemory_eq_false (h : cursors jobs = 0) (hjob : job ∈ jobs) : job.inMemory = false :=
  Bool.eq_false_of_not_eq_true (List.countP_eq_zero.mp h job hjob)

theorem cursors_pos (h : getJob id jobs = some job) (hmemory : job.inMemory = true) :
    0 < cursors jobs :=
  List.countP_pos_iff.mpr ⟨job, List.mem_of_find?_eq_some h, hmemory⟩

theorem getJob_setJob (h : getJob id jobs = some job) (hid : job'.id = id) :
    getJob id (setJob id job' jobs) = some job' := by
  induction jobs with
  | nil => cases h
  | cons j jobs ih =>
    unfold setJob
    split
    next => simp [getJob, hid]
    next hj =>
      simp only [getJob, List.find?_cons, decide_eq_false hj] at h ⊢
      exact ih h

theorem getJob_setJob_of_ne (hne : id' ≠ id) (hid : job'.id = id') :
    getJob id (setJob id' job' jobs) = getJob id jobs := by
  induction jobs with
  | nil => rfl
  | cons j jobs ih =>
    unfold setJob
    split
    next hj =>
      have hj' : j.id ≠ id := fun h => hne (hj.symm.trans h)
      have hjob' : job'.id ≠ id := fun h => hne (hid.symm.trans h)
      simp [getJob, hj', hjob']
    next =>
      simp only [getJob, List.find?_cons]
      split
      next => rfl
      next => exact ih

theorem forall_setJob {P : TransferJob → Prop} (h : ∀ j ∈ jobs, P j) (hjob' : P job') :
    ∀ j ∈ setJob id job' jobs, P j := by
  induction jobs with
  | nil => exact h
  | cons j jobs ih =>
    obtain ⟨hj, hjobs⟩ := List.forall_mem_cons.mp h
    unfold setJob
    split
    next => exact List.forall_mem_cons.mpr ⟨hjob', hjobs⟩
    next => exact List.forall_mem_cons.mpr ⟨hj, ih hjobs⟩

theorem cursors_setJob (h : getJob id jobs = some job) (hmemory : job'.inMemory = job.inMemory) :
    cursors (setJob id job' jobs) = cursors jobs := by
  induction jobs with
  | nil => cases h
  | cons j jobs ih =>
    unfold setJob
    split
    next hj =>
      simp only [getJob, List.find?_cons, decide_eq_true hj, Option.some.injEq] at h
      simp only [cursors, List.countP_cons, hmemory, h]
    next hj =>
      simp only [getJob, List.find?_cons, decide_eq_false hj] at h
      have ih' := ih h
      simp only [cursors, List.countP_cons] at ih' ⊢
      rw [ih']

theorem forall_removeJob {P : TransferJob → Prop} (h : ∀ j ∈ jobs, P j) (id : Int) :
    ∀ j ∈ (removeJob id jobs).2, P j :=
  fun j hj => h j (List.mem_of_mem_eraseP hj)

theorem removeJob_none (h : (removeJob id jobs).1 = none) : (removeJob id jobs).2 = jobs := by
  apply List.eraseP_of_forall_not
  exact List.find?_eq_none.mp h

theorem cursors_removeJob (h : getJob id jobs = some job) :
    cursors jobs = cursors (removeJob id jobs).2 + if job.inMemory then 1 else 0 := by
  induction jobs with
  | nil => cases h
  | cons j jobs ih =>
    by_cases hj : j.id = id
    · simp only [getJob, List.find?_cons, decide_eq_true hj, Option.some.injEq] at h
      rw [h] at hj ⊢
      simp [removeJob, cursors, List.countP_cons, hj]
    · simp only [getJob, List.find?_cons, decide_eq_false hj] at h
      have ih' := ih h
      simp only [removeJob, cursors, List.countP_cons, List.eraseP_cons, decide_eq_false hj]
        at ih' ⊢
      simp only [Bool.cond_false, List.countP_cons]
      omega

theorem getJob_removeJob_of_ne (hne : id' ≠ id) :
    getJob id (removeJob id' jobs).2 = getJob id jobs := by
  induction jobs with
  | nil => rfl
  | cons j jobs ih =>
    simp only [removeJob] at ih ⊢
    rw [List.eraseP_cons]
    by_cases hj : j.id = id'
    · have hj' : j.id ≠ id := fun h => hne (hj.symm.trans h)
      simp [getJob, hj, hne]
    · simp only [decide_eq_false hj, Bool.cond_false, getJob, List.find?_cons]
      split
      next => rfl
      next => exact ih

end

/-! ## A job that is written -/

namespace TransferJob

variable {z : Zstd} {job job' : TransferJob} {d d' : Disk}

/-- A job that does not write to memory has nothing there. -/
def Proper (job : TransferJob) : Prop := job.inMemory = false → job.bufData = none

/-- What a job keeps while it is written. -/
structure Same (job job' : TransferJob) : Prop where
  id : job'.id = job.id
  inMemory : job'.inMemory = job.inMemory
  proper : job.Proper → job'.Proper

theorem Same.trans {job'' : TransferJob} (h : job.Same job') (h' : job'.Same job'') :
    job.Same job'' where
  id := h'.id.trans h.id
  inMemory := h'.inMemory.trans h.inMemory
  proper := h'.proper ∘ h.proper

theorem same_startFile (p : PathStr) (fileNum : Int) (entry : FileEntry) {r : Except JobError Unit}
    (h : job.startFile p fileNum entry d = (r, job', d')) : job.Same job' := by
  unfold startFile at h
  dsimp only at h
  split at h
  next =>
    cases h
    exact ⟨rfl, rfl, fun hproper => hproper⟩
  next =>
    split at h
    next =>
      cases h
      exact ⟨rfl, rfl, fun hproper => hproper⟩
    next =>
      cases h
      exact ⟨rfl, rfl, fun _ _ => rfl⟩

theorem same_writeData {block : FileTransferBlock} {r : Except JobError Unit}
    (h : job.writeData z block d = (r, job', d')) : job.Same job' := by
  unfold writeData at h
  split at h
  next =>
    cases h
    exact ⟨rfl, rfl, fun hproper => hproper⟩
  next stream hstream =>
    dsimp only at h
    split at h
    next =>
      cases h
      exact ⟨rfl, rfl, fun hproper => hproper⟩
    next hwrite =>
      cases h
      refine ⟨rfl, rfl, fun hproper hmemory => ?_⟩
      have hnone := hproper hmemory
      unfold bufData at hnone
      rw [hstream] at hnone
      cases stream with
      | bufStream data pos => cases hnone
      | fileStream f =>
        unfold writeStream at hwrite
        split at hwrite
        next =>
          split at hwrite
          next =>
            cases hwrite
            rfl
          next => cases hwrite
        next hbuf => cases hbuf

theorem same_write {block : FileTransferBlock} {r : Except JobError Unit}
    (h : job.write z block d = (r, job', d')) : job.Same job' := by
  unfold write at h
  split at h
  next =>
    cases h
    exact ⟨rfl, rfl, fun hproper => hproper⟩
  next =>
    split at h
    next =>
      split at h
      next =>
        cases h
        exact ⟨rfl, rfl, fun hproper => hproper⟩
      next =>
        split at h
        next =>
          cases h
          exact ⟨rfl, rfl, fun hproper => hproper⟩
        next =>
          split at h
          next =>
            split at h
            next hstart =>
              cases h
              exact same_startFile _ _ _ hstart
            next hstart => exact (same_startFile _ _ _ hstart).trans (same_writeData h)
          next => exact same_writeData h
    next hsource =>
      split at h
      next => exact same_writeData h
      next =>
        have hsame := same_writeData h
        refine ⟨hsame.id, hsame.inMemory, fun _ hmemory => ?_⟩
        have hmemory' := hsame.inMemory.symm.trans hmemory
        simp [inMemory, hsource] at hmemory'

theorem same_confirm {fileNum : Int} {union : Option Confirm}
    (h : job.confirm fileNum union d = some (job', d')) : job.Same job' := by
  unfold confirm at h
  split at h
  next =>
    cases h
    exact ⟨rfl, rfl, fun hproper => hproper⟩
  next =>
    split at h
    next =>
      cases h
      exact ⟨rfl, rfl, fun _ _ => rfl⟩
    next =>
      cases h
      exact ⟨rfl, rfl, fun hproper => hproper⟩
    next =>
      dsimp only at h
      split at h
      next =>
        unfold setStreamOffset at h
        split at h
        next =>
          cases h
          exact ⟨rfl, rfl, fun hproper => hproper⟩
        next =>
          split at h
          next => cases h
          next =>
            dsimp only at h
            split at h
            next =>
              cases h
              exact ⟨rfl, rfl, fun hproper => hproper⟩
            next =>
              cases h
              exact ⟨rfl, rfl, fun _ _ => rfl⟩
      next =>
        cases h
        exact ⟨rfl, rfl, fun hproper => hproper⟩
    next =>
      cases h
      exact ⟨rfl, rfl, fun hproper => hproper⟩

/-- A no loses what has come. -/
theorem bufData_skip {fileNum : Int} (hnum : job.fileNum = fileNum)
    (h : job.confirm fileNum (some (.skip true)) d = some (job', d')) : job'.bufData = none := by
  unfold confirm at h
  rw [if_neg (not_not_intro hnum)] at h
  cases h
  rfl

end TransferJob

/-- The job that collects the data of a print job, of which this much has come. Its stream is opened
when the first block comes. -/
structure Collects (id : Int) (taken : Content) (job : TransferJob) : Prop where
  id : job.id = id
  jobType : job.jobType = .printer
  source : job.dataSource = .memoryCursor []
  stream : job.dataStream = if taken = [] then none else some (.bufStream taken taken.length)
  files : job.files = []
  fileError : job.fileError = none

namespace Collects

variable {z : Zstd} {id : Int} {taken chunk : Content} {job job' : TransferJob} {d d' : Disk}

theorem bufData (h : Collects id taken job) :
    job.bufData = if taken = [] then none else some taken := by
  unfold TransferJob.bufData
  rw [h.stream]
  by_cases ht : taken = []
  · rw [if_pos ht, if_pos ht]
  · rw [if_neg ht, if_neg ht]

theorem inMemory (h : Collects id taken job) : job.inMemory = true := by
  rw [TransferJob.inMemory, h.source]

theorem proper (h : Collects id taken job) : job.Proper := fun hmemory =>
  Bool.noConfusion (h.inMemory.symm.trans hmemory)

theorem jobError (h : Collects id taken job) : job.jobError = none := by
  simp [TransferJob.jobError, TransferJob.jobSkipped, h.files, h.fileError]

/-- A block is put behind what has come. -/
theorem write (h : Collects id taken job) (hne : chunk ≠ []) :
    ∃ job', job.write z { id, fileNum := 0, data := chunk, compressed := false } d =
      (.ok (), job', d) ∧ Collects id (taken ++ chunk) job' := by
  have hne' : taken ++ chunk ≠ [] := List.append_ne_nil_of_right_ne_nil taken hne
  have hdata (job : TransferJob) (hstream : job.dataStream = some (.bufStream taken taken.length)) :
      job.writeData z { id, fileNum := 0, data := chunk, compressed := false } d =
        (.ok (), { job with
          dataStream := some (.bufStream (taken ++ chunk) (taken ++ chunk).length)
          finishedSize := job.finishedSize + chunk.length
          transferred := job.transferred + chunk.length }, d) := by
    unfold TransferJob.writeData
    rw [hstream]
    simp only [TransferJob.payload, TransferJob.writeStream, Disk.splice_end, Bool.false_eq_true,
      if_false, List.length_append]
  unfold TransferJob.write
  rw [if_neg (not_not_intro h.id.symm)]
  split
  next hsource => cases hsource.symm.trans h.source
  next c hsource =>
    cases hsource.symm.trans h.source
    by_cases ht : taken = []
    · have hnone : job.dataStream = none := h.stream.trans (if_pos ht)
      split
      next hsome => cases hnone.symm.trans hsome
      next =>
        refine ⟨_, hdata { job with dataStream := some (.bufStream [] 0) } (by rw [ht]; rfl),
          h.id, h.jobType, h.source, (if_neg hne').symm, h.files, h.fileError⟩
    · have hsome : job.dataStream = some (.bufStream taken taken.length) :=
        h.stream.trans (if_neg ht)
      split
      next =>
        exact ⟨_, hdata job hsome, h.id, h.jobType, h.source, (if_neg hne').symm, h.files,
          h.fileError⟩
      next hnone => cases hnone.symm.trans hsome

/-- An answer of the user changes nothing, unless it is a no about a job that has data. -/
theorem confirm (h : Collects id taken job) (fileNum : Int) (needOverride : Bool)
    (hno : needOverride = false → job.fileNum = fileNum → taken = [])
    (hconfirm : job.confirm fileNum (some (if needOverride then .offsetBlk 0 else .skip true)) d =
      some (job', d')) : Collects id taken job' := by
  unfold TransferJob.confirm at hconfirm
  split at hconfirm
  next =>
    cases hconfirm
    exact h
  next hnum =>
    cases needOverride with
    | true =>
      cases hconfirm
      exact ⟨h.id, h.jobType, h.source, h.stream, h.files, h.fileError⟩
    | false =>
      cases hconfirm
      have ht := hno rfl (not_not.mp hnum)
      exact ⟨h.id, h.jobType, h.source, (if_pos ht).symm, h.files, h.fileError⟩

end Collects

/-- What is still to come of a print job. -/
structure Incoming.Whole (c : Incoming) (chunks : List Content) : Prop where
  rest : c.rest = chunks.map (fun chunk => .block
    { id := c.job.id, fileNum := 0, data := chunk, compressed := false }) ++ [.done c.job.id 0]
  nonempty : ∀ chunk ∈ chunks, chunk ≠ []
  data : c.taken ++ chunks.flatten = c.job.data

namespace Printing

variable {z : Zstd} {s s' : Printing}

/-! ## What has come in -/

/-- What is at the printer and in the store are the print jobs that have come in whole, and what is
coming in has been collected, as far as it has come. -/
structure Intact (s : Printing) : Prop where
  printed : s.client.printed = (s.complete.filter (fun x => x.2)).map (fun x => x.1.data)
  pending : s.client.pending = (s.complete.filter (fun x => !x.2)).map (fun x => (x.1.id, x.1.data))
  coming : ∀ c, s.coming = some c → ∃ job, getJob c.job.id s.client.writeJobs = some job ∧
    job.jobType = .printer ∧ job.dataSource = .memoryCursor [] ∧ job.bufData.getD [] = c.taken

/-- A step after which a print job is not what it was: it comes in under the id of another job, the
user cancels it or says no to it by its id, or it is stored under an id that is taken. -/
def Clashes (s : Printing) : Event → Prop
  | .print job => ∃ other ∈ s.client.writeJobs, other.id = job.id
  | .take => ∃ job taken m, s.coming = some ⟨job, taken, [m]⟩ ∧ job.data ≠ [] ∧
      s.client.autoPrint = false ∧ ∃ entry ∈ s.client.pending, entry.1 = job.id
  | .user (.cancelJob id) => ∃ c, s.coming = some c ∧ c.job.id = id
  | .user (.setConfirmOverrideFile id fileNum false _) => ∃ c, s.coming = some c ∧ c.job.id = id ∧
      c.taken ≠ [] ∧ ∃ job, getJob id s.client.writeJobs = some job ∧ job.fileNum = fileNum
  | _ => False

/-- What carries the induction: besides, no job writes to memory but the one that collects what is
coming in. -/
structure Sound (s : Printing) : Prop where
  printed : s.client.printed = (s.complete.filter (fun x => x.2)).map (fun x => x.1.data)
  pending : s.client.pending = (s.complete.filter (fun x => !x.2)).map (fun x => (x.1.id, x.1.data))
  proper : ∀ job ∈ s.client.writeJobs, job.Proper
  idle : s.coming = none → cursors s.client.writeJobs = 0
  coming : ∀ c, s.coming = some c → (∃ chunks, c.Whole chunks) ∧
    cursors s.client.writeJobs = 1 ∧
    ∃ job, getJob c.job.id s.client.writeJobs = some job ∧ Collects c.job.id c.taken job

namespace Sound

theorem intact (h : Sound s) : Intact s where
  printed := h.printed
  pending := h.pending
  coming c hc := by
    obtain ⟨-, -, job, hjob, hcollects⟩ := h.coming c hc
    refine ⟨job, hjob, hcollects.jobType, hcollects.source, ?_⟩
    rw [hcollects.bufData]
    split
    next ht => exact ht.symm
    next => rfl

theorem fresh (h : Fresh s) : Sound s := by
  obtain ⟨hjobs, hprinted, hpending, hcoming, hcomplete⟩ := h
  refine ⟨?_, ?_, ?_, fun _ => ?_, fun c hc => ?_⟩
  · rw [hprinted, hcomplete]
    rfl
  · rw [hpending, hcomplete]
    rfl
  · rw [hjobs]
    exact List.forall_mem_nil _
  · rw [hjobs]
    rfl
  · cases hcoming.symm.trans hc

/-- The jobs have changed, but not the one that collects. -/
theorem jobs (h : Sound s) {writeJobs : List TransferJob} (disk : Disk)
    (hproper : ∀ job ∈ writeJobs, job.Proper)
    (hcursors : cursors writeJobs = cursors s.client.writeJobs)
    (hkeeps : ∀ c, s.coming = some c → ∀ job, getJob c.job.id s.client.writeJobs = some job →
      Collects c.job.id c.taken job →
      ∃ job', getJob c.job.id writeJobs = some job' ∧ Collects c.job.id c.taken job') :
    Sound { s with client := { s.client with writeJobs, disk } } where
  printed := h.printed
  pending := h.pending
  proper := hproper
  idle hc := hcursors.trans (h.idle hc)
  coming c hc := by
    obtain ⟨hsound, hone, job, hjob, hcollects⟩ := h.coming c hc
    exact ⟨hsound, hcursors.trans hone, hkeeps c hc job hjob hcollects⟩

/-- A job that is found by its id changes. If it is the one that collects what is coming in, it has
to go on doing so. -/
theorem setCollecting (h : Sound s) {id : Int} {job job' : TransferJob} (disk : Disk)
    (hjob : getJob id s.client.writeJobs = some job) (hsame : job.Same job')
    (hkeeps : ∀ c, s.coming = some c → Collects c.job.id c.taken job → c.job.id = id →
      Collects c.job.id c.taken job') :
    Sound { s with client :=
      { s.client with writeJobs := Transfer.setJob id job' s.client.writeJobs, disk } } := by
  have hproper : ∀ j ∈ Transfer.setJob id job' s.client.writeJobs, j.Proper :=
    forall_setJob h.proper (hsame.proper (h.proper job (List.mem_of_find?_eq_some hjob)))
  refine h.jobs disk hproper (cursors_setJob hjob hsame.inMemory)
    fun c hc collector hcjob hcollects => ?_
  by_cases hid : c.job.id = id
  · obtain rfl := hid
    obtain rfl : collector = job := Option.some.inj (hcjob.symm.trans hjob)
    have hcollects' := hkeeps c hc hcollects rfl
    exact ⟨job', getJob_setJob hjob hcollects'.id, hcollects'⟩
  · have hid' : job'.id = id := hsame.id.trans (id_of_getJob hjob)
    exact ⟨collector, (getJob_setJob_of_ne (Ne.symm hid) hid').trans hcjob, hcollects⟩

/-- While no print job comes in, it changes as it likes. -/
theorem setJob (h : Sound s) (hcoming : s.coming = none) {id : Int} {job job' : TransferJob}
    (disk : Disk) (hjob : getJob id s.client.writeJobs = some job) (hsame : job.Same job') :
    Sound { s with client :=
      { s.client with writeJobs := Transfer.setJob id job' s.client.writeJobs, disk } } := by
  apply h.setCollecting disk hjob hsame
  intro c hc
  cases hcoming.symm.trans hc

/-- The same for one that is removed. -/
theorem removeJob (h : Sound s) (hcoming : s.coming = none) (id : Int) (disk : Disk) :
    Sound { s with client :=
      { s.client with writeJobs := (Transfer.removeJob id s.client.writeJobs).2, disk } } := by
  refine h.jobs disk (forall_removeJob h.proper id) ?_ fun c hc => ?_
  · cases hjob : getJob id s.client.writeJobs with
    | none => rw [removeJob_none hjob]
    | some job =>
      have hcursors := cursors_removeJob hjob
      rw [h.idle hcoming] at hcursors ⊢
      omega
  · cases hcoming.symm.trans hc

/-- A message of the host that is not of a print job. -/
theorem handle (h : Sound s) (hcoming : s.coming = none) {m : FileMessage}
    (hm : ∀ id fileNum, m ≠ .send ⟨id, fileNum, .printer⟩) {client : PrintClient}
    (hs : s.client.handle z m = some client) : Sound { s with client } := by
  cases m with
  | send request =>
    obtain ⟨id, fileNum, fileType⟩ := request
    cases fileType with
    | printer => exact absurd rfl (hm id fileNum)
    | generic =>
      cases hs
      exact h
  | block block =>
    simp only [PrintClient.handle] at hs
    split at hs
    next job hjob =>
      cases hs
      exact h.setJob hcoming _ hjob (TransferJob.same_write rfl)
    next =>
      cases hs
      exact h
  | done id fileNum =>
    cases hs
    unfold PrintClient.onDone
    split
    next => exact h
    next job writeJobs hremove =>
      have hjob : getJob id s.client.writeJobs = some job := congrArg Prod.fst hremove
      have hmem := List.mem_of_find?_eq_some hjob
      have hdata := h.proper job hmem (inMemory_eq_false (h.idle hcoming) hmem)
      obtain rfl : (Transfer.removeJob id s.client.writeJobs).2 = writeJobs :=
        congrArg Prod.snd hremove
      split
      next hsome => cases hdata.symm.trans hsome
      next => exact h.removeJob hcoming id _
  | error id fileNum err =>
    cases hs
    exact h.removeJob hcoming id s.client.disk
  | dir id files =>
    simp only [PrintClient.handle] at hs
    split at hs
    next job hjob =>
      cases hs
      exact h.setJob hcoming _ hjob ⟨rfl, rfl, fun hproper => hproper⟩
    next =>
      cases hs
      exact h
  | digest id fileNum fileSize lastModified union =>
    simp only [PrintClient.handle] at hs
    split at hs
    next job hjob =>
      split at hs
      next =>
        obtain ⟨⟨job', disk⟩, hconfirm, rfl⟩ := Option.map_eq_some_iff.mp hs
        have hsame := TransferJob.same_confirm hconfirm
        exact h.setJob hcoming _ hjob ⟨hsame.id, hsame.inMemory, hsame.proper⟩
      next =>
        cases hs
        exact h
    next =>
      cases hs
      exact h

/-- A print job begins to come in. -/
theorem print (h : Sound s) (hcoming : s.coming = none) (job : PrintJob)
    (hnew : ∀ other ∈ s.client.writeJobs, other.id ≠ job.id) :
    Sound { s with
      client := { s.client with writeJobs := s.client.writeJobs ++
        [TransferJob.new job.id .printer (.memoryCursor []) 0 [] false] }
      coming := some ⟨job, [], job.body⟩ } where
  printed := h.printed
  pending := h.pending
  proper := List.forall_mem_append.mpr
    ⟨h.proper, List.forall_mem_singleton.mpr fun _ => rfl⟩
  idle hc := by cases hc
  coming c hc := by
    cases hc
    obtain ⟨hflatten, hne⟩ := toChunks_succ 65535 job.data
    have hcollects : Collects job.id []
        (TransferJob.new job.id .printer (.memoryCursor []) 0 [] false) :=
      ⟨rfl, rfl, rfl, (if_pos rfl).symm, rfl, rfl⟩
    refine ⟨⟨job.data.toChunks PrintJob.blockSize, rfl, hne, hflatten⟩, ?_, _, ?_, hcollects⟩
    · rw [cursors_snoc, h.idle hcoming]
      rfl
    · have hnone : s.client.writeJobs.find? (fun j => decide (j.id = job.id)) = none :=
        List.find?_eq_none.mpr fun j hj => by simpa using hnew j hj
      simp [getJob, List.find?_append, hnone, TransferJob.new]

/-- A block of it comes in. -/
theorem block (h : Sound s) {job : PrintJob} {taken chunk : Content} {chunks : List Content}
    {rest : List FileMessage} (hcoming : s.coming = some ⟨job, taken, .block
      { id := job.id, fileNum := 0, data := chunk, compressed := false } :: rest⟩)
    (hsound : Incoming.Whole ⟨job, taken, .block
      { id := job.id, fileNum := 0, data := chunk, compressed := false } :: rest⟩
      (chunk :: chunks)) {client : PrintClient}
    (hs : s.client.handle z (.block
      { id := job.id, fileNum := 0, data := chunk, compressed := false }) = some client) :
    Sound { s with client, coming := some ⟨job, taken ++ chunk, rest⟩ } := by
  obtain ⟨-, hone, collector, hjob, hcollects⟩ := h.coming _ hcoming
  obtain ⟨collector', hwrite, hcollects'⟩ :=
    hcollects.write (z := z) (d := s.client.disk) (hsound.nonempty chunk List.mem_cons_self)
  simp only [PrintClient.handle, hjob, hwrite, Option.some.injEq] at hs
  cases hs
  refine ⟨h.printed, h.pending, forall_setJob h.proper hcollects'.proper, ?_, fun c hc => ?_⟩
  · rintro ⟨⟩
  cases hc
  refine ⟨⟨chunks, ?_, ?_, ?_⟩, ?_, collector', ?_, hcollects'⟩
  · exact (List.cons.inj hsound.rest).2
  · exact fun c hc => hsound.nonempty c (List.mem_cons_of_mem _ hc)
  · rw [List.append_assoc]
    exact hsound.data
  · rw [cursors_setJob hjob (hcollects'.inMemory.trans hcollects.inMemory.symm)]
    exact hone
  · exact getJob_setJob hjob hcollects'.id

/-- What the client is when a print job has come to its end. -/
theorem onDone_eq {id : Int} {taken : Content} {collector : TransferJob} (client : PrintClient)
    (hjob : getJob id client.writeJobs = some collector) (h : Collects id taken collector) :
    client.onDone id =
      if taken = [] then { client with
        writeJobs := (Transfer.removeJob id client.writeJobs).2
        disk := collector.modifyTime client.disk }
      else PrintClient.handOver { client with
        writeJobs := (Transfer.removeJob id client.writeJobs).2
        disk := collector.modifyTime client.disk } id taken := by
  unfold PrintClient.onDone
  split
  next hnone => cases hjob.symm.trans (congrArg Prod.fst hnone)
  next job writeJobs hremove =>
    obtain rfl : collector = job :=
      Option.some.inj (hjob.symm.trans (congrArg Prod.fst hremove))
    obtain rfl : (Transfer.removeJob id client.writeJobs).2 = writeJobs :=
      congrArg Prod.snd hremove
    simp only [h.jobType, h.jobError, h.bufData]
    by_cases ht : taken = []
    · simp only [if_pos ht]
    · simp only [if_neg ht]

/-- A print job has come in whole. -/
theorem done (h : Sound s) {job : PrintJob}
    (hcoming : s.coming = some ⟨job, job.data, [.done job.id 0]⟩)
    (hfree : job.data ≠ [] → s.client.autoPrint = false →
      ∀ entry ∈ s.client.pending, entry.1 ≠ job.id) :
    Sound { finish job s with client := s.client.onDone job.id } := by
  obtain ⟨-, hone, collector, hjob, hcollects⟩ := h.coming _ hcoming
  dsimp only at hjob hcollects
  have hcursors : cursors (Transfer.removeJob job.id s.client.writeJobs).2 = 0 := by
    have hcount := cursors_removeJob hjob
    rw [hone, if_pos hcollects.inMemory] at hcount
    omega
  have hproper := forall_removeJob h.proper job.id
  rw [onDone_eq s.client hjob hcollects]
  unfold finish
  by_cases hdata : job.data = []
  · simp only [if_pos hdata]
    refine ⟨h.printed, h.pending, hproper, fun _ => hcursors, ?_⟩
    rintro c ⟨⟩
  · simp only [if_neg hdata]
    unfold PrintClient.handOver
    cases hauto : s.client.autoPrint with
    | true =>
      refine ⟨?_, ?_, hproper, fun _ => hcursors, ?_⟩
      · simp [h.printed]
      · simpa using h.pending
      · rintro c ⟨⟩
    | false =>
      have hfilter : s.client.pending.filter (fun entry => decide (entry.1 ≠ job.id)) =
          s.client.pending := List.filter_eq_self.mpr fun entry hentry =>
        decide_eq_true (hfree hdata hauto entry hentry)
      refine ⟨?_, ?_, hproper, fun _ => hcursors, ?_⟩
      · simpa [PrintClient.storePrintJob] using h.printed
      · rw [if_neg Bool.false_ne_true]
        change s.client.pending.filter (fun entry => decide (entry.1 ≠ job.id)) ++
          [(job.id, job.data)] = _
        rw [hfilter, h.pending]
        simp
      · rintro c ⟨⟩

/-- What comes next of a print job is a block, or its end. -/
theorem next_of_whole {job : PrintJob} {taken : Content} {m : FileMessage}
    {rest : List FileMessage} {chunks : List Content}
    (h : Incoming.Whole ⟨job, taken, m :: rest⟩ chunks) :
    (∃ chunk chunks', chunks = chunk :: chunks' ∧ rest ≠ [] ∧
      m = .block { id := job.id, fileNum := 0, data := chunk, compressed := false }) ∨
      m = .done job.id 0 ∧ rest = [] ∧ taken = job.data := by
  cases chunks with
  | nil =>
    obtain ⟨hm, hrest⟩ := List.cons.inj h.rest
    have hdata := h.data
    rw [List.flatten_nil, List.append_nil] at hdata
    exact .inr ⟨hm, hrest, hdata⟩
  | cons chunk chunks =>
    obtain ⟨hm, hrest⟩ := List.cons.inj h.rest
    refine .inl ⟨chunk, chunks, rfl, ?_, hm⟩
    rw [hrest]
    exact List.append_ne_nil_of_right_ne_nil _ (List.cons_ne_nil _ _)

/-- What the user does to the jobs, while it does not clash. -/
theorem user (h : Sound s) {action : PrintClient.UserAction} {client : PrintClient}
    (hs : s.client.handleUser action = some client) (hnot : ¬ Clashes s (.user action)) :
    Sound { s with client } := by
  cases action with
  | sendFiles id jobType target fileNum overwriteDetection isLastJob direct =>
    cases hs
    refine h.jobs s.client.disk ?_ (cursors_snoc _ _) fun c hc job hjob hcollects =>
      ⟨job, getJob_append hjob _, hcollects⟩
    exact List.forall_mem_append.mpr ⟨h.proper, List.forall_mem_singleton.mpr fun _ => rfl⟩
  | resumeJob id =>
    simp only [PrintClient.handleUser] at hs
    split at hs
    next job hjob =>
      cases hs
      refine h.setCollecting s.client.disk hjob ⟨rfl, rfl, fun hproper => hproper⟩
        fun c hc hcollects hid => ?_
      exact ⟨hcollects.id, hcollects.jobType, hcollects.source, hcollects.stream,
        hcollects.files, hcollects.fileError⟩
    next =>
      cases hs
      exact h
  | setConfirmOverrideFile id fileNum needOverride remember =>
    simp only [PrintClient.handleUser] at hs
    split at hs
    next job hjob =>
      obtain ⟨⟨job', disk⟩, hconfirm, rfl⟩ := Option.map_eq_some_iff.mp hs
      have hsame : job.Same job' := by
        have hsame := TransferJob.same_confirm hconfirm
        split at hsame
        next => exact ⟨hsame.id, hsame.inMemory, hsame.proper⟩
        next => exact hsame
      refine h.setCollecting disk hjob hsame fun c hc hcollects hid => ?_
      obtain rfl := hid
      have hcollects' : Collects c.job.id c.taken (if remember then
          { job with defaultOverwriteStrategy := some needOverride } else job) := by
        split
        next => exact ⟨hcollects.id, hcollects.jobType, hcollects.source, hcollects.stream,
          hcollects.files, hcollects.fileError⟩
        next => exact hcollects
      have hnum : (if remember then { job with defaultOverwriteStrategy := some needOverride }
          else job).fileNum = job.fileNum := by
        split <;> rfl
      apply hcollects'.confirm fileNum needOverride ?_ hconfirm
      intro hno hfile
      obtain rfl := hno
      refine by_contra fun ht => hnot ⟨c, hc, rfl, ht, job, hjob, ?_⟩
      exact hnum.symm.trans hfile
    next =>
      cases hs
      exact h
  | cancelJob id =>
    have hne : ∀ c, s.coming = some c → id ≠ c.job.id := fun c hc hid =>
      hnot ⟨c, hc, hid.symm⟩
    simp only [PrintClient.handleUser] at hs
    split at hs
    next job writeJobs hremove =>
      cases hs
      have hjob : getJob id s.client.writeJobs = some job := congrArg Prod.fst hremove
      obtain rfl : (Transfer.removeJob id s.client.writeJobs).2 = writeJobs :=
        congrArg Prod.snd hremove
      refine h.jobs _ (forall_removeJob h.proper id) ?_ fun c hc collector hcjob hcollects =>
        ⟨collector, (getJob_removeJob_of_ne (hne c hc)).trans hcjob, hcollects⟩
      have hcount := cursors_removeJob hjob
      cases hcoming : s.coming with
      | none =>
        rw [h.idle hcoming] at hcount ⊢
        omega
      | some c =>
        obtain ⟨-, hone, collector, hcjob, hcollects⟩ := h.coming c hcoming
        have hkept := (getJob_removeJob_of_ne (hne c hcoming)).trans hcjob
        have hpos := cursors_pos hkept hcollects.inMemory
        omega
    next =>
      cases hs
      exact h

/-- The steps that do not clash. -/
theorem next {e : Event} (h : Sound s) (hs : next z s e = some s') (hnot : ¬ Clashes s e) :
    Sound s' := by
  cases e with
  | print job =>
    cases hcoming : s.coming with
    | some c => simp [Printing.next, hcoming] at hs
    | none =>
      simp only [Printing.next, PrintJob.messages, hcoming] at hs
      cases hs
      exact h.print hcoming job fun other hother hid => hnot ⟨other, hother, hid⟩
  | take =>
    simp only [Printing.next] at hs
    split at hs
    next job taken m rest hcoming =>
      obtain ⟨client, hclient, rfl⟩ := Option.map_eq_some_iff.mp hs
      obtain ⟨⟨chunks, hwhole⟩, -⟩ := h.coming _ hcoming
      rcases next_of_whole hwhole with ⟨chunk, chunks', rfl, hrest, rfl⟩ | ⟨rfl, rfl, rfl⟩
      · rw [if_neg hrest]
        exact h.block hcoming hwhole hclient
      · cases hclient
        refine h.done hcoming fun hdata hauto entry hentry hid => ?_
        exact hnot ⟨job, job.data, _, hcoming, hdata, hauto, entry, hentry, hid⟩
    next => cases hs
  | message m =>
    simp only [Printing.next] at hs
    split at hs
    next => cases hs
    next => cases hs
    next hcoming hsend =>
      obtain ⟨client, hclient, rfl⟩ := Option.map_eq_some_iff.mp hs
      exact h.handle hcoming (fun id fileNum hm => hsend id fileNum hm) hclient
  | user action =>
    obtain ⟨client, hclient, rfl⟩ := Option.map_eq_some_iff.mp hs
    exact h.user hclient hnot
  | setAutoPrint autoPrint =>
    cases hs
    exact ⟨h.printed, h.pending, h.proper, h.idle, h.coming⟩
  | reconnect =>
    cases hs
    refine ⟨h.printed, h.pending, List.forall_mem_nil _, fun _ => rfl, ?_⟩
    rintro c ⟨⟩

/-- A print job under the id of another job is not found. -/
theorem not_clashes_print (h : Sound s) {job : PrintJob}
    (hs : Printing.next z s (.print job) = some s') (hintact : Intact s') :
    ¬ Clashes s (.print job) := by
  rintro ⟨other, hother, hid⟩
  cases hcoming : s.coming with
  | some c => simp [Printing.next, hcoming] at hs
  | none =>
    simp only [Printing.next, PrintJob.messages, hcoming] at hs
    cases hs
    obtain ⟨found, hfound, -, hsource, -⟩ := hintact.coming _ rfl
    cases hold : getJob job.id s.client.writeJobs with
    | none =>
      have hnone := List.find?_eq_none.mp hold other hother
      exact hnone (decide_eq_true hid)
    | some first =>
      obtain rfl : first = found :=
        Option.some.inj ((getJob_append hold _).symm.trans hfound)
      have hnot := inMemory_eq_false (h.idle hcoming) (List.mem_of_find?_eq_some hold)
      simp [TransferJob.inMemory, hsource] at hnot

/-- A print job that is stored under an id that is taken takes the place of the other. -/
theorem not_clashes_take (h : Sound s) (hs : Printing.next z s .take = some s')
    (hintact : Intact s') : ¬ Clashes s .take := by
  rintro ⟨job, taken, m, hcoming, hdata, hauto, entry, hentry, hid⟩
  obtain ⟨⟨chunks, hwhole⟩, -, collector, hjob, hcollects⟩ := h.coming _ hcoming
  rcases next_of_whole hwhole with ⟨chunk, chunks', -, hrest, -⟩ | ⟨rfl, -, rfl⟩
  · exact hrest rfl
  · simp only [Printing.next, hcoming] at hs
    cases hs
    have hpending := hintact.pending
    simp only [if_true, finish, if_neg hdata, onDone_eq s.client hjob hcollects,
      PrintClient.handOver, PrintClient.storePrintJob, hauto, Bool.false_eq_true, if_false,
      List.filter_append, List.map_append] at hpending
    have hkept := List.append_cancel_right (hpending.trans (congrArg (· ++ _) h.pending.symm))
    have hall := List.filter_eq_self.mp hkept entry hentry
    exact of_decide_eq_true hall hid

/-- What the user cancels, or says no to, does not come in whole. -/
theorem not_clashes_user (h : Sound s) {action : PrintClient.UserAction} {client : PrintClient}
    (hs : s.client.handleUser action = some client) (hintact : Intact { s with client }) :
    ¬ Clashes s (.user action) := by
  cases action with
  | sendFiles id jobType target fileNum overwriteDetection isLastJob direct => exact False.elim
  | resumeJob id => exact False.elim
  | setConfirmOverrideFile id fileNum needOverride remember =>
    cases needOverride with
    | true => exact False.elim
    | false =>
      rintro ⟨c, hc, rfl, ht, job, hjob, rfl⟩
      simp only [PrintClient.handleUser, hjob] at hs
      obtain ⟨⟨job', disk⟩, hconfirm, rfl⟩ := Option.map_eq_some_iff.mp hs
      obtain ⟨found, hfound, -, -, hdata⟩ := hintact.coming c hc
      have hnum : (if remember then { job with defaultOverwriteStrategy := some false }
          else job).fileNum = job.fileNum := by
        split <;> rfl
      have hsame := TransferJob.same_confirm hconfirm
      have hid' : job'.id = c.job.id := by
        rw [hsame.id, ← id_of_getJob hjob]
        split <;> rfl
      obtain rfl : job' = found :=
        Option.some.inj ((getJob_setJob hjob hid').symm.trans hfound)
      rw [TransferJob.bufData_skip hnum hconfirm] at hdata
      exact ht hdata.symm
  | cancelJob id =>
    rintro ⟨c, hc, rfl⟩
    obtain ⟨-, hone, collector, hjob, hcollects⟩ := h.coming c hc
    have hcount := cursors_removeJob hjob
    rw [hone, if_pos hcollects.inMemory] at hcount
    simp only [PrintClient.handleUser] at hs
    split at hs
    next job writeJobs hremove =>
      cases hs
      obtain rfl : (Transfer.removeJob c.job.id s.client.writeJobs).2 = writeJobs :=
        congrArg Prod.snd hremove
      obtain ⟨found, hfound, -, hsource, -⟩ := hintact.coming c hc
      have hpos := cursors_pos hfound (by rw [TransferJob.inMemory, hsource])
      dsimp only at hpos
      omega
    next hremove => cases hjob.symm.trans (congrArg Prod.fst hremove)

theorem not_clashes {e : Event} (h : Sound s) (hs : Printing.next z s e = some s')
    (hintact : Intact s') : ¬ Clashes s e := by
  cases e with
  | print job => exact h.not_clashes_print hs hintact
  | take => exact h.not_clashes_take hs hintact
  | user action =>
    obtain ⟨client, hclient, rfl⟩ := Option.map_eq_some_iff.mp hs
    exact h.not_clashes_user hclient hintact
  | message m => exact False.elim
  | setAutoPrint autoPrint => exact False.elim
  | reconnect => exact False.elim

end Sound

/-- **Print jobs come in as they were printed**: in every state of a run, what is at the printer and
in the store are just the print jobs that have come in whole, with all their data, and what is
coming in has been collected as far as it has come, exactly if no step of the run clashes. -/
theorem intact_iff {tr : List (Printing × Event)} {s : Printing} (h : (system z).Trace tr s) :
    System.Always Intact tr s ↔ ∀ x ∈ tr, ¬ Clashes x.1 x.2 := by
  refine h.always_iff (I := Sound) (P := fun s e => ¬ Clashes s e) ?_ ?_ ?_ ?_
  · exact fun hfresh => Sound.fresh hfresh
  · exact fun hs => hs.intact
  · exact fun hs hstep hnot => hs.next hstep hnot
  · exact fun hs hstep hintact => hs.not_clashes hstep hintact

theorem trace_snoc {tr : List (Printing × Event)} (h : (system z).Trace tr s) {e : Event}
    (hs : next z s e = some s') : (system z).Trace (tr ++ [(s, e)]) s' := h.snoc hs

/-- The user begins to receive files, and the ids of the host begin with that of these. -/
theorem not_intact_download : ∃ z tr s, (system z).Trace tr s ∧ ¬ System.Always Intact tr s := by
  have hfresh : Fresh ⟨⟨[], ⟨∅, [], 0, []⟩, false, [], []⟩, none, []⟩ :=
    ⟨rfl, rfl, rfl, rfl, rfl⟩
  have hstart : (system ⟨some, some⟩).Trace [] _ := .start hfresh
  have hfiles := trace_snoc hstart (e := .user (.sendFiles 1 .generic [] 0 true true false)) rfl
  have hprint := trace_snoc hfiles (e := .print ⟨1, [37, 33]⟩) rfl
  refine ⟨_, _, _, hprint, ?_⟩
  rw [intact_iff hprint]
  intro hnever
  refine hnever _ (List.mem_append_right _ List.mem_cons_self) ?_
  exact ⟨_, List.mem_cons_self, rfl⟩

end Printing

end HopToDesk.Transfer
