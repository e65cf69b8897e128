import HopToDesk.Transfer.RemoveJobs

/-!
# What a delete job removes

A delete job of a local directory should remove what was listed when it was made, each file once.
Its list is set anew by any directory the peer sends under its id, though, and any status under its
id makes it ask for the next file. Where neither comes in between (`InTurn`), a job's requests are
in the order of its list, at most one of them waits, and nothing else is removed
(`confined_of_inTurn`).
-/

set_option autoImplicit false

namespace HopToDesk.Transfer

open Kit UnixPath

namespace Remote

/-! ## What is asked for -/

/-- What is removed for a job is on the list it was made with and below its path, once; the names
that are shown are on the list too. -/
structure Confined (s : Remote) : Prop where
  chain : ∀ r ∈ s.removed, ∀ {n}, r.chain = some n → ∃ job, s.made[n]? = some job ∧
    job.isRemote = false ∧ ∃ entry ∈ job.files, r.path = job.filePath entry.name
  shown : ∀ {n id fileNum name}, .confirmDeleteFiles n id fileNum name ∈ s.told →
    ∃ job, s.made[n]? = some job ∧
      (job.isRemote = false → ∃ entry ∈ job.files, entry.name = name)
  below : ∀ job ∈ s.made, job.isRemote = false → ∀ entry ∈ job.files, ∀ cwd,
    resolve cwd (parse job.path) <+: resolve cwd (parse (job.filePath entry.name))
  once : ∀ n, ((s.removed.filter (·.chain = some n)).map Removal.path).Nodup

/-- A request for a local file, as it waits in the channel. -/
def request : Option Nat × Data → Option Removal
  | (chain, .removeFile _ path fileNum false) => some ⟨path, fileNum, chain⟩
  | _ => none

def pending (s : Remote) : List Removal := s.receiver.filterMap request

/-- The job with this number has asked for a file. -/
def Begun (s : Remote) (n : Nat) : Prop := ∃ r ∈ s.removed ++ s.pending, r.chain = some n

/-! ## In turn -/

end Remote

/-- The job a wish reports the status of: something was done, or failed, under its id. -/
def Data.status (io : JobIo) : Data → Option Int
  | .removeFile id _ _ false => some id
  | .createDir id _ false => some id
  | .renameFile id _ _ false => some id
  | .removeDirAll id path false includeHidden =>
    match getRecursiveFiles path includeHidden io.found with
    | .ok _ => none
    | .error _ => some id
  | .newJob id _ false =>
    match io.newRead with
    | .ok _ => none
    | .error _ => some id
  | _ => none

/-- The end of a write job is reported under its id, if it does not print. -/
def Remote.reported (s : Remote) (id : Int) : Option Int :=
  match s.writeJob id with
  | some (_, .printer) => none
  | _ => some id

/-- And the job an answer of the peer reports the status of. -/
def FileResponse.status (s : Remote) : FileResponse → Option Int
  | .done id _ => s.reported id
  | .error id _ _ => s.reported id
  | _ => none

namespace Remote

/-- A status under the id of a local job that goes on by itself is of what the job asked for, unless
it has not asked for anything yet. -/
def StatusInTurn (s : Remote) (chain : Option Nat) (id : Int) : Prop :=
  ∀ job, s.removeJobs.lookup id = some job → job.isRemote = false → job.noConfirm = true →
    chain = some job.number ∨ ¬ s.Begun job.number

/-- **A step in turn**: no directory comes for a local job, and no status out of turn. -/
def InTurn (s : Remote) : JobEvent → Prop
  | .take io => ∀ wish ∈ s.receiver.head?, ∀ id ∈ wish.2.status io, s.StatusInTurn wish.1 id
  | .response (.dir id _) _ =>
    (s.writeJob id).isSome = true ∨ ∀ job ∈ s.removeJobs.lookup id, job.isRemote = true
  | .response response _ => ∀ id ∈ response.status s, s.StatusInTurn none id
  | _ => True

instance (s : Remote) (n : Nat) : Decidable (s.Begun n) := inferInstanceAs (Decidable (∃ r ∈ _, _))

instance (s : Remote) (chain : Option Nat) (id : Int) : Decidable (s.StatusInTurn chain id) :=
  inferInstanceAs (Decidable (∀ job ∈ s.removeJobs.lookup id, _ → _ → _))

instance (s : Remote) : (e : JobEvent) → Decidable (s.InTurn e)
  | .wish _ => isTrue trivial
  | .take io => inferInstanceAs
    (Decidable (∀ wish ∈ s.receiver.head?, ∀ id ∈ wish.2.status io, s.StatusInTurn wish.1 id))
  | .response (.dir id _) _ => inferInstanceAs (Decidable
    ((s.writeJob id).isSome = true ∨ ∀ job ∈ s.removeJobs.lookup id, job.isRemote = true))
  | .response (.done id _) _ => inferInstanceAs
    (Decidable (∀ id' ∈ s.reported id, s.StatusInTurn none id'))
  | .response (.error id _ _) _ => inferInstanceAs
    (Decidable (∀ id' ∈ s.reported id, s.StatusInTurn none id'))
  | .response .other _ => isTrue (by rintro _ ⟨⟩)
  | .print _ => isTrue trivial

/-! ## The invariant -/

/-- A job as it was made with this number, whatever its list is now when it is the peer's. -/
def JobMade (made : List RemoveJob) (job : RemoveJob) : Prop :=
  ∃ job₀, made[job.number]? = some job₀ ∧ job₀.isRemote = job.isRemote ∧
    (job.isRemote = false → job₀.files = job.files ∧ job₀.path = job.path ∧ job₀.sep = job.sep)

/-- A request is for a file of the list its job was made with. -/
def Listed (made : List RemoveJob) (n : Nat) (r : Removal) : Prop :=
  ∃ job, made[n]? = some job ∧ job.isRemote = false ∧ ∃ k : Nat, r.fileNum = k ∧
    ∃ entry, job.files[k]? = some entry ∧ r.path = job.filePath entry.name

structure MadeOk (job : RemoveJob) : Prop where
  path : job.path ≠ []
  sep : job.sep = ['/']
  nodup : (job.files.map FileEntry.name).Nodup
  descends : ∀ entry ∈ job.files, .up ∉ (parse entry.name).comps

/-- The requests of a job, oldest first. -/
def ofJob (n : Nat) (rs : List Removal) : List Removal := rs.filter (·.chain = some n)

structure Inv (s : Remote) : Prop where
  jobs : ∀ {id job}, s.removeJobs.lookup id = some job → JobMade s.made job
  made : ∀ job ∈ s.made, job.isRemote = false → MadeOk job
  listed : ∀ r ∈ s.removed ++ s.pending, ∀ {n}, r.chain = some n → Listed s.made n r
  shown : ∀ {n id fileNum name}, .confirmDeleteFiles n id fileNum name ∈ s.told →
    ∃ job, s.made[n]? = some job ∧ (job.isRemote = false → ∃ entry ∈ job.files, entry.name = name)
  ordered : ∀ n, (ofJob n (s.removed ++ s.pending)).Pairwise (·.fileNum < ·.fileNum)
  alone : ∀ n, (ofJob n s.pending).length ≤ 1
  wishes : ∀ {chain data}, (chain, data) ∈ s.receiver → chain ≠ none →
    ∃ id path fileNum isRemote, data = .removeFile id path fileNum isRemote

variable {s : Remote}

/-! ## Confinement from the invariant -/

theorem MadeOk.below {job : RemoveJob} (h : MadeOk job) {entry : FileEntry}
    (hentry : entry ∈ job.files) (cwd : Place) :
    resolve cwd (parse job.path) <+: resolve cwd (parse (job.filePath entry.name)) := by
  have hpath : job.filePath entry.name = job.path ++ '/' :: entry.name := by
    unfold RemoveJob.filePath
    rw [h.sep, List.append_assoc]
    rfl
  have hparse : parse (job.filePath entry.name) =
      ⟨isAbsolute job.path, (parse job.path).comps ++ (parse entry.name).comps⟩ := by
    rw [hpath]
    unfold parse
    rw [isAbsolute_append h.path, pieces_append_slash, List.filterMap_append]
  rw [hparse, resolve_append]
  exact prefix_walk (h.descends entry hentry) _

/-- Requests for the same path are for the same place in the list. -/
theorem Listed.fileNum_eq {made : List RemoveJob}
    (hmade : ∀ job ∈ made, job.isRemote = false → MadeOk job) {n : Nat} {r r' : Removal}
    (h : Listed made n r) (h' : Listed made n r') (hpath : r.path = r'.path) :
    r.fileNum = r'.fileNum := by
  obtain ⟨job, hjob, hlocal, k, hk, entry, hentry, hr⟩ := h
  obtain ⟨job', hjob', -, k', hk', entry', hentry', hr'⟩ := h'
  cases hjob.symm.trans hjob'
  have hok := hmade job (List.mem_of_getElem? hjob) hlocal
  have hname : entry.name = entry'.name := by
    rw [hr, hr'] at hpath
    exact List.append_cancel_left hpath
  have hlt : k < (job.files.map FileEntry.name).length := by
    rw [List.length_map]
    exact (List.getElem?_eq_some_iff.mp hentry).1
  have hkk : k = k' := by
    apply (List.getElem?_inj hlt hok.nodup).mp
    rw [List.getElem?_map, List.getElem?_map, hentry, hentry', Option.map_some, Option.map_some, hname]
  rw [hk, hk', hkk]

theorem Inv.once (h : Inv s) (n : Nat) : ((ofJob n s.removed).map Removal.path).Nodup := by
  have hordered : (ofJob n s.removed).Pairwise (·.fileNum < ·.fileNum) := by
    have := h.ordered n
    rw [ofJob, List.filter_append] at this
    exact (List.pairwise_append.mp this).1
  rw [List.Nodup, List.pairwise_map]
  refine hordered.imp_of_mem ?_
  intro r r' hr hr' hlt hpath
  have hlisted : ∀ {r}, r ∈ ofJob n s.removed → Listed s.made n r := by
    intro r hr
    obtain ⟨hmem, hchain⟩ := List.mem_filter.mp hr
    exact h.listed r (List.mem_append_left _ hmem) (of_decide_eq_true hchain)
  have heq := (hlisted hr).fileNum_eq h.made (hlisted hr') hpath
  omega

theorem Inv.confined (h : Inv s) : Confined s where
  chain r hr n hn := by
    obtain ⟨job, hjob, hlocal, k, -, entry, hentry, hpath⟩ :=
      h.listed r (List.mem_append_left _ hr) hn
    exact ⟨job, hjob, hlocal, entry, List.mem_of_getElem? hentry, hpath⟩
  shown hmem := h.shown hmem
  below job hjob hlocal entry hentry cwd := (h.made job hjob hlocal).below hentry cwd
  once := h.once

/-! ## What the helpers keep -/

theorem Inv.ask (h : Inv s) (action : FileAction) : Inv (s.ask action) := { h with }

theorem Inv.dropWriteJob (h : Inv s) (id : Int) : Inv (s.dropWriteJob id) := { h with }

theorem Inv.tell (h : Inv s) {told : Told}
    (htold : ∀ {n id fileNum name}, told = .confirmDeleteFiles n id fileNum name →
      ∃ job, s.made[n]? = some job ∧
        (job.isRemote = false → ∃ entry ∈ job.files, entry.name = name)) : Inv (s.tell told) where
  jobs hjob := h.jobs hjob
  made := h.made
  listed := h.listed
  shown hmem := by
    rcases List.mem_append.mp hmem with hmem | hmem
    · exact h.shown hmem
    · exact htold (List.mem_singleton.mp hmem).symm
  ordered := h.ordered
  alone := h.alone
  wishes hmem := h.wishes hmem

theorem Inv.tellStatus (h : Inv s) (id fileNum : Int) (err : Option String) :
    Inv (s.tellStatus id fileNum err) := by
  cases err with
  | none => exact h.tell (by rintro _ _ _ _ ⟨⟩)
  | some err => exact h.tell (by rintro _ _ _ _ ⟨⟩)

theorem Inv.setRemoveJob (h : Inv s) (id : Int) {job : RemoveJob} (hjob : JobMade s.made job) :
    Inv (s.setRemoveJob id job) := by
  refine { h with jobs := ?_ }
  intro id' job' hlookup
  rcases lookup_insert_eq_some hlookup with ⟨rfl, rfl⟩ | ⟨-, hold⟩
  · exact hjob
  · exact h.jobs hold

theorem Inv.dropRemoveJob (h : Inv s) (id : Int) : Inv (s.dropRemoveJob id) := by
  refine { h with jobs := ?_ }
  intro id' job' hlookup
  exact h.jobs (lookup_erase_eq_some hlookup).2

theorem pending_send (s : Remote) (chain : Option Nat) (data : Data) :
    (s.send chain data).pending = s.pending ++ (request (chain, data)).toList := by
  unfold pending send
  rw [List.filterMap_append]
  cases hrequest : request (chain, data) with
  | none => rw [List.filterMap_cons_none hrequest]; rfl
  | some r => rw [List.filterMap_cons_some hrequest]; rfl

@[simp]
theorem ofJob_append (n : Nat) (rs rs' : List Removal) :
    ofJob n (rs ++ rs') = ofJob n rs ++ ofJob n rs' := List.filter_append ..

theorem mem_ofJob {n : Nat} {rs : List Removal} {r : Removal} :
    r ∈ ofJob n rs ↔ r ∈ rs ∧ r.chain = some n := by
  unfold ofJob
  rw [List.mem_filter, decide_eq_true_eq]

/-- A wish may be sent, when what it asks for a job is on the list, after what the job has asked for
and with nothing of it waiting. -/
theorem Inv.send (h : Inv s) {chain : Option Nat} {data : Data}
    (hwish : chain ≠ none → ∃ id path fileNum isRemote, data = .removeFile id path fileNum isRemote)
    (hnew : ∀ {r n}, request (chain, data) = some r → r.chain = some n → Listed s.made n r ∧
      ofJob n s.pending = [] ∧ ∀ r' ∈ ofJob n s.removed, r'.fileNum < r.fileNum) :
    Inv (s.send chain data) where
  jobs hjob := h.jobs hjob
  made := h.made
  shown hmem := h.shown hmem
  listed r hr n hn := by
    rw [pending_send, ← List.append_assoc, List.mem_append, Option.mem_toList] at hr
    rcases hr with hr | hr
    · exact h.listed r hr hn
    · exact (hnew hr hn).1
  ordered n := by
    rw [pending_send, ← List.append_assoc, ofJob_append]
    refine List.pairwise_append.mpr ⟨h.ordered n, ?_, ?_⟩
    · cases request (chain, data) with
      | none => exact List.Pairwise.nil
      | some r => exact List.Pairwise.filter _ (List.pairwise_singleton _ r)
    · intro r' hr' r hr
      obtain ⟨hr, hn⟩ := mem_ofJob.mp hr
      obtain ⟨-, hnone, hlt⟩ := hnew (Option.mem_toList.mp hr) hn
      rw [ofJob_append, hnone, List.append_nil] at hr'
      exact hlt r' hr'
  alone n := by
    rw [pending_send, ofJob_append, List.length_append]
    cases hrequest : request (chain, data) with
    | none => simpa [ofJob] using h.alone n
    | some r =>
      by_cases hn : r.chain = some n
      · rw [(hnew hrequest hn).2.1]
        simp [ofJob, hn]
      · simpa [ofJob, hn] using h.alone n
  wishes hmem := by
    rcases List.mem_append.mp hmem with hmem | hmem
    · exact h.wishes hmem
    · cases List.mem_singleton.mp hmem
      exact hwish

/-! ## A status -/

/-- The job under an id, if it goes on by itself, has nothing waiting, and has not asked for a file
behind this one. -/
def Ready (s : Remote) (id fileNum : Int) : Prop :=
  ∀ job, s.removeJobs.lookup id = some job → job.isRemote = false → job.noConfirm = true →
    ofJob job.number s.pending = [] ∧ ∀ r ∈ ofJob job.number s.removed, r.fileNum ≤ fileNum

theorem Listed.fileNum_nonneg {made : List RemoveJob} {n : Nat} {r : Removal}
    (h : Listed made n r) : 0 ≤ r.fileNum := by
  obtain ⟨-, -, -, k, hk, -⟩ := h
  omega

theorem Inv.handleJobStatus (h : Inv s) {id fileNum : Int} (hready : s.Ready id fileNum)
    (err : Option String) (elapsed : Nat) : Inv (s.handleJobStatus id fileNum err elapsed) := by
  unfold Remote.handleJobStatus
  cases hlookup : s.removeJobs.lookup id with
  | none => exact h.tellStatus _ _ _
  | some job =>
    dsimp only
    by_cases hconfirm : job.noConfirm = true
    · rw [if_pos hconfirm]
      cases hentry : job.files[asUsize (fileNum + 1)]? with
      | none => exact (h.dropRemoveJob id).tellStatus _ _ _
      | some entry =>
        have hsend : Inv (s.send (some job.number) (.removeFile id (job.filePath entry.name)
            (asUsize (fileNum + 1)) job.isRemote)) := by
          apply h.send
          · intro _
            exact ⟨_, _, _, _, rfl⟩
          · intro r n hr hn
            cases hremote : job.isRemote with
            | true =>
              rw [hremote] at hr
              cases hr
            | false =>
              rw [hremote] at hr
              cases hr
              cases hn
              obtain ⟨hpending, hle⟩ := hready job hlookup hremote hconfirm
              obtain ⟨job₀, hjob₀, hlocal, hsame⟩ := h.jobs hlookup
              obtain ⟨hfiles, hpath, hsep⟩ := hsame hremote
              refine ⟨⟨job₀, hjob₀, hlocal.trans hremote, _, rfl, entry, hfiles ▸ hentry, ?_⟩,
                hpending, ?_⟩
              · unfold RemoveJob.filePath
                rw [hpath, hsep]
              · intro r hr
                obtain ⟨hmem, hchain⟩ := mem_ofJob.mp hr
                have hnonneg := (h.listed r (List.mem_append_left _ hmem) hchain).fileNum_nonneg
                have hfile := hle r hr
                show r.fileNum < (asUsize (fileNum + 1) : Int)
                unfold asUsize
                rw [if_neg (by omega)]
                omega
        dsimp only
        split_ifs
        · exact hsend.tellStatus _ _ _
        · exact hsend
    · rw [if_neg hconfirm]
      exact h.tellStatus _ _ _

theorem ofJob_of_not_begun {n : Nat} (h : ¬ s.Begun n) :
    ofJob n s.removed = [] ∧ ofJob n s.pending = [] := by
  have hnone : ∀ r ∈ s.removed ++ s.pending, ¬ r.chain = some n := by
    intro r hr hn
    exact h ⟨r, hr, hn⟩
  have hempty : ofJob n (s.removed ++ s.pending) = [] := by
    refine List.filter_eq_nil_iff.mpr ?_
    intro r hr hn
    exact hnone r hr (of_decide_eq_true hn)
  rw [ofJob_append] at hempty
  exact List.append_eq_nil_iff.mp hempty

/-- A status that is of no request, in turn. -/
theorem StatusInTurn.ready {id : Int} (h : s.StatusInTurn none id) (fileNum : Int) :
    s.Ready id fileNum := by
  intro job hlookup hlocal hconfirm
  rcases h job hlookup hlocal hconfirm with hown | hbegun
  · cases hown
  · obtain ⟨hremoved, hpending⟩ := ofJob_of_not_begun hbegun
    refine ⟨hpending, ?_⟩
    intro r hr
    rw [hremoved] at hr
    cases hr

/-! ## A wish is taken up -/

section

variable {chain : Option Nat} {data : Data} {rest : List (Option Nat × Data)}

theorem pending_cons (hreceiver : s.receiver = (chain, data) :: rest) :
    s.pending = (request (chain, data)).toList ++
      ({ s with receiver := rest } : Remote).pending := by
  unfold pending
  rw [hreceiver]
  cases hrequest : request (chain, data) with
  | none => rw [List.filterMap_cons_none hrequest]; rfl
  | some r => rw [List.filterMap_cons_some hrequest]; rfl

theorem pending_rest (hreceiver : s.receiver = (chain, data) :: rest) :
    ({ s with receiver := rest } : Remote).pending.Sublist s.pending := by
  rw [pending_cons hreceiver]
  exact List.sublist_append_right _ _

theorem Inv.popped (h : Inv s) (hreceiver : s.receiver = (chain, data) :: rest) :
    Inv { s with receiver := rest } where
  jobs hjob := h.jobs hjob
  made := h.made
  shown hmem := h.shown hmem
  listed r hr _ hn := h.listed r (((List.Sublist.refl _).append (pending_rest hreceiver)).mem hr) hn
  ordered n :=
    (h.ordered n).sublist (((List.Sublist.refl _).append (pending_rest hreceiver)).filter _)
  alone n := ((pending_rest hreceiver).filter _).length_le.trans (h.alone n)
  wishes hmem := h.wishes (hreceiver ▸ List.mem_cons_of_mem _ hmem)

/-- A request is taken out of the channel and its file removed. -/
theorem Inv.removed (h : Inv s) {r : Removal} (hreceiver : s.receiver = (chain, data) :: rest)
    (hrequest : request (chain, data) = some r) :
    Inv { s with receiver := rest, removed := s.removed ++ [r] } := by
  have hpending : s.removed ++ [r] ++ ({ s with receiver := rest } : Remote).pending =
      s.removed ++ s.pending := by
    rw [pending_cons hreceiver, hrequest, List.append_assoc]
    rfl
  refine { h.popped hreceiver with listed := ?_, ordered := ?_ }
  · intro r' hr' n hn
    exact h.listed r' (hpending ▸ hr') hn
  · intro n
    exact hpending ▸ h.ordered n

/-- Its status is in turn. -/
theorem StatusInTurn.ready_removed {id : Int} {r : Removal} (h : s.StatusInTurn chain id)
    (hinv : Inv s) (hreceiver : s.receiver = (chain, data) :: rest)
    (hrequest : request (chain, data) = some r) (hchain : r.chain = chain) :
    ({ s with receiver := rest, removed := s.removed ++ [r] } : Remote).Ready id r.fileNum := by
  intro job hlookup hlocal hconfirm
  have hpending := pending_cons hreceiver
  rw [hrequest] at hpending
  have hboth : ofJob job.number s.pending = ofJob job.number [r] ++
      ofJob job.number ({ s with receiver := rest } : Remote).pending := by
    rw [hpending, ← ofJob_append]
    rfl
  rcases h job hlookup hlocal hconfirm with hown | hbegun
  · have hr : ofJob job.number [r] = [r] := by
      simp [ofJob, hchain, hown]
    have halone := hinv.alone job.number
    have hordered := hinv.ordered job.number
    rw [hboth, hr, List.length_append, List.length_singleton] at halone
    rw [ofJob_append, hboth, hr] at hordered
    refine ⟨List.eq_nil_of_length_eq_zero ?_, ?_⟩
    · show (ofJob job.number ({ s with receiver := rest } : Remote).pending).length = 0
      omega
    · intro r' hr'
      rw [show ofJob job.number (s.removed ++ [r]) = ofJob job.number s.removed ++ [r] by
        rw [ofJob_append, hr], List.mem_append, List.mem_singleton] at hr'
      rcases hr' with hr' | rfl
      · exact ((List.pairwise_append.mp hordered).2.2 r' hr' r (by simp)).le
      · exact le_rfl
  · obtain ⟨hremoved, hnone⟩ := ofJob_of_not_begun hbegun
    rw [hnone] at hboth
    obtain ⟨hr, hrest⟩ := List.append_eq_nil_iff.mp hboth.symm
    refine ⟨hrest, ?_⟩
    intro r' hr'
    rw [show ofJob job.number (s.removed ++ [r]) = [] by rw [ofJob_append, hremoved, hr]; rfl] at hr'
    cases hr'

end

/-! ## New jobs -/

theorem made_append {made : List RemoveJob} {n : Nat} {job : RemoveJob} (h : made[n]? = some job)
    (more : List RemoveJob) : (made ++ more)[n]? = some job :=
  (List.getElem?_append_left (List.getElem?_eq_some_iff.mp h).1).trans h

theorem JobMade.mono {made : List RemoveJob} {job : RemoveJob} (h : JobMade made job)
    (more : List RemoveJob) : JobMade (made ++ more) job := by
  obtain ⟨job₀, hjob₀, hsame⟩ := h
  exact ⟨job₀, made_append hjob₀ more, hsame⟩

theorem Listed.mono {made : List RemoveJob} {n : Nat} {r : Removal} (h : Listed made n r)
    (more : List RemoveJob) : Listed (made ++ more) n r := by
  obtain ⟨job, hjob, hlisted⟩ := h
  exact ⟨job, made_append hjob more, hlisted⟩

theorem Inv.addRemoveJob (h : Inv s) (id : Int) {files : List FileEntry} {path : PathStr}
    {isRemote : Bool}
    (hmade : isRemote = false → MadeOk (.new files path (s.getPathSep isRemote) isRemote s.made.length)) :
    Inv (s.addRemoveJob id files path isRemote) where
  jobs {id' job} hlookup := by
    rcases lookup_insert_eq_some hlookup with ⟨rfl, rfl⟩ | ⟨-, hold⟩
    · exact ⟨_, List.getElem?_concat_length, rfl, fun _ => ⟨rfl, rfl, rfl⟩⟩
    · exact (h.jobs hold).mono _
  made job hjob hlocal := by
    rcases List.mem_append.mp hjob with hjob | hjob
    · exact h.made job hjob hlocal
    · cases List.mem_singleton.mp hjob
      exact hmade hlocal
  listed r hr _ hn := (h.listed r hr hn).mono _
  shown hmem := by
    obtain ⟨job, hjob, hname⟩ := h.shown hmem
    exact ⟨job, made_append hjob _, hname⟩
  ordered := h.ordered
  alone := h.alone
  wishes hmem := h.wishes hmem

theorem madeOk_of_listing {path : PathStr} {includeHidden : Bool} {found : Found}
    {files : List FileEntry} (h : getRecursiveFiles path includeHidden found = .ok files)
    (s : Remote) : MadeOk (.new files path (s.getPathSep false) false s.made.length) := by
  obtain ⟨hpath, hnodup, hdescends⟩ := getRecursiveFiles_ok h
  exact ⟨hpath, rfl, hnodup, hdescends⟩

/-! ## Steps -/

/-- Every wish but the removal of a local file. -/
theorem Inv.handleMsgFromUi (h : Inv s) {io : JobIo} {data : Data} (chain : Option Nat)
    (hstatus : ∀ id, data.status io = some id → s.StatusInTurn none id)
    (hdata : ∀ id path fileNum, data ≠ .removeFile id path fileNum false) :
    Inv (s.handleMsgFromUi io chain data) := by
  have hreport : ∀ {id}, data.status io = some id → ∀ err,
      Inv (s.handleJobStatus id (-1) err io.elapsed) := by
    intro id hid err
    exact h.handleJobStatus ((hstatus id hid).ready _) err io.elapsed
  cases data with
  | setNoConfirm id =>
    rw [Remote.handleMsgFromUi]
    cases hlookup : s.removeJobs.lookup id with
    | none => exact h
    | some job =>
      have hjob : JobMade s.made job := h.jobs hlookup
      exact h.setRemoveJob id hjob
  | confirmDeleteFiles id fileNum =>
    rw [Remote.handleMsgFromUi]
    cases hlookup : s.removeJobs.lookup id with
    | none => exact h
    | some job =>
      dsimp only
      cases hentry : job.files[asUsize fileNum]? with
      | none => exact h
      | some entry =>
        refine h.tell ?_
        rintro _ _ _ _ ⟨⟩
        obtain ⟨job₀, hjob₀, hremote, hsame⟩ := h.jobs hlookup
        refine ⟨job₀, hjob₀, ?_⟩
        intro hlocal
        rw [(hsame (hremote.symm.trans hlocal)).1]
        exact ⟨entry, List.mem_of_getElem? hentry, rfl⟩
  | removeDirAll id path isRemote includeHidden =>
    cases isRemote with
    | true => exact (h.ask _).addRemoveJob id (by rintro ⟨⟩)
    | false =>
      rw [Remote.handleMsgFromUi, if_neg Bool.false_ne_true]
      cases hfiles : getRecursiveFiles path includeHidden io.found with
      | ok files => exact h.addRemoveJob id fun _ => madeOk_of_listing hfiles s
      | error err =>
        apply hreport
        simp only [Data.status, hfiles]
  | removeFile id path fileNum isRemote =>
    cases isRemote with
    | true => exact h.ask _
    | false => exact absurd rfl (hdata id path fileNum)
  | removeDir id path => exact h.ask _
  | createDir id path isRemote =>
    cases isRemote with
    | true => exact h.ask _
    | false => exact hreport rfl io.error
  | renameFile id path newName isRemote =>
    cases isRemote with
    | true => exact h.ask _
    | false => exact hreport rfl io.error
  | cancelJob id => exact ((h.ask _).dropWriteJob id).dropRemoveJob id
  | newJob id jobType isRemote =>
    cases isRemote with
    | true => exact { h with }
    | false =>
      rw [Remote.handleMsgFromUi, if_neg Bool.false_ne_true]
      cases hread : io.newRead with
      | ok _ => exact h
      | error err =>
        apply hreport
        simp only [Data.status, hread]

theorem StatusInTurn.popped {chain : Option Nat} {data : Data} {rest : List (Option Nat × Data)}
    {id : Int} (h : s.StatusInTurn none id) (hreceiver : s.receiver = (chain, data) :: rest) :
    ({ s with receiver := rest } : Remote).StatusInTurn none id := by
  intro job hlookup hlocal hconfirm
  refine (h job hlookup hlocal hconfirm).imp_right ?_
  rintro hbegun ⟨r, hr, hn⟩
  exact hbegun ⟨r, ((List.Sublist.refl _).append (pending_rest hreceiver)).mem hr, hn⟩

theorem Inv.take (h : Inv s) {io : JobIo} (hturn : s.InTurn (.take io)) :
    Inv (s.next (.take io)) := by
  unfold next
  cases hreceiver : s.receiver with
  | nil => exact h
  | cons x rest =>
    obtain ⟨chain, data⟩ := x
    have hturn : ∀ id ∈ data.status io, s.StatusInTurn chain id :=
      hturn (chain, data) (by rw [hreceiver]; rfl)
    by_cases hdata : ∃ id path fileNum, data = .removeFile id path fileNum false
    · obtain ⟨id, path, fileNum, rfl⟩ := hdata
      exact (h.removed hreceiver rfl).handleJobStatus
        (StatusInTurn.ready_removed (hturn id rfl) h hreceiver rfl rfl) io.error io.elapsed
    · refine (h.popped hreceiver).handleMsgFromUi chain ?_ ?_
      · intro id hid
        have hchain : chain = none := by
          by_contra hchain
          obtain ⟨id', path, fileNum, isRemote, rfl⟩ :=
            h.wishes (hreceiver ▸ List.mem_cons_self) hchain
          cases isRemote with
          | true => cases hid
          | false => exact hdata ⟨id', path, fileNum, rfl⟩
        subst hchain
        exact (hturn id hid).popped hreceiver
      · rintro id path fileNum rfl
        exact hdata ⟨id, path, fileNum, rfl⟩

theorem Inv.response (h : Inv s) {response : FileResponse} {io : JobIo}
    (hturn : s.InTurn (.response response io)) : Inv (s.next (.response response io)) := by
  cases response with
  | dir id entries =>
    rw [Remote.next, handleFileResponse]
    cases hwrite : s.writeJob id with
    | some x => exact h
    | none =>
      cases hlookup : s.removeJobs.lookup id with
      | none => exact h
      | some job =>
        have hremote : job.isRemote = true := by
          rcases hturn with hturn | hturn
          · rw [hwrite] at hturn
            cases hturn
          · exact hturn job hlookup
        obtain ⟨job₀, hjob₀, hsame, -⟩ := h.jobs hlookup
        refine h.setRemoveJob id ⟨job₀, hjob₀, hsame, ?_⟩
        intro hlocal
        cases hremote.symm.trans hlocal
  | done id fileNum =>
    have hturn : ∀ id', s.reported id = some id' → s.StatusInTurn none id' := hturn
    rw [Remote.next, handleFileResponse]
    unfold reported at hturn
    generalize hwrite : s.writeJob id = w at hturn ⊢
    rcases w with _ | ⟨_, _ | _⟩
    · exact h.handleJobStatus ((hturn id rfl).ready _) _ _
    · exact (h.dropWriteJob id).handleJobStatus ((hturn id rfl).ready _) _ _
    · exact h.dropWriteJob id
  | error id fileNum err =>
    have hturn : ∀ id', s.reported id = some id' → s.StatusInTurn none id' := hturn
    rw [Remote.next, handleFileResponse]
    unfold reported at hturn
    generalize hwrite : s.writeJob id = w at hturn ⊢
    rcases w with _ | ⟨_, _ | _⟩
    · exact (h.dropWriteJob id).handleJobStatus ((hturn id rfl).ready _) _ _
    · exact (h.dropWriteJob id).handleJobStatus ((hturn id rfl).ready _) _ _
    · exact h.dropWriteJob id
  | other => exact h

theorem Inv.next (h : Inv s) {e : JobEvent} (hturn : s.InTurn e) : Inv (s.next e) := by
  cases e with
  | wish data =>
    refine h.send (fun hchain => absurd rfl hchain) ?_
    intro r n hr hn
    cases data with
    | removeFile id path fileNum isRemote =>
      cases isRemote with
      | true => cases hr
      | false =>
        cases hr
        cases hn
    | _ => cases hr
  | take io => exact h.take hturn
  | response response io => exact h.response hturn
  | print id => exact { h with }

theorem inv_new (peerWindows : Bool) : Inv (new peerWindows) where
  jobs hlookup := by cases hlookup
  made _ hjob := by cases hjob
  listed _ hr := by cases hr
  shown hmem := by cases hmem
  ordered _ := List.Pairwise.nil
  alone _ := Nat.zero_le _
  wishes hmem := by cases hmem

/-- **In a run whose steps are all in turn, what is removed for a delete job is on the list it was
made with, below its path and removed once, and the names that are shown are on that list.** -/
theorem confined_of_inTurn {tr : List (Remote × JobEvent)} (h : system.Trace tr s)
    (hturn : ∀ x ∈ tr, InTurn x.1 x.2) : System.Always Confined tr s := by
  have hinv : System.Always Inv tr s := by
    refine h.always ?_ ?_ hturn
    · rintro s ⟨peerWindows, rfl⟩
      exact inv_new peerWindows
    · intro s a s' hs hstep hturn
      cases hstep
      exact hs.next hturn
  exact ⟨fun x hx => (hinv.1 x hx).confined, hinv.2.confined⟩

/-! A local directory with two files. The first is removed, and the others are to follow. -/

def letter (c : Char) (hslash : c ≠ '/') (hdot : c ≠ '.') : FileName :=
  ⟨[c], List.cons_ne_nil _ _, by simpa using hslash.symm, by simpa using hdot, by simp⟩

def twoFiles : Directory where
  entries := .leaf (some (letter 'a' (by decide) (by decide))) .file 1 0
    (.leaf (some (letter 'b' (by decide) (by decide))) .file 1 0 .nil)
  distinct := by
    simp only [Entries.Distinct, Entries.names, Option.toList_some]
    decide

def smooth : JobIo := ⟨.dir twoFiles, .ok (), none, none, 0⟩

def removeAll : List JobEvent :=
  [.wish (.removeDirAll 1 "/d".toList false true), .take smooth, .wish (.setNoConfirm 1),
    .wish (.removeFile 1 "/d/a".toList 0 false)]

theorem trace_of (as : List JobEvent) :
    system.Trace (System.path next (new false) as) (as.foldl next (new false)) := by
  have hinit : system.init (new false) := ⟨false, rfl⟩
  exact System.Trace.of_foldl (fun _ _ => rfl) hinit as

def proceed : List JobEvent := [.take smooth, .take smooth, .take smooth]

theorem confined_of_inTurn_proceed :
    System.Always Confined (System.path next (new false) (removeAll ++ proceed))
      ((removeAll ++ proceed).foldl next (new false)) :=
  confined_of_inTurn (trace_of _) (by decide)

example : ((removeAll ++ proceed).foldl next (new false)).removed =
    [⟨"/d/a".toList, 0, none⟩, ⟨"/d/b".toList, 1, some 0⟩] := by decide

/-- Before the first is removed, the peer sends a directory under the job's id. -/
theorem not_confined : ¬ ∀ s, system.Reachable s → Confined s := by
  intro hall
  have htrace := trace_of (removeAll ++
    .response (.dir 1 [⟨"x".toList, 0, 0⟩, ⟨"../e".toList, 0, 0⟩]) smooth :: proceed)
  have hconfined := hall _ htrace.reachable
  obtain ⟨job, hjob, -, entry, hentry, hpath⟩ :=
    hconfined.chain ⟨"/d/../e".toList, 1, some 0⟩ (by decide) rfl
  cases hjob
  revert entry
  decide

end Remote

end HopToDesk.Transfer
