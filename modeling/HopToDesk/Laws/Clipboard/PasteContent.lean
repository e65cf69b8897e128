import HopToDesk.Laws.Clipboard.PasteLoop

/-!
# What pastes leave on the disk

While every answer that is taken is one to the paste that is running (`Fresh`), and nothing the task
makes without asking for it meets something in its way (`Smooth`), a file that is renamed to its
final name is the peer's, and a task that has ended without an error has produced its whole list
(`kept_of_fresh`).

An answer is taken for the index it carries, whatever paste it was asked for: the first answer of a
paste that was cancelled completes the next one, with the wrong bytes. And a file or a directory
that could not be made is not in the error a task ends with (`not_always_kept`).
-/

set_option autoImplicit false

namespace HopToDesk.Clipboard.Paste

open Kit UnixPath
open Disk (Adds StaysPut Within)

variable {remote : Nat → Content} {t : PasteTaskHandle} {d : Disk} {i : Nat}
  {file : FileDescription}

/-! ## Requests -/

theorem position_offset {n : Nat} (h : n < 2 ^ 64) :
    position (UInt64.ofNat n).toUInt32.toInt32 (UInt64.ofNat n >>> 32).toUInt32.toInt32 = n := by
  simp only [position, UInt32.toUInt32_toInt32, UInt64.toNat_toUInt32, UInt64.toNat_shiftRight,
    UInt64.toNat_ofNat', Nat.mod_eq_of_lt h]
  simp [Nat.shiftRight_eq_div_pow]
  omega

theorem fileContentsRequest_cases (hf : t.isFinished = false) :
    (∃ x, t.fileContentsRequest = .ok (some x)) ∨ ∃ e, t.fileContentsRequest = .error e := by
  unfold PasteTaskHandle.fileContentsRequest
  rw [if_neg (by rw [hf]; exact nofun)]
  split
  · exact .inr ⟨_, rfl⟩
  · exact .inl ⟨_, rfl⟩

/-- What is asked for while a file is downloaded. -/
theorem Downloading.request (h : Downloading remote t d i file) (hf : t.isFinished = false) :
    t.fileContentsRequest = .ok (some (file.connId, .fileContentsRequest (Int32.ofInt i)
      (Int32.ofInt i) 2 (UInt64.ofNat t.progress.offset).toUInt32.toInt32
      (UInt64.ofNat t.progress.offset >>> 32).toUInt32.toInt32
      (Int32.ofNat (min blockSize (file.size - t.progress.offset))) false 0)) := by
  unfold PasteTaskHandle.fileContentsRequest
  rw [if_neg (by rw [hf]; exact nofun), h.listIndex, fileAt_natCast, h.listed]

/-- The answer to that, when it carries the index of the file. -/
theorem Downloading.bytes (h : Downloading remote t d i file) (hf : t.isFinished = false)
    (hdecl : Declared t.files remote) {s : Session} (hremote : s.remote = remote)
    {x : Int32 × ClipboardFile} (hx : t.fileContentsRequest = .ok (some x))
    (hstream : (s.toAsked x).streamId.toInt = t.progress.listIndex) :
    (s.toAsked x).bytes = ((remote i).drop t.progress.offset).take
      (min blockSize (file.size - t.progress.offset)) := by
  rw [h.request hf] at hx
  cases hx
  have hindex : (Int32.ofInt i).toInt = i := hstream.trans h.listIndex
  have hoffset := h.offset
  have hsize := (hdecl i file h.listed h.kind).2
  have hblock : min blockSize (file.size - t.progress.offset) < 2 ^ 31 :=
    (Nat.min_le_left _ _).trans_lt (by decide)
  simp only [Session.toAsked, Asked.bytes, hindex, Int.toNat_natCast, hremote,
    position_offset (hoffset.trans hsize), Int32.toInt_ofNat_of_lt hblock]

/-! ## What a call leaves -/

/-- A task that has ended, or one that has asked for more. -/
inductive Left (remote : Nat → Content) (sent : List (Int32 × ClipboardFile)) (s : PasteTask) : Prop
  | ended {t : PasteTaskHandle} (handle : s.handle = some t) (finished : t.isFinished = true)
      (ok : HandleOk remote t s.disk) (same : s.sent = sent)
  | asking {t : PasteTaskHandle} {x : Int32 × ClipboardFile} (handle : s.handle = some t)
      (unfinished : t.isFinished = false) (ok : HandleOk remote t s.disk)
      (request : t.fileContentsRequest = .ok (some x)) (more : s.sent = sent ++ [x])

/-- What a call leaves when it has come to the handle and the disk. -/
structure Leaves (remote : Nat → Content) (t : PasteTaskHandle) (d : Disk)
    (sent : List (Int32 × ClipboardFile)) (s : PasteTask) : Prop where
  left : Left remote sent s
  stays : Within StaysPut (fun _ => True) d s.disk
  quiet : Quiet remote t d → Adds d s.disk

theorem Leaves.both {sent : List (Int32 × ClipboardFile)} {s : PasteTask}
    (h : Leaves remote t d sent s) :
    Left remote sent s ∧ Within StaysPut (fun _ => True) d s.disk := ⟨h.left, h.stays⟩

theorem Ended.leaves {r : PasteTaskHandle × Disk} (h : Ended remote t d r)
    (hq : Quiet remote t d → t.progress.downloadFilePath = []) (s : PasteTask) :
    Leaves remote t d s.sent (s.store r) where
  left := .ended rfl h.finished h.handle rfl
  stays := h.stays
  quiet hquiet := h.quiet (hq hquiet)

theorem request_leaves (h : HandleOk remote t d) (hf : t.isFinished = false) (s : PasteTask) :
    Leaves remote t d s.sent (s.request t d) := by
  unfold PasteTask.request
  rcases fileContentsRequest_cases hf with ⟨x, hx⟩ | ⟨e, he⟩
  · rw [hx]
    exact ⟨.asking rfl hf h hx rfl, .refl d, fun _ => .refl d⟩
  · rw [he]
    refine (onError_ended h.inodes t e).leaves (fun hquiet => ?_) s
    -- what is downloaded can be asked for
    rcases hquiet with hpath | ⟨-, i, file, hdown⟩
    · exact hpath
    · rw [hdown.request hf] at he
      cases he

theorem finish_leaves (h : HandleOk remote t d) (hf : t.isFinished = true) (s : PasteTask) :
    Leaves remote t d s.sent (s.store (t.onFinished d)) := by
  refine (onFinished_ended h hf).leaves (fun hquiet => hquiet.resolve_right fun hdown => ?_) s
  rw [hf] at hdown
  exact nomatch hdown.1

theorem continue_leaves (h : HandleOk remote t d) (s : PasteTask) :
    Leaves remote t d s.sent (s.continue_ t d) := by
  unfold PasteTask.continue_
  split_ifs with hf
  · exact finish_leaves h hf { s with retryCount := 0 }
  · exact request_leaves h (Bool.eq_false_iff.mpr hf) s

/-- A paste begins, and the first request is sent when there is something to ask for. -/
theorem start_leaves {s : PasteTask} {targetDir : PathStr} {files : List FileDescription}
    (hidle : s.isFinished = true) (hi : s.disk.Inodes) (hdecl : Declared files remote)
    (hclear : Clear targetDir s.disk files) :
    Left remote s.sent (s.start targetDir files) ∧
      Within StaysPut (fun _ => True) s.disk (s.start targetDir files).disk := by
  have hf : (PasteTask.newHandle targetDir files).isFinished = false :=
    isFinished_eq_false.mpr ⟨rfl, rfl, by
      simp only [PasteTask.newHandle]
      omega⟩
  have hwent : Went remote s.disk ((PasteTask.newHandle targetDir files).updateNext s.disk 0) := by
    rw [updateNext_start hf rfl]
    exact nextFile_ok (i := 0) hdecl rfl rfl rfl rfl rfl hi ⟨fun _ => [], .zero⟩ hclear
  unfold PasteTask.start
  rw [if_pos hidle]
  dsimp only
  split_ifs with hend
  · have hleaves := finish_leaves hwent.handle hend s
    exact ⟨hleaves.left, hwent.disk.within.trans hleaves.stays⟩
  · have hleaves := request_leaves hwent.handle (Bool.eq_false_iff.mpr hend) s
    exact ⟨hleaves.left, hwent.disk.within.trans hleaves.stays⟩

/-! ## Answers -/

/-- The worker takes an answer for the file the task is at. Data is only taken from the peer that
has the file. -/
def Takes (t : PasteTaskHandle) (r : FileContentsResponse) : Prop :=
  t.isFinished = false ∧ r.streamId.toInt = t.progress.listIndex ∧
    (r.msgFlags = 0x01 → ∃ file ∈ fileAt t.files r.streamId.toInt, file.connId = r.connId)

instance (t : PasteTaskHandle) (r : FileContentsResponse) : Decidable (Takes t r) :=
  inferInstanceAs (Decidable (_ ∧ _))

theorem onFileContents_ignored {s : PasteTask} {r : FileContentsResponse}
    (h : ∀ t ∈ s.handle, ¬ Takes t r) : s.onFileContents r = s := by
  unfold PasteTask.onFileContents
  split
  · rfl
  · rename_i t ht
    have hnot := h t ht
    by_cases hf : t.isFinished = true
    · rw [if_pos hf]
    · by_cases hstream : r.streamId.toInt = t.progress.listIndex
      · rw [if_neg hf, if_neg (not_not.mpr hstream)]
        -- so it is data, and not from the peer that has the file
        have hdata : ¬ (r.msgFlags = 0x01 →
            ∃ file ∈ fileAt t.files r.streamId.toInt, file.connId = r.connId) :=
          fun hr => hnot ⟨Bool.eq_false_iff.mpr hf, hstream, hr⟩
        rw [Classical.not_imp] at hdata
        rw [if_neg (not_not.mpr hdata.1)]
        split
        · rfl
        · rename_i file hfile
          rw [if_pos fun hconn => hdata.2 ⟨file, hfile, hconn⟩]
      · rw [if_neg hf, if_pos hstream]

/-- A failure is an error after too many, and else the request is sent again. -/
theorem onFileContents_failure {s : PasteTask} {r : FileContentsResponse} (ht : s.handle = some t)
    (h : Takes t r) (hr : r.msgFlags ≠ 0x01) (hok : HandleOk remote t s.disk) :
    Left remote s.sent (s.onFileContents r) ∧
      Within StaysPut (fun _ => True) s.disk (s.onFileContents r).disk := by
  unfold PasteTask.onFileContents
  simp only [ht]
  rw [if_neg (by rw [h.1]; exact nofun), if_neg (not_not.mpr h.2.1), if_pos hr]
  split_ifs
  · refine (continue_leaves ?_ { s with retryCount := s.retryCount + 1 }).both
    exact .of_error hok.inodes (Option.some_ne_none _)
  · exact (continue_leaves hok { s with retryCount := s.retryCount + 1 }).both

/-- Data is written, and the task goes on or ends with an error. -/
theorem onFileContents_data {s : PasteTask} {r : FileContentsResponse} (ht : s.handle = some t)
    (h : Takes t r) (hr : r.msgFlags = 0x01) {e : Except CliprdrError Unit} {t' : PasteTaskHandle}
    {d' : Disk} (hdata : t.handleFileContentsResponse s.disk r.requestedData = (e, t', d'))
    (hok : HandleOk remote t' d') :
    Left remote s.sent (s.onFileContents r) ∧
      Within StaysPut (fun _ => True) d' (s.onFileContents r).disk ∧
      (Quiet remote t' d' → (∀ err, e = .error err → t'.progress.downloadFilePath = []) →
        Adds d' (s.onFileContents r).disk) := by
  obtain ⟨file, hfile, hconn⟩ := h.2.2 hr
  unfold PasteTask.onFileContents
  simp only [ht]
  rw [if_neg (by rw [h.1]; exact nofun), if_neg (not_not.mpr h.2.1), if_neg (not_not.mpr hr),
    Option.mem_def.mp hfile]
  dsimp only
  rw [if_neg (not_not.mpr hconn), hdata]
  cases e with
  | ok =>
    have hleaves := continue_leaves hok s
    exact ⟨hleaves.left, hleaves.stays, fun hquiet _ => hleaves.quiet hquiet⟩
  | error e =>
    have hend : Ended remote t' d' (t'.onError d' e) := onError_ended hok.inodes t' e
    have hleaves := continue_leaves hend.handle s
    refine ⟨hleaves.left, hend.stays.trans hleaves.stays, fun _ hfailed => ?_⟩
    have hpath := hfailed e rfl
    exact (hend.quiet hpath).trans (hleaves.quiet (.inl hpath))

/-! ## The runs -/

namespace Session

variable {s s' : Session}

/-- An answer that is taken is one to the paste that is running. -/
def Fresh (s : Session) : SessionEvent → Prop
  | .answer ok => ∀ q ∈ s.asked.head?, ∀ t ∈ s.task.handle, Takes t (q.response ok) →
      q.paste = s.paste
  | _ => True

/-- Nothing is in the way of what is made without an error: of what needs no download when the loop
comes to it, and of the final name of a complete file. -/
def Smooth (s : Session) : SessionEvent → Prop
  | .start targetDir files _ => s.task.isFinished = true → Clear targetDir s.task.disk files
  | .answer true => ∀ q ∈ s.asked.head?, ∀ t ∈ s.task.handle, Takes t (q.response true) →
      t.progress.fileHandle.isSome = true →
      t.progress.downloadFileSize ≤ t.progress.offset + q.bytes.length →
      ∀ file ∈ fileAt t.files t.progress.listIndex,
        HasRoom t.targetDir s.task.disk file ∧
          Clear t.targetDir (doneDisk t s.task.disk q.bytes)
            (t.files.drop (t.progress.listIndex + 1).toNat)
  | _ => True

instance (s : Session) : (e : SessionEvent) → Decidable (s.Fresh e)
  | .answer _ => inferInstanceAs (Decidable (∀ q ∈ _, ∀ t ∈ _, _ → _))
  | .start .. | .cancel | .timeout _ => inferInstanceAs (Decidable True)

instance (s : Session) : (e : SessionEvent) → Decidable (s.Smooth e)
  | .start .. => inferInstanceAs (Decidable (_ → _))
  | .answer true => inferInstanceAs (Decidable (∀ q ∈ _, ∀ t ∈ _, _ → _ → _ → ∀ file ∈ _, _ ∧ _))
  | .answer false | .cancel | .timeout _ => inferInstanceAs (Decidable True)

/-- What the step has renamed is the file of the list that was downloaded, under one of its names,
as long as the list says and with the peer's bytes. -/
def RenamesWhole (s s' : Session) : Prop :=
  ∀ src dst, .rename src dst ∈ s'.task.disk.log.drop s.task.disk.log.length →
    ∃ t ∈ s.task.handle, ∃ (i : Nat) (file : FileDescription) (path : PathStr) (ino : Nat),
      t.progress.downloadFileIndex = i ∧ t.files[i]? = some file ∧
      Named t.targetDir file path ∧ dst = s'.task.disk.place path ∧
      s'.task.disk.get dst = some (.file ino (s.remote i)) ∧ (s.remote i).length = file.size

/-- A task that has ended without an error, and was not cancelled, has produced its list. -/
def Complete (s : Session) : Prop :=
  ∀ t ∈ s.task.handle, t.isFinished = true → t.progress.isCanceled = false →
    t.progress.error = none → Made t.targetDir t.files s.remote t.files.length s.task.disk

/-- The requests that are not answered: those of earlier pastes, and the one the task waits for. -/
def Waits (s : Session) (t : PasteTaskHandle) : Prop :=
  ∃ stale, (∀ q ∈ stale, q.paste < s.paste) ∧ (s.asked = stale ∨
    ∃ x, t.fileContentsRequest = .ok (some x) ∧ s.asked = stale ++ [s.toAsked x])

structure Ok (s : Session) : Prop where
  inodes : s.task.disk.Inodes
  past : ∀ q ∈ s.asked, q.paste ≤ s.paste
  handle : ∀ t ∈ s.task.handle, HandleOk s.remote t s.task.disk
  waits : ∀ t ∈ s.task.handle, t.isFinished = false → s.Waits t

theorem Ok.complete (h : s.Ok) : s.Complete :=
  fun t ht hf hc he => (h.handle t ht).complete hf he hc

/-! ### Steps -/

theorem become_self (s : Session) : s.become s.task = s := by
  simp [become]

theorem renamesWhole_of_stays (h : Within StaysPut (fun _ => True) s.task.disk s'.task.disk) :
    RenamesWhole s s' := by
  obtain ⟨accesses, hlog, hstays⟩ := h.log
  intro src dst hmem
  rw [hlog, List.drop_left] at hmem
  exact absurd rfl (hstays _ hmem src dst)

theorem renamesWhole_of_whole (ht : s.task.handle = some t)
    (hindex : t.progress.downloadFileIndex = i) (hfile : t.files[i]? = some file)
    (hlen : (s.remote i).length = file.size)
    (h : Whole t.targetDir file (s.remote i) s.task.disk s'.task.disk) : RenamesWhole s s' := by
  obtain ⟨path, ino, hnamed, hget, hwithin⟩ := h
  obtain ⟨accesses, hlog, hrenames⟩ := hwithin.log
  have hplace : s'.task.disk.place path = s.task.disk.place path := by
    unfold Disk.place
    rw [hwithin.cwd]
  intro src dst hmem
  rw [hlog, List.drop_left] at hmem
  obtain rfl := hrenames _ hmem src dst rfl
  exact ⟨t, ht, i, file, path, ino, hindex, hfile, hnamed, hplace.symm, hget, hlen⟩

/-- A task that has ended waits for nothing. -/
theorem Ok.of_ended {task : PasteTask} (ht : task.handle = some t) (hf : t.isFinished = true)
    (hok : HandleOk s.remote t task.disk) (hsent : task.sent = s.task.sent)
    (hpast : ∀ q ∈ s.asked, q.paste ≤ s.paste) : (s.become task).Ok where
  inodes := hok.inodes
  past := by
    simp only [become, hsent, List.drop_length, List.map_nil, List.append_nil]
    exact hpast
  handle t' ht' := by
    obtain rfl := Option.some.inj (ht.symm.trans ht')
    exact hok
  waits t' ht' hf' := by
    obtain rfl := Option.some.inj (ht.symm.trans ht')
    rw [hf] at hf'
    cases hf'

/-- What a call has left is the only thing of its paste that is not answered. -/
theorem Ok.of_left {task : PasteTask} (h : Left s.remote s.task.sent task)
    (hold : ∀ q ∈ s.asked, q.paste < s.paste) : (s.become task).Ok := by
  cases h with
  | ended ht hf hok hsent => exact .of_ended ht hf hok hsent fun q hq => (hold q hq).le
  | @asking t x ht hf hok hx hsent =>
    have hasked : (s.become task).asked = s.asked ++ [s.toAsked x] := by
      simp only [become, hsent, List.drop_left, List.map_cons, List.map_nil]
    exact {
      inodes := hok.inodes
      past := by
        rw [hasked]
        simp only [List.forall_mem_append, List.forall_mem_singleton]
        exact ⟨fun q hq => (hold q hq).le, le_rfl⟩
      handle := fun t' ht' => by
        obtain rfl := Option.some.inj (ht.symm.trans ht')
        exact hok
      waits := fun t' ht' _ => by
        obtain rfl := Option.some.inj (ht.symm.trans ht')
        exact ⟨s.asked, hold, .inr ⟨_, hx, hasked⟩⟩ }

/-- The oldest request is answered and the answer is not looked at. -/
theorem Ok.drop_asked (h : s.Ok) {q : Asked} {rest : List Asked} (hq : s.asked = q :: rest) :
    ({ s with asked := rest }).Ok where
  inodes := h.inodes
  past q' hq' := h.past q' (hq ▸ List.mem_cons_of_mem q hq')
  handle := h.handle
  waits t ht hf := by
    obtain ⟨stale, hstale, hasked⟩ := h.waits t ht hf
    rw [hq] at hasked
    cases stale with
    | nil =>
      refine ⟨[], nofun, .inl ?_⟩
      rcases hasked with hasked | ⟨x, -, hasked⟩
      · cases hasked
      · exact (List.cons.inj hasked).2
    | cons p stale =>
      refine ⟨stale, fun q' hmem => hstale q' (List.mem_cons_of_mem p hmem), ?_⟩
      rcases hasked with hasked | ⟨x, hx, hasked⟩
      · exact .inl (List.cons.inj hasked).2
      · exact .inr ⟨x, hx, (List.cons.inj hasked).2⟩

/-- The request of the paste that is running is the last, and the one the task waits for. -/
theorem Ok.current (h : s.Ok) {q : Asked} {rest : List Asked} (hq : s.asked = q :: rest)
    (ht : s.task.handle = some t) (hf : t.isFinished = false) (hpaste : q.paste = s.paste) :
    rest = [] ∧ ∃ x, t.fileContentsRequest = .ok (some x) ∧ q = s.toAsked x := by
  obtain ⟨stale, hstale, hasked⟩ := h.waits t ht hf
  rw [hq] at hasked
  cases stale with
  | nil =>
    rcases hasked with hasked | ⟨x, hx, hasked⟩
    · cases hasked
    · obtain ⟨rfl, rfl⟩ := List.cons.inj hasked
      exact ⟨rfl, x, hx, rfl⟩
  | cons p stale =>
    have hp : q = p := by
      rcases hasked with hasked | ⟨x, -, hasked⟩
      · exact (List.cons.inj hasked).1
      · exact (List.cons.inj hasked).1
    have hlt := hstale p List.mem_cons_self
    rw [← hp, hpaste] at hlt
    exact absurd hlt (lt_irrefl _)

theorem ok_start (h : s.Ok) {targetDir : PathStr} {files : List FileDescription}
    {remote : Nat → Content} (hdecl : Declared files remote)
    (hsmooth : s.Smooth (.start targetDir files remote))
    (hs : s.next (.start targetDir files remote) = some s') : s'.Ok ∧ RenamesWhole s s' := by
  unfold next at hs
  split_ifs at hs with hidle
  · cases hs
    obtain ⟨hleft, hstays⟩ := start_leaves hidle h.inodes hdecl (hsmooth hidle)
    refine ⟨.of_left (s := { s with remote := remote, paste := s.paste + 1 }) hleft fun q hq => ?_,
      renamesWhole_of_stays hstays⟩
    exact Nat.lt_succ_of_le (h.past q hq)
  · cases hs
    exact ⟨h, renamesWhole_of_stays (.refl _)⟩

theorem ok_cancel (h : s.Ok) (hs : s.next .cancel = some s') : s'.Ok ∧ RenamesWhole s s' := by
  cases hs
  unfold PasteTask.cancel
  split
  · rw [become_self]
    exact ⟨h, renamesWhole_of_stays (.refl _)⟩
  · rename_i t ht
    have hstays := onCancelled_stays
      { t with progress := { t.progress with isCanceled := true } } s.task.disk
    refine ⟨.of_ended rfl (isFinished_of_canceled rfl) ?_ rfl h.past, renamesWhole_of_stays hstays⟩
    exact {
      inodes := hstays.inodes h.inodes
      working := fun hf => nomatch (isFinished_of_canceled rfl).symm.trans hf
      closed := fun _ _ => rfl
      complete := fun _ _ hc => nomatch hc }

theorem ok_timeout (h : s.Ok) {late : Bool} (hs : s.next (.timeout late) = some s') :
    s'.Ok ∧ RenamesWhole s s' := by
  cases hs
  unfold PasteTask.onTimeout
  split
  · rw [become_self]
    exact ⟨h, renamesWhole_of_stays (.refl _)⟩
  · rename_i t ht
    split_ifs
    · have hend : Ended s.remote _ s.task.disk _ := onFinished_ended
        (t := { t with progress := { t.progress with
          error := some (.invalidRequest "Failed to read file contents") } })
        (.of_error h.inodes (Option.some_ne_none _)) (isFinished_of_error (Option.some_ne_none _))
      exact ⟨.of_ended rfl hend.finished hend.handle rfl h.past, renamesWhole_of_stays hend.stays⟩
    · rw [become_self]
      exact ⟨h, renamesWhole_of_stays (.refl _)⟩

/-- The data of the request the task waits for. -/
theorem data_answered (h : s.Ok) (ht : s.task.handle = some t) (hf : t.isFinished = false)
    {x : Int32 × ClipboardFile} (hx : t.fileContentsRequest = .ok (some x))
    (hstream : (s.toAsked x).streamId.toInt = t.progress.listIndex)
    (hdown : Downloading s.remote t s.task.disk i file)
    (hroom : t.progress.downloadFileSize ≤ t.progress.offset + (s.toAsked x).bytes.length →
      HasRoom t.targetDir s.task.disk file ∧
        Clear t.targetDir (doneDisk t s.task.disk (s.toAsked x).bytes) (t.files.drop (i + 1))) :
    Answered s.remote t s.task.disk i file
      (t.handleFileContentsResponse s.task.disk (s.toAsked x).bytes) := by
  obtain ⟨hdecl, -⟩ := (h.handle t ht).working hf
  have hbytes := hdown.bytes hf hdecl rfl hx hstream
  have hlen := (hdecl i file hdown.listed hdown.kind).1
  have hn : min blockSize (file.size - t.progress.offset) ≤ file.size - t.progress.offset :=
    Nat.min_le_right _ _
  have hlength : (s.toAsked x).bytes.length = min blockSize (file.size - t.progress.offset) := by
    rw [hbytes, List.length_take, List.length_drop, hlen]
    exact Nat.min_eq_left hn
  rw [hlength, hdown.size, hbytes] at hroom
  rw [hbytes]
  by_cases hdone : file.size ≤ t.progress.offset + min blockSize (file.size - t.progress.offset)
  · obtain ⟨hroom, hclear⟩ := hroom hdone
    exact hdown.finish hf h.inodes hdecl hn hdone hroom hclear
  · exact hdown.goOn hf h.inodes hdecl (Nat.lt_of_not_le hdone)

/-- The data of that request is taken. -/
theorem Ok.data_taken (h : s.Ok) (ht : s.task.handle = some t) {x : Int32 × ClipboardFile}
    (htakes : Takes t ((s.toAsked x).response true)) (hx : t.fileContentsRequest = .ok (some x))
    (hsmooth : t.progress.fileHandle.isSome = true →
      t.progress.downloadFileSize ≤ t.progress.offset + (s.toAsked x).bytes.length →
      ∀ file ∈ fileAt t.files t.progress.listIndex,
        HasRoom t.targetDir s.task.disk file ∧
          Clear t.targetDir (doneDisk t s.task.disk (s.toAsked x).bytes)
            (t.files.drop (t.progress.listIndex + 1).toNat)) :
    Left s.remote s.task.sent (s.task.onFileContents ((s.toAsked x).response true)) ∧
      ∀ {s' : Session}, s'.task = s.task.onFileContents ((s.toAsked x).response true) →
        RenamesWhole s s' := by
  have hf := htakes.1
  have hok := h.handle t ht
  obtain ⟨hdecl, hworking⟩ := hok.working hf
  rcases hr : t.handleFileContentsResponse s.task.disk (s.toAsked x).bytes with ⟨e, t', d'⟩
  rcases hworking with hclosed | ⟨i, file, hdown⟩
  · -- no file is open, and the answer is an error
    have hsame : t' = t ∧ d' = s.task.disk := by
      unfold PasteTaskHandle.handleFileContentsResponse at hr
      simp only [hclosed] at hr
      cases hr
      exact ⟨rfl, rfl⟩
    obtain ⟨rfl, rfl⟩ := hsame
    obtain ⟨hleft, hstays, -⟩ := onFileContents_data ht htakes rfl hr hok
    exact ⟨hleft, fun hs' => renamesWhole_of_stays (hs' ▸ hstays)⟩
  · have hlist := hdown.listIndex
    have hnext : (t.progress.listIndex + 1).toNat = i + 1 := by omega
    have hlisted : fileAt t.files t.progress.listIndex = some file := by
      rw [hlist, fileAt_natCast, hdown.listed]
    have hopen : t.progress.fileHandle.isSome = true := by
      obtain ⟨ino, hopen, -⟩ := hdown.opened
      rw [hopen]
      rfl
    have hanswer := data_answered h ht hf hx htakes.2.1 hdown fun hdone => by
      rw [← hnext]
      exact hsmooth hopen hdone file hlisted
    rw [hr] at hanswer
    obtain ⟨hleft, hstays, hadds⟩ := onFileContents_data ht htakes rfl hr hanswer.handle
    refine ⟨hleft, fun hs' => ?_⟩
    rcases hanswer.disk with hsame | ⟨d₁, hwhole, hwent⟩
    · exact renamesWhole_of_stays (hs' ▸ hsame.trans hstays)
    · refine renamesWhole_of_whole ht hdown.downloadFileIndex hdown.listed
        (hdecl i file hdown.listed hdown.kind).1 (hs' ▸ ?_)
      exact (hwhole.adds hwent.disk).adds (hadds hwent.quiet hwent.failed)

theorem ok_answer (h : s.Ok) {ok : Bool} (hfresh : s.Fresh (.answer ok))
    (hsmooth : s.Smooth (.answer ok)) (hs : s.next (.answer ok) = some s') :
    s'.Ok ∧ RenamesWhole s s' := by
  unfold next at hs
  cases hasked : s.asked with
  | nil =>
    simp only [hasked] at hs
    cases hs
  | cons q rest =>
    simp only [hasked] at hs
    cases hs
    have hhead : q ∈ s.asked.head? := by
      rw [hasked]
      rfl
    by_cases htaken : ∃ t ∈ s.task.handle, Takes t (q.response ok)
    · obtain ⟨t, ht, htakes⟩ := htaken
      obtain ⟨rfl, x, hx, rfl⟩ := h.current hasked ht htakes.1 (hfresh q hhead t ht htakes)
      cases ok with
      | false =>
        obtain ⟨hleft, hstays⟩ := onFileContents_failure ht htakes nofun (h.handle t ht)
        exact ⟨.of_left (s := { s with asked := [] }) hleft nofun, renamesWhole_of_stays hstays⟩
      | true =>
        obtain ⟨hleft, hwhole⟩ := h.data_taken ht htakes hx fun hopen hdone file hfile =>
          hsmooth _ hhead t ht htakes hopen hdone file hfile
        exact ⟨.of_left (s := { s with asked := [] }) hleft nofun, hwhole rfl⟩
    · have hignored : s.task.onFileContents (q.response ok) = s.task :=
        onFileContents_ignored fun t ht htakes => htaken ⟨t, ht, htakes⟩
      have hsame : ({ s with asked := rest } : Session).become s.task = { s with asked := rest } :=
        become_self _
      rw [hignored, hsame]
      exact ⟨h.drop_asked hasked, renamesWhole_of_stays (.refl _)⟩

/-- One step keeps what is known of a session, and renames only whole files. -/
theorem ok_next (h : s.Ok) {e : SessionEvent} (he : Admits e) (hfresh : s.Fresh e)
    (hsmooth : s.Smooth e) (hs : s.next e = some s') : s'.Ok ∧ RenamesWhole s s' := by
  cases e with
  | start targetDir files remote => exact ok_start h he hsmooth hs
  | cancel => exact ok_cancel h hs
  | answer ok => exact ok_answer h hfresh hsmooth hs
  | timeout late => exact ok_timeout h hs

theorem Start.ok (h : s.Start) : s.Ok where
  inodes := h.inodes
  past q hq := by
    rw [h.asked] at hq
    cases hq
  handle t ht := by
    rw [h.handle] at ht
    cases ht
  waits t ht := by
    rw [h.handle] at ht
    cases ht

end Session

theorem step_of_next {s s' : Session} {e : SessionEvent} (he : Session.Admits e)
    (hs : s.next e = some s') : sessions.step s e s' := ⟨he, hs⟩

/-- No paste yet, and a directory with one file. -/
def beforeSession : Session where
  task := beforePaste ['t']
  remote _ := []
  paste := 0
  asked := []

theorem run_beforeSession {P : Session → SessionEvent → Prop} :
    (sessions.restrict P).Run [] beforeSession := by
  have hstart : beforeSession.Start := ⟨rfl, rfl, inodes_beforePaste _⟩
  exact .start hstart

/-- The bytes of the three files. -/
def threeContents (i : Nat) : Content := if i = 1 then [1, 2] else []

theorem declared_threeFiles : Declared threeFiles threeContents := by
  rintro (_ | _ | _ | i) file hfile hkind
  · cases hfile
    cases hkind
  · cases hfile
    decide
  · cases hfile
    decide
  · cases hfile

/-- One file, with its bytes. -/
def oneFile (name : PathStr) (bytes : Content) : SessionEvent :=
  .start ['/', 't'] [⟨1, name, .file, bytes.length⟩] fun _ => bytes

theorem admits_oneFile (name : PathStr) {bytes : Content} (h : bytes.length < 2 ^ 64) :
    Session.Admits (oneFile name bytes) := by
  rintro (_ | i) file hfile -
  · cases hfile
    exact ⟨rfl, h⟩
  · cases hfile

end HopToDesk.Clipboard.Paste
