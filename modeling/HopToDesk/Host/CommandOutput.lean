import HopToDesk.Kit.Unicode

/-!
# The output of a command

`tool_run_command` of `src/mcp_server.rs` runs a command in a shell and answers what the command
wrote, as text, each stream cut at 64 KiB. The cut is a slice of a `str`, which panics where it goes
through a character.

The process is a parameter: what becomes of a command that is given so many seconds. The answer is
written as JSON afterwards, which is left out.
-/

set_option autoImplicit false

namespace HopToDesk.Host

open Kit Kit.Text

/-- `std::process::Output`; a signal leaves no exit code. -/
structure ProcessOutput where
  code : Option Int
  stdout : List UInt8
  stderr : List UInt8
deriving DecidableEq, Repr

/-- The arguments of the tool, where they have the type that is asked for. -/
structure RunCommandArgs where
  command : Option Text
  timeout : Option Nat
deriving DecidableEq, Repr

/-- The fields of the answer. -/
structure CommandResponse where
  command : Text
  exitCode : Int
  stdout : Text
  stderr : Text
  truncated : Bool
deriving DecidableEq, Repr

namespace RunCommand

def maxBytes : Nat := 64 * 1024

/-- `&raw[..max_bytes]` where the text is longer. -/
def shorten (raw : Text) : Option Text :=
  if byteLen raw > maxBytes then sliceTo maxBytes raw else some raw

/-- The answer; none is a panic. -/
def respond (command : Text) : Except Text ProcessOutput → Option CommandResponse
  | .ok output => do
    let stdoutRaw := fromUtf8Lossy output.stdout
    let stderrRaw := fromUtf8Lossy output.stderr
    let truncated := decide (byteLen stdoutRaw > maxBytes) || decide (byteLen stderrRaw > maxBytes)
    let stdout ← shorten stdoutRaw
    let stderr ← shorten stderrRaw
    return ⟨command, output.code.getD (-1), stdout, stderr, truncated⟩
  | .error msg => some ⟨command, -1, [], msg, false⟩

/-- The command and its seconds, or why it is not run. -/
def request (dashboardUserId : Text) (args : RunCommandArgs) : Except Text (Text × Nat) :=
  let command := args.command.getD []
  if command.isEmpty then .error "command is required".toList
  else if dashboardUserId.isEmpty then
    .error "run_command requires dashboard enrollment".toList
  else .ok (command, min (args.timeout.getD 30) 120)

end RunCommand

open RunCommand in
/-- `tool_run_command`; none is a panic. -/
def toolRunCommand (dashboardUserId : Text) (run : Text → Nat → Except Text ProcessOutput)
    (args : RunCommandArgs) : Option (Except Text CommandResponse) :=
  match request dashboardUserId args with
  | .error msg => some (.error msg)
  | .ok (command, timeout) => (respond command (run command timeout)).map .ok

end HopToDesk.Host

/-!
## What is answered of a command's output

A stream whose text is longer than 64 KiB is cut where a character begins, or the tool panics
(`shorten_eq_none_iff`). Nothing but a character across the cut is in the way of an answer that
keeps what it can (`run_command_answers_iff`).
-/

namespace HopToDesk.Host

open Kit Kit.Text

namespace RunCommand

variable {raw t : Text} {command : Text} {output : ProcessOutput}

/-- It is the beginning of the text, as much as there is room for. -/
def Shortened (raw t : Text) : Prop := t <+: raw ∧ byteLen t ≤ maxBytes

/-- The answer has both streams, shortened, and tells whether one of them lost something. -/
structure AnswersWith (output : ProcessOutput) (r : CommandResponse) : Prop where
  stdout : Shortened (fromUtf8Lossy output.stdout) r.stdout
  stderr : Shortened (fromUtf8Lossy output.stderr) r.stderr
  truncated : r.truncated = true ↔
    r.stdout ≠ fromUtf8Lossy output.stdout ∨ r.stderr ≠ fromUtf8Lossy output.stderr

/-- What is shortened is as long as it can be, and less than all where there is more. -/
theorem shorten_eq_some (h : shorten raw = some t) :
    Shortened raw t ∧ (t ≠ raw ↔ maxBytes < byteLen raw) := by
  unfold shorten at h
  split at h
  next hlong =>
    obtain ⟨hpre, hlen⟩ := sliceTo_eq_some_iff.mp h
    refine ⟨⟨hpre, hlen.le⟩, fun _ => hlong, ?_⟩
    rintro - rfl
    exact absurd hlong (by omega)
  next hshort =>
    cases h
    exact ⟨⟨List.prefix_refl _, not_lt.mp hshort⟩, fun hne => absurd rfl hne, fun hlong =>
      absurd hlong hshort⟩

theorem exists_shorten_iff : (∃ t, shorten raw = some t) ↔ ¬ Across maxBytes raw := by
  unfold shorten
  split
  next hlong => exact exists_sliceTo_iff (le_of_lt hlong)
  next hshort =>
    refine ⟨?_, fun _ => ⟨raw, rfl⟩⟩
    rintro - ⟨p, c, q, rfl, -, hbehind⟩
    rw [byteLen_append, byteLen_cons] at hshort
    omega

/-- **A character across the cut is a panic.** -/
theorem shorten_eq_none_iff : shorten raw = none ↔ Across maxBytes raw := by
  rw [← not_iff_not, ← exists_shorten_iff, ← ne_eq, Option.ne_none_iff_exists']

theorem respond_eq_some {r : CommandResponse} (h : respond command (.ok output) = some r) :
    AnswersWith output r := by
  simp only [respond, bind, Option.bind_eq_some_iff, pure, Option.some.injEq] at h
  obtain ⟨out, hout, err, herr, rfl⟩ := h
  obtain ⟨hstdout, hlongOut⟩ := shorten_eq_some hout
  obtain ⟨hstderr, hlongErr⟩ := shorten_eq_some herr
  refine ⟨hstdout, hstderr, ?_⟩
  rw [hlongOut, hlongErr, Bool.or_eq_true, decide_eq_true_iff, decide_eq_true_iff]

theorem exists_respond_iff : (∃ r, respond command (.ok output) = some r) ↔
    ¬ Across maxBytes (fromUtf8Lossy output.stdout) ∧
      ¬ Across maxBytes (fromUtf8Lossy output.stderr) := by
  rw [← exists_shorten_iff, ← exists_shorten_iff]
  simp only [respond, bind, Option.bind_eq_some_iff, pure, Option.some.injEq]
  constructor
  · rintro ⟨r, out, hout, err, herr, -⟩
    exact ⟨⟨out, hout⟩, ⟨err, herr⟩⟩
  · rintro ⟨⟨out, hout⟩, ⟨err, herr⟩⟩
    exact ⟨_, out, hout, err, herr, rfl⟩

end RunCommand

open RunCommand

variable {dashboardUserId : Text} {run : Text → Nat → Except Text ProcessOutput}
  {args : RunCommandArgs} {command : Text} {timeout : Nat} {output : ProcessOutput}

theorem toolRunCommand_eq (hrequest : request dashboardUserId args = .ok (command, timeout)) :
    toolRunCommand dashboardUserId run args = (respond command (run command timeout)).map .ok := by
  unfold toolRunCommand
  rw [hrequest]

/-- The tool answers for a command that has run exactly when the byte at which a stream is cut is
inside no character of it. -/
theorem run_command_answers_iff
    (hrequest : request dashboardUserId args = .ok (command, timeout))
    (hrun : run command timeout = .ok output) :
    (∃ r, toolRunCommand dashboardUserId run args = some (.ok r) ∧ AnswersWith output r) ↔
      ¬ Across maxBytes (fromUtf8Lossy output.stdout) ∧
        ¬ Across maxBytes (fromUtf8Lossy output.stderr) := by
  have hresponds : (∃ r, respond command (.ok output) = some r) ↔ _ := exists_respond_iff
  rw [toolRunCommand_eq hrequest, hrun, ← hresponds]
  constructor
  · rintro ⟨r, hr, -⟩
    obtain ⟨r', hr', -⟩ := Option.map_eq_some_iff.mp hr
    exact ⟨r', hr'⟩
  · rintro ⟨r, hr⟩
    exact ⟨r, by rw [hr]; rfl, respond_eq_some hr⟩

theorem run_command_answers_hello : ∃ r,
    toolRunCommand ['u'] (fun _ _ => .ok ⟨some 0, [0x68, 0x69, 0xFF], []⟩) ⟨some ['l', 's'], none⟩ =
      some (.ok r) ∧ AnswersWith ⟨some 0, [0x68, 0x69, 0xFF], []⟩ r := by
  have hnone : ∀ t, byteLen t ≤ maxBytes → ¬ Across maxBytes t := by
    rintro t hshort ⟨p, c, q, rfl, -, hbehind⟩
    rw [byteLen_append, byteLen_cons] at hshort
    omega
  have hrequest : request ['u'] ⟨some ['l', 's'], none⟩ = .ok (['l', 's'], 30) := rfl
  exact (run_command_answers_iff hrequest rfl).mpr
    ⟨hnone _ (by decide), hnone _ (by decide)⟩

/-- A character of two bytes after 65535 others is cut in half. -/
theorem accent_panics : ¬ ∀ (dashboardUserId : Text) (run : Text → Nat → Except Text ProcessOutput)
    (args : RunCommandArgs) (command : Text) (timeout : Nat) (output : ProcessOutput),
    request dashboardUserId args = .ok (command, timeout) → run command timeout = .ok output →
      ∃ r, toolRunCommand dashboardUserId run args = some (.ok r) ∧ AnswersWith output r := by
  intro hall
  obtain ⟨text, hacross⟩ : ∃ text, Across maxBytes text := by
    refine ⟨_, List.replicate 65535 'a', 'é', [], rfl, ?_, ?_⟩ <;> rw [byteLen_replicate] <;> decide
  obtain ⟨r, hr, -⟩ := hall ['u'] (fun _ _ => .ok ⟨some 0, utf8 text, []⟩) ⟨some ['l', 's'], none⟩
    ['l', 's'] 30 _ rfl rfl
  obtain ⟨r', hr', -⟩ := Option.map_eq_some_iff.mp hr
  refine (exists_respond_iff.mp ⟨r', hr'⟩).1 ?_
  rw [fromUtf8Lossy_utf8]
  exact hacross

end HopToDesk.Host
