import HopToDesk.Host.McpServer
import HopToDesk.Kit.JsonText

/-!
# The tool server: what a replay replays

A recording that is stopped lists just the calls that were made while it went on, whether they
succeeded or not and those of a replay among them, and a replay of the list makes them again: the
same tools with the same arguments, in the order in which they were called, with a pause before each
but the first that is made of the time that had passed since the call before it (`replay_recorded`).

Nothing is done for a connection before its first line has shown the token, and after that each line
with an `id` is answered under its `id`, in order (`serve_eq`).
-/

set_option autoImplicit false

namespace HopToDesk.Host.McpServer

open Kit

variable {W : Type} {r : Tools W}

/-! ## Calls -/

/-- What a request to call a tool does, before it is recorded. -/
def dispatch (r : Tools W) (replay : Json → Mcp W → Except Text Json × Mcp W) (toolName : Text)
    (arguments : Json) (s : Mcp W) : Except Text Json × Mcp W :=
  if toolName = "start_recording".toList then toolStartRecording s
  else if toolName = "stop_recording".toList then toolStopRecording r s
  else if toolName = "replay_workflow".toList then replay arguments s
  else s.call r toolName arguments

theorem handleWith_eq {replay : Json → Mcp W → Except Text Json × Mcp W} {request : Json}
    {toolName : Text} {arguments : Json}
    (hname : asStr (field "name" (field "params" request)) = toolName)
    (harguments : field "arguments" (field "params" request) = arguments) (s : Mcp W) :
    handleWith r replay request s =
      (response (dispatch r replay toolName arguments s).1,
        (dispatch r replay toolName arguments s).2.record toolName arguments) := by
  rw [← hname, ← harguments]
  rfl

theorem contains_controls {toolName : Text} :
    controls.contains toolName = false ↔ toolName ∉ controls := by
  rw [← Bool.not_eq_true, List.contains_iff_mem]

theorem dispatch_of_not_control {replay : Json → Mcp W → Except Text Json × Mcp W}
    {toolName : Text} (h : toolName ∉ controls) (arguments : Json) (s : Mcp W) :
    dispatch r replay toolName arguments s = s.call r toolName arguments := by
  simp only [controls, List.mem_cons, List.not_mem_nil, or_false, not_or] at h
  rw [dispatch, if_neg h.1, if_neg h.2.1, if_neg h.2.2]

/-- Getting a field of an object that is written out. -/
theorem get?_object (key : String) (fields : List (String × Json)) :
    get? key (object fields) = fields.lookup key := by
  unfold get? object
  dsimp only
  induction fields with
  | nil => rfl
  | cons x fields ih =>
    have hkey : (key.toList == x.1.toList) = (key == x.1) := by
      rw [Bool.eq_iff_iff, beq_iff_eq, beq_iff_eq, String.toList_inj]
    rw [List.map_cons, List.lookup_cons, List.lookup_cons, ih, hkey]

theorem field_object (key : String) (fields : List (String × Json)) :
    field key (object fields) = (fields.lookup key).getD .null :=
  congrArg (Option.getD · Json.null) (get?_object key fields)

theorem name_callRequest (toolName : Text) (arguments : Json) :
    asStr (field "name" (field "params" (callRequest toolName arguments))) = toolName := by
  simp [callRequest, field_object, asStr]

theorem arguments_callRequest (toolName : Text) (arguments : Json) :
    field "arguments" (field "params" (callRequest toolName arguments)) = arguments := by
  simp [callRequest, field_object, List.lookup_cons]

/-- A step of a replay is handled alike whatever a replay is. -/
theorem handleWith_callRequest {replay : Json → Mcp W → Except Text Json × Mcp W}
    {toolName : Text} (h : toolName ∉ controls) (arguments : Json) (s : Mcp W) :
    handleWith r replay (callRequest toolName arguments) s =
      (response (s.call r toolName arguments).1,
        (s.call r toolName arguments).2.record toolName arguments) := by
  rw [handleWith_eq (name_callRequest toolName arguments)
    (arguments_callRequest toolName arguments), dispatch_of_not_control h]

theorem replayStep_congr {handle handle' : Json → Mcp W → Json × Mcp W}
    (h : ∀ toolName ∉ controls, ∀ arguments s,
      handle (callRequest toolName arguments) s = handle' (callRequest toolName arguments) s)
    (multiplier : Json) : replayStep r handle multiplier = replayStep r handle' multiplier := by
  funext x step
  unfold replayStep
  dsimp only
  split
  next => rfl
  next hname => rw [h _ (contains_controls.mp (Bool.eq_false_of_not_eq_true hname))]

/-- A replay calls `handle_tools_call`, as the source has it. -/
theorem toolReplayWorkflow_handleToolsCall
    (replay : Json → Mcp W → Except Text Json × Mcp W) :
    toolReplayWorkflow r (handleWith r replay) = toolReplayWorkflow r (handleToolsCall r) := by
  funext args s
  unfold toolReplayWorkflow
  rw [replayStep_congr]
  intro toolName hname arguments s
  rw [handleWith_callRequest hname, handleToolsCall, handleWith_callRequest hname]

theorem handleToolsCall_eq :
    handleToolsCall r = handleWith r (toolReplayWorkflow r (handleToolsCall r)) :=
  congrArg (handleWith r) (toolReplayWorkflow_handleToolsCall _)

/-- The state after a call of a tool of the machine. -/
structure Calls (s s' : Mcp W) (c : Call) : Prop where
  log : s'.log = s.log ++ [c]
  began : c.began = s.now
  ended : c.ended = s'.now
  le : s.now ≤ s'.now
  workflow : s'.workflow =
    if s.workflow.recording then
      { s.workflow with steps := s.workflow.steps ++
        [⟨c.toolName, c.arguments, (s.workflow.startTime.map fun t => c.ended - t).getD 0⟩] }
    else s.workflow

theorem exists_calls {toolName : Text} (h : toolName ∉ controls) (arguments : Json) (s : Mcp W) :
    ∃ c, Calls s ((s.call r toolName arguments).2.record toolName arguments) c ∧
      c.toolName = toolName ∧ c.arguments = arguments := by
  unfold Mcp.call
  split
  next result took machine _ =>
    refine ⟨⟨toolName, arguments, s.now, s.now + took⟩, ?_, rfl, rfl⟩
    unfold Mcp.record
    dsimp only
    split
    next hrecording =>
      exact ⟨rfl, rfl, rfl, Nat.le_add_right _ _, (if_pos hrecording.2).symm⟩
    next hrecording =>
      exact ⟨rfl, rfl, rfl, Nat.le_add_right _ _,
        (if_neg fun hrec => hrecording ⟨contains_controls.mpr h, hrec⟩).symm⟩
  next =>
    refine ⟨⟨toolName, arguments, s.now, s.now⟩, ?_, rfl, rfl⟩
    unfold Mcp.record
    dsimp only
    split
    next hrecording => exact ⟨rfl, rfl, rfl, le_refl _, (if_pos hrecording.2).symm⟩
    next hrecording =>
      exact ⟨rfl, rfl, rfl, le_refl _,
        (if_neg fun hrec => hrecording ⟨contains_controls.mpr h, hrec⟩).symm⟩

/-! ## Recording -/

/-- The recording was started at `t₀`, and since then these calls have been made. -/
structure Recording (t₀ : Nat) (before calls : List Call) (s : Mcp W) : Prop where
  log : s.log = before ++ calls
  workflow : s.workflow =
    ⟨true, calls.map fun c => ⟨c.toolName, c.arguments, c.ended - t₀⟩, some t₀⟩
  started : t₀ ≤ s.now
  since : ∀ c ∈ calls, t₀ ≤ c.ended ∧ c.ended ≤ s.now
  ordered : calls.Pairwise fun c d => c.ended ≤ d.ended
  tools : ∀ c ∈ calls, c.toolName ∉ controls

theorem toolStartRecording_recording (s : Mcp W) :
    Recording s.now s.log [] (toolStartRecording s).2 where
  log := (List.append_nil _).symm
  workflow := rfl
  started := le_refl _
  since := by rintro _ ⟨⟩
  ordered := .nil
  tools := by rintro _ ⟨⟩

section

variable {t₀ : Nat} {before calls : List Call} {s s' : Mcp W}

theorem Recording.wait (h : Recording t₀ before calls s) (hnow : s.now ≤ s'.now)
    (hlog : s'.log = s.log) (hworkflow : s'.workflow = s.workflow) :
    Recording t₀ before calls s' where
  log := hlog.trans h.log
  workflow := hworkflow.trans h.workflow
  started := h.started.trans hnow
  since c hc := ⟨(h.since c hc).1, (h.since c hc).2.trans hnow⟩
  ordered := h.ordered
  tools := h.tools

theorem Recording.call {c : Call} (h : Recording t₀ before calls s) (hcalls : Calls s s' c)
    (hname : c.toolName ∉ controls) : Recording t₀ before (calls ++ [c]) s' where
  log := by rw [hcalls.log, h.log, List.append_assoc]
  workflow := by
    rw [hcalls.workflow, h.workflow, if_pos rfl, List.map_append]
    rfl
  started := h.started.trans hcalls.le
  since d hd := by
    obtain hd | hd := List.mem_append.mp hd
    · exact ⟨(h.since d hd).1, (h.since d hd).2.trans hcalls.le⟩
    · rw [List.mem_singleton.mp hd, hcalls.ended]
      exact ⟨h.started.trans hcalls.le, le_refl _⟩
  ordered := by
    rw [List.pairwise_append]
    refine ⟨h.ordered, List.pairwise_singleton _ _, ?_⟩
    intro d hd e he
    rw [List.mem_singleton.mp he, hcalls.ended]
    exact (h.since d hd).2.trans hcalls.le
  tools := by
    rw [List.forall_mem_append, List.forall_mem_singleton]
    exact ⟨h.tools, hname⟩

/-- Calls are being recorded. -/
def Recorded (t₀ : Nat) (before : List Call) (s : Mcp W) : Prop :=
  ∃ calls, Recording t₀ before calls s

theorem Recorded.call {toolName : Text} (hname : toolName ∉ controls) (arguments : Json)
    (h : Recorded t₀ before s) :
    Recorded t₀ before ((s.call r toolName arguments).2.record toolName arguments) := by
  obtain ⟨calls, hcalls⟩ := h
  obtain ⟨c, hc, hctool, -⟩ := exists_calls (r := r) hname arguments s
  rw [← hctool] at hname
  exact ⟨calls ++ [c], hcalls.call hc hname⟩

theorem Recorded.sleep (h : Recorded t₀ before s) (ms : Nat) : Recorded t₀ before (s.sleep ms) := by
  obtain ⟨calls, hcalls⟩ := h
  exact ⟨calls, hcalls.wait (Nat.le_add_right _ _) rfl rfl⟩

theorem Recorded.replayStep (multiplier : Json) {x : List Json × Mcp W}
    (h : Recorded t₀ before x.2) (step : Json × Nat) :
    Recorded t₀ before (replayStep r (handleToolsCall r) multiplier x step).2 := by
  unfold McpServer.replayStep
  dsimp only
  split
  next => exact h
  next hcontains =>
    have hname := contains_controls.mp (Bool.eq_false_of_not_eq_true hcontains)
    rw [handleToolsCall, handleWith_callRequest hname]
    apply Recorded.call hname
    unfold replayWait
    split
    · split
      · exact h.sleep _
      · exact h
    · exact h

theorem Recorded.replay (h : Recorded t₀ before s) (args : Json) :
    Recorded t₀ before (toolReplayWorkflow r (handleToolsCall r) args s).2 := by
  unfold toolReplayWorkflow
  split
  next steps _ =>
    dsimp only
    generalize hx : ([], s) = x
    have hstart : Recorded t₀ before x.2 := by
      rw [← hx]
      exact h
    clear hx
    induction steps.zipIdx generalizing x with
    | nil => exact hstart
    | cons step steps ih => exact ih _ (hstart.replayStep _ step)
  next => exact h

/-- The recording goes on whatever is called, but for its own start and stop. -/
theorem Recorded.handleToolsCall {request : Json} {toolName : Text}
    (hname : asStr (field "name" (field "params" request)) = toolName)
    (hstart : toolName ≠ "start_recording".toList) (hstop : toolName ≠ "stop_recording".toList)
    (h : Recorded t₀ before s) : Recorded t₀ before (handleToolsCall r request s).2 := by
  rw [handleToolsCall_eq, handleWith_eq hname rfl, dispatch, if_neg hstart, if_neg hstop]
  dsimp only
  split
  next hreplay =>
    have hcontrol : toolName ∈ controls := by
      rw [hreplay]
      exact List.mem_cons_of_mem _ (List.mem_cons_of_mem _ List.mem_cons_self)
    rw [Mcp.record, if_neg fun hrec => contains_controls.mp hrec.1 hcontrol]
    exact h.replay _
  next hreplay =>
    apply Recorded.call _ _ h
    simp only [controls, List.mem_cons, List.not_mem_nil, or_false, not_or]
    exact ⟨hstart, hstop, hreplay⟩

/-! ## Requests -/

/-- The line is a request to call this tool. -/
structure Requests (r : Tools W) (line : Text) (id : Json) (toolName : Text) (request : Json) :
    Prop where
  read : (if Text.trim line = [] then none else r.fromStr (Text.trim line)) = some request
  id : get? "id" request = some id
  method : asStr (field "method" request) = "tools/call".toList
  name : asStr (field "name" (field "params" request)) = toolName

theorem Requests.processLine_eq {line : Text} {id : Json} {toolName : Text} {request : Json}
    (h : Requests r line id toolName request) (s : Mcp W) :
    ∃ fields, handleToolsCall r request s = (.obj fields, (handleToolsCall r request s).2) ∧
      processLine r line s =
        (some (.obj (setField "id" id fields)), (handleToolsCall r request s).2) := by
  obtain ⟨fields, hfields⟩ : ∃ fields, (handleToolsCall r request s).1 = .obj fields := by
    rw [handleToolsCall, handleWith_eq rfl rfl]
    dsimp only
    unfold response
    split
    · exact ⟨_, rfl⟩
    · exact ⟨_, rfl⟩
  have heq : handleToolsCall r request s = (.obj fields, (handleToolsCall r request s).2) := by
    rw [← hfields]
  refine ⟨fields, heq, ?_⟩
  unfold processLine
  rw [h.read]
  dsimp only
  rw [h.id]
  dsimp only
  rw [h.method, if_pos rfl, heq]

/-- A line that calls no tool leaves everything as it is. -/
theorem processLine_of_not_requests {line : Text}
    (h : ∀ id toolName request, ¬ Requests r line id toolName request) (s : Mcp W) :
    (processLine r line s).2 = s := by
  unfold processLine
  split
  next => rfl
  next request hread =>
    split
    next => rfl
    next id hid =>
      have hmethod : asStr (field "method" request) ≠ "tools/call".toList :=
        fun hmethod => h id _ request ⟨hread, hid, hmethod, rfl⟩
      dsimp only
      rw [if_neg hmethod]
      split
      · rfl
      · split
        · rfl
        · rfl

/-- The line neither starts nor stops a recording. -/
def Quiet (r : Tools W) (line : Text) : Prop :=
  ∀ id toolName request, Requests r line id toolName request →
    toolName ≠ "start_recording".toList ∧ toolName ≠ "stop_recording".toList

theorem Recorded.processLine {line : Text} (hquiet : Quiet r line) (h : Recorded t₀ before s) :
    Recorded t₀ before (processLine r line s).2 := by
  by_cases hrequests : ∃ id toolName request, Requests r line id toolName request
  · obtain ⟨id, toolName, request, hrequest⟩ := hrequests
    obtain ⟨fields, -, heq⟩ := hrequest.processLine_eq s
    obtain ⟨hstart, hstop⟩ := hquiet id toolName request hrequest
    rw [heq]
    exact h.handleToolsCall hrequest.name hstart hstop
  · have hnone : ∀ id toolName request, ¬ Requests r line id toolName request :=
      fun id toolName request hreq => hrequests ⟨id, toolName, request, hreq⟩
    rw [processLine_of_not_requests hnone]
    exact h

theorem Recorded.passed (h : Recorded t₀ before s) (hpassed : s.Passed s') :
    Recorded t₀ before s' := by
  obtain ⟨calls, hcalls⟩ := h
  exact ⟨calls, hcalls.wait hpassed.now hpassed.log hpassed.workflow⟩

/-- The recording goes on through requests that do not stop it. -/
theorem Recorded.steps {lines : List Text} (h : Recorded t₀ before s)
    (hsteps : (system r).Steps s lines s') (hquiet : ∀ line ∈ lines, Quiet r line) :
    Recorded t₀ before s' := by
  refine hsteps.invariant (P := Quiet r) ?_ hquiet h
  rintro s line _ hline hs ⟨s₁, hpassed, rfl⟩
  exact (hs.passed hpassed).processLine hline

end

/-! ## Replays -/

def Call.key (c : Call) : Text × Json := (c.toolName, c.arguments)

/-- The time from the end of one call to the end of the next, the first from this time on. -/
def gapsFrom : Nat → List Call → List Nat
  | _, [] => []
  | t, c :: calls => (c.ended - t) :: gapsFrom c.ended calls

/-- The time from the end of one call to the beginning of the next, the first from this time on. -/
def pausesFrom : Nat → List Call → List Nat
  | _, [] => []
  | t, c :: calls => (c.began - t) :: pausesFrom c.ended calls

/-- Between the calls, without what is before the first. -/
def gaps (calls : List Call) : List Nat := (gapsFrom 0 calls).tail

def pauses (calls : List Call) : List Nat := (pausesFrom 0 calls).tail

/-- What a replay makes of the time between two calls. -/
def pause (r : Tools W) (multiplier : Json) (gap : Nat) : Nat :=
  if 0 < gap then (r.delay multiplier gap).getD 0 else 0

/-- The calls of a part of a replay, which begin after these pauses. -/
structure Replayed (x y : List Json × Mcp W) (keys : List (Text × Json)) (waits : List Nat)
    (calls : List Call) : Prop where
  log : y.2.log = x.2.log ++ calls
  keys : calls.map Call.key = keys
  waits : pausesFrom x.2.now calls = waits

theorem Replayed.cons {x y z : List Json × Mcp W} {c : Call} {key : Text × Json} {wait : Nat}
    {keys : List (Text × Json)} {waits : List Nat} {calls : List Call}
    (hc : Replayed x y [key] [wait] [c]) (hended : c.ended = y.2.now)
    (hcalls : Replayed y z keys waits calls) :
    Replayed x z (key :: keys) (wait :: waits) (c :: calls) where
  log := by rw [hcalls.log, hc.log, List.append_assoc, List.singleton_append]
  keys := by
    rw [List.map_cons, hcalls.keys]
    exact congrArg (· ++ keys) hc.keys
  waits := by
    have hwait := hc.waits
    rw [pausesFrom, pausesFrom] at hwait
    rw [pausesFrom, hended, hcalls.waits]
    exact congrArg (· ++ waits) hwait

/-- A step as it is given out. -/
def stepJson (prevTs : Nat) (step : WorkflowStep) : Json :=
  object [("tool_name", .str step.toolName), ("arguments", step.arguments),
    ("delay_ms", .num (step.timestampMs - prevTs : Nat)), ("timestamp_ms", .num step.timestampMs)]

theorem field_stepJson (prevTs : Nat) (step : WorkflowStep) :
    asStr (field "tool_name" (stepJson prevTs step)) = step.toolName ∧
      field "arguments" (stepJson prevTs step) = step.arguments ∧
      asU64 (field "delay_ms" (stepJson prevTs step)) = step.timestampMs - prevTs := by
  unfold stepJson
  simp only [field_object]
  exact ⟨rfl, rfl, rfl⟩

theorem replayWait_eq (multiplier : Json) (k delayMs : Nat) (s : Mcp W) :
    replayWait r multiplier k delayMs s =
      s.sleep (if 0 < k then pause r multiplier delayMs else 0) := by
  unfold replayWait pause
  by_cases hk : 0 < k
  · by_cases hgap : 0 < delayMs
    · rw [if_pos ⟨hk, hgap⟩, if_pos hk, if_pos hgap]
      cases r.delay multiplier delayMs with
      | none => rfl
      | some actualDelay => rfl
    · rw [if_neg fun h => hgap h.2, if_pos hk, if_neg hgap]
      rfl
  · rw [if_neg fun h => hk h.1, if_neg hk]
    rfl

/-- One turn of the loop of a replay. -/
theorem exists_replayed (multiplier : Json) (x : List Json × Mcp W) (prevTs k : Nat)
    {step : WorkflowStep} (hname : step.toolName ∉ controls) :
    ∃ c, Replayed x
        (replayStep r (handleToolsCall r) multiplier x (stepJson prevTs step, k))
        [(step.toolName, step.arguments)]
        [if 0 < k then pause r multiplier (step.timestampMs - prevTs) else 0] [c] ∧
      c.ended =
        (replayStep r (handleToolsCall r) multiplier x (stepJson prevTs step, k)).2.now := by
  obtain ⟨htool, harguments, hdelay⟩ := field_stepJson prevTs step
  unfold replayStep
  dsimp only
  rw [htool, harguments, hdelay, contains_controls.mpr hname, if_neg Bool.false_ne_true,
    replayWait_eq, handleToolsCall, handleWith_callRequest hname]
  obtain ⟨c, hcalls, hctool, hcarguments⟩ := exists_calls (r := r) hname step.arguments
    (x.2.sleep (if 0 < k then pause r multiplier (step.timestampMs - prevTs) else 0))
  refine ⟨c, ⟨hcalls.log, ?_, ?_⟩, hcalls.ended⟩
  · rw [List.map_singleton, Call.key, hctool, hcarguments]
  · rw [pausesFrom, pausesFrom, hcalls.began]
    exact congrArg (· :: []) (Nat.add_sub_cancel_left _ _)

def WorkflowStep.key (step : WorkflowStep) : Text × Json := (step.toolName, step.arguments)

/-- The time from each step to the next, as it is given out. -/
def delays : Nat → List WorkflowStep → List Nat
  | _, [] => []
  | prevTs, step :: steps => (step.timestampMs - prevTs) :: delays step.timestampMs steps

theorem length_stepsJson (prevTs : Nat) (steps : List WorkflowStep) :
    (stepsJson prevTs steps).length = steps.length := by
  induction steps generalizing prevTs with
  | nil => rfl
  | cons step steps ih => exact congrArg (· + 1) (ih _)

/-- The steps behind the first. -/
theorem exists_replayed_foldl (multiplier : Json) {steps : List WorkflowStep}
    (hsteps : ∀ step ∈ steps, step.toolName ∉ controls) (prevTs : Nat) {k : Nat} (hk : 0 < k)
    (x : List Json × Mcp W) :
    ∃ calls, Replayed x (((stepsJson prevTs steps).zipIdx k).foldl
        (replayStep r (handleToolsCall r) multiplier) x)
      (steps.map WorkflowStep.key) ((delays prevTs steps).map (pause r multiplier)) calls := by
  induction steps generalizing prevTs k x with
  | nil => exact ⟨[], (List.append_nil _).symm, rfl, rfl⟩
  | cons step steps ih =>
    rw [List.forall_mem_cons] at hsteps
    obtain ⟨c, hc, hended⟩ := exists_replayed (r := r) multiplier x prevTs k hsteps.1
    rw [if_pos hk] at hc
    obtain ⟨calls, hcalls⟩ := ih hsteps.2 step.timestampMs (Nat.succ_pos k)
      (replayStep r (handleToolsCall r) multiplier x (stepJson prevTs step, k))
    exact ⟨c :: calls, hc.cons hended hcalls⟩

theorem pauses_eq (t : Nat) (calls : List Call) : pauses calls = (pausesFrom t calls).tail := by
  cases calls with
  | nil => rfl
  | cons c calls => rfl

/-- All steps of a recording, of which the first does not wait. -/
theorem exists_replayed_all (multiplier : Json) {steps : List WorkflowStep}
    (hsteps : ∀ step ∈ steps, step.toolName ∉ controls) (s : Mcp W) :
    ∃ calls, ((stepsJson 0 steps).zipIdx.foldl
          (replayStep r (handleToolsCall r) multiplier) ([], s)).2.log = s.log ++ calls ∧
      calls.map Call.key = steps.map WorkflowStep.key ∧
      pauses calls = (delays 0 steps).tail.map (pause r multiplier) := by
  cases steps with
  | nil => exact ⟨[], (List.append_nil _).symm, rfl, rfl⟩
  | cons step steps =>
    rw [List.forall_mem_cons] at hsteps
    obtain ⟨c, hc, hended⟩ := exists_replayed (r := r) multiplier ([], s) 0 0 hsteps.1
    obtain ⟨calls, hcalls⟩ := exists_replayed_foldl (r := r) multiplier hsteps.2 step.timestampMs
      Nat.zero_lt_one
      (replayStep r (handleToolsCall r) multiplier ([], s) (stepJson 0 step, 0))
    have hall := hc.cons hended hcalls
    refine ⟨c :: calls, hall.log, hall.keys, ?_⟩
    rw [pauses_eq s.now]
    exact congrArg List.tail hall.waits

/-- What a recording keeps of a call. -/
def Call.step (t₀ : Nat) (c : Call) : WorkflowStep := ⟨c.toolName, c.arguments, c.ended - t₀⟩

theorem delays_step {t₀ t : Nat} (ht : t₀ ≤ t) {calls : List Call}
    (h : ∀ c ∈ calls, t₀ ≤ c.ended) :
    delays (t - t₀) (calls.map (Call.step t₀)) = gapsFrom t calls := by
  induction calls generalizing t with
  | nil => rfl
  | cons c calls ih =>
    rw [List.forall_mem_cons] at h
    have hgap : (c.ended - t₀) - (t - t₀) = c.ended - t := by omega
    rw [gapsFrom, ← ih h.1 h.2, ← hgap]
    rfl

theorem tail_delays {t₀ : Nat} {calls : List Call} (h : ∀ c ∈ calls, t₀ ≤ c.ended) :
    (delays 0 (calls.map (Call.step t₀))).tail = gaps calls := by
  cases calls with
  | nil => rfl
  | cons c calls =>
    rw [List.forall_mem_cons] at h
    exact delays_step h.1 h.2

/-- The requests about the recording are not recorded. -/
theorem handleToolsCall_control {request : Json} {toolName : Text}
    (hname : asStr (field "name" (field "params" request)) = toolName)
    (hcontrol : toolName ∈ controls) (s : Mcp W) :
    handleToolsCall r request s =
      (response (dispatch r (toolReplayWorkflow r (handleToolsCall r)) toolName
          (field "arguments" (field "params" request)) s).1,
        (dispatch r (toolReplayWorkflow r (handleToolsCall r)) toolName
          (field "arguments" (field "params" request)) s).2) := by
  rw [handleToolsCall_eq, handleWith_eq hname rfl, Mcp.record,
    if_neg fun hrec => contains_controls.mp hrec.1 hcontrol, ← handleToolsCall_eq]

theorem Requests.start_recording {line : Text} {id request : Json}
    (h : Requests r line id "start_recording".toList request) (s : Mcp W) :
    (processLine r line s).2 = (toolStartRecording s).2 := by
  obtain ⟨fields, -, heq⟩ := h.processLine_eq s
  rw [heq, handleToolsCall_control h.name List.mem_cons_self, dispatch, if_pos rfl]

/-- The answer to a request that stops the recording. -/
theorem Requests.stop_recording {line : Text} {id request : Json}
    (h : Requests r line id "stop_recording".toList request) (s : Mcp W) :
    ∃ fields, Json.obj fields = response (toolStopRecording r s).1 ∧
      (processLine r line s).1 = some (.obj (setField "id" id fields)) := by
  obtain ⟨fields, hfields, heq⟩ := h.processLine_eq s
  rw [handleToolsCall_control h.name (List.mem_cons_of_mem _ List.mem_cons_self), dispatch,
    if_neg (by decide), if_pos rfl] at hfields
  exact ⟨fields, (congrArg Prod.fst hfields).symm, congrArg Prod.fst heq⟩

theorem Requests.replay_workflow {line : Text} {id request : Json}
    (h : Requests r line id "replay_workflow".toList request) (s : Mcp W) :
    (processLine r line s).2 = (toolReplayWorkflow r (handleToolsCall r)
      (field "arguments" (field "params" request)) s).2 := by
  obtain ⟨fields, -, heq⟩ := h.processLine_eq s
  rw [heq, handleToolsCall_control h.name
    (List.mem_cons_of_mem _ (List.mem_cons_of_mem _ List.mem_cons_self)), dispatch,
    if_neg (by decide), if_neg (by decide), if_pos rfl]

/-- What comes of a recording, when it is stopped and when it is replayed. -/
theorem Recording.replay {t₀ : Nat} {before calls : List Call} {s : Mcp W}
    (h : Recording t₀ before calls s) {args : Json} (s' : Mcp W)
    (hargs : field "steps" args = .arr (stepsJson 0 s.workflow.steps)) :
    ∃ calls', (toolReplayWorkflow r (handleToolsCall r) args s').2.log = s'.log ++ calls' ∧
      calls'.map Call.key = calls.map Call.key ∧
      pauses calls' = (gaps calls).map (pause r (field "delay_multiplier" args)) := by
  have hsteps : s.workflow.steps = calls.map (Call.step t₀) :=
    congrArg WorkflowState.steps h.workflow
  have htools : ∀ step ∈ calls.map (Call.step t₀), step.toolName ∉ controls := by
    rw [List.forall_mem_map]
    exact h.tools
  rw [hsteps] at hargs
  obtain ⟨calls', hlog, hkeys, hpauses⟩ := exists_replayed_all (r := r)
    (field "delay_multiplier" args) htools s'
  refine ⟨calls', ?_, ?_, ?_⟩
  · rw [toolReplayWorkflow, hargs]
    exact hlog
  · rw [hkeys, List.map_map]
    rfl
  · rw [hpauses, tail_delays fun c hc => (h.since c hc).1]

/-- **A replay replays what was recorded.** Between a request to start the recording and one to stop
it there may be any requests. The answer to the latter lists the calls that were made in the
meantime, and a request to replay that list, whenever it comes and with whatever multiplier, makes
these calls again, in their order, with the pauses that the multiplier makes of the times between
their ends. -/
theorem replay_recorded {start stop : Text} {idStart idStop requestStart requestStop : Json}
    (hstart : Requests r start idStart "start_recording".toList requestStart)
    (hstop : Requests r stop idStop "stop_recording".toList requestStop)
    {lines : List Text} (hquiet : ∀ line ∈ lines, Quiet r line) {s s₁ s₂ : Mcp W}
    (hsteps : (system r).Steps (processLine r start s).2 lines s₁) (hpassed : s₁.Passed s₂) :
    ∃ (calls : List Call) (steps : List Json) (fields : List (Text × Json)),
      s₂.log = s.log ++ calls ∧ steps.length = calls.length ∧
      Json.obj fields = response (.ok (content (r.toStringPretty
        (object [("steps", .arr steps), ("count", .num calls.length)])))) ∧
      (processLine r stop s₂).1 = some (.obj (setField "id" idStop fields)) ∧
      ∀ (replay : Text) (id request : Json) (s₃ : Mcp W),
        Requests r replay id "replay_workflow".toList request →
        field "steps" (field "arguments" (field "params" request)) = .arr steps →
        ∃ calls', (processLine r replay s₃).2.log = s₃.log ++ calls' ∧
          calls'.map Call.key = calls.map Call.key ∧
          pauses calls' = (gaps calls).map (pause r
            (field "delay_multiplier" (field "arguments" (field "params" request)))) := by
  rw [hstart.start_recording] at hsteps
  obtain ⟨calls, hrecording⟩ :=
    (Recorded.steps ⟨[], toolStartRecording_recording s⟩ hsteps hquiet).passed hpassed
  have hlength : (stepsJson 0 s₂.workflow.steps).length = calls.length := by
    rw [length_stepsJson, hrecording.workflow, List.length_map]
  obtain ⟨fields, hfields, hanswer⟩ := hstop.stop_recording s₂
  refine ⟨calls, stepsJson 0 s₂.workflow.steps, fields, hrecording.log, hlength, ?_, hanswer, ?_⟩
  · rw [hfields, toolStopRecording, recorded, hlength]
  · intro replay id request s₃ hreplay hargs
    rw [hreplay.replay_workflow]
    exact hrecording.replay s₃ hargs

/-- A machine that counts the moves of the mouse, which take five milliseconds each. -/
def Tools.plain : Tools Nat where
  tool toolName _ moves :=
    if toolName = "mouse_move".toList then some (.ok .null, 5, moves + 1) else none
  delay _ delayMs := some delayMs
  describe _ _ _ := none
  fromStr := JsonText.parse
  toStringPretty := Json.write

/-- A request to call a tool, as a client writes it. -/
def toolsCall (toolName : String) (arguments : Json) : Json :=
  object [("id", .num 1), ("method", text "tools/call"),
    ("params", object [("name", text toolName), ("arguments", arguments)])]

theorem trim_write_obj (fields : List (Text × Json)) :
    Text.trim (Json.write (.obj fields)) = Json.write (.obj fields) := by
  rw [Json.write]
  apply Text.trim_cons_eq_self
  · rfl
  · rw [Text.endsBlank, ← List.cons_append, List.getLast?_concat]
    rfl

theorem requests_plain (toolName : String) (arguments : Json) :
    Requests Tools.plain (Json.write (toolsCall toolName arguments)) (.num 1) toolName.toList
      (toolsCall toolName arguments) where
  read := by
    have hread : Tools.plain.fromStr = JsonText.parse := rfl
    have hne : Json.write (toolsCall toolName arguments) ≠ [] := by
      unfold toolsCall object
      rw [Json.write]
      exact List.cons_ne_nil _ _
    have htrim : Text.trim (Json.write (toolsCall toolName arguments)) =
        Json.write (toolsCall toolName arguments) := trim_write_obj _
    rw [htrim, if_neg hne, hread, JsonText.parse_write]
  id := by simp [toolsCall, get?_object]
  method := by simp [toolsCall, field_object, asStr, text, List.lookup_cons]
  name := by simp [toolsCall, field_object, asStr, text, List.lookup_cons]

theorem Requests.quiet {line : Text} {id : Json} {toolName : Text} {request : Json}
    (h : Requests r line id toolName request) (hstart : toolName ≠ "start_recording".toList)
    (hstop : toolName ≠ "stop_recording".toList) : Quiet r line := by
  intro id' toolName' request' h'
  have hrequest : request = request' := Option.some.inj (h.read.symm.trans h'.read)
  have hname : toolName' = toolName := by rw [← h'.name, ← h.name, hrequest]
  rw [hname]
  exact ⟨hstart, hstop⟩

/-- A request without arguments. -/
def plainLine (toolName : String) : Text := Json.write (toolsCall toolName .null)

theorem steps_snoc {lines : List Text} {s s' : Mcp W} (h : (system r).Steps s lines s')
    (line : Text) : (system r).Steps s (lines ++ [line]) (processLine r line s').2 :=
  h.snoc ⟨s', ⟨le_refl _, rfl, rfl⟩, rfl⟩

theorem pause_plain (multiplier : Json) (gaps : List Nat) :
    gaps.map (pause Tools.plain multiplier) = gaps := by
  have hid : ∀ gap, pause Tools.plain multiplier gap = gap := by
    intro gap
    unfold pause
    split
    · rfl
    · omega
  rw [funext hid, List.map_id']

/-- The mouse is moved twice, and in between a tool is called that there is not. -/
theorem replay_recorded_moves :
    ∃ (s₂ : Mcp Nat) (calls : List Call) (steps : List Json),
      s₂.log = calls ∧ calls.map Call.toolName =
        ["mouse_move".toList, "beep".toList, "mouse_move".toList] ∧
      ∀ s₃ : Mcp Nat, ∃ calls',
        (processLine Tools.plain (Json.write (toolsCall "replay_workflow"
          (object [("steps", .arr steps)]))) s₃).2.log = s₃.log ++ calls' ∧
        calls'.map Call.key = calls.map Call.key ∧ pauses calls' = gaps calls := by
  have hmove : Quiet Tools.plain (plainLine "mouse_move") :=
    (requests_plain "mouse_move" .null).quiet (by decide) (by decide)
  have hbeep : Quiet Tools.plain (plainLine "beep") :=
    (requests_plain "beep" .null).quiet (by decide) (by decide)
  have hsteps := steps_snoc (r := Tools.plain) (steps_snoc (steps_snoc
    (s := (processLine Tools.plain (plainLine "start_recording") ⟨0, 0, ⟨false, [], none⟩, []⟩).2)
    .refl (plainLine "mouse_move")) (plainLine "beep")) (plainLine "mouse_move")
  have hquiet : ∀ line ∈ [] ++ [plainLine "mouse_move"] ++ [plainLine "beep"] ++
      [plainLine "mouse_move"], Quiet Tools.plain line := by
    simp only [List.forall_mem_append, List.forall_mem_singleton]
    exact ⟨⟨⟨by rintro _ ⟨⟩, hmove⟩, hbeep⟩, hmove⟩
  obtain ⟨calls, steps, fields, hlog, -, -, -, hreplay⟩ := replay_recorded
    (requests_plain "start_recording" .null) (requests_plain "stop_recording" .null) hquiet hsteps
    ⟨le_refl _, rfl, rfl⟩
  refine ⟨_, calls, steps, hlog, ?_, ?_⟩
  · have hnames := congrArg (List.map Call.toolName) hlog
    rw [List.nil_append] at hnames
    rw [← hnames]
    decide +kernel
  · intro s₃
    have hrequest := requests_plain "replay_workflow" (object [("steps", .arr steps)])
    obtain ⟨calls', hlog', hkeys, hpauses⟩ := hreplay _ _ _ s₃ hrequest (by
      simp [toolsCall, field_object, List.lookup_cons])
    exact ⟨calls', hlog', hkeys, hpauses.trans (pause_plain _ _)⟩

/-! ## Connections -/

/-- The `id` that the answer to the line has to have, if there is to be one. -/
def requestId (r : Tools W) (line : Text) : Option Json :=
  (if Text.trim line = [] then none else r.fromStr (Text.trim line)).bind (get? "id")

theorem get?_setField (key : String) (x : Json) (fields : List (Text × Json)) :
    get? key (.obj (setField key x fields)) = some x := by
  unfold get? setField
  dsimp only
  induction fields with
  | nil => simp
  | cons y fields ih =>
    by_cases hy : y.1 = key.toList
    · simp [hy]
    · have hne : (key.toList == y.1) = false := beq_eq_false_iff_ne.mpr (Ne.symm hy)
      simp only [List.any_cons, decide_eq_false hy, Bool.false_or]
      split
      next hany =>
        rw [if_pos hany] at ih
        rw [List.map_cons, if_neg hy, List.lookup_cons, hne]
        exact ih
      next hany =>
        rw [if_neg hany] at ih
        rw [List.cons_append, List.lookup_cons, hne]
        exact ih

/-- A line is answered if it has an `id`, and under that. -/
theorem id_processLine (line : Text) (s : Mcp W) :
    (processLine r line s).1.map (get? "id") = (requestId r line).map some := by
  unfold processLine requestId
  split
  next hread =>
    rw [hread]
    rfl
  next request hread =>
    rw [hread, Option.bind_some]
    split
    next hid =>
      rw [hid]
      rfl
    next id hid =>
      rw [hid]
      dsimp only
      rw [Option.map_some, get?_setField, Option.map_some]

/-- The lines that are processed, once the connection is authenticated: up to one that cannot be
read, or the answer to which cannot be written. -/
def taken (r : Tools W) : List Incoming → List Text
  | [] => []
  | x :: rest =>
    x.line.elim [] fun line =>
      line :: if (requestId r line).isSome && !x.written then [] else taken r rest

/-- The `id`s of the answers that are written. -/
def answeredIds (r : Tools W) : List Incoming → List Json
  | [] => []
  | x :: rest =>
    x.line.elim [] fun line =>
      (requestId r line).elim (answeredIds r rest) fun id =>
        if x.written then id :: answeredIds r rest else []

/-- What follows a first line that shows the token. -/
def accepted (r : Tools W) (token : Text) : List Incoming → List Incoming
  | [] => []
  | x :: rest => if (x.line.bind r.fromStr).any (shows token) then rest else []

/-- The lines one after the other. -/
def process (r : Tools W) (lines : List Text) (s : Mcp W) : Mcp W :=
  lines.foldl (fun s line => (processLine r line s).2) s

def Reply.id : Reply → Option Json
  | .response v => get? "id" v
  | _ => none

theorem serve_true (token : Text) (xs : List Incoming) (s : Mcp W) :
    (serve r token true xs s).2 = process r (taken r xs) s ∧
      (serve r token true xs s).1.filterMap Reply.id = answeredIds r xs := by
  induction xs generalizing s with
  | nil => exact ⟨rfl, rfl⟩
  | cons x rest ih =>
    obtain ⟨line, written⟩ := x
    cases line with
    | none => exact ⟨rfl, rfl⟩
    | some line =>
      have hid := id_processLine (r := r) line s
      cases hline : processLine r line s with
      | mk resp s' =>
        have hs' : (processLine r line s).2 = s' := by rw [hline]
        rw [hline] at hid
        cases hrequest : requestId r line with
        | none =>
          cases resp with
          | some resp =>
            rw [hrequest] at hid
            cases hid
          | none =>
            obtain ⟨hstate, hids⟩ := ih s'
            simp only [serve, hline, if_true, taken, answeredIds, Option.elim_some, hrequest,
              Option.elim_none, Option.isSome_none, Bool.false_and, Bool.false_eq_true, if_false]
            refine ⟨?_, hids⟩
            rw [hstate, process, process, List.foldl_cons, hs']
        | some id =>
          cases resp with
          | none =>
            rw [hrequest] at hid
            cases hid
          | some resp =>
            rw [hrequest, Option.map_some, Option.map_some, Option.some_inj] at hid
            obtain ⟨hstate, hids⟩ := ih s'
            cases written with
            | false =>
              simp only [serve, hline, if_true, taken, answeredIds, Option.elim_some, hrequest,
                Option.isSome_some, Bool.true_and, Bool.not_false, Bool.false_eq_true, if_false]
              exact ⟨hs'.symm, rfl⟩
            | true =>
              simp only [serve, hline, if_true, taken, answeredIds, Option.elim_some, hrequest,
                Option.isSome_some, Bool.true_and, Bool.not_true, Bool.false_eq_true, if_false]
              constructor
              · rw [hstate, process, process, List.foldl_cons, hs']
              · have hresp : Reply.id (.response resp) = some id := hid
                rw [List.filterMap_cons_some hresp, hids]

/-- What is done for a connection is to process the lines that follow a first one with the token,
and these are what it is answered. -/
theorem serve_eq (token : Text) (xs : List Incoming) (s : Mcp W) :
    (serve r token false xs s).2 = process r (taken r (accepted r token xs)) s ∧
      (serve r token false xs s).1.filterMap Reply.id =
        answeredIds r (accepted r token xs) := by
  cases xs with
  | nil => exact ⟨rfl, rfl⟩
  | cons x rest =>
    obtain ⟨line, written⟩ := x
    cases line with
    | none => exact ⟨rfl, rfl⟩
    | some line =>
      rw [serve, accepted, Option.bind_some]
      dsimp only
      rw [if_neg Bool.false_ne_true]
      split
      next => exact serve_true token rest s
      next => exact ⟨rfl, rfl⟩

/-- **A connection does nothing before it has shown the token.** What the server does is to process
the lines that follow a first one with the token, connection by connection. Apart from whether it is
authenticated, a connection is answered once for each of these lines that has an `id`, under that
`id` and in their order. -/
theorem runTcp_eq (token : Text) (connections : List (List Incoming)) (s : Mcp W) :
    runTcp r token connections s =
        process r (connections.flatMap fun xs => taken r (accepted r token xs)) s ∧
      ∀ xs s', (serve r token false xs s').1.filterMap Reply.id =
        answeredIds r (accepted r token xs) := by
  refine ⟨?_, fun xs s' => (serve_eq token xs s').2⟩
  induction connections generalizing s with
  | nil => rfl
  | cons xs connections ih =>
    rw [List.flatMap_cons, process, List.foldl_append, runTcp, List.foldl_cons,
      (serve_eq token xs s).1]
    exact ih _

end HopToDesk.Host.McpServer
