import HopToDesk.Kit.Json
import HopToDesk.Kit.System

/-!
# The tool server

`src/mcp_server.rs` offers the machine to an assistant. A request is a line of JSON; one that has an
`id` is answered, and a call of a tool does something to the machine and takes its time. What is
called between `start_recording` and `stop_recording` is kept, with the time that had passed, and
`replay_workflow` calls it again.

The tools that work on the machine are a parameter, and so is what `serde_json` makes of a text and
what `f64` makes of a delay. The log of the calls is the model's own.
-/

set_option autoImplicit false

namespace HopToDesk.Host.McpServer

open Kit

/-! ## Values -/

/-- `v[key]`, for reading. -/
def field (key : String) : Json → Json
  | .obj fields => (fields.lookup key.toList).getD .null
  | _ => .null

/-- `value.get(key)`. -/
def get? (key : String) : Json → Option Json
  | .obj fields => fields.lookup key.toList
  | _ => none

/-- `v[key] = x`, of an object. -/
def setField (key : String) (x : Json) (fields : List (Text × Json)) : List (Text × Json) :=
  if fields.any (fun y => y.1 = key.toList) then
    fields.map fun y => if y.1 = key.toList then (y.1, x) else y
  else fields ++ [(key.toList, x)]

/-- `as_str`, or nothing. -/
def asStr : Json → Text
  | .str t => t
  | _ => []

/-- `as_u64`, or zero. -/
def asU64 : Json → Nat
  | .num n => n.toNat
  | _ => 0

def object (fields : List (String × Json)) : Json := .obj (fields.map fun x => (x.1.toList, x.2))

def text (t : String) : Json := .str t.toList

/-- The content of an answer that is one text. -/
def content (t : Text) : Json := .arr [object [("type", text "text"), ("text", .str t)]]

/-! ## The state -/

structure WorkflowStep where
  toolName : Text
  arguments : Json
  timestampMs : Nat

structure WorkflowState where
  recording : Bool
  steps : List WorkflowStep
  startTime : Option Nat

/-- A tool that was called, with the times in milliseconds. -/
structure Call where
  toolName : Text
  arguments : Json
  began : Nat
  ended : Nat

/-- The machine, the clock, `WORKFLOW_STATE`, and what has been called. -/
structure Mcp (W : Type) where
  machine : W
  now : Nat
  workflow : WorkflowState
  log : List Call

/-- What the server is built on. -/
structure Tools (W : Type) where
  /-- A tool: its result, how long it takes, and the machine after it. -/
  tool : Text → Json → W → Option (Except Text Json × Nat × W)
  /-- `(delay_ms as f64 * multiplier) as u64` for the `delay_multiplier`, if that is positive. -/
  delay : Json → Nat → Option Nat
  /-- What the methods other than `tools/call` and `ping` answer. -/
  describe : Text → Json → W → Option (List (Text × Json))
  fromStr : Text → Option Json
  toStringPretty : Json → Text

variable {W : Type} (r : Tools W)

/-! ## Tools -/

/-- The tools that are about the recording. -/
def controls : List Text :=
  ["start_recording".toList, "stop_recording".toList, "replay_workflow".toList]

def toolStartRecording (s : Mcp W) : Except Text Json × Mcp W :=
  (.ok (content ("Recording started. All tool calls will be captured. " ++
    "Use stop_recording to finish.").toList),
    { s with workflow := ⟨true, [], some s.now⟩ })

/-- The steps as they are given out, each with the time since the one before it. -/
def stepsJson : Nat → List WorkflowStep → List Json
  | _, [] => []
  | prevTs, step :: steps =>
    object [("tool_name", .str step.toolName), ("arguments", step.arguments),
      ("delay_ms", .num (step.timestampMs - prevTs : Nat)),
      ("timestamp_ms", .num step.timestampMs)] :: stepsJson step.timestampMs steps

/-- What is given out of a recording. -/
def recorded (steps : List WorkflowStep) : Json :=
  object [("steps", .arr (stepsJson 0 steps)), ("count", .num (stepsJson 0 steps).length)]

def toolStopRecording (s : Mcp W) : Except Text Json × Mcp W :=
  (.ok (content (r.toStringPretty (recorded s.workflow.steps))),
    { s with workflow := ⟨false, [], none⟩ })

/-- A request to call a tool. -/
def callRequest (toolName : Text) (arguments : Json) : Json :=
  object [("params", object [("name", .str toolName), ("arguments", arguments)])]

/-- `thread::sleep`. -/
def Mcp.sleep (s : Mcp W) (ms : Nat) : Mcp W := { s with now := s.now + ms }

/-- What a step of a replay waits before its call. The first does not wait. -/
def replayWait (multiplier : Json) (i delayMs : Nat) (s : Mcp W) : Mcp W :=
  if 0 < i ∧ 0 < delayMs then
    match r.delay multiplier delayMs with
    | some actualDelay => s.sleep actualDelay
    | none => s
  else s

section

variable (handle : Json → Mcp W → Json × Mcp W)

/-- One turn of the loop of `tool_replay_workflow`, with the results so far. -/
def replayStep (multiplier : Json) (x : List Json × Mcp W) (step : Json × Nat) :
    List Json × Mcp W :=
  let toolName := asStr (field "tool_name" step.1)
  let delayMs := asU64 (field "delay_ms" step.1)
  if controls.contains toolName then x
  else
    let s := replayWait r multiplier step.2 delayMs x.2
    let response := handle (callRequest toolName (field "arguments" step.1)) s
    let isError :=
      match field "isError" (field "result" response.1) with
      | .bool b => b
      | _ => false
    (x.1 ++ [object [("step", .num step.2), ("tool_name", .str toolName),
      ("success", .bool !isError)]], response.2)

def toolReplayWorkflow (args : Json) (s : Mcp W) : Except Text Json × Mcp W :=
  match field "steps" args with
  | .arr steps =>
    let (results, s') :=
      steps.zipIdx.foldl (replayStep r handle (field "delay_multiplier" args)) ([], s)
    (.ok (content (r.toStringPretty (object [("replayed", .num results.length),
      ("results", .arr results)]))), s')
  | _ => (.error "steps array is required".toList, s)

end

/-- A tool that works on the machine. -/
def Mcp.call (s : Mcp W) (toolName : Text) (arguments : Json) : Except Text Json × Mcp W :=
  match r.tool toolName arguments s.machine with
  | some (result, took, machine) =>
    (result, { s with
      machine := machine
      now := s.now + took
      log := s.log ++ [⟨toolName, arguments, s.now, s.now + took⟩] })
  | none =>
    (.error ("Unknown tool: ".toList ++ toolName),
      { s with log := s.log ++ [⟨toolName, arguments, s.now, s.now⟩] })

/-- A call is kept when it is over, whether it succeeded or not. -/
def Mcp.record (s : Mcp W) (toolName : Text) (arguments : Json) : Mcp W :=
  if controls.contains toolName = false ∧ s.workflow.recording then
    let elapsed := (s.workflow.startTime.map fun t => s.now - t).getD 0
    { s with workflow := { s.workflow with
      steps := s.workflow.steps ++ [⟨toolName, arguments, elapsed⟩] } }
  else s

def response : Except Text Json → Json
  | .ok content => object [("jsonrpc", text "2.0"), ("result", object [("content", content)])]
  | .error msg =>
    object [("jsonrpc", text "2.0"),
      ("result", object [("content", content ("Error: ".toList ++ msg)), ("isError", .bool true)])]

/-- `handle_tools_call`, given what a replay is. -/
def handleWith (replay : Json → Mcp W → Except Text Json × Mcp W) (request : Json) (s : Mcp W) :
    Json × Mcp W :=
  let toolName := asStr (field "name" (field "params" request))
  let arguments := field "arguments" (field "params" request)
  let (result, s') :=
    if toolName = "start_recording".toList then toolStartRecording s
    else if toolName = "stop_recording".toList then toolStopRecording r s
    else if toolName = "replay_workflow".toList then replay arguments s
    else s.call r toolName arguments
  (response result, s'.record toolName arguments)

/-- A replay skips the steps that are replays themselves, so that none is made within it. -/
def handleToolsCall : Json → Mcp W → Json × Mcp W :=
  handleWith r (toolReplayWorkflow r (handleWith r fun _ s => (.error [], s)))

/-! ## Requests -/

def processLine (line : Text) (s : Mcp W) : Option Json × Mcp W :=
  match if Text.trim line = [] then none else r.fromStr (Text.trim line) with
  | none => (none, s)
  | some request =>
    match get? "id" request with
    | none => (none, s)
    | some id =>
      let method := asStr (field "method" request)
      let (fields, s') :=
        if method = "tools/call".toList then
          match handleToolsCall r request s with
          | (.obj fields, s') => (fields, s')
          | (_, s') => ([], s')
        else if method = "ping".toList then
          ([("jsonrpc".toList, text "2.0"), ("id".toList, id), ("result".toList, .obj [])], s)
        else
          match r.describe method request s.machine with
          | some fields => (fields, s)
          | none =>
            ([("jsonrpc".toList, text "2.0"), ("id".toList, id), ("error".toList,
              object [("code", .num (-32601)),
                ("message", .str ("Unknown method: ".toList ++ method))])], s)
      (some (.obj (setField "id" id fields)), s')

/-! ## Connections -/

/-- What is written to a connection. -/
inductive Reply
  | authenticated
  | authenticationFailed
  | response (v : Json)

/-- A line that arrives, if it can be read, and whether the answer can be written. -/
structure Incoming where
  line : Option Text
  written : Bool

/-- `v["auth"].as_str() == Some(token)`. -/
def shows (token : Text) (v : Json) : Bool :=
  match field "auth" v with
  | .str auth => auth = token
  | _ => false

/-- The lines of one connection of `run_tcp`, from here on. -/
def serve (token : Text) : Bool → List Incoming → Mcp W → List Reply × Mcp W
  | _, [], s => ([], s)
  | authenticated, x :: rest, s =>
    match x.line with
    | none => ([], s)
    | some line =>
      if authenticated then
        match processLine r line s with
        | (none, s') => serve token true rest s'
        | (some resp, s') =>
          if x.written then
            let (replies, s'') := serve token true rest s'
            (.response resp :: replies, s'')
          else ([], s')
      else if (r.fromStr line).any (shows token) then
        let (replies, s') := serve token true rest s
        (.authenticated :: replies, s')
      else ([.authenticationFailed], s)

/-- `run_tcp`: the connections, one after the other. -/
def runTcp (token : Text) (connections : List (List Incoming)) (s : Mcp W) : Mcp W :=
  connections.foldl (fun s lines => (serve r token false lines s).2) s

/-- Between two requests nothing changes but the machine, and time passes. -/
structure Mcp.Passed (s s' : Mcp W) : Prop where
  now : s.now ≤ s'.now
  workflow : s'.workflow = s.workflow
  log : s'.log = s.log

/-- The requests of one connection after the other, each as a line. -/
def system : System (Mcp W) Text where
  init s := s.workflow.recording = false ∧ s.log = []
  step s line s' := ∃ s₁, s.Passed s₁ ∧ s' = (processLine r line s₁).2

end HopToDesk.Host.McpServer
