import HopToDesk.Kit.System
import HopToDesk.Kit.Text

/-!
# Privacy mode

The implementation for X11 asks `xrandr` for the outputs and their brightness and `xinput` for the
input devices that are on, dims the outputs and disables the devices, and remembers what it found to
put it back. A watchdog process would put it back should this one die. The module holds one
implementation, which remembers the connection that turned it on; 0 stands for none.

What the commands answer and whether they succeed is chosen by a call, except that the commands that
put things back succeed, and that a process that is killed and waited for is gone.
-/

set_option autoImplicit false

namespace HopToDesk.Host

open Kit Kit.Text

/-- The brightness of the outputs, and which input devices are enabled. -/
@[ext]
structure Screens where
  brightness : Text → Text
  enabled : Text → Bool

namespace Screens

/-- `xrandr --output .. --brightness ..`. -/
def setBrightness (s : Screens) (output brightness : Text) : Screens :=
  { s with brightness := Function.update s.brightness output brightness }

/-- `xinput enable ..` and `xinput disable ..`. -/
def setEnabled (s : Screens) (id : Text) (enabled : Bool) : Screens :=
  { s with enabled := Function.update s.enabled id enabled }

end Screens

/-- The screens, and the watchdogs that run: their process ids and scripts. -/
@[ext]
structure Desk where
  screens : Screens
  watchdogs : List (Nat × Text)

/-- What a command that was run printed, and whether it succeeded. -/
structure CommandOutput where
  success : Bool
  stdout : Text

/-- The answers of the commands to one call. A command that dims or disables does so, or fails and
leaves the output or the device in some state. -/
structure Answers where
  processId : Nat
  xrandr : Except String CommandOutput
  xinputList : Except String CommandOutput
  listProps : Text → Option Text
  watchdog : Except String Nat
  dim : Nat → Except Text Unit
  disable : Nat → Except Bool Unit

/-! ## The queries -/

/-- A line that starts with a blank belongs to the one before. -/
def isIndented (line : Text) : Bool := line.head? == some ' ' || line.head? == some '\t'

/-- One line of `xrandr --verbose`: the connected output it is about, and what was found. -/
def scanLine (found : Option Text × List (Text × Text)) (line : Text) :
    Option Text × List (Text × Text) :=
  if isIndented line then
    match found.1, stripPrefix "Brightness:".toList (trim line) with
    | some name, some value => (none, found.2 ++ [(name, trim value)])
    | _, _ => found
  else
    match splitWhitespace line with
    | name :: state :: _ => (if state = "connected".toList then some name else none, found.2)
    | _ => (none, found.2)

def connectedOutputsWithBrightness (answers : Answers) : Except String (List (Text × Text)) :=
  match answers.xrandr with
  | .error e => .error e
  | .ok output =>
    if output.success then .ok ((lines output.stdout).foldl scanLine (none, [])).2
    else .error "Failed to query displays"

/-- A line of `xinput list-props` that says the device is enabled. -/
def saysEnabled (line : Text) : Bool :=
  contains "Device Enabled".toList line && (trimEnd line).getLast? == some '1'

def isInputEnabled (answers : Answers) (id : Text) : Bool :=
  match answers.listProps id with
  | some text => (lines text).any saysEnabled
  | none => false

/-- The enabled device that a line of `xinput list --short` is about. -/
def physicalInput (answers : Answers) (line : Text) : Option Text :=
  if !contains "slave".toList line || contains "XTEST".toList line then none
  else if !contains "pointer".toList line && !contains "keyboard".toList line then none
  else
    match afterFirst "id=".toList line with
    | some rest =>
      let id := rest.takeWhile Char.isDigit
      if id ≠ [] ∧ isInputEnabled answers id then some id else none
    | none => none

def enabledPhysicalInputs (answers : Answers) : Except String (List Text) :=
  match answers.xinputList with
  | .error e => .error e
  | .ok output =>
    if output.success then .ok ((lines output.stdout).filterMap (physicalInput answers))
    else .error "Failed to query input devices"

/-! ## The watchdog -/

def watchdogScript (processId : Nat) (outputs : List (Text × Text)) (inputs : List Text) : Text :=
  "while kill -0 ".toList ++ Nat.toDigits 10 processId ++
    " 2>/dev/null; do sleep 1; done; ".toList ++
    outputs.flatMap (fun x =>
      "xrandr --output ".toList ++ x.1 ++ " --brightness ".toList ++ x.2 ++ "; ".toList) ++
    inputs.flatMap (fun id => "xinput enable ".toList ++ id ++ "; ".toList)

/-! ## The implementation -/

structure PrivacyModeImpl where
  implKey : String
  connId : Int
  savedBrightness : List (Text × Text)
  disabledInputs : List Text
  watchdog : Option Nat

namespace PrivacyModeImpl

def new (implKey : String) : PrivacyModeImpl := ⟨implKey, 0, [], [], none⟩

def restoreScreens (outputs : List (Text × Text)) (inputs : List Text) (s : Screens) : Screens :=
  inputs.foldl (fun s id => s.setEnabled id true)
    (outputs.foldl (fun s x => s.setBrightness x.1 x.2) s)

def restore (impl : PrivacyModeImpl) (desk : Desk) : PrivacyModeImpl × Desk :=
  ({ impl with savedBrightness := [], disabledInputs := [], watchdog := none },
    { screens := restoreScreens impl.savedBrightness impl.disabledInputs desk.screens
      watchdogs :=
        match impl.watchdog with
        | some pid => desk.watchdogs.filter (·.1 ≠ pid)
        | none => desk.watchdogs })

/-- `clear`, which is also what dropping the implementation does. -/
def clear (impl : PrivacyModeImpl) (desk : Desk) : PrivacyModeImpl × Desk :=
  let (impl, desk) := impl.restore desk
  ({ impl with connId := 0 }, desk)

/-- `OCCUPIED`. -/
def occupied : String := "Privacy occupied by another one."

/-- `TURN_OFF_OTHER_ID`. -/
def turnOffOtherId : String := "Failed to turn off privacy mode that belongs to someone else."

def checkOnConnId (impl : PrivacyModeImpl) (connId : Int) : Except String Bool :=
  if impl.connId = connId then .ok true
  else if impl.connId ≠ 0 then .error occupied
  else .ok false

def checkOffConnId (impl : PrivacyModeImpl) (connId : Int) : Except String Unit :=
  if impl.connId ≠ 0 ∧ connId ≠ 0 ∧ impl.connId ≠ connId then .error turnOffOtherId else .ok ()

/-- All outputs are dimmed, also after a failure. -/
def dimOutputs (answers : Answers) : Nat → List (Text × Text) → Screens → Bool × Screens
  | _, [], s => (true, s)
  | i, (output, _) :: rest, s =>
    match answers.dim i with
    | .ok () => dimOutputs answers (i + 1) rest (s.setBrightness output "0".toList)
    | .error left => (false, (dimOutputs answers (i + 1) rest (s.setBrightness output left)).2)

def disableInputs (answers : Answers) : Nat → List Text → Screens → Bool × Screens
  | _, [], s => (true, s)
  | i, id :: rest, s =>
    match answers.disable i with
    | .ok () => disableInputs answers (i + 1) rest (s.setEnabled id false)
    | .error left => (false, (disableInputs answers (i + 1) rest (s.setEnabled id left)).2)

/-- What `turn_on_privacy` does with the outputs and inputs it found. -/
def hide (answers : Answers) (outputs : List (Text × Text)) (inputs : List Text) (s : Screens) :
    Bool × Screens :=
  match dimOutputs answers 0 outputs s with
  | (true, s) => disableInputs answers 0 inputs s
  | (false, s) => (false, s)

def turnOnPrivacy (impl : PrivacyModeImpl) (connId : Int) (answers : Answers) (desk : Desk) :
    Except String Bool × PrivacyModeImpl × Desk :=
  match impl.checkOnConnId connId with
  | .error e => (.error e, impl, desk)
  | .ok true => (.ok true, impl, desk)
  | .ok false =>
    match connectedOutputsWithBrightness answers with
    | .error e => (.error e, impl, desk)
    | .ok [] => (.error "No physical displays", impl, desk)
    | .ok outputs =>
      match enabledPhysicalInputs answers with
      | .error e => (.error e, impl, desk)
      | .ok inputs =>
        match answers.watchdog with
        | .error e => (.error e, impl, desk)
        | .ok pid =>
          let impl :=
            { impl with
              savedBrightness := outputs
              disabledInputs := inputs
              watchdog := some pid }
          let script := watchdogScript answers.processId outputs inputs
          let (ok, screens) := hide answers outputs inputs desk.screens
          let desk := { screens := screens, watchdogs := desk.watchdogs ++ [(pid, script)] }
          if ok then (.ok true, { impl with connId := connId }, desk)
          else (.error "Failed to turn on privacy mode", impl.restore desk)

def turnOffPrivacy (impl : PrivacyModeImpl) (connId : Int) (desk : Desk) :
    Except String Unit × PrivacyModeImpl × Desk :=
  match impl.checkOffConnId connId with
  | .error e => (.error e, impl, desk)
  | .ok () => (.ok (), impl.clear desk)

end PrivacyModeImpl

/-! ## The module -/

/-- What `get_supported_impl` looks up: whether the implementation is supported, the option, whether
it is still supported, and the default. -/
structure KeyLookup where
  isSupported : Bool
  option : String
  isSupportedAgain : Bool
  defaultImpl : String

/-- `PRIVACY_MODE_IMPL`. -/
def privacyModeImplLinux : String := "privacy_mode_impl_linux"

def getSupportedPrivacyModeImpl (isSupported : Bool) : List (String × String) :=
  if isSupported then [(privacyModeImplLinux, "privacy_mode_impl_linux_tip")] else []

def getSupportedImpl (implKey : String) (lookup : KeyLookup) : String :=
  if (getSupportedPrivacyModeImpl lookup.isSupported).any (·.1 == implKey) then implKey
  else if (getSupportedPrivacyModeImpl lookup.isSupportedAgain).any (·.1 == lookup.option) then
    lookup.option
  else lookup.defaultImpl

/-- `PRIVACY_MODE`, with the desk, and the screens as they were when privacy was last turned on. -/
structure Privacy where
  mode : Option PrivacyModeImpl
  desk : Desk
  before : Screens

namespace Privacy

-- `PRIVACY_MODE_CREATOR`: the keys it has a creator for.
variable (creators : String → Bool)

/-- `turn_on_privacy_sync` where the implementation is not the one asked for: an answer, or where
it goes on. -/
def replace (s : Privacy) (implKey : String) : Except (Except String Bool) Privacy :=
  if creators implKey then
    match s.mode with
    | some impl =>
      -- The old implementation is cleared, and once more when it is dropped.
      let (impl, desk) := impl.clear s.desk
      .ok { s with mode := some (.new implKey), desk := (impl.clear desk).2 }
    | none => .ok { s with mode := some (.new implKey) }
  else .error (.error ("Unsupported privacy mode: " ++ implKey))

/-- `turn_on_privacy_sync` up to the call of the implementation. -/
def prepare (s : Privacy) (implKey : String) (connId : Int) : Except (Except String Bool) Privacy :=
  match s.mode with
  | some impl =>
    match impl.checkOnConnId connId with
    | .error e => .error (.error e)
    | .ok true => if impl.implKey = implKey then .error (.ok true) else s.replace creators implKey
    | .ok false => if impl.implKey = implKey then .ok s else s.replace creators implKey
  | none => if "" = implKey then .ok s else s.replace creators implKey

/-- The connection that owns privacy mode. -/
def Owns (s : Privacy) (connId : Int) : Prop :=
  connId ≠ 0 ∧ ∃ impl, s.mode = some impl ∧ impl.connId = connId

/-- The screens are noted when privacy is turned on while nobody owns it. -/
def note (s : Privacy) : Privacy :=
  match s.mode with
  | some impl => if impl.connId = 0 then { s with before := s.desk.screens } else s
  | none => { s with before := s.desk.screens }

def turnOnPrivacySync (s : Privacy) (implKey : String) (connId : Int) (lookup : KeyLookup)
    (answers : Answers) : Option (Except String Bool) × Privacy :=
  match s.note.prepare creators (getSupportedImpl implKey lookup) connId with
  | .error answer => (some answer, s.note)
  | .ok s =>
    match s.mode with
    | some impl =>
      let (answer, impl, desk) := impl.turnOnPrivacy connId answers s.desk
      (some answer, { s with mode := some impl, desk := desk })
    | none => (none, s)

def turnOffPrivacy (s : Privacy) (connId : Int) : Option (Except String Unit) × Privacy :=
  match s.mode with
  | some impl =>
    let (answer, impl, desk) := impl.turnOffPrivacy connId s.desk
    (some answer, { s with mode := some impl, desk := desk })
  | none => (none, s)

def switch (s : Privacy) (implKey : String) : Privacy :=
  match s.mode with
  | some impl =>
    if impl.implKey = implKey then s
    else if creators implKey then
      -- The old implementation is dropped.
      { s with mode := some (.new implKey), desk := (impl.clear s.desk).2 }
    else s
  | none => if creators implKey then { s with mode := some (.new implKey) } else s

def clear (s : Privacy) : Privacy :=
  match s.mode with
  | some impl =>
    let (impl, desk) := impl.clear s.desk
    { s with mode := some impl, desk := desk }
  | none => s

end Privacy

/-- `turn_off_privacy` has one more argument, which this implementation does not look at. -/
inductive PrivacyCall
  | turnOnPrivacy (implKey : String) (connId : Int) (lookup : KeyLookup) (answers : Answers)
  | turnOffPrivacy (connId : Int)
  | switch (implKey : String)
  | clear

/-- What a call returns. -/
inductive PrivacyReply
  | turnedOn (answer : Option (Except String Bool))
  | turnedOff (answer : Option (Except String Unit))
  | done

namespace PrivacyReply

def isError : PrivacyReply → Bool
  | .turnedOn (some (.error _)) | .turnedOff (some (.error _)) => true
  | _ => false

end PrivacyReply

namespace Privacy

def call (creators : String → Bool) (s : Privacy) : PrivacyCall → PrivacyReply × Privacy
  | .turnOnPrivacy implKey connId lookup answers =>
    let (answer, s) := s.turnOnPrivacySync creators implKey connId lookup answers
    (.turnedOn answer, s)
  | .turnOffPrivacy connId =>
    let (answer, s) := s.turnOffPrivacy connId
    (.turnedOff answer, s)
  | .switch implKey => (.done, s.switch creators implKey)
  | .clear => (.done, s.clear)

/-- Before the first call there is an implementation, or none. -/
def starts (s : Privacy) : Prop :=
  (s.mode = none ∨ ∃ implKey, s.mode = some (.new implKey)) ∧ s.desk = ⟨s.before, []⟩

def system (creators : String → Bool) : System Privacy PrivacyCall where
  init := starts
  step s c s' := (s.call creators c).2 = s'

end Privacy

end HopToDesk.Host
