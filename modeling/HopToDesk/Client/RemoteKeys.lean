import HopToDesk.Kit.MapValues
import HopToDesk.Kit.System

/-!
# Keys that are down on the controlled side

The controlling side grabs the keyboard and sends the key codes, in the map mode. `TO_RELEASE`
records the keys that are pressed, each with its last event, and `MODIFIERS_STATE` the modifiers
that are down, so that a press that comes again while a modifier is held is not sent. When the
window loses the keyboard, `release_remote_keys` sends a release for every key on record.

Two locks guard the two tables, and no call keeps one for longer than a single access. A step of
`RemoteKeys` is one such access, or what a call sends; any number of calls are in progress at a
time. The peer, its platform and the layout are fixed, so the key code is a function of the position
code (of the platform code on macOS), which may have none. The lock keys an event names are left
out.
-/

set_option autoImplicit false

namespace HopToDesk.Client

open Kit

/-- `rdev::Key`: the keys of `MODIFIERS_STATE`, and the others by a number. -/
inductive RdevKey
  | shiftLeft | shiftRight | controlLeft | controlRight | alt | altGr | metaLeft | metaRight
  | other (n : Nat)
deriving DecidableEq

/-- `MODIFIERS_STATE` has an entry for it. -/
def RdevKey.isModifier : RdevKey → Bool
  | .other _ => false
  | _ => true

/-- `rdev::Event`: `EventType::KeyPress(key)` when `down`, else `EventType::KeyRelease(key)`. -/
structure RdevEvent where
  down : Bool
  key : RdevKey
  positionCode : UInt32
deriving DecidableEq

/-- `TO_RELEASE`. -/
abbrev ToRelease := AList fun _ : RdevKey => RdevEvent

/-- `MODIFIERS_STATE`. A key that has no entry reads as up. -/
abbrev ModifiersState := RdevKey → Bool

def isLongPress (keys : ModifiersState) (event : RdevEvent) : Bool := event.down && keys event.key

def updateModifiersState (keys : ModifiersState) (event : RdevEvent) : ModifiersState :=
  if event.key.isModifier then Function.update keys event.key event.down else keys

/-- What `event_to_key_events` does to `TO_RELEASE`. -/
def updateToRelease (toRelease : ToRelease) (event : RdevEvent) : ToRelease :=
  if event.down then toRelease.insert event.key event else toRelease.erase event.key

/-- `map_keyboard_mode`: the key code, and whether it goes down. -/
def mapKeyboardMode (keycode : UInt32 → Option UInt32) (event : RdevEvent) :
    Option (UInt32 × Bool) :=
  (keycode event.positionCode).map fun code => (code, event.down)

/-- The events that `release_remote_keys` processes for one entry of its copy. -/
def releaseEvents (x : Sigma fun _ : RdevKey => RdevEvent) : List RdevEvent :=
  let release : RdevEvent := { x.2 with down := false, key := x.1 }
  let press : RdevEvent := { x.2 with down := true, key := x.1 }
  if x.1 = .alt ∨ x.1 = .altGr then [release, press, release] else [release]

/-- What `process_event` does next with its event. -/
inductive KeyStage
  | isLongPress | updateModifiersState | updateToRelease | send

/-- Where a call stands: not begun, or done; `release_remote_keys`, with its copy of `TO_RELEASE`;
or `process_event` with an event, and the events that are processed after it. -/
inductive KeyCall
  | idle
  | copied (copy : ToRelease)
  | processing (stage : KeyStage) (event : RdevEvent) (rest : List RdevEvent)

/-- These events are to be processed. -/
def KeyCall.start : List RdevEvent → KeyCall
  | [] => .idle
  | event :: rest => .processing .isLongPress event rest

/-- The two tables, the key codes that were sent, newest first, and the calls in progress. -/
structure RemoteKeys where
  toRelease : ToRelease
  modifiersState : ModifiersState
  sent : List (UInt32 × Bool)
  calls : Nat → KeyCall

namespace RemoteKeys

/-- The event that was last sent of this key code is a press. -/
def IsPressed (s : RemoteKeys) (code : UInt32) : Prop :=
  (s.sent.find? fun x => x.1 == code).map Prod.snd = some true

/-- No call is in progress. -/
def Idle (s : RemoteKeys) : Prop := ∀ call, s.calls call = .idle

def setCall (s : RemoteKeys) (call : Nat) (now : KeyCall) : RemoteKeys :=
  { s with calls := Function.update s.calls call now }

/-- `process_event`, up to its next access. -/
def processEvent (keycode : UInt32 → Option UInt32) (s : RemoteKeys) (call : Nat)
    (event : RdevEvent) (rest : List RdevEvent) : KeyStage → RemoteKeys
  | .isLongPress =>
    if isLongPress s.modifiersState event then s.setCall call (.start rest)
    else s.setCall call (.processing .updateModifiersState event rest)
  | .updateModifiersState =>
    { s with modifiersState := updateModifiersState s.modifiersState event }.setCall call
      (.processing .updateToRelease event rest)
  | .updateToRelease =>
    { s with toRelease := updateToRelease s.toRelease event }.setCall call
      (.processing .send event rest)
  | .send =>
    { s with sent := (mapKeyboardMode keycode event).toList ++ s.sent }.setCall call (.start rest)

/-- A call of `process_event` begins; one of `release_remote_keys` begins and copies `TO_RELEASE`;
it clears `TO_RELEASE`, and goes through its copy in this order; an event is processed further. -/
inductive Step
  | event (call : Nat) (event : RdevEvent)
  | release (call : Nat)
  | clear (call : Nat) (order : List (Sigma fun _ : RdevKey => RdevEvent))
  | process (call : Nat)

def next (keycode : UInt32 → Option UInt32) (s : RemoteKeys) : Step → Option RemoteKeys
  | .event call event =>
    match s.calls call with
    | .idle => some (s.setCall call (.start [event]))
    | _ => none
  | .release call =>
    match s.calls call with
    | .idle => some (s.setCall call (.copied s.toRelease))
    | _ => none
  | .clear call order =>
    match s.calls call with
    | .copied copy =>
      if order.Perm copy.entries then
        some ({ s with toRelease := ∅ }.setCall call (.start (order.flatMap releaseEvents)))
      else none
    | _ => none
  | .process call =>
    match s.calls call with
    | .processing stage event rest => some (s.processEvent keycode call event rest stage)
    | _ => none

def start : RemoteKeys := ⟨∅, fun _ => false, [], fun _ => .idle⟩

def system (keycode : UInt32 → Option UInt32) : System RemoteKeys Step :=
  .stepping (· = start) (next keycode)

end RemoteKeys

end HopToDesk.Client
