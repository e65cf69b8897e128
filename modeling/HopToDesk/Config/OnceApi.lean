import HopToDesk.Kit.System
import HopToDesk.Kit.Text

/-!
# The API configuration

`OnceAPI` of `libs/hbb_common/src/api.rs` gets the configuration of the network once and keeps it:
in memory, and as the option `api-cache`, which a task of its own writes. A file `api.json` goes
before the network. Every twelve hours the refresh erases what is in memory and makes a call of its
own, and a peer that cannot be reached makes a refresh that is forced.

A step is a lock section or a fetch, with what the caller does up to the next of these. What the
network, the file and the options answer comes with the step, and so does the success of a write.
The values are a parameter, with what `serde_json` and `base64` make of them.
-/

set_option autoImplicit false

namespace HopToDesk.Config

open Kit

namespace OnceApi

structure Codec (V : Type) where
  isObject : V → Bool
  /-- `base64::encode`, of `serde_json::to_string`. -/
  encode : V → Text
  /-- `base64::decode`, `String::from_utf8` and `serde_json::from_str`. -/
  decode : Text → Option V

/-- Who calls `call`: a caller of `call_api`, or the background refresh. -/
inductive Caller
  | api (id : Nat)
  | refresh
deriving DecidableEq

/-- What the steps of a call get from outside: the value of `api.json`, the URL that is configured,
and the value the network answers with. -/
structure Input (V : Type) where
  file : Option V := none
  uri : Text := []
  body : Option V := none

/-- Where a call is. -/
inductive CallStage (V : Type)
  | begun
  | swapped (force : Bool)
  | checked (force : Bool)
  | unanswered (force : Bool)
  | readFile (v : V)
  | noFile (force : Bool)
  /-- A value from the option, which is to be stored, and then the refresh is started or not. -/
  | readOption (v : V) (start : Bool)
  | limit
  /-- The record of the URL is set; `found` is what it was. -/
  | fetching (uri : Text) (found : Option Nat)
  | fetched (v : V)
  | failed

/-- Where `force_refresh_on_connect_failure` is. -/
inductive ForcedStage (V : Type)
  | begun
  | fetch
  | store (uri : Text) (v : V)
  | stamp (uri : Text) (v : V)

/-- Where the background refresh is. -/
inductive RefreshStage
  | off
  | erase
  | flag
  | calling
  | sleeping (until_ : Nat)
deriving DecidableEq

/-- What a call returned: whether it was a call of `call_api` from after the first that returned a
fetched object, its value if it had one, and the value obtained last by then. -/
structure Answer (V : Type) where
  later : Bool
  result : Option V
  latest : Option V

/-- A fetch of a call that failed: the record of the URL as the call found it, and as it is left. -/
structure Failure where
  found : Option Nat
  left : Option Nat

structure State (V : Type) where
  response : Option V := none
  lastCalls : Text → Option Nat := fun _ => none
  refreshStarted : Bool := false
  forceRefresh : Bool := false
  fromLocal : Bool := false
  lastForcedRefresh : Option Nat := none
  /-- The option `api-cache`. -/
  cache : Option Text
  now : Nat
  calls : Caller → Option (CallStage V) := fun _ => none
  /-- The calls of `erase_api` that have yet to set the flag. -/
  erasing : Nat := 0
  forced : Nat → Option (ForcedStage V) := fun _ => none
  refresh : RefreshStage := .off
  /-- The tasks that have yet to write the option. -/
  writers : List V := []
  /-- The value that was fetched or read from the file last. -/
  latest : Option V := none
  /-- A call has returned a fetched object. -/
  triggered : Bool := false
  /-- The calls of `call_api` that were made after that. -/
  later : Caller → Bool := fun _ => false
  answers : List (Answer V) := []
  failures : List Failure := []

namespace State

variable {V : Type} (c : Codec V) (s : State V)

def setCall (who : Caller) (stage : CallStage V) : State V :=
  { s with calls := Function.update s.calls who (some stage) }

/-- A call returns; the refresh goes to sleep. -/
def answer (who : Caller) (result : Option V) : State V :=
  { s with
    calls := Function.update s.calls who none
    answers := s.answers ++ [⟨s.later who, result, s.latest⟩]
    refresh := if who = .refresh then .sleeping (s.now + 43200) else s.refresh }

/-- A value is stored that was obtained. -/
def obtain (v : V) : State V := { s with response := some v, latest := some v }

/-- `start_background_refresh`. -/
def startBackgroundRefresh : State V :=
  if s.refreshStarted then s else { s with refreshStarted := true, refresh := .erase }

/-- The value of the option, if it has a valid one. -/
def loadFromPersistentCache : Option V :=
  s.cache.bind fun t => if t = [] then none else c.decode t

/-- `try_api_call` would be too early. -/
def rateLimited (uri : Text) : Bool :=
  match s.lastCalls uri with
  | some t => s.now - t < 39600
  | none => false

/-- `call`, from one lock section or fetch to the next. -/
def callNext (who : Caller) (input : Input V) : CallStage V → State V
  | .begun => { s with forceRefresh := false }.setCall who (.swapped s.forceRefresh)
  | .swapped force =>
    match if s.fromLocal then s.response else none with
    | some v => s.answer who (some v)
    | none => s.setCall who (.checked force)
  | .checked force =>
    match if force then none else s.response with
    | some v => s.answer who (some v)
    | none => s.setCall who (.unanswered force)
  | .unanswered force =>
    match input.file with
    | some v => s.setCall who (.readFile v)
    | none => s.setCall who (.noFile force)
  | .readFile v => { s.obtain v with fromLocal := true }.answer who (some v)
  | .noFile force =>
    match if force then none else s.loadFromPersistentCache c with
    | some v => s.setCall who (.readOption v true)
    | none => s.setCall who .limit
  | .readOption v start =>
    let stored := { s with response := some v }
    (if start then stored.startBackgroundRefresh else stored).answer who (some v)
  | .limit =>
    if s.rateLimited input.uri then s.setCall who .failed
    else
      { s with lastCalls := Function.update s.lastCalls input.uri (some s.now) }.setCall who
        (.fetching input.uri (s.lastCalls input.uri))
  | .fetching uri found =>
    match input.body with
    | some v => s.setCall who (.fetched v)
    | none =>
      { s with failures := s.failures ++ [Failure.mk found (s.lastCalls uri)] }.setCall who .failed
  | .fetched v =>
    { s.obtain v with
      writers := s.writers ++ [v]
      triggered := s.triggered || c.isObject v }.startBackgroundRefresh.answer who (some v)
  | .failed =>
    match s.loadFromPersistentCache c with
    | some v => s.setCall who (.readOption v false)
    | none => s.answer who none

def setForced (id : Nat) (stage : Option (ForcedStage V)) : State V :=
  { s with forced := Function.update s.forced id stage }

/-- `force_refresh_on_connect_failure`, likewise. -/
def forcedNext (id : Nat) (input : Input V) : ForcedStage V → State V
  | .begun =>
    match s.lastForcedRefresh with
    | some t =>
      if s.now - t < 3600 then s.setForced id none
      else { s with lastForcedRefresh := some s.now }.setForced id (some .fetch)
    | none => { s with lastForcedRefresh := some s.now }.setForced id (some .fetch)
  | .fetch =>
    match input.body with
    | some v => s.setForced id (some (.store input.uri v))
    | none => s.setForced id none
  | .store uri v => (s.obtain v).setForced id (some (.stamp uri v))
  | .stamp uri v =>
    { s with
      lastCalls := Function.update s.lastCalls uri (some s.now)
      writers := s.writers ++ [v] }.setForced id none

/-- The loop of the background refresh: `erase` in two steps, its call, and its sleep. -/
def refreshNext : RefreshStage → Option (State V)
  | .erase => some { s with response := none, refresh := .flag }
  | .flag =>
    some { s with
      forceRefresh := true
      refresh := .calling
      calls := Function.update s.calls .refresh (some .begun) }
  | .sleeping until_ => if until_ ≤ s.now then some { s with refresh := .erase } else none
  | .off | .calling => none

/-- The write of a task, which may fail; only an object is written. -/
def writeCache (v : V) (ok : Bool) : State V :=
  if ok && c.isObject v && decide (c.encode v ≠ []) then { s with cache := some (c.encode v) }
  else s

end State

inductive Step (V : Type)
  | tick (seconds : Nat)
  | callApi (id : Nat)
  | call (who : Caller) (input : Input V)
  | eraseApi
  | eraseFlag
  | forceRefresh (id : Nat)
  | forced (id : Nat) (input : Input V)
  | refresh
  /-- The task at this place writes its value, or fails to. -/
  | write (i : Nat) (ok : Bool)

namespace State

variable {V : Type} (c : Codec V) (s : State V)

def next : Step V → Option (State V)
  | .tick seconds => some { s with now := s.now + seconds }
  | .callApi id =>
    match s.calls (.api id) with
    | some _ => none
    | none =>
      some { s.setCall (.api id) .begun with
        later := Function.update s.later (.api id) s.triggered }
  | .call who input => (s.calls who).map (s.callNext c who input)
  | .eraseApi => some { s with response := none, erasing := s.erasing + 1 }
  | .eraseFlag =>
    if 0 < s.erasing then some { s with forceRefresh := true, erasing := s.erasing - 1 } else none
  | .forceRefresh id =>
    match s.forced id with
    | some _ => none
    | none => if s.fromLocal then some s else some (s.setForced id (some .begun))
  | .forced id input => (s.forced id).map (s.forcedNext id input)
  | .refresh => s.refreshNext s.refresh
  | .write i ok =>
    (s.writers[i]?).map fun v => { s with writers := s.writers.eraseIdx i }.writeCache c v ok

end State

/-- The process has just started, with the option another one may have left. -/
def start {V : Type} (cache : Option Text) (now : Nat) : State V := { cache, now }

def system {V : Type} (c : Codec V) : System (State V) (Step V) :=
  System.stepping (fun s => ∃ cache now, s = start cache now) (State.next c)

end OnceApi

end HopToDesk.Config
