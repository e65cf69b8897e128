import HopToDesk.Kit.System
import HopToDesk.Kit.Text
import Mathlib.Data.Finset.Basic

/-!
# Restarting the signal connections

`start_all` goes round a loop: it reads the option `stop-service`, fetches the servers, starts a task
for each of them and waits until all have ended. Whoever changes the option calls `restart`, which
sets two flags. A task that serves looks at `SHOULD_EXIT` every second, and `start_all` clears it
before it starts the tasks of a round.

Every access to a flag or to the option is one step, and so is the fetch. How often `restart` has
returned is counted, and every value that is read is kept with the count at that time.
-/

set_option autoImplicit false

namespace HopToDesk.Host

open Kit

/-- A start task of `start_all`. -/
inductive StartTask
  /-- `start` has not come to its loop. -/
  | connecting
  | serving
  /-- `start` has returned. -/
  | returned
  /-- And `SHOULD_EXIT` is stored. -/
  | ended
deriving DecidableEq, Repr

/-- A value, with how many calls of `restart` had returned when it was read. -/
structure ReadAt (α : Type) where
  value : α
  restarts : Nat
deriving DecidableEq

/-- Where `start_all` is in its loop, with what it has read. -/
inductive StartAll
  | looping
  | stopServiceRead (stopService : ReadAt Text)
  | serversFetched (stopService : ReadAt Text) (servers : ReadAt (List Text))
  | exitCleared (stopService : ReadAt Text) (servers : ReadAt (List Text))
  /-- In `join_all`, with the tasks. -/
  | joining (stopService : ReadAt Text) (servers : ReadAt (List Text)) (tasks : List StartTask)
  | joined
deriving DecidableEq

/-- It has read the option, and has yet to clear `SHOULD_EXIT`. -/
def StartAll.deciding : StartAll → Bool
  | .stopServiceRead _ => true
  | .serversFetched _ _ => true
  | _ => false

/-- The option and the flags; the callers that have written the option and not begun to restart, and
those between the two stores of `restart`; how many restarts have returned. -/
structure Mediator where
  stopService : Text
  shouldExit : Bool
  manualRestarted : Bool
  wrote : Finset Nat
  restarting : Finset Nat
  restarts : Nat
  startAll : StartAll

inductive MediatorStep
  | setOption (caller : Nat) (value : Text)
  /-- The two stores of `restart`. -/
  | storeShouldExit (caller : Nat)
  | storeManualRestarted (caller : Nat)
  | readStopService
  /-- `get_rendezvous_servers` gives servers or nothing. -/
  | fetchServers (servers : Option (List Text))
  | clearShouldExit
  /-- `MANUAL_RESTARTED` is cleared, and the tasks are spawned. -/
  | clearManualRestarted
  | connect (task : Nat) (ok : Bool)
  /-- The timer of a task ticks. -/
  | tick (task : Nat)
  /-- A task breaks out of its loop or fails. -/
  | leave (task : Nat)
  /-- A task stores `SHOULD_EXIT` at its end. -/
  | endTask (task : Nat)
  | join
  | loadManualRestarted
deriving DecidableEq

namespace Mediator

/-- A task goes on to another phase. -/
def setTask (s : Mediator) (task : Nat) (before after : StartTask) : Option Mediator :=
  match s.startAll with
  | .joining stopService servers tasks =>
    if tasks[task]? = some before then
      some { s with startAll := .joining stopService servers (tasks.set task after) }
    else none
  | _ => none

def next (s : Mediator) : MediatorStep → Option Mediator
  | .setOption caller value =>
    if caller ∈ s.wrote ∪ s.restarting then none
    else some { s with stopService := value, wrote := insert caller s.wrote }
  | .storeShouldExit caller =>
    if caller ∈ s.wrote then
      some { s with
        shouldExit := true
        wrote := s.wrote.erase caller
        restarting := insert caller s.restarting }
    else none
  | .storeManualRestarted caller =>
    if caller ∈ s.restarting then
      some { s with
        manualRestarted := true
        restarting := s.restarting.erase caller
        restarts := s.restarts + 1 }
    else none
  | .readStopService =>
    match s.startAll with
    | .looping =>
      -- where the service is stopped, the loop sleeps and begins again
      if s.stopService = [] then
        some { s with startAll := .stopServiceRead ⟨s.stopService, s.restarts⟩ }
      else some s
    | _ => none
  | .fetchServers servers =>
    match s.startAll with
    | .stopServiceRead stopService =>
      match servers with
      | some servers =>
        some { s with startAll := .serversFetched stopService ⟨servers, s.restarts⟩ }
      | none => some { s with startAll := .looping }
    | _ => none
  | .clearShouldExit =>
    match s.startAll with
    | .serversFetched stopService servers =>
      some { s with shouldExit := false, startAll := .exitCleared stopService servers }
    | _ => none
  | .clearManualRestarted =>
    match s.startAll with
    | .exitCleared stopService servers =>
      some { s with
        manualRestarted := false
        startAll := .joining stopService servers (servers.value.map fun _ => .connecting) }
    | _ => none
  | .connect task ok => s.setTask task .connecting (if ok then .serving else .returned)
  | .tick task => s.setTask task .serving (if s.shouldExit then .returned else .serving)
  | .leave task => s.setTask task .serving .returned
  | .endTask task => (s.setTask task .returned .ended).map ({ · with shouldExit := true })
  | .join =>
    match s.startAll with
    | .joining _ _ tasks =>
      if ∀ task ∈ tasks, task = .ended then some { s with startAll := .joined } else none
    | _ => none
  | .loadManualRestarted =>
    match s.startAll with
    -- the flag decides how long the loop sleeps
    | .joined => some { s with startAll := .looping }
    | _ => none

def start (stopService : Text) : Mediator where
  stopService := stopService
  shouldExit := false
  manualRestarted := false
  wrote := ∅
  restarting := ∅
  restarts := 0
  startAll := .looping

/-- Any callers and any order of the steps, from any value of the option. -/
def system : System Mediator MediatorStep :=
  System.stepping (fun s => ∃ stopService, s = start stopService) next

/-- A task that serves with `SHOULD_EXIT` false was started from values read after the last call of
`restart` that has returned. -/
def StartedAfterRestart (s : Mediator) : Prop :=
  ∀ stopService servers tasks, s.startAll = .joining stopService servers tasks →
    StartTask.serving ∈ tasks → s.shouldExit = false →
      stopService.restarts = s.restarts ∧ servers.restarts = s.restarts

/-- No call of `restart` stores `SHOULD_EXIT` between the read of the option and the clearing of
`SHOULD_EXIT`, and none is between its two stores when the option is read. -/
def Apart (s : Mediator) : MediatorStep → Prop
  | .readStopService => s.restarting = ∅
  | .storeShouldExit _ => s.startAll.deciding = false
  | _ => True

instance (s : Mediator) : ∀ step, Decidable (s.Apart step)
  | .readStopService => inferInstanceAs (Decidable (s.restarting = ∅))
  | .storeShouldExit _ => inferInstanceAs (Decidable (s.startAll.deciding = false))
  | .setOption .. | .storeManualRestarted _ | .fetchServers _ | .clearShouldExit
  | .clearManualRestarted | .connect .. | .tick _ | .leave _ | .endTask _ | .join
  | .loadManualRestarted => .isTrue trivial

end Mediator

end HopToDesk.Host
