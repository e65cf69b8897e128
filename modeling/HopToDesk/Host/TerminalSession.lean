import HopToDesk.Kit.System
import HopToDesk.Host.Terminal

/-!
# Terminal sessions and their shells

What a terminal service does with its shells. A session holds the child process, the channel its
reader thread puts the output into, and whether that thread has come to its end; the service reads
the channels from time to time and answers actions in between. Here are the answers too, each with
the shell it is about: the shells are numbered in the order they were started. The answer that
there is no service is about none and left out.

What the system answers, where the source asks it, is an argument: whether a shell can be started,
whether it can be killed, how it ended, which sessions are locked.
-/

set_option autoImplicit false

namespace HopToDesk.Host

open Kit TerminalServices

/-- `TerminalResponse`, of those that are about a shell. -/
inductive TerminalResponse
  | opened (terminalId : Int) (success : Bool) (message : String) (pid : Nat) (serviceId : String)
      (persistentSessions : List Int)
  | data (terminalId : Int) (data : List UInt8) (compressed : Bool)
  | closed (terminalId : Int) (exitCode : Int)
deriving DecidableEq

/-- A session with its shell: the child process, until it is taken, what has been sent to the
writer thread, what the output channel holds, and whether the reader thread has ended. -/
structure ShellSession extends TerminalSession where
  shell : Nat
  child : Bool
  input : List (List UInt8)
  output : List (List UInt8)
  readerFinished : Bool

abbrev ShellSessions := AList fun _ : Int => ShellSession

/-- The session of a terminal, if it has one, is changed in place. -/
def ShellSessions.modify (sessions : ShellSessions) (terminalId : Int)
    (f : ShellSession → ShellSession) : ShellSessions :=
  mapValues (fun id session => if id = terminalId then f session else session) sessions

/-- `PersistentTerminalService`. -/
structure ShellService where
  serviceId : String
  sessions : ShellSessions
  isPersistent : Bool
  needsSessionSync : Bool

/-- `CHANNEL_BUFFER_SIZE`. -/
def channelBufferSize : Nat := 100

/-- `COMPRESS_THRESHOLD`. -/
def compressThreshold : Nat := 512

/-- What the system answers to an action. -/
structure ActionIo where
  spawn : Except String Nat
  resize : Except String Unit
  kill : Except String Unit

/-- What the system answers to `read_outputs`: the sessions that are locked, and the exit codes. -/
structure OutputIo where
  locked : Int → Bool
  exitCode : Int → Option Int
  compress : List UInt8 → List UInt8

/-- An answer with the shell it is about. -/
abbrev ShellResponse := Nat × TerminalResponse

namespace ShellService

/-- `get_or_create_service` makes it. -/
def new (serviceId : String) (isPersistent : Bool) : ShellService :=
  ⟨serviceId, ∅, isPersistent, false⟩

def resetStatus (isPersistent : Bool) (service : ShellService) : ShellService :=
  { service with
    isPersistent := isPersistent
    needsSessionSync := true
    sessions := mapValues (fun _ session => { session with isOpened := false }) service.sessions }

/-! ## Actions -/

/-- What `handle_open` reports of the other sessions. -/
def otherSessions (service : ShellService) (terminalId : Int) : List Int :=
  if service.needsSessionSync then service.sessions.keys.filter (· ≠ terminalId) else []

/-- `shell` is the number of the shell that is started. -/
def handleOpen (io : ActionIo) (shell : Nat) (terminalId : Int) (rows cols : Nat)
    (service : ShellService) : Except String ShellResponse × ShellService :=
  match service.sessions.lookup terminalId with
  | some session =>
    (.ok (session.shell, .opened terminalId true "Reconnected to existing terminal" session.pid
        service.serviceId (service.otherSessions terminalId)),
      { service with
        sessions := ShellSessions.modify service.sessions terminalId ({ · with isOpened := true })
        needsSessionSync := false })
  | none =>
    match io.spawn with
    | .error e => (.error e, service)
    | .ok pid =>
      (.ok (shell, .opened terminalId true "Terminal opened" pid service.serviceId
          (service.otherSessions terminalId)),
        { service with
          sessions := service.sessions.insert terminalId
            { pid := pid
              rows := rows % 2 ^ 16
              cols := cols % 2 ^ 16
              closedMessageSent := false
              isOpened := true
              shell := shell
              child := true
              input := []
              output := []
              readerFinished := false }
          needsSessionSync := false })

def handleResize (io : ActionIo) (terminalId : Int) (rows cols : Nat) (service : ShellService) :
    Except String Unit × ShellService :=
  (if terminalId ∈ service.sessions then io.resize else .ok (),
    { service with
      sessions := ShellSessions.modify service.sessions terminalId
        ({ · with rows := rows % 2 ^ 16, cols := cols % 2 ^ 16 }) })

def handleData (terminalId : Int) (data : List UInt8) (service : ShellService) : ShellService :=
  { service with
    sessions := ShellSessions.modify service.sessions terminalId fun session =>
      { session with input := session.input ++ [data] } }

/-- The session goes, whether or not its child can be killed. -/
def handleClose (io : ActionIo) (terminalId : Int) (service : ShellService) :
    Except String (Option ShellResponse) × ShellService :=
  match service.sessions.lookup terminalId with
  | some session =>
    let answer : Except String (Option ShellResponse) :=
      if session.child then
        io.kill.map fun _ => some (session.shell, .closed terminalId (-1))
      else .ok (some (session.shell, .closed terminalId 0))
    (answer, { service with sessions := service.sessions.erase terminalId })
  | none => (.ok none, service)

/-- `handle_action`, of the service it finds. -/
def handleAction (io : ActionIo) (shell : Nat) (service : ShellService) :
    TerminalAction → Except String (Option ShellResponse) × ShellService
  | .opened terminalId rows cols =>
    let (answer, service) := service.handleOpen io shell terminalId rows cols
    (answer.map some, service)
  | .resize terminalId rows cols =>
    let (answer, service) := service.handleResize io terminalId rows cols
    (answer.map fun _ => none, service)
  | .data terminalId data => (.ok none, service.handleData terminalId data)
  | .close terminalId => service.handleClose io terminalId
  | .other => (.ok none, service)

/-! ## Outputs -/

/-- The closed message is due: the reader thread has ended, and it has not been sent. -/
def closes (io : OutputIo) (terminalId : Int) (session : ShellSession) : Bool :=
  !io.locked terminalId && !session.closedMessageSent && session.readerFinished

/-- The output is read: the session is open. -/
def reads (io : OutputIo) (terminalId : Int) (session : ShellSession) : Bool :=
  !io.locked terminalId && session.isOpened

def terminalData (compress : List UInt8 → List UInt8) (terminalId : Int) (data : List UInt8) :
    TerminalResponse :=
  if compressThreshold < data.length ∧ (compress data).length < data.length then
    .data terminalId (compress data) true
  else .data terminalId data false

/-- What the loop over the sessions leaves of one. -/
def readSession (io : OutputIo) (terminalId : Int) (session : ShellSession) : ShellSession :=
  { session with
    closedMessageSent := session.closedMessageSent || closes io terminalId session
    output := if reads io terminalId session then [] else session.output }

/-- What it answers for one. -/
def sessionData (io : OutputIo) (terminalId : Int) (session : ShellSession) : List ShellResponse :=
  if reads io terminalId session then
    session.output.map fun data => (session.shell, terminalData io.compress terminalId data)
  else []

/-- A closed terminal is cleaned up: its session goes, or stays without its child. -/
def cleanUp (isPersistent : Bool) (sessions : ShellSessions) (terminalId : Int) : ShellSessions :=
  if isPersistent then ShellSessions.modify sessions terminalId ({ · with child := false })
  else sessions.erase terminalId

def sessionClosed (io : OutputIo) (terminalId : Int) (session : ShellSession) : ShellResponse :=
  (session.shell,
    .closed terminalId (if session.child then (io.exitCode terminalId).getD 0 else 0))

/-- `read_outputs`, of a proxy made now. -/
def readOutputs (io : OutputIo) (service : ShellService) : List ShellResponse × ShellService :=
  let sessions := service.sessions.entries
  let closed := sessions.filter fun x => closes io x.1 x.2
  (sessions.flatMap (fun x => sessionData io x.1 x.2) ++
      closed.map (fun x => sessionClosed io x.1 x.2),
    { service with
      sessions := (closed.map Sigma.fst).foldl (cleanUp service.isPersistent)
        (mapValues (readSession io) service.sessions) })

/-! ## Shells -/

/-- The shell of a terminal writes: the reader thread puts the data into the channel, or drops it
when the channel is full. -/
def shellWrites (terminalId : Int) (data : List UInt8) (service : ShellService) : ShellService :=
  { service with
    sessions := ShellSessions.modify service.sessions terminalId fun session =>
      if session.readerFinished = false ∧ session.output.length < channelBufferSize then
        { session with output := session.output ++ [data] }
      else session }

/-- The reader thread of a terminal ends: the shell has exited, or reading failed. -/
def readerEnds (terminalId : Int) (service : ShellService) : ShellService :=
  { service with
    sessions := ShellSessions.modify service.sessions terminalId
      ({ · with readerFinished := true }) }

end ShellService

/-! ## A service over time -/

/-- The service under one id, if there is one, the number of shells that were started, and all
answers, oldest first. -/
structure TerminalHost where
  service : Option ShellService
  started : Nat
  sent : List ShellResponse

namespace TerminalHost

inductive Event
  | connect (serviceId : String) (isPersistent : Bool) (others : Nat)
  | disconnect
  | cleanup
  | setPersistent (isPersistent : Bool)
  | action (action : TerminalAction) (io : ActionIo)
  | readOutputs (io : OutputIo)
  | shellWrites (terminalId : Int) (data : List UInt8)
  | readerEnds (terminalId : Int)

/-- `get_or_create_service`, beside this many other services. -/
def connect (s : TerminalHost) (serviceId : String) (isPersistent : Bool) (others : Nat) :
    TerminalHost :=
  match s.service with
  | some service => { s with service := some (service.resetStatus isPersistent) }
  | none =>
    if maxServices ≤ others then s
    else { s with service := some ((ShellService.new serviceId isPersistent).resetStatus isPersistent) }

/-- `on_disconnect`. -/
def disconnect (s : TerminalHost) : TerminalHost :=
  match s.service with
  | some service => if service.isPersistent then s else { s with service := none }
  | none => s

/-- `cleanup_inactive_services`, when the service has been idle for long. -/
def cleanup (s : TerminalHost) : TerminalHost :=
  match s.service with
  | some service =>
    if service.isPersistent ∧ service.sessions.keys ≠ [] then s else { s with service := none }
  | none => s

/-- Every `handle_action` counts as a shell of its own. -/
def handleAction (s : TerminalHost) (io : ActionIo) (action : TerminalAction) : TerminalHost :=
  match s.service with
  | some service =>
    let (answer, service) := service.handleAction io s.started action
    { service := some service
      started := s.started + 1
      sent := s.sent ++ ((answer.toOption.bind id).toList) }
  | none => s

def readOutputs (s : TerminalHost) (io : OutputIo) : TerminalHost :=
  match s.service with
  | some service =>
    let (answers, service) := service.readOutputs io
    { s with service := some service, sent := s.sent ++ answers }
  | none => s

def next (s : TerminalHost) : Event → TerminalHost
  | .connect serviceId isPersistent others => s.connect serviceId isPersistent others
  | .disconnect => s.disconnect
  | .cleanup => s.cleanup
  | .setPersistent isPersistent =>
    { s with service := s.service.map ({ · with isPersistent := isPersistent }) }
  | .action action io => s.handleAction io action
  | .readOutputs io => s.readOutputs io
  | .shellWrites terminalId data =>
    { s with service := s.service.map (·.shellWrites terminalId data) }
  | .readerEnds terminalId => { s with service := s.service.map (·.readerEnds terminalId) }

def system : System TerminalHost Event where
  init s := s = ⟨none, 0, []⟩
  step s a s' := s.next a = s'

end TerminalHost

end HopToDesk.Host

/-!
## The cleanup of terminal services

The registry of terminal services over time. A service remembers when it last handled an action, and
a cleanup thread goes through the registry every five minutes: it notes the services that have been
idle for long, lets the registry go, and then removes them one after the other. Connections, readers
and shells go on meanwhile. One thread does all the cleanups, so a cleanup begins when the one
before it is done.

A session has a time of its own, set by input and by output that was read. Nothing looks at it, and
it is left out.
-/

namespace HopToDesk.Host

open Kit TerminalServices

/-- `PersistentTerminalService`, with the time of its last action. -/
structure TimedService extends ShellService where
  lastActivity : Nat

abbrev TimedServices := AList fun _ : String => TimedService

/-- `SERVICE_IDLE_TIMEOUT`, in nanoseconds. -/
def serviceIdleTimeout : Nat := 3600 * 10 ^ 9

namespace TimedService

/-- `PersistentTerminalService::new`. -/
def new (serviceId : String) (isPersistent : Bool) (now : Nat) : TimedService :=
  ⟨ShellService.new serviceId isPersistent, now⟩

/-- What the service does, apart from its time. -/
def onShells (f : ShellService → ShellService) (service : TimedService) : TimedService :=
  { service with toShellService := f service.toShellService }

/-- `handle_action`, of the service it finds: `update_activity`, and then the action. -/
def handleAction (io : ActionIo) (shell now : Nat) (action : TerminalAction)
    (service : TimedService) : TimedService :=
  ⟨(service.toShellService.handleAction io shell action).2, now⟩

/-- `cleanup_inactive_services` notes it for removal. -/
def isInactive (now : Nat) (service : TimedService) : Bool :=
  if !service.isPersistent && decide (now - service.lastActivity > serviceIdleTimeout) then true
  else service.isPersistent && service.sessions.entries.isEmpty &&
    decide (now - service.lastActivity > serviceIdleTimeout * 2)

end TimedService

namespace TimedServices

/-- The service with this id, if there is one, is changed in place. -/
def modify (services : TimedServices) (serviceId : String) (f : TimedService → TimedService) :
    TimedServices :=
  mapValues (fun id service => if id = serviceId then f service else service) services

/-- `get_or_create_service`. It leaves the registry as it is where it fails. -/
def getOrCreateService (services : TimedServices) (serviceId : String) (isPersistent : Bool)
    (now : Nat) : TimedServices :=
  if serviceId ∈ services then
    services.modify serviceId (·.onShells (·.resetStatus isPersistent))
  else if services.entries.length ≥ maxServices then services
  else
    services.insert serviceId
      ((TimedService.new serviceId isPersistent now).onShells (·.resetStatus isPersistent))

/-- `on_disconnect`, and the end of `run`. -/
def onDisconnect (services : TimedServices) (serviceId : String) : TimedServices :=
  match services.lookup serviceId with
  | some service => if service.isPersistent then services else services.erase serviceId
  | none => services

/-- `to_remove`. -/
def inactive (services : TimedServices) (now : Nat) : List String :=
  (services.entries.filter fun x => x.2.isInactive now).map Sigma.fst

end TimedServices

/-- `TERMINAL_SERVICES`, the time, what the cleanup under way has still to remove, the number of
shells that were started and those that have exited. -/
structure TerminalCleanup where
  now : Nat
  services : TimedServices
  toRemove : List String
  started : Nat
  exited : List Nat

namespace TerminalCleanup

inductive Event
  | tick (elapsed : Nat)
  | connect (serviceId : String) (isPersistent : Bool)
  | setPersistent (serviceId : String) (isPersistent : Bool)
  | disconnect (serviceId : String)
  | action (serviceId : String) (action : TerminalAction) (io : ActionIo)
  | readOutputs (serviceId : String) (io : OutputIo)
  | shellWrites (serviceId : String) (terminalId : Int) (data : List UInt8)
  | shellExits (shell : Nat)
  | readerEnds (serviceId : String) (terminalId : Int)
  | cleanup
  | removeService (serviceId : String)

def start : TerminalCleanup := ⟨0, ∅, [], 0, []⟩

def modify (s : TerminalCleanup) (serviceId : String) (f : TimedService → TimedService) :
    TerminalCleanup :=
  { s with services := s.services.modify serviceId f }

/-- The loop of `cleanup_inactive_services`, and `remove_service`, are steps of their own. The order
in which the services are removed is that of a hash map: any. -/
def next (s : TerminalCleanup) : Event → Option TerminalCleanup
  | .tick elapsed => some { s with now := s.now + elapsed }
  | .connect serviceId isPersistent =>
    some { s with services := s.services.getOrCreateService serviceId isPersistent s.now }
  | .setPersistent serviceId isPersistent =>
    some (s.modify serviceId (·.onShells ({ · with isPersistent := isPersistent })))
  | .disconnect serviceId => some { s with services := s.services.onDisconnect serviceId }
  | .action serviceId action io =>
    some { s.modify serviceId (·.handleAction io s.started s.now action) with
      started := s.started + 1 }
  | .readOutputs serviceId io =>
    some (s.modify serviceId (·.onShells fun service => (service.readOutputs io).2))
  | .shellWrites serviceId terminalId data =>
    some (s.modify serviceId (·.onShells (·.shellWrites terminalId data)))
  | .shellExits shell => some { s with exited := shell :: s.exited }
  | .readerEnds serviceId terminalId =>
    some (s.modify serviceId (·.onShells (·.readerEnds terminalId)))
  | .cleanup =>
    if s.toRemove = [] then some { s with toRemove := s.services.inactive s.now } else none
  | .removeService serviceId =>
    if serviceId ∈ s.toRemove then
      some { s with
        services := s.services.erase serviceId
        toRemove := s.toRemove.erase serviceId }
    else none

def system : System TerminalCleanup Event := .stepping (· = start) next

end TerminalCleanup

end HopToDesk.Host
