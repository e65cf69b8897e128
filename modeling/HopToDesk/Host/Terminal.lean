import HopToDesk.Kit.MapValues

/-!
# Terminal services

A registry, shared by all connections, keeps a terminal service for each service id, and a service
its sessions, one for each terminal. A session outlives the connection that opened it when its
service is persistent: another connection names the service id when it logs in, and opens the
session again.
-/

set_option autoImplicit false

namespace HopToDesk.Host

/-- The fields of `TerminalSession` the protocol uses. -/
structure TerminalSession where
  pid : Nat
  rows : Nat
  cols : Nat
  closedMessageSent : Bool
  isOpened : Bool
deriving DecidableEq, Repr

/-- `HashMap<i32, TerminalSession>`. -/
abbrev TerminalSessions := AList fun _ : Int => TerminalSession

/-- `PersistentTerminalService`, without its times. -/
structure PersistentTerminalService where
  serviceId : String
  sessions : TerminalSessions
  isPersistent : Bool
  needsSessionSync : Bool
  isSpecifiedUser : Bool
deriving DecidableEq

/-- `PersistentTerminalService::new`. -/
def PersistentTerminalService.new (serviceId : String) (isPersistent isSpecifiedUser : Bool) :
    PersistentTerminalService :=
  ⟨serviceId, ∅, isPersistent, false, isSpecifiedUser⟩

/-- `reset_status`. -/
def PersistentTerminalService.resetStatus (service : PersistentTerminalService)
    (isPersistent : Bool) : PersistentTerminalService :=
  { service with
    isPersistent := isPersistent
    needsSessionSync := true
    sessions := Kit.mapValues (fun _ session => { session with isOpened := false }) service.sessions }

/-- `TERMINAL_SERVICES`. -/
abbrev TerminalServices := AList fun _ : String => PersistentTerminalService

def maxServices : Nat := 100

namespace TerminalServices

variable (services : TerminalServices)

/-- `get_or_create_service`, or the text of its error. -/
def getOrCreateService (serviceId : String) (isPersistent isSpecifiedUser : Bool) :
    Except String TerminalServices :=
  if serviceId ∉ services ∧ services.entries.length ≥ maxServices then
    .error s!"Maximum number of terminal services ({maxServices}) reached"
  else
    let service := (services.lookup serviceId).getD (.new serviceId isPersistent isSpecifiedUser)
    .ok (services.insert serviceId (service.resetStatus isPersistent))

/-- `remove_service`. The sessions of the service are stopped and go with it. -/
def removeService (serviceId : String) : TerminalServices := services.erase serviceId

/-- The persistence a `TerminalServiceProxy` made now has. -/
def isPersistent (serviceId : String) : Bool :=
  match services.lookup serviceId with
  | some service => service.isPersistent
  | none => false

/-- `TerminalServiceProxy::new` followed by `on_disconnect`. -/
def onDisconnect (serviceId : String) : TerminalServices :=
  if isPersistent services serviceId then services else removeService services serviceId

/-! ## Actions -/

/-- `TerminalAction`. -/
inductive TerminalAction
  | opened (terminalId : Int) (rows cols : Nat)
  | resize (terminalId : Int) (rows cols : Nat)
  | data (terminalId : Int) (data : List UInt8)
  | close (terminalId : Int)
  | other
deriving DecidableEq, Repr

/-- A terminal that is opened, under its id: the one there is, or a new one, where a shell could be
spawned (its process id). -/
def handleOpen (service : PersistentTerminalService) (spawn : Option Nat) (terminalId : Int)
    (rows cols : Nat) : PersistentTerminalService :=
  match service.sessions.lookup terminalId with
  | some session =>
    { service with
      sessions := service.sessions.replace terminalId { session with isOpened := true }
      needsSessionSync := false }
  | none =>
    match spawn with
    | none => service
    | some pid =>
      { service with
        sessions := service.sessions.insert terminalId ⟨pid, rows % 2 ^ 16, cols % 2 ^ 16, false, true⟩
        needsSessionSync := false }

/-- What `handle_action` does to the service it finds. -/
def handleActionOn (service : PersistentTerminalService) (spawn : Option Nat) :
    TerminalAction → PersistentTerminalService
  | .opened terminalId rows cols => handleOpen service spawn terminalId rows cols
  | .resize terminalId rows cols =>
    match service.sessions.lookup terminalId with
    | some session =>
      { service with
        sessions := service.sessions.replace terminalId
          { session with rows := rows % 2 ^ 16, cols := cols % 2 ^ 16 } }
    | none => service
  | .close terminalId => { service with sessions := service.sessions.erase terminalId }
  | .data .. | .other => service

/-- `handle_action`, of a proxy for this service. `spawn` is the process id of the shell, when one
can be started. -/
def handleAction (serviceId : String) (spawn : Option Nat) (action : TerminalAction) :
    TerminalServices :=
  match services.lookup serviceId with
  | none => services
  | some service => services.replace serviceId (handleActionOn service spawn action)

/-- What `read_outputs` does to the session of a terminal whose reader has come to its end. -/
def readOutputsOn (isPersistent : Bool) (service : PersistentTerminalService) (terminalId : Int) :
    PersistentTerminalService :=
  match service.sessions.lookup terminalId with
  | none => service
  | some session =>
    if session.closedMessageSent then service
    else if isPersistent then
      { service with
        sessions := service.sessions.replace terminalId { session with closedMessageSent := true } }
    else { service with sessions := service.sessions.erase terminalId }

/-- `read_outputs`, of a proxy made now. `finished` are the terminals whose reader thread has
ended and whose session is not locked. -/
def readOutputs (serviceId : String) (finished : List Int) : TerminalServices :=
  match services.lookup serviceId with
  | none => services
  | some service =>
    services.replace serviceId (finished.foldl (readOutputsOn service.isPersistent) service)

end TerminalServices

end HopToDesk.Host
