import HopToDesk.Kit.JsonObject

/-!
# Signalling

The messages of `src/rendezvous_messages.rs`, and what `RendezvousMediator::start` does with those
that come from the signal server. A message has no tag: its text is tried as one struct after the
other, and serde overlooks the fields a struct does not have. The strings of a struct are borrowed
from the text.

Binding, sending and connecting succeed here. The health checks and the timer of the loop are left
out, and of a `Listening` what does not say whom it is for.
-/

set_option autoImplicit false

namespace HopToDesk.Host

open Kit Json

/-- The characters of which a `SocketAddr` is displayed. -/
def isAddrChar (c : Char) : Bool := isHexDigit c || c ∈ ['.', ':', '[', ']', '%']

/-- A `SocketAddr`, known by its text. -/
structure SocketAddr where
  text : Text
  ofAddr : text.all isAddrChar = true
deriving DecidableEq

def SocketAddr.fromText (t : Text) : Option SocketAddr :=
  if h : t.all isAddrChar = true then some ⟨t, h⟩ else none

/-! ## Messages -/

/-- `PROTOCOL`. -/
def oneToOne : Text := "one-to-one".toList

def protocolKey : Text := "protocol".toList

def endpointKey : Text := "endpoint".toList

def senderIdKey : Text := "sender_id".toList

def addrKey : Text := "addr".toList

def dataKey : Text := "data".toList

structure ConnectRequest where
  protocol : Text
  endpoint : Text
  senderId : Text

structure RelayConnection where
  protocol : Text
  endpoint : Text
  addr : SocketAddr

structure RelayReady where
  protocol : Text
  endpoint : Text

structure CloseSessions where
  protocol : Text
  endpoint : Text
  data : Text
  senderId : Text

namespace ConnectRequest

def new (endpoint senderId : Text) : ConnectRequest := ⟨oneToOne, endpoint, senderId⟩

def toJson (m : ConnectRequest) : Text :=
  writeObject [(protocolKey, m.protocol), (endpointKey, m.endpoint), (senderIdKey, m.senderId)]

def fromStr (t : Text) : Option ConnectRequest := do
  let fields ← readObject t
  return ⟨← borrowed protocolKey fields, ← borrowed endpointKey fields,
    ← borrowed senderIdKey fields⟩

end ConnectRequest

namespace RelayConnection

def new (endpoint : Text) (addr : SocketAddr) : RelayConnection := ⟨oneToOne, endpoint, addr⟩

def toJson (m : RelayConnection) : Text :=
  writeObject [(protocolKey, m.protocol), (endpointKey, m.endpoint), (addrKey, m.addr.text)]

def fromStr (t : Text) : Option RelayConnection := do
  let fields ← readObject t
  return ⟨← borrowed protocolKey fields, ← borrowed endpointKey fields,
    ← (borrowed addrKey fields).bind SocketAddr.fromText⟩

end RelayConnection

namespace RelayReady

def new (endpoint : Text) : RelayReady := ⟨oneToOne, endpoint⟩

def toJson (m : RelayReady) : Text :=
  writeObject [(protocolKey, m.protocol), (endpointKey, m.endpoint)]

def fromStr (t : Text) : Option RelayReady := do
  let fields ← readObject t
  return ⟨← borrowed protocolKey fields, ← borrowed endpointKey fields⟩

end RelayReady

namespace CloseSessions

def toJson (m : CloseSessions) : Text :=
  writeObject [(protocolKey, m.protocol), (endpointKey, m.endpoint), (dataKey, m.data),
    (senderIdKey, m.senderId)]

def fromStr (t : Text) : Option CloseSessions := do
  let fields ← readObject t
  return ⟨← borrowed protocolKey fields, ← borrowed endpointKey fields, ← borrowed dataKey fields,
    ← borrowed senderIdKey fields⟩

end CloseSessions

/-! ## The loop -/

/-- What comes of a message. -/
inductive SignalAction
  /-- A `Listening` is sent to this endpoint, and a connection accepted. -/
  | listening (endpoint : Text)
  /-- A connection that was made to this relay is served. -/
  | relayed (addr : SocketAddr)
  /-- `close_remote`. -/
  | closeRemote (id : Text)
  /-- `CloseIncoming`, to the connection manager. -/
  | closeIncoming (id : Text)
deriving DecidableEq

/-- What the loop does with the text of a message. -/
inductive Reaction
  | nothing
  | act (action : SignalAction)
  /-- It connects to the relay, and waits for the next message. -/
  | relay (addr : SocketAddr)
  /-- It ends. -/
  | stop

/-- `CloseSessions`, in the loop. -/
def CloseSessions.reaction (m : CloseSessions) : Reaction :=
  match m.data.splitOn ':' with
  | [command, id] =>
    if command = "closeoutgoing".toList then .act (.closeRemote id)
    else if command = "closeincoming".toList then .act (.closeIncoming id)
    else .nothing
  | _ => .nothing

/-- `HEALTHCHECK_ERROR`. -/
def healthcheckError : Text := "You are removed".toList

def reaction (t : Text) : Reaction :=
  match CloseSessions.fromStr t with
  | some m => m.reaction
  | none =>
    match ConnectRequest.fromStr t with
    | some m => .act (.listening m.senderId)
    | none =>
      match RelayConnection.fromStr t with
      | some m => .relay m.addr
      | none => if t = healthcheckError then .stop else .nothing

/-- A message of the signal server: its text, the millisecond in which it arrives, and how long the
loop is busy with it. -/
structure SignalMessage where
  text : Text
  time : Nat
  busy : Nat

/-- The connection to a relay, made for the message of this number, and when it is given up. -/
structure Waiting where
  cause : Nat
  addr : SocketAddr
  deadline : Nat

/-- The loop: how many messages it has taken, and when it was done with the last one. -/
structure SignalLoop where
  running : Bool
  count : Nat
  now : Nat
  waiting : Option Waiting

/-- What was done, while the loop had this message, on behalf of that one. -/
structure SignalOutput where
  cause : Nat
  during : Nat
  action : SignalAction
deriving DecidableEq

namespace SignalLoop

def start : SignalLoop := ⟨true, 0, 0, none⟩

variable (s : SignalLoop) (m : SignalMessage)

/-- The relay that is still waited for when the message arrives. -/
def awaited : Option Waiting := s.waiting.filter fun w => m.time ≤ w.deadline

/-- The loop after the message, but for what is waited for then. -/
def done : SignalLoop :=
  { s with count := s.count + 1, now := max s.now m.time + m.busy, waiting := none }

/-- What the loop does with the next message. While a relay is waited for, every message is taken
for its `RelayReady`. -/
def receive : SignalLoop × Option SignalOutput :=
  match s.awaited m with
  | some w =>
    (s.done m, (RelayReady.fromStr m.text).map fun _ => ⟨w.cause, s.count, .relayed w.addr⟩)
  | none =>
    match reaction m.text with
    | .nothing => (s.done m, none)
    | .act action => (s.done m, some ⟨s.count, s.count, action⟩)
    | .relay addr =>
      ({ s.done m with waiting := some ⟨s.count, addr, (s.done m).now + 10000⟩ }, none)
    | .stop => ({ s.done m with running := false }, none)

/-- What the loop does with the messages. -/
def outputs : SignalLoop → List SignalMessage → List SignalOutput
  | _, [] => []
  | s, m :: ms =>
    if s.running then (s.receive m).2.toList ++ outputs (s.receive m).1 ms else []

end SignalLoop

end HopToDesk.Host
