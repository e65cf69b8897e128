import HopToDesk.Host.Connection
import HopToDesk.Wire.FramedStream

/-!
# Port forwarding

A local port of the client forwarded to a target of the host: `connect_and_login` and `run_forward`
of `src/port_forward.rs` at one end, and at the other the loop of `start` and
`try_port_forward_loop` of `src/server/connection.rs`. Both ends begin with framed messages on one
TCP stream and leave off when the login is through: the stream is set raw, and what is read off the
local application or the target goes on it as it is.

The two ends stand with the bytes on the way between them. Bytes arrive in pieces of any size, and
nothing but the two ends writes on the stream. The rest of what the connection manager and the
services could have the host send is left out: a connection that forwards a port is subscribed to
nothing. `sent` and `read` count the client's messages and are for the statements only.
-/

set_option autoImplicit false

namespace HopToDesk.Forward

open Wire

/-- The messages of a login. -/
inductive Packet
  | hash
  | reply (r : Host.Reply)
  | testDelay
  | message (m : Host.Message)

/-- The secret box, and `write_to_bytes` and `parse_from_bytes` of `Message`. -/
structure Protocol (Key : Type) where
  box : Secretbox Key
  write : Packet → Bytes
  parse : Bytes → Option Packet

/-- Where an end stands: it logs in, it forwards, or it is gone. -/
inductive Phase
  | login
  | forwarding
  | ended
deriving DecidableEq, Repr

variable {Key : Type} (protocol : Protocol Key)

/-! ## The client -/

/-- `LOGIN_ERROR_MAP`, and what it says of trying again. -/
def loginErrorMap : List (String × Bool) :=
  [("Desktop session not ready", true), ("Desktop xsession failed", true),
    ("Desktop session another user login", false), ("Desktop xorg not found", true),
    ("Desktop none", true), ("Desktop session not ready, password empty", true),
    ("Desktop session not ready, password wrong", true), ("No Password Access", true)]

/-- What `handle_login_error` answers. -/
def handleLoginError (err : String) : Bool :=
  if err = "Empty Password" || err = "Wrong Password" || err = "Wrong 2FA Code" ||
      err = "2FA Required" then true
  else (loginErrorMap.lookup err).getD false

structure Client (Key : Type) where
  tcp : Tcp Key
  phase : Phase
  /-- `port_forward` of the login configuration. -/
  portForward : String × Int
  /-- What the local application has written before the login is through. -/
  buffer : Bytes
  sent : Nat

namespace Client

variable (self : Client Key)

/-- `create_login_msg`, which asks for the port whatever else it says. -/
def createLoginMsg (lr : Host.LoginRequest) : Packet :=
  let union := Host.LoginUnion.portForward self.portForward.1 self.portForward.2
  .message (.loginRequest { lr with union := some union })

/-- What a poll gives of a message. -/
def poll : Option Packet :=
  match (self.tcp.next protocol.box).2 with
  | some (.ok bytes) => protocol.parse bytes
  | _ => none

/-- What is sent in answer to a message: `handle_hash` and `handle_test_delay`. -/
def answer (lr : Host.LoginRequest) : Packet → Option Packet
  | .hash => some (self.createLoginMsg lr)
  | .testDelay => some .testDelay
  | _ => none

end Client

/-! ## The server -/

structure Server (Key : Type) where
  tcp : Tcp Key
  phase : Phase
  host : Host.State
  /-- `last_test_delay` is set: a `TestDelay` waits for its answer. -/
  lastTestDelay : Bool
  read : Nat

/-- A turn of the loop of `start`: what it leaves, what it sends, and whether the loop ends. -/
structure Turn (Key : Type) where
  server : Server Key
  sends : List Packet
  leaves : Bool

namespace Server

variable (self : Server Key)

def authorized : Bool := self.host.conn.authorized

/-- `port_forward_socket` is some. -/
def socket : Bool := self.host.conn.portForwardSocket

/-- What a poll gives of a message. -/
def poll : Option Packet :=
  match (self.tcp.next protocol.box).2 with
  | some (.ok bytes) => protocol.parse bytes
  | _ => none

/-- What the connection sends when it comes to be `host`. -/
def replies (host : Host.State) : List Packet :=
  (host.sent.drop self.host.sent.length).map .reply

/-- `on_message`, and whether the loop goes on. -/
def onMessage (out : Host.Outside) : Packet → Host.State × Bool × Bool
  | .testDelay => (self.host, false, true)
  | .message m => ((self.host.onMessage out m).1, self.lastTestDelay, (self.host.onMessage out m).2)
  | _ => (self.host, self.lastTestDelay, true)

/-- A message of the stream. -/
def onPacket (out : Host.Outside) (p : Packet) : Turn Key :=
  let (host, lastTestDelay, goesOn) := self.onMessage out p
  let server := { self with host, lastTestDelay, read := self.read + 1 }
  { server
    sends := self.replies host
    leaves := !goesOn || server.socket && server.authorized && !server.lastTestDelay }

/-- `Data::Authorize`. -/
def onAuthorize (out : Host.Outside) : Turn Key :=
  let host := (self.host.modify ({ · with require2fa := none })).sendLogonResponse out
  let server := { self with host }
  { server, sends := self.replies host, leaves := server.socket }

/-- `test_delay_timer`. -/
def onTestDelayTimer : Turn Key :=
  if !self.lastTestDelay && !(self.socket && self.authorized) then
    { server := { self with lastTestDelay := true }, sends := [.testDelay], leaves := false }
  else { server := self, sends := [], leaves := false }

/-- What follows the loop, up to the loop of `try_port_forward_loop`. -/
def leave : Server Key :=
  if self.socket then { self with tcp := self.tcp.setRaw, phase := .forwarding }
  else { self with phase := .ended }

/-- What is sent when a connection begins: the hash, and each permission that is denied. -/
def opening (host : Host.State) : List Packet :=
  let denied (permission : Host.Permission) (enabled : Bool) : List Packet :=
    if !enabled then [.reply (.permissionInfo permission false)] else []
  .hash :: (denied .keyboard host.conn.keyboard ++ denied .clipboard host.conn.clipboard ++
    denied .audio host.conn.audio ++ denied .file host.conn.file ++
    denied .restart host.conn.restart ++ denied .recording host.conn.recording ++
    denied .blockInput host.conn.blockInput)

end Server

/-! ## The two ends -/

/-- The two ends, the bytes on the way to each, what they have read off the application and the
target, and what they have written to them. -/
structure Tunnel (Key : Type) where
  client : Client Key
  server : Server Key
  toServer : Bytes
  toClient : Bytes
  fromApp : Bytes
  toApp : Bytes
  fromTarget : Bytes
  toTarget : Bytes

inductive Event
  /-- The client polls its stream. The request is for a hash, if there is one. -/
  | clientNext (lr : Host.LoginRequest)
  /-- `Data::Login`: a login, or another try of it. -/
  | uiLogin (lr : Host.LoginRequest)
  /-- `Data::Message`, which is a code of the second factor. -/
  | uiMessage (code : String)
  /-- The local application has written. -/
  | appData (data : Bytes)
  /-- The client stops: a timeout, or the application is gone. -/
  | clientLost
  /-- The server polls its stream. -/
  | serverNext (out : Host.Outside)
  | authorize (out : Host.Outside)
  | testDelayTimer
  /-- The target has written. -/
  | targetData (data : Bytes)
  /-- The server stops: a timeout, or the target is gone. -/
  | serverLost
  /-- Some of the bytes on the way arrive. -/
  | toServerArrives (n : Nat)
  | toClientArrives (n : Nat)

namespace Tunnel

variable (self : Tunnel Key)

def onClient (f : Client Key → Client Key) : Tunnel Key := { self with client := f self.client }

def onServer (f : Server Key → Server Key) : Tunnel Key := { self with server := f self.server }

def clientSend (p : Packet) : Tunnel Key :=
  let (tcp, bytes) := self.client.tcp.sendRaw protocol.box (protocol.write p)
  { self with
    client := { self.client with tcp, sent := self.client.sent + 1 }
    toServer := self.toServer ++ bytes }

def serverSend (p : Packet) : Tunnel Key :=
  let (tcp, bytes) := self.server.tcp.sendRaw protocol.box (protocol.write p)
  { self with server := { self.server with tcp }, toClient := self.toClient ++ bytes }

def clientEnd : Tunnel Key := self.onClient ({ · with phase := .ended })

def serverEnd : Tunnel Key := self.onServer ({ · with phase := .ended })

/-- The login is through: `set_raw`, and what is in the buffer is sent. -/
def clientForward : Tunnel Key :=
  let tcp := self.client.tcp.setRaw
  { self with
    client := { self.client with tcp, phase := .forwarding, buffer := [] }
    toServer := self.toServer ++ tcp.sendBytes self.client.buffer }

/-- A message of the server. -/
def clientOn (lr : Host.LoginRequest) (p : Packet) : Tunnel Key :=
  match self.client.answer lr p with
  | some answer => self.clientSend protocol answer
  | none =>
    match p with
    | .reply (.loginError err) => if handleLoginError err then self else self.clientEnd
    | .reply .loginResponse => self.clientForward
    | _ => self

def clientNext (lr : Host.LoginRequest) : Tunnel Key :=
  let (tcp, arrival) := self.client.tcp.next protocol.box
  let self' := self.onClient ({ · with tcp })
  match self.client.phase, arrival with
  | .login, some (.ok bytes) =>
    match protocol.parse bytes with
    | some p => self'.clientOn protocol lr p
    | none => self'.clientEnd
  | .forwarding, some (.ok bytes) => { self' with toApp := self'.toApp ++ bytes }
  | .ended, _ => self
  | _, some (.error _) => self'.clientEnd
  | _, none => self'

/-- What the user interface has the client send, while it logs in. -/
def fromUi (p : Packet) : Tunnel Key :=
  match self.client.phase with
  | .login => self.clientSend protocol p
  | _ => self

def appData (data : Bytes) : Tunnel Key :=
  match self.client.phase with
  | .login =>
    { self with
      client := { self.client with buffer := self.client.buffer ++ data }
      fromApp := self.fromApp ++ data }
  | .forwarding =>
    { self with
      toServer := self.toServer ++ self.client.tcp.sendBytes data
      fromApp := self.fromApp ++ data }
  | .ended => self

/-- The end of a turn: its messages are sent, and the loop is left or goes on. -/
def endTurn (turn : Turn Key) : Tunnel Key :=
  let self := turn.sends.foldl (·.serverSend protocol ·) (self.onServer fun _ => turn.server)
  if turn.leaves then self.onServer (·.leave) else self

def serverNext (out : Host.Outside) : Tunnel Key :=
  let (tcp, arrival) := self.server.tcp.next protocol.box
  let server := { self.server with tcp }
  let self' := self.onServer fun _ => server
  match self.server.phase, arrival with
  | .login, some (.ok bytes) =>
    match protocol.parse bytes with
    | some p => self'.endTurn protocol (server.onPacket out p)
    | none => self'
  | .forwarding, some (.ok bytes) => { self' with toTarget := self'.toTarget ++ bytes }
  | .ended, _ => self
  | _, some (.error _) => self'.serverEnd
  | _, none => self'

/-- A turn of the loop that no message of the stream causes. -/
def serverTurn (turn : Turn Key) : Tunnel Key :=
  match self.server.phase with
  | .login => self.endTurn protocol turn
  | _ => self

def targetData (data : Bytes) : Tunnel Key :=
  match self.server.phase with
  | .forwarding =>
    { self with
      toClient := self.toClient ++ self.server.tcp.sendBytes data
      fromTarget := self.fromTarget ++ data }
  | _ => self

def toServerArrives (n : Nat) : Tunnel Key :=
  { self with
    server := { self.server with tcp := self.server.tcp.receive (self.toServer.take n) }
    toServer := self.toServer.drop n }

def toClientArrives (n : Nat) : Tunnel Key :=
  { self with
    client := { self.client with tcp := self.client.tcp.receive (self.toClient.take n) }
    toClient := self.toClient.drop n }

def next : Event → Tunnel Key
  | .clientNext lr => self.clientNext protocol lr
  | .uiLogin lr => self.fromUi protocol (self.client.createLoginMsg lr)
  | .uiMessage code => self.fromUi protocol (.message (.auth2fa code))
  | .appData data => self.appData data
  | .clientLost => self.clientEnd
  | .serverNext out => self.serverNext protocol out
  | .authorize out => self.serverTurn protocol (self.server.onAuthorize out)
  | .testDelayTimer => self.serverTurn protocol self.server.onTestDelayTimer
  | .targetData data => self.targetData data
  | .serverLost => self.serverEnd
  | .toServerArrives n => self.toServerArrives n
  | .toClientArrives n => self.toClientArrives n

/-- The two ends after the handshake. -/
def new (key : Option Key) (portForward : String × Int) (host : Host.State) : Tunnel Key where
  client := { tcp := .new key, phase := .login, portForward, buffer := [], sent := 0 }
  server := { tcp := .new key, phase := .login, host, lastTestDelay := false, read := 0 }
  toServer := []
  toClient := []
  fromApp := []
  toApp := []
  fromTarget := []
  toTarget := []

/-- A connection begins. -/
def start (key : Option Key) (portForward : String × Int) (host : Host.State) : Tunnel Key :=
  (Server.opening host).foldl (·.serverSend protocol ·) (new key portForward host)

end Tunnel

end HopToDesk.Forward
