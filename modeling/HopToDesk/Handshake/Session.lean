import HopToDesk.Handshake.Message

/-!
# The handshake, at the client

`Client::secure_connection` of `src/client.rs`, with `get_initial_public_key_for_handshake` and
`decode_id_pk`. The client waits for the peer's signed id, finds the key to verify it with (from
the signal server, else from the stored config of the peer, else by asking the peer), and seals a
session key to the box key it finds inside. When the signed id does not verify, it asks the peer
for its key and tries once more with that.

`id_pk` is what the signal server gave, `stored` the `public_key` of `PeerConfig::load(peer_id)`;
the fresh keys `box_::gen_keypair` and `secretbox::gen_key` give are arguments.
-/

set_option autoImplicit false

namespace HopToDesk.Handshake

open Kit HopToDesk.Wire

/-- `decode_id_pk`. -/
def decodeIdPk (proto : Proto) (na : Sodium) (signed : Bytes) (key : SignPublicKey) :
    Except HandshakeError (String × BoxPublicKey) :=
  match na.verify signed key with
  | none => .error (.bail "Signature mismatch")
  | some plain =>
    match proto.parseIdPk plain with
    | none => .error (.bail "protobuf")
    | some res =>
      match toFixed 32 res.pk with
      | some pk => .ok (res.id, pk)
      | none => .error (.bail "Wrong public length")

/-- The key in a frame that answers the request for one. -/
def keyResponse (proto : Proto) (bytes : Bytes) : Option Bytes :=
  match proto.parseMessage bytes with
  | some ⟨some (.misc (some (.unauthenticatedInitialPublicKeyResponse key)))⟩ => some key
  | _ => none

/-- `get_initial_public_key_for_handshake`. -/
def getInitialPublicKeyForHandshake (proto : Proto) (box : Secretbox SecretboxKey)
    (idPk stored : Bytes) : Step (Option SignPublicKey) :=
  match toFixed 32 idPk with
  | some pk => pure (some pk)
  | none =>
    match toFixed 32 stored with
    | some pk => pure (some pk)
    | none => do
      Conn.send proto directInitialPublicKeyRequest
      match ← Conn.peekWithin box with
      | none => .fail .elapsed
      | some (some (.error err)) => .fail (.io err)
      | some (some (.ok bytes)) =>
        match keyResponse proto bytes with
        | some key =>
          -- `copy_from_slice` into a `[u8; 32]`
          match toFixed 32 key with
          | some pk => pure (some pk)
          | none => .fail .panic
        | none => pure none
      | some none => pure none

/-- The second attempt: ask the peer for its key, and decode the signed id with what it answers. -/
def retryWithPeerKey (proto : Proto) (na : Sodium) (box : Secretbox SecretboxKey)
    (signed : Bytes) (decoded : Except HandshakeError (String × BoxPublicKey)) :
    Step (Except HandshakeError (String × BoxPublicKey)) := do
  match ← Conn.sendWithin proto directInitialPublicKeyRequest with
  | none => pure decoded
  | some _ =>
    match ← Conn.nextWithin box with
    | some (some (.ok bytes)) =>
      match keyResponse proto bytes with
      | some key =>
        match toFixed 32 key with
        | some fresh => pure (decodeIdPk proto na signed fresh)
        | none => pure decoded
      | none => pure decoded
    | _ => pure decoded

/-- The rest, with the outcome of decoding the signed id. -/
def finishHandshake (proto : Proto) (na : Sodium) (peerId : String)
    (genKeypair : BoxPublicKey × BoxSecretKey) (genKey : SecretboxKey)
    (decoded : Except HandshakeError (String × BoxPublicKey)) : Step (String × String) :=
  match decoded with
  | .ok (id, theirPkB) =>
    if id = peerId then do
      let (ourPkB, outSkB) := genKeypair
      let sealedKey ← Conn.boxSeal na genKey.1 zeroNonce theirPkB outSkB
      Conn.send proto ⟨some (.publicKey ourPkB.1 sealedKey)⟩
      Conn.setKey genKey
      pure (computeSecurityCode na outSkB theirPkB, "")
    else do
      Conn.sendUntimed proto .new
      pure ("", "")
  | .error _ => do
    let _ ← Conn.sendWithin proto ⟨some (.publicKey [] [])⟩
    .fail (.bail "encrypted handshake failed: peer identity could not be verified")

/-- `secure_connection`: the security numbers and the avatar image. -/
def secureConnection (proto : Proto) (na : Sodium) (box : Secretbox SecretboxKey)
    (genKeypair : BoxPublicKey × BoxSecretKey) (genKey : SecretboxKey)
    (peerId : String) (idPk stored : Bytes) : Step (String × String) := do
  match ← Conn.nextWithin box with
  | none => .fail .elapsed
  | some none => .fail (.bail "Connection lost")
  | some (some (.error err)) => .fail (.io err)
  | some (some (.ok bytes)) =>
    match proto.parseMessage bytes with
    | some ⟨some (.signedId signed)⟩ =>
      match ← getInitialPublicKeyForHandshake proto box idPk stored with
      | none => do
        Conn.sendUntimed proto .new
        pure ("", "")
      | some signPk => do
        let decoded := decodeIdPk proto na signed signPk
        let decoded ← match decoded with
          | .ok _ => pure decoded
          | .error _ => retryWithPeerKey proto na box signed decoded
        finishHandshake proto na peerId genKeypair genKey decoded
    | _ => do
      Conn.sendUntimed proto .new
      pure ("", "")

end HopToDesk.Handshake

/-!
## The handshake, at the server

The key exchange at the head of `create_tcp_connection` in `src/server.rs`, with
`process_client_public_key_message` and `next_message_for_handshake`. The server signs its id
together with a fresh box key, answers a request for its signing key if one comes, and takes its
session key from the client's message.

`peer_id` is `Config::get_id()`, or the LAN address on a direct connection; `sk` and `initial_pk`
are `Config::get_key_pair()`.
-/

namespace HopToDesk.Handshake

open Kit HopToDesk.Wire

/-- `process_client_public_key_message`: the session key with the security numbers, or none when
the client falls back to an unsecured stream. -/
def processClientPublicKeyMessage (na : Sodium) (asymmetricValue symmetricValue : Bytes)
    (ourSkB : BoxSecretKey) : Except HandshakeError (Option (SecretboxKey × String)) :=
  match toFixed 32 asymmetricValue with
  | some theirPkB =>
    match na.boxOpen symmetricValue zeroNonce theirPkB ourSkB with
    | none => .error (.bail "Handshake failed: box decryption failure")
    | some symmetricKey =>
      match toFixed 32 symmetricKey with
      | some key => .ok (some (key, computeSecurityCode na ourSkB theirPkB))
      | none => .error (.bail "Handshake failed: invalid secret key length from peer")
  | none =>
    if asymmetricValue.isEmpty then .ok none
    else .error (.bail "Handshake failed: invalid public sign key length from peer")

/-- `next_message_for_handshake`. -/
def nextMessageForHandshake (proto : Proto) (box : Secretbox SecretboxKey) : Step Message := do
  match ← Conn.nextWithin box with
  | none => .fail .elapsed
  | some (some (.ok bytes)) =>
    match proto.parseMessage bytes with
    | some msgIn => pure msgIn
    | none => .fail (.bail "Handshake failed: invalid message format")
  | some _ => .fail (.bail "Handshake failed: invalid message format")

/-- What the server does with a message that should carry the client's key: the security
numbers. -/
def takeClientKey (na : Sodium) (ourSkB : BoxSecretKey) (msgIn : Message) : Step String :=
  match msgIn.union with
  | some (.publicKey asymmetricValue symmetricValue) => do
    match ← Fallible.ofExcept
      (processClientPublicKeyMessage na asymmetricValue symmetricValue ourSkB) with
    | some (key, securityNumbers) => do
      Conn.setKey key
      pure securityNumbers
    | none => pure ""
  | _ => pure ""

/-- The signed id the server opens with. -/
def signedIdMessage (proto : Proto) (na : Sodium) (peerId : String) (ourPkB : BoxPublicKey)
    (sk : SignSecretKey) : Message :=
  ⟨some (.signedId (na.sign ((proto.writeIdPk ⟨peerId, ourPkB.1⟩).getD []) sk))⟩

/-- The key exchange of `create_tcp_connection`: the security numbers. -/
def serverHandshake (proto : Proto) (na : Sodium) (box : Secretbox SecretboxKey)
    (genKeypair : BoxPublicKey × BoxSecretKey) (secure : Bool) (peerId : String)
    (sk initialPk : Bytes) : Step String :=
  match secure, toFixed 32 initialPk, toFixed 64 sk with
  | true, some _, some sk => do
    let (ourPkB, ourSkB) := genKeypair
    Conn.send proto (signedIdMessage proto na peerId ourPkB sk)
    let msgIn ← nextMessageForHandshake proto box
    if isDirectInitialPublicKeyRequest msgIn then do
      Conn.send proto
        ⟨some (.misc (some (.unauthenticatedInitialPublicKeyResponse initialPk)))⟩
      let msgIn ← nextMessageForHandshake proto box
      takeClientKey na ourSkB msgIn
    else takeClientKey na ourSkB msgIn
  | _, _, _ => pure ""

end HopToDesk.Handshake

/-!
## Two parties over an honest network

Each party runs its handshake and goes on using its stream: it sends messages and asks for them. The
network between them is honest and keeps the order. What comes in at one end is what was written at
the other, with waits that elapse in between; the stream ends only when all of it has come in.

`clientUses` and `serverUses` are what the parties do with their streams after their handshakes, as
far as they get. A message is its bytes. The transport takes every frame the codec makes.
-/

namespace HopToDesk.Handshake

open Kit HopToDesk.Wire

/-! ### One party -/

/-- The message an event put on the wire. -/
def Event.sent? : Event → Option Message
  | .sent msg => some msg
  | _ => none

/-- The messages that were sent. -/
def Conn.said (c : Conn) : List Message := c.events.filterMap Event.sent?

/-- The frames of them. -/
def Conn.wrote (proto : Proto) (c : Conn) : List Bytes := c.said.filterMap proto.writeMessage

inductive Use
  | send (msg : Bytes)
  | next
deriving DecidableEq, Repr

/-- The message a use is to send. -/
def Use.message? : Use → Option Bytes
  | .send msg => some msg
  | .next => none

/-- A stream in use after the handshake: the messages whose `send` returned `Ok`, their frames, and
what `next` gave. -/
structure Session where
  conn : Conn
  sent : List Bytes
  wrote : List Bytes
  got : List (Except IoError Bytes)

namespace Session

def start (conn : Conn) : Session := { conn, sent := [], wrote := [], got := [] }

/-- `conn.send_raw(msg)`: the codec may refuse the frame. -/
def send (box : Secretbox SecretboxKey) (self : Session) (msg : Bytes) : Session :=
  let (stream, out) := self.conn.stream.sendRaw msg
  let frame := out.bytes box
  let conn := { self.conn with stream }
  match stream.codec.encode frame [] with
  | .ok _ => { self with conn, sent := self.sent ++ [msg], wrote := self.wrote ++ [frame] }
  | .error _ => { self with conn }

/-- `conn.next()`, for as long as one waits. -/
def next (box : Secretbox SecretboxKey) (self : Session) : Session :=
  match Conn.nextWithin box self.conn with
  | (.ok (some (some res)), conn) => { self with conn, got := self.got ++ [res] }
  | (_, conn) => { self with conn }

def step (box : Secretbox SecretboxKey) (self : Session) : Use → Session
  | .send msg => self.send box msg
  | .next => self.next box

def run (box : Secretbox SecretboxKey) (self : Session) (uses : List Use) : Session :=
  uses.foldl (step box) self

end Session

/-! ### The network -/

/-- What comes in is what was written, in order, except for the rest, which is still on the way. -/
inductive Delivered : List (Option Arrival) → List Bytes → List Bytes → Prop
  | nothing (rest : List Bytes) : Delivered [] rest rest
  | elapsed {recvs : List (Option Arrival)} {wrote rest : List Bytes} :
      Delivered recvs wrote rest → Delivered (none :: recvs) wrote rest
  | frame {recvs : List (Option Arrival)} {wrote rest : List Bytes} (frame : Bytes) :
      Delivered recvs wrote rest →
        Delivered (some (some (.ok frame)) :: recvs) (frame :: wrote) rest
  | closed {recvs : List (Option Arrival)} :
      Delivered recvs [] [] → Delivered (some none :: recvs) [] []

/-! ### The two of them -/

/-- What the two parties have and do, and what comes of their waits. -/
structure Meeting where
  proto : Proto
  na : Sodium
  box : Secretbox SecretboxKey
  peerId : String
  idPk : Bytes
  stored : Bytes
  client : BoxPublicKey × BoxSecretKey
  genKey : SecretboxKey
  clientRecvs : List (Option Arrival)
  clientSends : List (Option (Except IoError Unit))
  clientUses : List Use
  serverId : String
  sk : Bytes
  initialPk : Bytes
  server : BoxPublicKey × BoxSecretKey
  serverRecvs : List (Option Arrival)
  serverSends : List (Option (Except IoError Unit))
  serverUses : List Use

namespace Meeting

variable (m : Meeting)

def secureConnection : Except HandshakeError (String × String) × Conn :=
  Handshake.secureConnection m.proto m.na m.box m.client m.genKey m.peerId m.idPk m.stored
    (.new m.clientRecvs m.clientSends)

/-- `create_tcp_connection`, up to `Connection::start`. -/
def createTcpConnection : Except HandshakeError String × Conn :=
  serverHandshake m.proto m.na m.box m.server true m.serverId m.sk m.initialPk
    (.new m.serverRecvs m.serverSends)

/-- The client's stream as the handshake leaves it. -/
def clientConn : Conn := m.secureConnection.2

/-- The server's stream as the handshake leaves it. -/
def serverConn : Conn := m.createTcpConnection.2

def clientSession : Session := (Session.start m.clientConn).run m.box m.clientUses

def serverSession : Session := (Session.start m.serverConn).run m.box m.serverUses

/-- All that the client has put on the wire. -/
def clientWrote : List Bytes := m.clientConn.wrote m.proto ++ m.clientSession.wrote

/-- All that the server has put on the wire. -/
def serverWrote : List Bytes := m.serverConn.wrote m.proto ++ m.serverSession.wrote

end Meeting

end HopToDesk.Handshake
