import HopToDesk.Kit.Fallible
import HopToDesk.Wire.FramedStream

/-!
# What the handshake speaks

The messages of the key exchange, the primitives it uses, and a stream as the two parties of it use
one: waiting for a frame or for a send to go through, at most so long.

The protobuf code is generated and the primitives are a library, so both are parameters (`Proto`,
`Sodium`). Of the many messages the protocol has, the variants the handshake looks for are kept
apart, and the rest are one (`other`).
-/

set_option autoImplicit false

namespace HopToDesk.Handshake

open Kit HopToDesk.Wire

/-- `[u8; n]`. -/
abbrev Fixed (n : Nat) := { bytes : Bytes // bytes.length = n }

/-- `secretbox::Key`, `sign::PublicKey`, `box_::PublicKey` and `box_::SecretKey`. -/
abbrev SecretboxKey := Fixed 32
abbrev SignPublicKey := Fixed 32
abbrev SignSecretKey := Fixed 64
abbrev BoxPublicKey := Fixed 32
abbrev BoxSecretKey := Fixed 32

/-- `get_pk`, and the length checks that do the same. -/
def toFixed (n : Nat) (bytes : Bytes) : Option (Fixed n) :=
  if h : bytes.length = n then some ⟨bytes, h⟩ else none

structure IdPk where
  id : String
  pk : Bytes
deriving DecidableEq, Repr

/-- `misc::Union`. -/
inductive MiscUnion
  | chatMessage (text : String)
  | unauthenticatedInitialPublicKeyResponse (unauthenticatedInitialPublicKey : Bytes)
  | other
deriving DecidableEq, Repr

/-- `message::Union`. -/
inductive MessageUnion
  | signedId (id : Bytes)
  | publicKey (asymmetricValue symmetricValue : Bytes)
  | misc (union : Option MiscUnion)
  | other
deriving DecidableEq, Repr

structure Message where
  union : Option MessageUnion
deriving DecidableEq, Repr

def Message.new : Message := ⟨none⟩

/-- `DIRECT_INITIAL_PUBLIC_KEY_REQUEST_TAG`. -/
def requestTag : String := "E"

/-- `set_direct_initial_public_key_request`, on a new message. -/
def directInitialPublicKeyRequest : Message := ⟨some (.misc (some (.chatMessage requestTag)))⟩

def isDirectInitialPublicKeyRequest (msg : Message) : Bool :=
  match msg.union with
  | some (.misc (some (.chatMessage s))) => s == requestTag
  | _ => false

/-- The generated protobuf code: `parse_from_bytes` and `write_to_bytes`. -/
structure Proto where
  parseMessage : Bytes → Option Message
  writeMessage : Message → Option Bytes
  parseIdPk : Bytes → Option IdPk
  writeIdPk : IdPk → Option Bytes

/-- The primitives: `sign`, `box_`, and the key agreement of the security code. -/
structure Sodium where
  sign : Bytes → SignSecretKey → Bytes
  verify : Bytes → SignPublicKey → Option Bytes
  boxSeal : Bytes → Bytes → BoxPublicKey → BoxSecretKey → Bytes
  boxOpen : Bytes → Bytes → BoxPublicKey → BoxSecretKey → Option Bytes
  diffieHellman : BoxSecretKey → BoxPublicKey → Fixed 32

/-- `box_::Nonce([0u8; box_::NONCEBYTES])`. -/
def zeroNonce : Bytes := List.replicate 24 0

/-- `format!("{:0>5} ", v)`. -/
def fiveDigits (v : Nat) : String :=
  let digits := toString v
  String.ofList (List.replicate (5 - digits.length) '0') ++ digits ++ " "

/-- `compute_security_code`. -/
def computeSecurityCode (na : Sodium) (ownPrivateKey : BoxSecretKey)
    (peerPublicKey : BoxPublicKey) : String :=
  let secretVec := (na.diffieHellman ownPrivateKey peerPublicKey).1
  (List.range 16).foldl (fun result i =>
    let v := (secretVec.getD (i * 2) 0).toNat <<< 8 ||| (secretVec.getD (i * 2 + 1) 0).toNat
    result ++ fiveDigits v) ""

/-- What went wrong: an elapsed wait, an error of the stream, an error with a text of its own, or a
slice copied to an array of another length, which panics. -/
inductive HandshakeError
  | elapsed
  | io (err : IoError)
  | bail (text : String)
  | panic
deriving DecidableEq, Repr

/-- What a party did, in order. -/
inductive Event
  | sent (msg : Message)
  | took (frame : Bytes)
  | peeked (frame : Bytes)
  | boxSealed (plain nonce : Bytes) (theirPk : BoxPublicKey) (ourSk : BoxSecretKey)
  | keySet (key : SecretboxKey)
deriving DecidableEq, Repr

/-- The call of `box_::seal` an event records. -/
def Event.boxSeal? : Event → Option (Bytes × BoxPublicKey)
  | .boxSealed plain _ theirPk _ => some (plain, theirPk)
  | _ => none

/-- A stream in use: what the waits for frames and for sends will come to, and what has been done.
`none` is a wait that elapses. -/
structure Conn where
  stream : FramedStream SecretboxKey
  recvs : List (Option Arrival)
  sends : List (Option (Except IoError Unit))
  events : List Event

abbrev Step := Fallible Conn HandshakeError

namespace Conn

def new (recvs : List (Option Arrival)) (sends : List (Option (Except IoError Unit))) : Conn :=
  { stream := .new, recvs, sends, events := [] }

def record (e : Event) : Step Unit :=
  Fallible.modify fun c => { c with events := c.events ++ [e] }

/-- `stream.send(msg)`, when the transport answers `res`. -/
def sendOutcome (proto : Proto) (msg : Message) (res : Except IoError Unit) (c : Conn) :
    Except IoError Unit × Conn :=
  match proto.writeMessage msg with
  | none => (.error ⟨.other, "write_to_bytes"⟩, c)
  | some bytes => (res, { c with stream := (c.stream.sendRaw bytes).1 })

/-- `timeout(CONNECT_TIMEOUT, conn.send(msg)).await`. -/
def sendWithin (proto : Proto) (msg : Message) : Step (Option (Except IoError Unit)) := fun c =>
  let rest := { c with events := c.events ++ [.sent msg], sends := c.sends.tail }
  match c.sends.head?.join with
  | none => (.ok none, rest)
  | some res =>
    let (res, rest) := sendOutcome proto msg res rest
    (.ok (some res), rest)

/-- `timeout(CONNECT_TIMEOUT, conn.send(msg)).await??`. -/
def send (proto : Proto) (msg : Message) : Step Unit := do
  match ← sendWithin proto msg with
  | none => .fail .elapsed
  | some (.error err) => .fail (.io err)
  | some (.ok ()) => pure ()

/-- `conn.send(msg).await?`, which waits as long as it takes. -/
def sendUntimed (proto : Proto) (msg : Message) : Step Unit := do
  match ← sendWithin proto msg with
  | some (.error err) => .fail (.io err)
  | _ => pure ()

/-- `timeout(CONNECT_TIMEOUT, conn.next()).await`. -/
def nextWithin (box : Secretbox SecretboxKey) : Step (Option Arrival) := fun c =>
  let (res, recvs) :=
    match c.stream.peekBuffer with
    | some _ => (some none, c.recvs)
    | none => (c.recvs.head?.join, c.recvs.tail)
  match res with
  | none => (.ok none, { c with recvs })
  | some res =>
    let (stream, given) := c.stream.next box res
    let events := match given with
      | some (.ok frame) => c.events ++ [.took frame]
      | _ => c.events
    (.ok (some given), { c with stream, recvs, events })

/-- `timeout(CONNECT_TIMEOUT, conn.peek()).await`. -/
def peekWithin (box : Secretbox SecretboxKey) : Step (Option Arrival) := fun c =>
  let (res, recvs) :=
    match c.stream.peekBuffer with
    | some _ => (some none, c.recvs)
    | none => (c.recvs.head?.join, c.recvs.tail)
  match res with
  | none => (.ok none, { c with recvs })
  | some res =>
    let (stream, given) := c.stream.peek box res
    let events := match given with
      | some (.ok frame) => c.events ++ [.peeked frame]
      | _ => c.events
    (.ok (some given), { c with stream, recvs, events })

/-- `conn.set_key(key)`. -/
def setKey (key : SecretboxKey) : Step Unit :=
  Fallible.modify fun c =>
    { c with stream := c.stream.setKey key, events := c.events ++ [.keySet key] }

/-- `box_::seal(plain, nonce, their_pk, our_sk)`. -/
def boxSeal (na : Sodium) (plain nonce : Bytes) (theirPk : BoxPublicKey) (ourSk : BoxSecretKey) :
    Step Bytes := do
  record (.boxSealed plain nonce theirPk ourSk)
  pure (na.boxSeal plain nonce theirPk ourSk)

end Conn

end HopToDesk.Handshake
