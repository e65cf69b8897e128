import HopToDesk.Kit.SecretBox
import HopToDesk.Wire.BytesCodec

/-!
# The framed stream

`libs/hbb_common/src/tcp.rs`: a stream of frames, enciphered once a key is installed. `Encrypt`
holds the session key and two counters, one for the frames it seals and one for those it opens;
each counter is raised before it is used, and its value, little-endian in the first bytes of a zero
nonce, is the nonce.

`secretbox` is a library and a parameter (`SecretBox`). What `enc` gives back is the call of
`secretbox::seal` it ends in, so that the calls can be counted; `Outgoing.bytes` is the frame the
call makes. What the transport below has to offer when a frame is asked for is an argument
(`Arrival`): nothing more, an error, or a frame. The peer's address and the send timeout decide
nothing here and are left out.
-/

set_option autoImplicit false

namespace HopToDesk.Wire

open Kit

/-- A call of `secretbox::seal`. -/
abbrev SealCall (Key : Type) := SecretBox.Call Key Bytes Bytes

/-- `secretbox::seal` and `secretbox::open`. -/
abbrev Secretbox (Key : Type) := SecretBox Key Bytes Bytes Bytes

/-- `secretbox::NONCEBYTES`. -/
def NONCEBYTES : Nat := 24

/-- `u64::to_le_bytes`. -/
def toLeBytes (n : UInt64) : Bytes :=
  [n.toUInt8, (n >>> 8).toUInt8, (n >>> 16).toUInt8, (n >>> 24).toUInt8,
    (n >>> 32).toUInt8, (n >>> 40).toUInt8, (n >>> 48).toUInt8, (n >>> 56).toUInt8]

/-- `FramedStream::get_nonce`. -/
def getNonce (seqnum : UInt64) : Bytes :=
  toLeBytes seqnum ++ List.replicate (NONCEBYTES - (toLeBytes seqnum).length) 0

/-- `Encrypt(Key, u64, u64)`: the key, the counter of `enc` and the counter of `dec`. -/
structure Encrypt (Key : Type) where
  key : Key
  encSeq : UInt64
  decSeq : UInt64
deriving DecidableEq, Repr

namespace Encrypt

variable {Key : Type}

def new (key : Key) : Encrypt Key := { key, encSeq := 0, decSeq := 0 }

def dec (box : Secretbox Key) (self : Encrypt Key) (bytes : Bytes) :
    Encrypt Key × Except IoError Bytes :=
  if bytes.length ≤ 1 then (self, .ok bytes)
  else
    let self := { self with decSeq := self.decSeq + 1 }
    let nonce := getNonce self.decSeq
    match box.openWith bytes nonce self.key with
    | some res => (self, .ok res)
    | none => (self, .error ⟨.other, "decryption error"⟩)

def enc (self : Encrypt Key) (data : Bytes) : Encrypt Key × SealCall Key :=
  let self := { self with encSeq := self.encSeq + 1 }
  let nonce := getNonce self.encSeq
  (self, { msg := data, nonce, key := self.key })

end Encrypt

/-- What a call of `send_raw` puts on the wire. -/
inductive Outgoing (Key : Type)
  | plain (bytes : Bytes)
  | sealedBy (call : SealCall Key)
deriving DecidableEq, Repr

namespace Outgoing

variable {Key : Type}

def bytes (box : Secretbox Key) : Outgoing Key → Bytes
  | .plain bytes => bytes
  | .sealedBy call => call.frame box

def sealCall? : Outgoing Key → Option (SealCall Key)
  | .plain _ => none
  | .sealedBy call => some call

end Outgoing

/-- What the transport answers when it is asked for a frame. -/
abbrev Arrival := Option (Except IoError Bytes)

structure FramedStream (Key : Type) where
  codec : BytesCodec
  encrypt : Option (Encrypt Key)
  peekBuffer : Option Bytes
deriving DecidableEq, Repr

namespace FramedStream

variable {Key : Type}

/-- `FramedStream::from`, and every other constructor. -/
def new : FramedStream Key := { codec := .new, encrypt := none, peekBuffer := none }

def setRaw (self : FramedStream Key) : FramedStream Key :=
  { self with codec := self.codec.setRaw, encrypt := none }

def isSecured (self : FramedStream Key) : Bool := self.encrypt.isSome

def setKey (self : FramedStream Key) (key : Key) : FramedStream Key :=
  { self with encrypt := some (.new key) }

/-- `send_raw`, up to the frame it hands to the codec. -/
def sendRaw (self : FramedStream Key) (msg : Bytes) : FramedStream Key × Outgoing Key :=
  match self.encrypt with
  | some key =>
    let (key, call) := key.enc msg
    ({ self with encrypt := some key }, .sealedBy call)
  | none => (self, .plain msg)

/-- `next_`: the next frame of the transport, opened when there is a key. -/
def next_ (box : Secretbox Key) (self : FramedStream Key) (res : Arrival) :
    FramedStream Key × Arrival :=
  match res, self.encrypt with
  | some (.ok bytes), some key =>
    let (key, r) := key.dec box bytes
    ({ self with encrypt := some key }, some r)
  | res, _ => (self, res)

/-- `next`: what was peeked at, or else the next frame. -/
def next (box : Secretbox Key) (self : FramedStream Key) (res : Arrival) :
    FramedStream Key × Arrival :=
  match self.peekBuffer with
  | some bytes => ({ self with peekBuffer := none }, some (.ok bytes))
  | none => self.next_ box res

/-- `peek`: the same, and keeps it for the next call. -/
def peek (box : Secretbox Key) (self : FramedStream Key) (res : Arrival) :
    FramedStream Key × Arrival :=
  match self.peekBuffer with
  | some bytes => (self, some (.ok bytes))
  | none =>
    match self.next_ box res with
    | (self, some (.ok bytes)) => ({ self with peekBuffer := some bytes }, some (.ok bytes))
    | (self, some (.error err)) => (self, some (.error err))
    | (self, none) => (self, none)

end FramedStream

end HopToDesk.Wire

/-!
## A framed stream and its bytes

The stream of `tcp.rs` down to the bytes of the connection: what has arrived and is not decoded
stands in the read buffer of `Framed`, and what is sent is the encoded frame. A request is one poll,
which answers nothing while more bytes are needed.
-/

namespace HopToDesk.Wire

structure Tcp (Key : Type) where
  stream : FramedStream Key
  buf : Bytes
deriving DecidableEq

namespace Tcp

variable {Key : Type}

/-- A stream as the handshake leaves it, secured or not. -/
def new (key : Option Key) : Tcp Key where
  stream :=
    match key with
    | some key => FramedStream.new.setKey key
    | none => FramedStream.new
  buf := []

/-- Bytes arrive. -/
def receive (self : Tcp Key) (chunk : Bytes) : Tcp Key := { self with buf := self.buf ++ chunk }

def setRaw (self : Tcp Key) : Tcp Key := { self with stream := self.stream.setRaw }

/-- `next`. -/
def next (box : Secretbox Key) (self : Tcp Key) : Tcp Key × Arrival :=
  match self.stream.peekBuffer with
  | some bytes =>
    ({ self with stream := { self.stream with peekBuffer := none } }, some (.ok bytes))
  | none =>
    match self.stream.codec.decode self.buf with
    | (.ok (some frame), codec, buf) =>
      let (stream, res) := { self.stream with codec }.next_ box (some (.ok frame))
      ({ stream, buf }, res)
    | (.ok none, codec, buf) => ({ stream := { self.stream with codec }, buf }, none)
    | (.error e, codec, buf) => ({ stream := { self.stream with codec }, buf }, some (.error e))

/-- `send_bytes`: what goes on the wire, if the codec takes it. -/
def sendBytes (self : Tcp Key) (data : Bytes) : Bytes :=
  match self.stream.codec.encode data [] with
  | .ok bytes => bytes
  | .error _ => []

/-- `send_raw`. -/
def sendRaw (box : Secretbox Key) (self : Tcp Key) (msg : Bytes) : Tcp Key × Bytes :=
  let (stream, out) := self.stream.sendRaw msg
  let self := { self with stream }
  (self, self.sendBytes (out.bytes box))

end Tcp

end HopToDesk.Wire
