import HopToDesk.Kit.System
import HopToDesk.Wire.FramedStream

/-!
# Two endpoints and the network between them

Two framed streams that have installed the same key, and a network in the hands of an attacker. An
endpoint may be given a payload to send, or asked for its next one, in any order; what arrives when
it is asked is the attacker's to choose: a frame of the other side, one from earlier, one of the
endpoint's own, or bytes that no one sent. The one thing it cannot do is forge: a frame that
arrives is opened exactly when one of the two endpoints has sealed it (`Ideal`).

Beside its stream each endpoint carries a record of what has happened to it, which no step of the
stream reads.
-/

set_option autoImplicit false

namespace HopToDesk.Wire.Channel

open Kit

inductive Side
  | a
  | b
deriving DecidableEq, Repr

def Side.other : Side → Side
  | .a => .b
  | .b => .a

/-- A frame the stream took without error: how many frames longer than one byte had arrived by
then, it included, the frame itself, and the payload it gave. -/
structure Accepted where
  seq : Nat
  frame : Bytes
  payload : Bytes
deriving DecidableEq, Repr

def Accepted.long (x : Accepted) : Bool := 1 < x.frame.length

/-- A stream and its record: the payloads given to `send_raw`, what went on the wire for them, the
number of frames longer than one byte that arrived, the frames taken, the payloads `next` handed
over, and whether opening a frame has failed. -/
structure Endpoint (Key : Type) where
  stream : FramedStream Key
  sent : List Bytes
  wire : List (Outgoing Key)
  longs : Nat
  accepted : List Accepted
  delivered : List Bytes
  failed : Bool

namespace Endpoint

variable {Key : Type}

def new (key : Key) : Endpoint Key :=
  { stream := FramedStream.new.setKey key, sent := [], wire := [], longs := 0, accepted := [],
    delivered := [], failed := false }

def sendRaw (self : Endpoint Key) (msg : Bytes) : Endpoint Key :=
  let (stream, out) := self.stream.sendRaw msg
  { self with stream, sent := self.sent ++ [msg], wire := self.wire ++ [out] }

/-- Write down what came of an arrival the stream took from the transport. -/
def record (self : Endpoint Key) (res : Arrival) (given : Arrival) : Endpoint Key :=
  match res with
  | some (.ok frame) =>
    let longs := if frame.length ≤ 1 then self.longs else self.longs + 1
    match given with
    | some (.ok payload) =>
      { self with longs, accepted := self.accepted ++ [⟨longs, frame, payload⟩] }
    | _ => { self with longs, failed := true }
  | _ => self

/-- The record of a request: a populated peek buffer takes nothing from the transport. -/
def recordFresh (self : Endpoint Key) (res : Arrival) (given : Arrival) : Endpoint Key :=
  match self.stream.peekBuffer with
  | some _ => self
  | none => self.record res given

def next (box : Secretbox Key) (self : Endpoint Key) (res : Arrival) : Endpoint Key :=
  let (stream, given) := self.stream.next box res
  let delivered := match given with
    | some (.ok payload) => self.delivered ++ [payload]
    | _ => self.delivered
  { self.recordFresh res given with stream, delivered }

def peek (box : Secretbox Key) (self : Endpoint Key) (res : Arrival) : Endpoint Key :=
  let (stream, given) := self.stream.peek box res
  { self.recordFresh res given with stream }

/-- The calls of `secretbox::seal` the endpoint has made. -/
def sealCalls (self : Endpoint Key) : List (SealCall Key) :=
  self.wire.filterMap Outgoing.sealCall?

/-- The nonces of those calls. -/
def nonces (self : Endpoint Key) : List Bytes := self.sealCalls.map (·.nonce)

/-- The payloads `next` and `peek` have got out of frames longer than one byte. -/
def fromLong (self : Endpoint Key) : List Bytes :=
  (self.accepted.filter Accepted.long).map (·.payload)

end Endpoint

abbrev World (Key : Type) := Side → Endpoint Key

/-- What can happen next. -/
inductive Action
  | sendRaw (side : Side) (msg : Bytes)
  | next (side : Side) (res : Arrival)
  | peek (side : Side) (res : Arrival)

/-- The frame an action brings to a side, if it brings one. -/
def Action.brings : Action → Option (Side × Bytes)
  | .next side (some (.ok frame)) | .peek side (some (.ok frame)) => some (side, frame)
  | _ => none

variable {Key : Type}

def World.step (box : Secretbox Key) (w : World Key) : Action → World Key
  | .sendRaw side msg => Function.update w side ((w side).sendRaw msg)
  | .next side res => Function.update w side ((w side).next box res)
  | .peek side res => Function.update w side ((w side).peek box res)

/-- The attacker does not forge. -/
def World.Unforged (box : Secretbox Key) (key : Key) (w : World Key) (act : Action) : Prop :=
  ∀ side frame, act.brings = some (side, frame) →
    box.Ideal key ((w .a).sealCalls ++ (w .b).sealCalls) frame

/-- Both endpoints install `key` on a new stream, and go on from there. -/
def channel (box : Secretbox Key) (key : Key) : System (World Key) Action :=
  System.guarded (fun _ => Endpoint.new key) (World.Unforged box key) (World.step box)

/-- No frame the action brings to `side` is one that `side` has put on the wire, unless the other
side has put out the same bytes in the same place. -/
def World.NotReflected (box : Secretbox Key) (side : Side) (w : World Key) (act : Action) : Prop :=
  ∀ frame, act.brings = some (side, frame) →
    ∀ i : Nat, (((w side).wire[i]?).map (·.bytes box) = some frame →
      ((w side.other).wire[i]?).map (·.bytes box) = some frame)

end HopToDesk.Wire.Channel
