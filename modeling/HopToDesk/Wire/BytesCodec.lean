import HopToDesk.Kit.Incremental

/-!
# The frame codec

`libs/hbb_common/src/bytes_codec.rs`: the codec under every TCP stream. A frame is a header of one
to four bytes and a body. The two low bits of the first byte are the header's width less one, and
the remaining bits, little-endian over the whole header, are the body's length.

`decode` is a machine with two states: it waits for a header (`head`) or for the rest of a body
whose length it has read (`data n`). It consumes a header before it knows that the body is there,
so a call may answer `None` and still have moved.

Buffers are lists of bytes. `src.reserve` and `buf.reserve` change no content and are not modelled.
-/

set_option autoImplicit false

namespace HopToDesk.Wire

abbrev Bytes := List UInt8

/-- The two `io::ErrorKind`s the codec raises, and the one the cipher raises. -/
inductive ErrorKind
  | invalidData
  | invalidInput
  | other
deriving DecidableEq, Repr

/-- `io::Error::new(kind, text)`. -/
structure IoError where
  kind : ErrorKind
  text : String
deriving DecidableEq, Repr

inductive DecodeState
  | head
  | data (n : Nat)
deriving DecidableEq, Repr

/-- `usize::MAX` on a 64-bit target. -/
def usizeMax : Nat := 2 ^ 64 - 1

structure BytesCodec where
  state : DecodeState
  raw : Bool
  maxPacketLength : Nat
deriving DecidableEq, Repr

namespace BytesCodec

def new : BytesCodec := { state := .head, raw := false, maxPacketLength := usizeMax }

def setRaw (self : BytesCodec) : BytesCodec := { self with raw := true }

def setMaxPacketLength (self : BytesCodec) (n : Nat) : BytesCodec :=
  { self with maxPacketLength := n }

/-- Byte `i` of a buffer as a `usize`; the callers have checked that it is there. -/
def byteAt (src : Bytes) (i : Nat) : Nat := (src.getD i 0).toNat

/-- The width of the header whose first byte is at the front of `src`. -/
def headLen (src : Bytes) : Nat := ((src.getD 0 0 &&& 0x3) + 1).toNat

/-- The header's bytes as one little-endian number, `head_len` of them. -/
def headValue (src : Bytes) : Nat :=
  let headLen := headLen src
  let n := byteAt src 0
  let n := if 1 < headLen then n ||| byteAt src 1 <<< 8 else n
  let n := if 2 < headLen then n ||| byteAt src 2 <<< 16 else n
  if 3 < headLen then n ||| byteAt src 3 <<< 24 else n

/-- `decode_head`: the body length, with the buffer past the header. -/
def decodeHead (self : BytesCodec) (src : Bytes) : Except IoError (Option Nat) × Bytes :=
  if src.isEmpty then (.ok none, src)
  else if src.length < headLen src then (.ok none, src)
  else
    let n := headValue src >>> 2
    if self.maxPacketLength < n then (.error ⟨.invalidData, "Too big packet"⟩, src)
    else (.ok (some n), src.drop (headLen src))

/-- `decode_data`: a body of `n` bytes, when they are all there. -/
def decodeData (n : Nat) (src : Bytes) : Except IoError (Option Bytes) × Bytes :=
  if src.length < n then (.ok none, src) else (.ok (some (src.take n)), src.drop n)

/-- `Decoder::decode`: the answer, with the codec and the buffer as the call leaves them. -/
def decode (self : BytesCodec) (src : Bytes) :
    Except IoError (Option Bytes) × BytesCodec × Bytes :=
  if self.raw then
    if src.isEmpty then (.ok none, self, src) else (.ok (some src), self, [])
  else
    let head : Except IoError (Option Nat) × BytesCodec × Bytes :=
      match self.state with
      | .head =>
        match self.decodeHead src with
        | (.ok (some n), src) => (.ok (some n), { self with state := .data n }, src)
        | (.ok none, src) => (.ok none, self, src)
        | (.error e, src) => (.error e, self, src)
      | .data n => (.ok (some n), self, src)
    match head with
    | (.error e, self, src) => (.error e, self, src)
    | (.ok none, self, src) => (.ok none, self, src)
    | (.ok (some n), self, src) =>
      match decodeData n src with
      | (.ok (some data), src) => (.ok (some data), { self with state := .head }, src)
      | (.ok none, src) => (.ok none, self, src)
      | (.error e, src) => (.error e, self, src)

/-- `put_u8`, `put_u16_le` and `put_u32_le`. -/
def putU8 (buf : Bytes) (v : UInt8) : Bytes := buf ++ [v]
def putU16Le (buf : Bytes) (v : UInt16) : Bytes := buf ++ [v.toUInt8, (v >>> 8).toUInt8]
def putU32Le (buf : Bytes) (v : UInt32) : Bytes :=
  buf ++ [v.toUInt8, (v >>> 8).toUInt8, (v >>> 16).toUInt8, (v >>> 24).toUInt8]

/-- `Encoder::encode`: the buffer with the frame appended. -/
def encode (self : BytesCodec) (data : Bytes) (buf : Bytes) : Except IoError Bytes :=
  if self.raw then .ok (buf ++ data)
  else if data.length ≤ 0x3F then
    .ok (putU8 buf (UInt8.ofNat (data.length <<< 2)) ++ data)
  else if data.length ≤ 0x3FFF then
    .ok (putU16Le buf (UInt16.ofNat (data.length <<< 2) ||| 0x1) ++ data)
  else if data.length ≤ 0x3FFFFF then
    let h := UInt32.ofNat (data.length <<< 2) ||| 0x2
    .ok (putU8 (putU16Le buf (h &&& 0xFFFF).toUInt16) (h >>> 16).toUInt8 ++ data)
  else if data.length ≤ 0x3FFFFFFF then
    .ok (putU32Le buf (UInt32.ofNat (data.length <<< 2) ||| 0x3) ++ data)
  else .error ⟨.invalidInput, "Overflow"⟩

/-- Encode payloads one after the other into one buffer. -/
def encodeAll (self : BytesCodec) : List Bytes → Bytes → Except IoError Bytes
  | [], buf => .ok buf
  | data :: rest, buf => (self.encode data buf).bind (self.encodeAll rest)

end BytesCodec

end HopToDesk.Wire
