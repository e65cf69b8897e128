import HopToDesk.Kit.Tally
import HopToDesk.Kit.Text
import Mathlib.Data.List.AList

/-!
# The codec of a host

All viewers of a host get frames in one codec. Each viewer says what it can decode and what it
prefers; whenever that changes, or the hardware does, `Encoder::update` chooses the codec anew. The
viewers stand in a hash map. Its iteration order is not fixed, and each call names the one it meets.
-/

set_option autoImplicit false

namespace HopToDesk.Host.Codec

open Kit

inductive CodecFormat
  | vp8
  | vp9
  | h264
  | h265
  | unknown
deriving DecidableEq, Repr

inductive PreferCodec
  | auto
  | vp9
  | h264
  | h265
  | vp8
deriving DecidableEq, Repr

/-- A field of an enumeration holds whatever number the peer has sent. -/
abbrev EnumOrUnknown : Type := Int32

namespace PreferCodec

def value : PreferCodec → EnumOrUnknown
  | auto => 0
  | vp9 => 1
  | h264 => 2
  | h265 => 3
  | vp8 => 4

def fromValue (n : EnumOrUnknown) : Option PreferCodec :=
  [auto, vp9, h264, h265, vp8].find? fun p => p.value = n

def enumValueOr (n : EnumOrUnknown) (default : PreferCodec) : PreferCodec :=
  (fromValue n).getD default

end PreferCodec

/-- The fields of `SupportedDecoding` that the choice is made from. -/
structure SupportedDecoding where
  abilityVp9 : Int32 := 0
  abilityH264 : Int32 := 0
  abilityH265 : Int32 := 0
  prefer : EnumOrUnknown := PreferCodec.auto.value
  abilityVp8 : Int32 := 0
deriving DecidableEq

/-- The fields of `SupportedEncoding` that a choice sets. -/
structure SupportedEncoding where
  h264 : Bool := false
  h265 : Bool := false
  vp8 : Bool := false
deriving DecidableEq

/-- What this side has: `enable_vram_option(true)` and `enable_hwcodec_option()`, which are false
where the feature is not built in, the number of encoders that `VRamEncoder::available` lists, the
name of the one that `HwRamEncoder::try_get` finds, and the memory in bytes. -/
structure Machine where
  enableVramOption : Bool
  vramAvailable : CodecFormat → Nat
  enableHwcodecOption : Bool
  hwTryGet : CodecFormat → Option Text
  totalMemory : Nat

namespace Machine

def h264VramEncoding (m : Machine) : Bool :=
  m.enableVramOption && decide (0 < m.vramAvailable .h264)

def h265VramEncoding (m : Machine) : Bool :=
  m.enableVramOption && decide (0 < m.vramAvailable .h265)

/-- `Encoder::supported_encoding`: what this side tells its viewers. -/
def supportedEncoding (m : Machine) : SupportedEncoding where
  vp8 := true
  h264 := (m.enableHwcodecOption && (m.hwTryGet .h264).isSome) || m.h264VramEncoding
  h265 := (m.enableHwcodecOption && (m.hwTryGet .h265).isSome) || m.h265VramEncoding

end Machine

/-! ## What a viewer says -/

/-- `Decoder::supported_decodings`: the decoders for H.264 and H.265 are looked for, those for VP8
and VP9 are always there, and formats whose decoder has failed are taken back. -/
def supportedDecodings (prefer : PreferCodec) (hasH264 hasH265 : Bool)
    (markUnsupported : List CodecFormat) : SupportedDecoding :=
  let decoding : SupportedDecoding := {
    abilityVp8 := 1
    abilityVp9 := 1
    prefer := prefer.value
    abilityH264 := if hasH264 then 1 else 0
    abilityH265 := if hasH265 then 1 else 0 }
  markUnsupported.foldl (fun decoding unsupported =>
    match unsupported with
    | .vp8 => { decoding with abilityVp8 := 0 }
    | .vp9 => { decoding with abilityVp9 := 0 }
    | .h264 => { decoding with abilityH264 := 0 }
    | .h265 => { decoding with abilityH265 := 0 }
    | .unknown => decoding) decoding

/-! ## The choice -/

abbrev PeerDecodings : Type := AList fun _ : Int32 => SupportedDecoding

inductive EncodingUpdate
  | update (id : Int32) (decoding : SupportedDecoding)
  | remove (id : Int32)
  | newOnlyVP9 (id : Int32)
  | check

def EncodingUpdate.apply (decodings : PeerDecodings) : EncodingUpdate → PeerDecodings
  | update id decoding => decodings.insert id decoding
  | remove id => decodings.erase id
  | newOnlyVP9 id => decodings.insert id { abilityVp9 := 1 }
  | check => decodings

/-- The registered decodings. -/
def values (decodings : PeerDecodings) : List SupportedDecoding := decodings.entries.map (·.2)

/-- The order in which the map is iterated. -/
structure IterationOrder where
  arrange : List (Sigma fun _ : Int32 => SupportedDecoding) →
    List (Sigma fun _ : Int32 => SupportedDecoding)
  perm : ∀ entries, (arrange entries).Perm entries

/-- Some peer is registered, and all of them have the ability. -/
def allSupport (ability : SupportedDecoding → Int32) (decodings : List SupportedDecoding) : Bool :=
  decide (0 < decodings.length) && decodings.all fun s => decide (0 < ability s)

section

variable (m : Machine) (decodings : List SupportedDecoding)

def vp8Useable : Bool := allSupport (·.abilityVp8) decodings

def h264VramEncoding : Bool := allSupport (·.abilityH264) decodings && m.h264VramEncoding

def h265VramEncoding : Bool := allSupport (·.abilityH265) decodings && m.h265VramEncoding

def h264HwEncoding : Option Text :=
  if m.enableHwcodecOption then
    if allSupport (·.abilityH264) decodings then m.hwTryGet .h264 else none
  else
    none

def h265HwEncoding : Option Text :=
  if m.enableHwcodecOption then
    if allSupport (·.abilityH265) decodings then m.hwTryGet .h265 else none
  else
    none

def h264Useable : Bool :=
  allSupport (·.abilityH264) decodings &&
    (h264VramEncoding m decodings || (h264HwEncoding m decodings).isSome)

def h265Useable : Bool :=
  allSupport (·.abilityH265) decodings &&
    (h265VramEncoding m decodings || (h265HwEncoding m decodings).isSome)

def usableEncoding : SupportedEncoding where
  vp8 := vp8Useable decodings
  h264 := h264Useable m decodings
  h265 := h265Useable m decodings

/-- The filter on preferences: they are for a usable codec, and VP9 is taken to be one. -/
def canBeMet (prefer : EnumOrUnknown) : Bool :=
  decide (prefer = PreferCodec.vp9.value) ||
    (decide (prefer = PreferCodec.vp8.value) && vp8Useable decodings) ||
    (decide (prefer = PreferCodec.h264.value) && h264Useable m decodings) ||
    (decide (prefer = PreferCodec.h265.value) && h265Useable m decodings)

def preferences : List EnumOrUnknown :=
  (decodings.filter fun s => canBeMet m decodings s.prefer).map (·.prefer)

/-- The most frequent preference, the one met first where several are. -/
def preference : PreferCodec :=
  let mostFrequent := (winner (preferences m decodings)).getD PreferCodec.auto.value
  PreferCodec.enumValueOr mostFrequent .auto

/-- H.265 before H.264 before VP9, and VP8 in its place where there is little memory. -/
def autoCodec : CodecFormat :=
  let autoCodec := if h264Useable m decodings then .h264 else .vp9
  let autoCodec := if h265Useable m decodings then .h265 else autoCodec
  if autoCodec = .vp9 then
    if vp8Useable decodings && decide (m.totalMemory ≤ 4 * 1024 * 1024 * 1024) then .vp8
    else autoCodec
  else
    autoCodec

def negotiate : CodecFormat :=
  match preference m decodings with
  | .vp8 => .vp8
  | .vp9 => .vp9
  | .h264 =>
    if h264VramEncoding m decodings || (h264HwEncoding m decodings).isSome then .h264
    else autoCodec m decodings
  | .h265 =>
    if h265VramEncoding m decodings || (h265HwEncoding m decodings).isSome then .h265
    else autoCodec m decodings
  | .auto => autoCodec m decodings

end

/-- `PEER_DECODINGS`, `ENCODE_CODEC_FORMAT` and `USABLE_ENCODING`. -/
structure Encoder where
  peerDecodings : PeerDecodings
  encodeCodecFormat : CodecFormat
  usableEncoding : Option SupportedEncoding

namespace Encoder

def init : Encoder where
  peerDecodings := ∅
  encodeCodecFormat := .vp9
  usableEncoding := none

def update (m : Machine) (order : IterationOrder) (u : EncodingUpdate) (s : Encoder) : Encoder :=
  let peerDecodings := u.apply s.peerDecodings
  let decodings := (order.arrange peerDecodings.entries).map (·.2)
  { peerDecodings := peerDecodings
    encodeCodecFormat := negotiate m decodings
    usableEncoding := some (Codec.usableEncoding m decodings) }

/-- A call, with what this side has at the time and the order it meets. -/
structure Call where
  machine : Machine
  order : IterationOrder
  update : EncodingUpdate

def call (s : Encoder) (c : Call) : Encoder := s.update c.machine c.order c.update

/-- After these calls. -/
def run (calls : List Call) : Encoder := calls.foldl call init

end Encoder

end HopToDesk.Host.Codec
