import HopToDesk.Kit.Checked
import HopToDesk.Kit.LittleEndian
import HopToDesk.Wire.BytesCodec
import HopToDesk.Kit.Decimal

/-!
# Mangled addresses

`AddrMangle` of `libs/hbb_common/src/lib.rs`: an address as bytes in which no router finds it. An
IPv4 address and its port are moved by the time they are sent at, which goes with them; an IPv6
address goes as it is.

A `u128` is a natural number here: none that is shifted or added to comes near its end. A
subtraction below zero gives nothing, as it does in a debug build. The clock is a number of
microseconds.
-/

set_option autoImplicit false

namespace HopToDesk.Wire

open Kit

structure Ipv4Addr where
  octets : Bytes
  length_octets : octets.length = 4
deriving DecidableEq

structure Ipv6Addr where
  octets : Bytes
  length_octets : octets.length = 16
deriving DecidableEq

namespace Ipv6Addr

/-- `UNSPECIFIED`. -/
def unspecified : Ipv6Addr := ⟨List.replicate 16 0, List.length_replicate⟩

/-- `is_loopback`: `::1`. -/
def isLoopback (ip : Ipv6Addr) : Bool := ip.octets = List.replicate 15 0 ++ [1]

/-- `to_ipv4`: the address behind one that is mapped (`::ffff:a.b.c.d`) or compatible
(`::a.b.c.d`). -/
def toIpv4 (ip : Ipv6Addr) : Option Ipv4Addr :=
  if ip.octets.take 12 = List.replicate 10 0 ++ [0, 0] ∨
      ip.octets.take 12 = List.replicate 10 0 ++ [255, 255] then
    some ⟨ip.octets.drop 12, by rw [List.length_drop, ip.length_octets]⟩
  else none

end Ipv6Addr

inductive SocketAddr
  | v4 (ip : Ipv4Addr) (port : UInt16)
  | v6 (ip : Ipv6Addr) (port : UInt16) (flowinfo scopeId : UInt32)
deriving DecidableEq

namespace SocketAddr

/-- `try_into_v4`. -/
def tryIntoV4 : SocketAddr → SocketAddr
  | .v4 ip port => .v4 ip port
  | .v6 ip port flowinfo scopeId =>
    if ip.isLoopback then .v6 ip port flowinfo scopeId
    else match ip.toIpv4 with
      | some ip' => .v4 ip' port
      | none => .v6 ip port flowinfo scopeId

/-- `Config::get_any_listen_addr`. -/
def anyListenAddr (isIpv4 : Bool) : SocketAddr :=
  if isIpv4 then .v4 ⟨List.replicate 4 0, List.length_replicate⟩ 0 else .v6 .unspecified 0 0 0

/-- The address without what only its own host knows of it. -/
def unscoped : SocketAddr → SocketAddr
  | .v4 ip port => .v4 ip port
  | .v6 ip port _ _ => .v6 ip port 0 0

end SocketAddr

namespace AddrMangle

/-- `encode`, at a time. -/
def encode (micros : Nat) (addr : SocketAddr) : Bytes :=
  match addr.tryIntoV4 with
  | .v4 ip port =>
    let tm := micros % 2 ^ 32
    let ip := ofLe ip.octets
    let v := ((ip + tm) <<< 49) ||| (tm <<< 17) ||| (port.toNat + (tm &&& 0xFFFF))
    let bytes := toLe 16 v
    let nPadding := (bytes.reverse.takeWhile (· == 0)).length
    bytes.take (16 - nPadding)
  | .v6 ip port _ _ => ip.octets ++ toLe 2 port.toNat

/-- `padded[..bytes.len()].copy_from_slice(bytes)`. -/
def copyFromSlice (padded bytes : Bytes) : Option Bytes :=
  if bytes.length ≤ padded.length then some (bytes ++ padded.drop bytes.length) else none

/-- `decode`. -/
def decode (bytes : Bytes) : Option SocketAddr :=
  if bytes.length > 16 then
    if h : bytes.length = 18 then
      let ip : Ipv6Addr := ⟨bytes.take 16, by rw [List.length_take, h]; rfl⟩
      some (.v6 ip (UInt16.ofNat (ofLe (bytes.drop 16))) 0 0)
    else some (SocketAddr.anyListenAddr false)
  else do
    let padded ← copyFromSlice (List.replicate 16 0) bytes
    let number := ofLe padded
    let tm := (number >>> 17) &&& 0xFFFFFFFF
    let ip ← checkedSub (number >>> 49) tm
    let port ← checkedSub (number &&& 0xFFFFFF) (tm &&& 0xFFFF)
    some (.v4 ⟨toLe 4 ip, length_toLe 4 ip⟩ (UInt16.ofNat port))

/-- What `decode` makes of a number of at most 16 bytes. -/
def decodeNumber (number : Nat) : Option SocketAddr := do
  let tm := (number >>> 17) &&& 0xFFFFFFFF
  let ip ← checkedSub (number >>> 49) tm
  let port ← checkedSub (number &&& 0xFFFFFF) (tm &&& 0xFFFF)
  some (.v4 ⟨toLe 4 ip, length_toLe 4 ip⟩ (UInt16.ofNat port))

end AddrMangle

end HopToDesk.Wire

/-!
## Version numbers

`get_version_number` of `libs/hbb_common/src/lib.rs`: the number by which what the other side runs
is compared. The components are digits of base 1000, and one that is no number is zero. An operation
that overflows gives nothing, as it does in a debug build.
-/

namespace HopToDesk.Wire

open Kit

namespace Version

/-- What a component counts for. -/
def component (x : Text) : Int := (Decimal.parseI64 x).getD 0

/-- One component more. -/
def nextNumber (n x : Int) : Option Int := do
  let scaled ← signed64 (n * 1000)
  signed64 (scaled + x)

/-- `get_version_number`. -/
def getVersionNumber (v : Text) : Option Int :=
  (v.splitOn '.').foldlM (fun n x => nextNumber n (component x)) 0

example : getVersionNumber "1.1.10".toList = some 1001010 := by decide

end Version

end HopToDesk.Wire
