import HopToDesk.Kit.System

/-!
# Trusted devices

A device that has passed two-factor authentication may be trusted. The list is kept twice: encrypted
in `Config2`, and in a cache that says whether it is in sync. The cache is loaded the first time the
list is asked for. Every change gets the list, changes it and sets it; no lock is held over the three.

A step is what one thread does under one acquisition of a lock. `set_trusted_devices` writes the
cache while it still holds `Config2`, and the cache can be read before that.
-/

set_option autoImplicit false

namespace HopToDesk.Config

open Kit

structure TrustedDevice where
  hwid : List UInt8
  time : Int
  id : String
  name : String
  platform : String
deriving DecidableEq, Repr

/-- `outdate`, at a time. -/
def TrustedDevice.outdate (d : TrustedDevice) (now : Int) : Bool :=
  d.time + 90 * 24 * 60 * 60 * 1000 < now

/-- A list of devices as `Config2` stores it: as JSON, which may be too large, and encrypted.
Decrypting gives the list, whether it succeeded, and whether the list should be stored again. -/
structure Encoding (κ : Type) where
  tooLarge : List TrustedDevice → Bool
  encrypt : List TrustedDevice → κ
  decrypt : κ → List TrustedDevice × Bool × Bool
  decrypt_encrypt : ∀ devices, tooLarge devices = false →
    decrypt (encrypt devices) = (devices, true, false)

/-- The public functions. -/
inductive Method
  | getTrustedDevices
  | addTrustedDevice (device : TrustedDevice)
  | removeTrustedDevices (hwids : List (List UInt8))
  | clearTrustedDevices
deriving DecidableEq, Repr

namespace Method

/-- What a function sets in place of the list it has got; `clear_trusted_devices` gets none. -/
def change : Method → List TrustedDevice → Option (List TrustedDevice)
  | getTrustedDevices, _ => none
  | addTrustedDevice device, devices =>
    some (devices.filter (·.hwid ≠ device.hwid) ++ [device])
  | removeTrustedDevices hwids, devices => some (devices.filter (·.hwid ∉ hwids))
  | clearTrustedDevices, _ => some []

/-- It removes the devices with this hwid. -/
def Removes : Method → List UInt8 → Prop
  | removeTrustedDevices hwids, hwid => hwid ∈ hwids
  | clearTrustedDevices, _ => True
  | _, _ => False

/-- It adds a device with this hwid. -/
def Adds : Method → List UInt8 → Prop
  | addTrustedDevice device, hwid => device.hwid = hwid
  | _, _ => False

/-- It is about the devices with this hwid. -/
def About (m : Method) (hwid : List UInt8) : Prop := m.Removes hwid ∨ m.Adds hwid

instance (m : Method) (hwid : List UInt8) : Decidable (m.Removes hwid) := by
  cases m <;> unfold Removes <;> infer_instance

instance (m : Method) (hwid : List UInt8) : Decidable (m.Adds hwid) := by
  cases m <;> unfold Adds <;> infer_instance

instance (m : Method) (hwid : List UInt8) : Decidable (m.About hwid) :=
  inferInstanceAs (Decidable (_ ∨ _))

end Method

/-- Where a call stands, with the devices it has got. -/
inductive Pc
  | readCache
  /-- The cache was not in sync. -/
  | readConfig
  /-- What was loaded is to be set. -/
  | restore (devices : List TrustedDevice)
  /-- It is set in `Config2`, which is still held. -/
  | restoreCache (devices kept : List TrustedDevice)
  /-- The cache is to be filled with what was loaded. -/
  | fillCache (devices : List TrustedDevice)
  /-- What the function makes of the devices is to be set. -/
  | set (devices : List TrustedDevice)
  /-- It is set in `Config2`, which is still held. -/
  | setCache (kept : List TrustedDevice)
  /-- It has returned, at a time; a function that changes the list returns nothing. -/
  | returned (time : Nat) (devices : List TrustedDevice)
deriving DecidableEq, Repr

/-- A call, with when it began and when its own list was set in `Config2`. The code keeps the first
two. -/
structure Call where
  method : Method
  pc : Pc
  began : Nat
  wrote : Option Nat
deriving DecidableEq, Repr

/-- The cache and whether it is in sync, the list in `Config2` and the call that holds it for
writing, the calls by a number of their own, and a clock of steps. -/
structure Devices (κ : Type) where
  cache : List TrustedDevice × Bool
  config : κ
  writer : Option Nat
  calls : Nat → Option Call
  clock : Nat

inductive DeviceStep
  | start (call : Nat) (method : Method)
  /-- The next step of a call, at a time. -/
  | advance (call : Nat) (now : Int)

namespace Devices

section

variable {κ : Type} (enc : Encoding κ)

/-- The call is there from now on, and a step has passed. -/
def put (s : Devices κ) (k : Nat) (c : Call) : Devices κ :=
  { s with calls := Function.update s.calls k (some c), clock := s.clock + 1 }

/-- What a call does with the list it has got. -/
def got (s : Devices κ) (c : Call) (devices : List TrustedDevice) : Pc :=
  match c.method.change devices with
  | none => .returned s.clock devices
  | some _ => .set devices

/-- The step of a call. It has none when it has returned, or has to wait for `Config2`. -/
def advance (s : Devices κ) (k : Nat) (now : Int) (c : Call) : Option (Devices κ) :=
  match c.pc with
  | .readCache =>
    some (s.put k { c with pc := if s.cache.2 then s.got c s.cache.1 else .readConfig })
  | .readConfig =>
    if s.writer.isSome then none
    else
      let (devices, succ, store) := enc.decrypt s.config
      if succ then
        let kept := devices.filter (!·.outdate now)
        some (s.put k { c with
          pc := if store || kept.length ≠ devices.length then .restore kept else .fillCache kept })
      else some (s.put k { c with pc := s.got c [] })
  | .restore devices =>
    let kept := devices.filter (!·.outdate now)
    if enc.tooLarge kept then some (s.put k { c with pc := .fillCache devices })
    else if s.writer.isSome then none
    else
      some ({ s with config := enc.encrypt kept, writer := some k }.put k
        { c with pc := .restoreCache devices kept })
  | .restoreCache devices kept =>
    some ({ s with cache := (kept, true), writer := none }.put k { c with pc := .fillCache devices })
  | .fillCache devices =>
    some ({ s with cache := (devices, true) }.put k { c with pc := s.got c devices })
  | .set devices =>
    match c.method.change devices with
    | none => none
    | some changed =>
      let kept := changed.filter (!·.outdate now)
      if enc.tooLarge kept then some (s.put k { c with pc := .returned s.clock [] })
      else if s.writer.isSome then none
      else
        some ({ s with config := enc.encrypt kept, writer := some k }.put k
          { c with pc := .setCache kept, wrote := some s.clock })
  | .setCache kept =>
    some ({ s with cache := (kept, true), writer := none }.put k
      { c with pc := .returned s.clock [] })
  | .returned .. => none

/-- Where a function begins. -/
def first : Method → Pc
  | .clearTrustedDevices => .set []
  | _ => .readCache

def next (s : Devices κ) : DeviceStep → Option (Devices κ)
  | .start k method =>
    match s.calls k with
    | some _ => none
    | none => some (s.put k ⟨method, first method, s.clock, none⟩)
  | .advance k now =>
    match s.calls k with
    | some c => s.advance enc k now c
    | none => none

/-- Nothing cached, and anything in `Config2`. -/
def Starts (s : Devices κ) : Prop :=
  s.cache = ([], false) ∧ s.writer = none ∧ s.calls = (fun _ => none) ∧ s.clock = 0

/-- Any order of the steps of any calls. -/
def system : System (Devices κ) DeviceStep := System.stepping Starts (next enc)

/-- The devices in `Config2`. -/
def stored (s : Devices κ) : List TrustedDevice :=
  match enc.decrypt s.config with
  | (devices, true, _) => devices
  | _ => []

/-- The list a call is about to set. -/
def toSet (c : Call) : Option (List TrustedDevice) :=
  match c.pc with
  | .restore devices => some devices
  | .set devices => c.method.change devices
  | _ => none

/-- No device is outdated when it is loaded or set, and no list is too large. -/
def InScope (s : Devices κ) : DeviceStep → Prop
  | .start .. => True
  | .advance k now => (∀ d ∈ s.stored enc, d.outdate now = false) ∧
      ∀ c, s.calls k = some c → ∀ devices, toSet c = some devices →
        enc.tooLarge devices = false ∧ ∀ d ∈ devices, d.outdate now = false

/-- Where a call is about to write a list, what it has got is what is stored, apart from the devices
that its function is about. -/
def IsCurrent (stored : List TrustedDevice) (m : Method) : Pc → Prop
  | .restore devices | .fillCache devices => devices = stored
  | .set devices => devices.filter (¬ m.About ·.hwid) = stored.filter (¬ m.About ·.hwid)
  | _ => True

/-- Every call writes what is current. -/
def Current (s : Devices κ) : DeviceStep → Prop
  | .start .. => True
  | .advance k _ => ∀ c, s.calls k = some c → IsCurrent (s.stored enc) c.method c.pc

instance (s : Devices κ) (step : DeviceStep) : Decidable (s.InScope enc step) :=
  match step with
  | .start .. => inferInstanceAs (Decidable True)
  | .advance k now => inferInstanceAs (Decidable ((∀ d ∈ s.stored enc, d.outdate now = false) ∧
      ∀ c ∈ s.calls k, ∀ devices ∈ toSet c,
        enc.tooLarge devices = false ∧ ∀ d ∈ devices, d.outdate now = false))

instance (stored : List TrustedDevice) (m : Method) (pc : Pc) :
    Decidable (IsCurrent stored m pc) :=
  match pc with
  | .restore _ | .fillCache _ => inferInstanceAs (Decidable (_ = stored))
  | .set _ => inferInstanceAs (Decidable (_ = stored.filter _))
  | .readCache | .readConfig | .restoreCache .. | .setCache _ | .returned .. =>
    inferInstanceAs (Decidable True)

instance (s : Devices κ) (step : DeviceStep) : Decidable (s.Current enc step) :=
  match step with
  | .start .. => inferInstanceAs (Decidable True)
  | .advance k _ =>
    inferInstanceAs (Decidable (∀ c ∈ s.calls k, IsCurrent (s.stored enc) c.method c.pc))

end

variable {κ : Type}

/-- A device whose hwid was removed before a call of `get_trusted_devices` began is returned by it
only where its hwid was added again, with effect after the removal began. -/
def Revoked (s : Devices κ) : Prop :=
  ∀ g get tg devices r removal tr removed, s.calls g = some get →
    get.method = .getTrustedDevices → get.pc = .returned tg devices →
    s.calls r = some removal → removal.pc = .returned tr removed → tr < get.began →
    ∀ d ∈ devices, removal.method.Removes d.hwid →
      ∃ a add t, s.calls a = some add ∧ add.method.Adds d.hwid ∧ add.wrote = some t ∧
        removal.began < t

/-- A device that was added before a call of `get_trusted_devices` began is returned by it, unless a
call about its hwid has taken effect since. -/
def Kept (s : Devices κ) : Prop :=
  ∀ g get tg devices a add d ta added, s.calls g = some get →
    get.method = .getTrustedDevices → get.pc = .returned tg devices →
    s.calls a = some add → add.method = .addTrustedDevice d → add.pc = .returned ta added →
    ta < get.began →
      d ∈ devices ∨ ∃ b about t₀ t, s.calls b = some about ∧ about.method.About d.hwid ∧
        add.wrote = some t₀ ∧ about.wrote = some t ∧ t₀ < t

end Devices

end HopToDesk.Config
