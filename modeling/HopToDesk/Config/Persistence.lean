import HopToDesk.Kit.Base64
import HopToDesk.Kit.Unicode
import HopToDesk.Config.Options

/-!
# Encrypted text

`libs/hbb_common/src/password_security.rs`: what is stored of a text is its encryption, as text, in
front of which stands the version of it. Text that is encrypted already is stored as it is, text
that is too long as nothing, and text that cannot be decrypted is read as it is.

The box is sodiumoxide's `secretbox`, under the key and the nonce of this machine.
-/

set_option autoImplicit false

namespace HopToDesk.Config

open Kit Text

/-- `symmetric_crypt`: the box opens what it seals, and nothing else. -/
structure SymmetricCrypt where
  sealData : List UInt8 → List UInt8
  openSealed : List UInt8 → Option (List UInt8)
  openSealed_eq_some_iff : ∀ sealed data, openSealed sealed = some data ↔ sealed = sealData data
  /-- A tag of 16 bytes comes to the data. -/
  length_seal : ∀ data, (sealData data).length = data.length + 16

def versionLen : Nat := 2

def passwordEncVersion : Text := ['0', '0']

def encryptMaxLen : Nat := 128

section

variable (crypt : SymmetricCrypt) (base64 : Base64)

/-- `encrypt`. -/
def encrypt (v : List UInt8) (maxLen : Nat) : Option Text :=
  if v ≠ [] ∧ v.length ≤ maxLen then some (base64.encode (crypt.sealData v)) else none

/-- `decrypt`. -/
def decrypt (v : Text) : Option (List UInt8) :=
  if v ≠ [] then (base64.decode v).bind crypt.openSealed else none

/-- What `decrypt_str_or_original` decrypts. -/
def decrypted (s : Text) : Option (List UInt8) :=
  if (utf8 s).length > versionLen ∧ ['0', '0'] <+: s then decrypt crypt base64 (s.drop versionLen)
  else none

/-- `decrypt_str_or_original`: the text, whether it was decrypted, and whether it should be stored
again. -/
def decryptStrOrOriginal (s currentVersion : Text) : Text × Bool × Bool :=
  match decrypted crypt base64 s with
  | some v => (fromUtf8Lossy v, true, decide (['0', '0'] ≠ currentVersion))
  | none => (s, false, !s.isEmpty)

/-- `encrypt_str_or_original`. -/
def encryptStrOrOriginal (s version : Text) (maxLen : Nat) : Text :=
  if (decryptStrOrOriginal crypt base64 s version).2.1 then s
  else if (utf8 s).length > maxLen then []
  else if version = ['0', '0'] then
    match encrypt crypt base64 (utf8 s) maxLen with
    | some encrypted => version ++ encrypted
    | none => s
  else s

end

end HopToDesk.Config

/-!
## What is kept in files

`Config` and `Config2` of `libs/hbb_common/src/config.rs`, with their files. A setter changes what
the process holds and stores it; a process that starts loads what is in the files. Passwords, the
pin and the id are stored encrypted (`encrypt_str_or_original`), and the id under another name.

A file holds what was written to it, as TOML; there is none at first, which reads as the default.
The fields that are neither encrypted nor set here are left out.
-/

set_option autoImplicit false
set_option linter.dupNamespace false

namespace HopToDesk.Config

open Kit Text

/-! ### Random draws -/

def CHARS : List Char :=
  ['2', '3', '4', '5', '6', '7', '8', '9', 'a', 'b', 'c', 'd', 'e', 'f', 'g', 'h', 'i', 'j', 'k',
    'm', 'n', 'p', 'q', 'r', 's', 't', 'u', 'v', 'w', 'x', 'y', 'z']

/-- What `thread_rng` gives: for the characters of a password, and for an id. -/
structure Rng where
  chars : Nat → Nat
  id : Fin 300000000

/-- `get_auto_password`. -/
def Rng.autoPassword (rng : Rng) (length : Nat) : Text :=
  (List.range length).map fun i => CHARS.getD (rng.chars i % CHARS.length) ' '

/-- `get_auto_id`: from 100000000 up to 400000000. -/
def Rng.autoId (rng : Rng) : Text := Nat.toDigits 10 (100000000 + rng.id)

/-! ### The files -/

inductive ProxyType
  | socks5
  | http
  | auto
deriving DecidableEq, Repr

structure Socks5Server where
  proxy : Text
  username : Text
  password : Text
  proxyType : ProxyType
deriving DecidableEq, Repr

structure Config where
  id : Text
  encId : Text
  temporaryPassword : Text
  permanentPassword : Text
  salt : Text
deriving DecidableEq, Repr

def Config.default : Config := ⟨[], [], [], [], []⟩

structure Config2 where
  unlockPin : Text
  trustedDevices : Text
  socks : Option Socks5Server
  options : Options

def Config2.default : Config2 := ⟨[], [], none, fun _ => none⟩

section

variable (crypt : SymmetricCrypt) (base64 : Base64)

/-- As it is stored. -/
def stored (s : Text) : Text := encryptStrOrOriginal crypt base64 s passwordEncVersion encryptMaxLen

/-- As it is loaded. -/
def loaded (s : Text) : Text × Bool × Bool := decryptStrOrOriginal crypt base64 s passwordEncVersion

/-- `store`: what is written to the file. -/
def Config.store (self : Config) : Config :=
  { self with
    temporaryPassword := stored crypt base64 self.temporaryPassword
    permanentPassword := stored crypt base64 self.permanentPassword
    encId := stored crypt base64 self.id
    id := [] }

/-- `store`: what is written to the file. -/
def Config2.store (self : Config2) : Config2 :=
  { self with
    socks := self.socks.map fun socks =>
      { socks with password := stored crypt base64 socks.password }
    unlockPin := stored crypt base64 self.unlockPin }

/-- `load`, and whether to store what is loaded. -/
def Config2.load (file : Config2) : Config2 × Bool :=
  ({ file with
      socks := file.socks.map fun socks =>
        { socks with password := (loaded crypt base64 socks.password).1 }
      unlockPin := (loaded crypt base64 file.unlockPin).1 },
    (file.socks.map fun socks => (loaded crypt base64 socks.password).2.2).getD false ||
      (loaded crypt base64 file.unlockPin).2.2)

variable (settings : Settings)

/-- `temporary_password_length`. -/
def temporaryPasswordLength (options : Options) : Nat :=
  let length := settings.getOption options "temporary-password-length"
  if length = "8" then 8 else if length = "10" then 10 else 6

/-- The temporary password that is loaded, and whether to store it. -/
def Config.loadTemporaryPassword (options : Options) (rng : Rng) (file : Config) : Text × Bool :=
  if settings.getOption options "unattended-access" ≠ "true" ∨ file.temporaryPassword.length = 0
  then (rng.autoPassword (temporaryPasswordLength settings options), true)
  else
    let (temporaryPassword, _, store) := loaded crypt base64 file.temporaryPassword
    (temporaryPassword, store)

/-- The id that is loaded, and whether to store it. -/
def Config.loadId (rng : Rng) (file : Config) : Text × Bool :=
  let (id, encrypted, store) := loaded crypt base64 file.encId
  if encrypted then (id, store)
  else if file.id ≠ [] ∧ file.encId = [] ∧ (loaded crypt base64 file.id).2.1 = false then
    (file.id, true)
  else (rng.autoId, true)

/-- `load`, and whether to store what is loaded. -/
def Config.load (options : Options) (rng : Rng) (file : Config) : Config × Bool :=
  let (temporaryPassword, store0) :=
    file.loadTemporaryPassword crypt base64 settings options rng
  let (permanentPassword, _, store1) := loaded crypt base64 file.permanentPassword
  let (id, store2) := file.loadId crypt base64 rng
  ({ file with id, temporaryPassword, permanentPassword }, store0 || store1 || store2)

/-! ### A process and its files -/

structure Process where
  config : Config
  config2 : Config2
  file : Config
  file2 : Config2

namespace Process

/-- `CONFIG` is stored. -/
def storeConfig (s : Process) : Process := { s with file := s.config.store crypt base64 }

/-- `CONFIG2` is stored. -/
def storeConfig2 (s : Process) : Process := { s with file2 := s.config2.store crypt base64 }

/-- `clear_trusted_devices`: an empty list, as JSON. -/
def clearTrustedDevices (s : Process) : Process :=
  let devices := encryptStrOrOriginal crypt base64 ['[', ']'] passwordEncVersion (1024 * 1024)
  { s with config2.trustedDevices := devices }.storeConfig2 crypt base64

/-- `set_id`. -/
def setId (s : Process) (id : Text) : Process :=
  if id = s.config.id then s else { s with config.id := id }.storeConfig crypt base64

/-- `set_temporary_password`. -/
def setTemporaryPassword (s : Process) (password : Text) : Process :=
  if password = s.config.temporaryPassword then s
  else { s with config.temporaryPassword := password }.storeConfig crypt base64

/-- `set_permanent_password`. -/
def setPermanentPassword (s : Process) (password : Text) : Process :=
  if password = s.config.permanentPassword then s
  else
    ({ s with config.permanentPassword := password }.storeConfig crypt base64).clearTrustedDevices
      crypt base64

/-- `set_salt`. -/
def setSalt (s : Process) (salt : Text) : Process :=
  if salt = s.config.salt then s else { s with config.salt := salt }.storeConfig crypt base64

/-- `set_unlock_pin`. -/
def setUnlockPin (s : Process) (pin : Text) : Process :=
  if pin = s.config2.unlockPin then s
  else { s with config2.unlockPin := pin }.storeConfig2 crypt base64

/-- `get_id`. -/
def getId (s : Process) (rng : Rng) : Text × Process :=
  if s.config.id = [] then (rng.autoId, s.setId crypt base64 rng.autoId) else (s.config.id, s)

/-- `get_salt`. -/
def getSalt (s : Process) (rng : Rng) : Text × Process :=
  if s.config.salt = [] then
    (rng.autoPassword 6, s.setSalt crypt base64 (rng.autoPassword 6))
  else (s.config.salt, s)

/-- A process starts on the files. -/
def start (s : Process) (rng : Rng) : Process :=
  let (config2, store2) := s.file2.load crypt base64
  let s := { s with config2 }
  let s := if store2 then s.storeConfig2 crypt base64 else s
  let (config, store) := s.file.load crypt base64 settings config2.options rng
  let s := { s with config }
  if store then s.storeConfig crypt base64 else s

end Process

inductive Setter
  | setId (id : Text)
  | setPermanentPassword (password : Text)
  | setTemporaryPassword (password : Text)
  | setSalt (salt : Text)
  | setUnlockPin (pin : Text)
deriving DecidableEq, Repr

/-- What the getters return. -/
structure Values where
  id : Text
  temporaryPassword : Text
  permanentPassword : Text
  salt : Text
  unlockPin : Text
deriving DecidableEq, Repr

namespace Process

def set (s : Process) : Setter → Process
  | .setId id => s.setId crypt base64 id
  | .setPermanentPassword password => s.setPermanentPassword crypt base64 password
  | .setTemporaryPassword password => s.setTemporaryPassword crypt base64 password
  | .setSalt salt => s.setSalt crypt base64 salt
  | .setUnlockPin pin => s.setUnlockPin crypt base64 pin

/-- All getters; those of the id and the salt draw and set one where there is none. -/
def values (s : Process) (rng : Rng) : Values × Process :=
  let (id, s) := s.getId crypt base64 rng
  let (salt, s) := s.getSalt crypt base64 rng
  (⟨id, s.config.temporaryPassword, s.config.permanentPassword, salt, s.config2.unlockPin⟩, s)

/-- Setters, one after the other. -/
def setAll (s : Process) (setters : List Setter) : Process :=
  setters.foldl (fun s setter => s.set crypt base64 setter) s

/-- Both are stored, and a process starts on them. -/
def restart (s : Process) (rng : Rng) : Process :=
  ((s.storeConfig crypt base64).storeConfig2 crypt base64).start crypt base64 settings rng

/-- What the getters return, and what they return once the process has started again. The draws are
those of the first getters, of the start and of the second getters. -/
def beforeAndAfter (s : Process) (rng rng' rng'' : Rng) : Values × Values :=
  let (before, s) := s.values crypt base64 rng
  (before, ((s.restart crypt base64 settings rng').values crypt base64 rng'').1)

end Process

end

end HopToDesk.Config
