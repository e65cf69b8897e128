import HopToDesk.Host.LoginFailures
import HopToDesk.Host.Server
import HopToDesk.Host.Terminal

/-!
# What reaches a connection

The messages a peer sends, what the connection manager sends, and what the outside answers while one
of them is handled: the options of the host, the clock, the checks that ask another program.

Fields that no handler reads into the state of a connection, of the services or of the terminals are
left out, and so are the messages that reach none of these (`other`).
-/

set_option autoImplicit false

namespace HopToDesk.Host

/-! ## From the peer -/

/-- `BoolOption`. A field of it holds none of these when its number is unknown. -/
inductive BoolOption
  | notSet
  | no
  | yes
deriving DecidableEq, Repr

/-- What a field of options asks for, if anything: `enum_value()` is `Ok`, and not `NotSet`. -/
def chosen : Option BoolOption → Option Bool
  | some .yes => some true
  | some .no => some false
  | _ => none

/-- `OptionMessage`. -/
structure OptionMessage where
  lockAfterSessionEnd : Option BoolOption
  showRemoteCursor : Option BoolOption
  followRemoteCursor : Option BoolOption
  followRemoteWindow : Option BoolOption
  disableAudio : Option BoolOption
  enableFileTransfer : Option BoolOption
  disableClipboard : Option BoolOption
  disableKeyboard : Option BoolOption
deriving DecidableEq, Repr

/-- `OptionMessage::default()`. -/
def OptionMessage.unset : OptionMessage :=
  ⟨some .notSet, some .notSet, some .notSet, some .notSet, some .notSet, some .notSet, some .notSet,
    some .notSet⟩

/-- `login_request::Union`. -/
inductive LoginUnion
  | fileTransfer (dir : String) (showHidden : Bool)
  | viewCamera
  | portForward (host : String) (port : Int)
  | terminal (serviceId : String)
deriving DecidableEq, Repr

structure LoginRequest where
  username : String
  password : List UInt8
  myId : String
  myName : String
  option : Option OptionMessage
  union : Option LoginUnion
  sessionId : Nat
  version : String
  myPlatform : String
  hwid : List UInt8
  tokenex : String
deriving DecidableEq, Repr

/-- `LoginRequest::default()`. -/
def LoginRequest.unset : LoginRequest :=
  ⟨"", [], "", "", none, none, 0, "", "", [], ""⟩

/-- `TerminalAction` and the other messages a connection acts on. -/
inductive Message
  | loginRequest (lr : LoginRequest)
  | auth2fa (code : String)
  | inviteRequest (fromId fromName passwordToConnect : String)
  | switchSidesResponse (uuid : List UInt8) (lr : Option LoginRequest)
  | switchDisplay (display : Int)
  | captureDisplays (add sub set : List Int)
  | option (o : OptionMessage)
  | closeReason (reason : String)
  | switchSidesRequest (uuid : List UInt8)
  | voiceCallRequest (isConnect : Bool)
  | terminalAction (action : TerminalServices.TerminalAction)
  | other
deriving DecidableEq, Repr

/-! ## From the connection manager -/

/-- The variants of `ipc::Data` a connection acts on. -/
inductive CmData
  | authorize
  | close
  | inviteResponse (accepted : Bool)
  | cmErr (err : String)
  | switchPermission (name : String) (enabled : Bool)
  | voiceCallResponse (accepted : Bool)
  | closeVoiceCall
  | other
deriving DecidableEq, Repr

/-! ## To the peer -/

inductive Permission
  | keyboard
  | clipboard
  | audio
  | file
  | restart
  | recording
  | blockInput
  | camera
deriving DecidableEq, Repr

/-- What a handler sends the peer. -/
inductive Reply
  | loginError (error : String)
  | loginResponse
  | permissionInfo (permission : Permission) (enabled : Bool)
  | inviteResponse (accepted : Bool)
  | voiceCallResponse (accepted : Bool)
  | voiceCallRequest (isConnect : Bool)
  | closeReason (reason : String)
deriving DecidableEq, Repr

/-! ## From outside -/

structure SessionKey where
  peerId : String
  name : String
  sessionId : Nat
deriving DecidableEq, Repr

structure Session where
  randomPassword : String
  tfa : Bool
deriving DecidableEq, Repr

inductive AuthConnType
  | remote
  | fileTransfer
  | portForward
  | viewCamera
  | terminal
deriving DecidableEq, Repr

inductive ApproveMode
  | both
  | password
  | click
deriving DecidableEq, Repr

structure TrustedDevice where
  hwid : List UInt8
  id : String
  name : String
  platform : String
  outdate : Bool
deriving DecidableEq, Repr

/-- What does not change while a connection lives: its number, the two parts of its `Hash`, the hash
function, the place of the primary display, and the built-in options. -/
structure Settings where
  id : Int
  salt : String
  challenge : String
  sha256 : List UInt8 → List UInt8
  primaryDisplayIdx : Nat
  oneWayClipboardRedirection : Bool
  oneWayFileTransfer : Bool

/-- What the outside answers while one event is handled. -/
structure Outside where
  /-- The minute `get_time` is in. -/
  time : Int
  /-- `Connection::permission`, of the option of this name. -/
  permission : String → Bool
  enableTrustedDevices : Bool
  trustedDevices : List TrustedDevice
  /-- Seconds since a session last received a message. -/
  sessionIdle : SessionKey → Nat
  /-- Seconds since the UUID of a peer id was stored. -/
  uuidAge : String → Nat
  isInPrivacyMode : Bool
  /-- `TcpStream::connect` succeeds in time. -/
  connects : String → Bool
  generateServiceId : String
  /-- What `try_start_desktop` reports. -/
  tryStartDesktop : String
  /-- The user name is an IP address, a domain with a port, or the id of the host. -/
  addressesHost : String → Bool
  approveMode : ApproveMode
  allowLogonScreenPassword : Bool
  isLogon : Bool
  hasValidPassword : Bool
  ssoLogin : Bool
  validateSsoPassword : String → Bool
  /-- There is a `TeamID.toml`. -/
  hasTeamId : Bool
  /-- The access token of a request is answered with `OK`. -/
  checkToken : LoginRequest → Bool
  temporaryPassword : Option String
  permanentPassword : Option String
  /-- `check_current`, of a secret and a code. -/
  checkCurrent : String → String → Option Bool
  /-- Why the display server cannot be shown (Linux), or empty. -/
  displayServerError : String
  /-- The error of `update_get_sync_displays_on_login`, if any. -/
  syncDisplaysError : Option String
  primaryCameraExists : Bool
  /-- No `TestDelay` of the server waits for its answer. -/
  noTestDelay : Bool
  /-- The process id of a shell that is spawned, when one can be. -/
  spawn : Option Nat
  /-- The terminals whose reader has come to its end. -/
  finished : List Int

/-! ## Version numbers -/

/-- `parse::<i64>()`. -/
def parseI64 (s : String) : Option Int :=
  let digits (cs : List Char) : Option Nat :=
    if cs.isEmpty ∨ cs.any (fun c => ¬ c.isDigit) then none
    else some (cs.foldl (fun n c => n * 10 + (c.toNat - '0'.toNat)) 0)
  let inRange (n : Int) : Option Int := if -2 ^ 63 ≤ n ∧ n < 2 ^ 63 then some n else none
  match s.toList with
  | '-' :: cs => (digits cs).bind fun n => inRange (-n)
  | '+' :: cs => (digits cs).bind fun n => inRange n
  | cs => (digits cs).bind fun n => inRange n

/-- `get_version_number`. -/
def getVersionNumber (v : String) : Int64 :=
  (v.splitOn ".").foldl (fun n x => n * 1000 + Int64.ofInt ((parseI64 x).getD 0)) 0

/-- `is_support_multi_ui_session`. -/
def isSupportMultiUiSession (ver : String) : Bool :=
  getVersionNumber ver ≥ getVersionNumber "1.41.5"

end HopToDesk.Host
