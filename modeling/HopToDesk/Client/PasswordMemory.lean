import HopToDesk.Kit.Base64
import HopToDesk.Kit.System
import HopToDesk.Kit.Unicode
import Mathlib.Data.List.AList

/-!
# The password that is remembered

`LoginConfigHandler` of `src/client.rs` keeps the password of a session, hashed with the salt of the
peer, for the next connection, and with it where the password comes from. `handle_hash` looks for
one when the peer has sent its salt, `handle_login_from_ui` takes the one that is typed,
`handle_login_error` drops it, and `handle_peer_info` decides whether it becomes that of the peer's
configuration.

`Event` is one of these calls, or a reconnect, which leaves the handler as it is. What
`handle_peer_info` does besides, and the rest of a login message, is left out. The file of a peer is
read as it was written. `Sha256::digest`, base 64 and the syntax of a `Uuid` are parameters; what
the address book and the settings say is part of the call.
-/

set_option autoImplicit false

namespace HopToDesk.Client

open Kit Kit.Text

/-- `Sha256`. -/
structure Sha256 where
  digest : List UInt8 → List UInt8
  length_digest : ∀ bytes, (digest bytes).length = 32

namespace PasswordMemory

/-- `Hash`, as the peer sends it. -/
structure PeerHash where
  salt : Text
  challenge : Text
deriving DecidableEq, Repr

/-- The digest of a password with a salt. -/
def salted (sha : Sha256) (password salt : Text) : List UInt8 :=
  sha.digest (utf8 password ++ utf8 salt)

/-- The source of sent password. -/
inductive PasswordSource
  | personalAb (hash : List UInt8)
  | sharedAb (password : Text)
  | undefined
deriving DecidableEq, Repr

namespace PasswordSource

def isPersonalAb (self : PasswordSource) (password : List UInt8) : Bool :=
  if password.isEmpty then false
  else
    match self with
    | personalAb p => p = password
    | _ => false

def equal (sha : Sha256) (password : Text) (connectedPassword : List UInt8) (hash : PeerHash) :
    Bool :=
  connectedPassword = salted sha password hash.salt

def isSharedAb (sha : Sha256) (self : PasswordSource) (password : List UInt8) (hash : PeerHash) :
    Bool :=
  if password.isEmpty then false
  else
    match self with
    | sharedAb p => equal sha p password hash
    | _ => false

end PasswordSource

/-- What a login reads of `PeerConfig`. -/
structure PeerLogin where
  password : List UInt8
  options : AList fun _ : Text => Text
deriving DecidableEq

/-- `LoginConfigHandler`, and the configuration of the peer in its file. -/
structure LoginConfigHandler where
  id : Text
  isTerminal : Bool
  isTerminalAdmin : Bool
  hash : PeerHash
  password : List UInt8
  remember : Bool
  config : PeerLogin
  switchUuid : Option Text
  passwordSource : PasswordSource
  sharedPassword : Option Text
  stored : PeerLogin
deriving DecidableEq

/-- What is shown, and what is sent. -/
inductive LoginOutput
  | msgbox (msgtype title text link : Text)
  | login (osUsername osPassword : Text) (password : List UInt8)
  | switchSidesResponse (uuid : List UInt8)
deriving DecidableEq, Repr

/-! ## The address book -/

structure AbPeer where
  id : Text
  hash : Text

structure AbEntry where
  name : Text
  peers : List AbPeer

structure Ab where
  accessToken : Text
  abEntries : List AbEntry

def AbEntry.personal (self : AbEntry) : Bool :=
  self.name = "My address book".toList || self.name = "Legacy address book".toList

/-- The arguments of `handle_hash`, and what it reads elsewhere: the access token, the address book,
and the password of the option `default-connect-password`. -/
structure HashCall where
  passwordPreset : Text
  hash : PeerHash
  accessToken : Text
  ab : Ab
  defaultConnectPassword : Text

/-- `try_get_password_from_personal_ab`. -/
def personalAbPassword (base64 : Base64) (id : Text) (call : HashCall) : Option (List UInt8) :=
  if call.accessToken ≠ [] ∧ call.accessToken = call.ab.accessToken then do
    let entry ← call.ab.abEntries.find? AbEntry.personal
    let peer ← entry.peers.find? fun p => p.id = id
    (base64.decode peer.hash).filter fun hash => hash ≠ []
  else none

/-! ## What `handle_hash` logs in with -/

/-- A password, and where it comes from. -/
structure Candidate where
  password : List UInt8
  source : PasswordSource
deriving DecidableEq, Repr

namespace Candidate

variable (sha : Sha256) (salt : Text)

def orPreset (preset : Text) (c : Candidate) : Candidate :=
  if c.password = [] ∧ preset ≠ [] then ⟨salted sha preset salt, .undefined⟩ else c

/-- A shared password goes before those that were found. -/
def orShared (shared : Option Text) (c : Candidate) : Candidate :=
  match shared with
  | some password => if password ≠ [] then ⟨salted sha password salt, .sharedAb password⟩ else c
  | none => c

def orConfig (config : List UInt8) (c : Candidate) : Candidate :=
  if c.password = [] ∧ config ≠ [] then ⟨config, .undefined⟩ else c

def orPersonalAb (hash : Option (List UInt8)) (c : Candidate) : Candidate :=
  match hash with
  | some hash => if c.password = [] then ⟨hash, .personalAb hash⟩ else c
  | none => c

/-- The source is that of a shared password. -/
def orDefault (password : Text) (c : Candidate) : Candidate :=
  if c.password = [] ∧ password ≠ [] then ⟨salted sha password salt, .sharedAb password⟩ else c

end Candidate

namespace LoginConfigHandler

/-- `initialize`, without a token of another connection. -/
def initialized (id : Text) (isTerminal isTerminalAdmin : Bool)
    (switchUuid sharedPassword : Option Text) (stored : PeerLogin) : LoginConfigHandler where
  id := id
  isTerminal := isTerminal
  isTerminalAdmin := isTerminal && isTerminalAdmin
  hash := ⟨[], []⟩
  password := []
  remember := !stored.password.isEmpty
  config := stored
  switchUuid := switchUuid
  passwordSource := .undefined
  sharedPassword := sharedPassword
  stored := stored

def getOption (self : LoginConfigHandler) (k : Text) : Text :=
  (self.config.options.lookup k).getD []

def saveConfig (self : LoginConfigHandler) (config : PeerLogin) : LoginConfigHandler :=
  { self with config := config, stored := config }

def setOption (self : LoginConfigHandler) (k v : Text) : LoginConfigHandler :=
  self.saveConfig { self.stored with options := self.stored.options.insert k v }

end LoginConfigHandler

/-! ## The errors of a login -/

structure LoginErrorMsgBox where
  msgtype : Text
  title : Text
  text : Text
  link : Text
  tryAgain : Bool

def loginErrorMap : List (Text × LoginErrorMsgBox) :=
  [("Desktop session not ready".toList, ⟨"session-login".toList, [], [], [], true⟩),
    ("Desktop xsession failed".toList, ⟨"session-re-login".toList, [], [], [], true⟩),
    ("Desktop session another user login".toList,
      ⟨"info-nocancel".toList, "another_user_login_title_tip".toList,
        "another_user_login_text_tip".toList, [], false⟩),
    ("Desktop xorg not found".toList,
      ⟨"info-nocancel".toList, "xorg_not_found_title_tip".toList,
        "xorg_not_found_text_tip".toList, [], true⟩),
    ("Desktop none".toList,
      ⟨"info-nocancel".toList, "no_desktop_title_tip".toList, "no_desktop_text_tip".toList, [],
        true⟩),
    ("Desktop session not ready, password empty".toList,
      ⟨"session-login-password".toList, [], [], [], true⟩),
    ("Desktop session not ready, password wrong".toList,
      ⟨"session-login-re-password".toList, [], [], [], true⟩),
    ("No Password Access".toList,
      ⟨"wait-remote-accept-nook".toList, "Prompt".toList,
        "Please wait for the remote side to accept your session request...".toList, [], true⟩)]

section

variable (sha : Sha256) (base64 : Base64) (parseUuid : Text → Option (List UInt8))

open Candidate in
/-- What `handle_hash` finds, in the order in which it looks. -/
def candidate (self : LoginConfigHandler) (call : HashCall) : Candidate :=
  let salt := call.hash.salt
  let last : Candidate := ⟨self.password, self.passwordSource⟩
  let found := (last.orPreset sha salt call.passwordPreset).orShared sha salt self.sharedPassword
  let known := (found.orConfig self.config.password).orPersonalAb
    (personalAbPassword base64 self.id call)
  known.orDefault sha salt call.defaultConnectPassword

namespace LoginConfigHandler

/-- The response to a challenge. -/
def response (self : LoginConfigHandler) : List UInt8 :=
  sha.digest (self.password ++ utf8 self.hash.challenge)

/-- `handle_hash`. -/
def handleHash (self : LoginConfigHandler) (call : HashCall) :
    LoginConfigHandler × List LoginOutput :=
  let uuid := self.switchUuid.bind parseUuid
  let self := { self with hash := call.hash, switchUuid := none }
  match uuid with
  | some uuid => ({ self with passwordSource := .undefined }, [.switchSidesResponse uuid])
  | none =>
    let c := candidate sha base64 self call
    let self :=
      { self with password := c.password, passwordSource := c.source, sharedPassword := none }
    if self.isTerminal && self.isTerminalAdmin then
      let msgtype :=
        if self.password.isEmpty then "terminal-admin-login-password".toList
        else "terminal-admin-login".toList
      (self, [.msgbox msgtype [] [] []])
    else
      let (osUsername, osPassword) :=
        if self.isTerminal then ([], [])
        else (self.getOption "os-username".toList, self.getOption "os-password".toList)
      if self.password.isEmpty then
        (self, [.msgbox "input-password".toList "Password Required".toList [] [],
          .login osUsername osPassword []])
      else (self, [.login osUsername osPassword (self.response sha)])

/-- `handle_login_from_ui`. -/
def handleLoginFromUi (self : LoginConfigHandler) (osUsername osPassword password : Text)
    (remember : Bool) : LoginConfigHandler × List LoginOutput :=
  let self :=
    if password.isEmpty then
      if self.password.isEmpty && !self.config.password.isEmpty then
        { self with password := self.config.password, passwordSource := .undefined }
      else self
    else
      { self with
        passwordSource := .undefined
        remember := remember
        password := salted sha password self.hash.salt }
  (self, [.login osUsername osPassword (self.response sha)])

/-- `handle_login_error`, and whether the login may be tried again. -/
def handleLoginError (self : LoginConfigHandler) (err : Text) :
    LoginConfigHandler × List LoginOutput × Bool :=
  if err = "Empty Password".toList then
    ({ self with password := [] },
      [.msgbox "input-password".toList "Password Required".toList [] []], true)
  else if err = "Wrong Password".toList then
    ({ self with password := [] },
      [.msgbox "re-input-password".toList err "Do you want to enter again?".toList []], true)
  else if err = "Wrong 2FA Code".toList ∨ err = "2FA Required".toList then
    let enabled := self.getOption "trust-this-device".toList = "Y".toList
    (if enabled then self.setOption "trust-this-device".toList [] else self,
      [.msgbox "input-2fa".toList err [] []], true)
  else
    match loginErrorMap.lookup err with
    | some info => (self, [.msgbox info.msgtype info.title info.text info.link], info.tryAgain)
    -- an error about X11 has a link of its own, which is empty too
    | none => (self, [.msgbox "error".toList "Login Error".toList err []], false)

/-- `handle_peer_info`, which stores the configuration in any case. -/
def handlePeerInfo (self : LoginConfigHandler) : LoginConfigHandler :=
  let config := self.stored
  let password0 := config.password
  self.saveConfig
    (if self.remember then
      if !self.password.isEmpty && self.password != password0 &&
          !self.passwordSource.isSharedAb sha self.password self.hash then
        { config with password := self.password }
      else config
    else if self.passwordSource.isPersonalAb self.password then
      { config with password := self.password }
    else if !password0.isEmpty then { config with password := [] }
    else config)

end LoginConfigHandler

inductive Event
  | hash (call : HashCall)
  | loginFromUi (osUsername osPassword password : Text) (remember : Bool)
  | loginError (err : Text)
  | peerInfo
  | reconnect

/-- What becomes of the handler. -/
def Event.apply (self : LoginConfigHandler) : Event → LoginConfigHandler
  | hash call => (self.handleHash sha base64 parseUuid call).1
  | loginFromUi osUsername osPassword password remember =>
    (self.handleLoginFromUi sha osUsername osPassword password remember).1
  | loginError err => (self.handleLoginError err).1
  | peerInfo => self.handlePeerInfo sha
  | reconnect => self

end

end PasswordMemory

end HopToDesk.Client
