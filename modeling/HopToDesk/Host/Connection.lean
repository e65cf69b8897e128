import HopToDesk.Host.Message
import HopToDesk.Kit.System

/-!
# A connection of the host

`Connection` in `src/server/connection.rs`, as FreeBSD and Linux build it with
`unix-file-copy-paste`: how it comes to be authorized, what it may use, which services it subscribes
to, and how it ends. A handler works on the connection and on what it shares with the others
(`Globals`); `sent` is what it sends the peer. The server lives as long as the process, so
`upgrade()` gives it.

A run interleaves the events of one connection with what happens elsewhere. The other connections
and the service threads change what is shared, but they do not subscribe this connection to
anything, nor end its subscriptions, and no service is ever taken out of the server.
-/

set_option autoImplicit false

namespace HopToDesk.Host

open Kit

structure Connection where
  displayIdx : Nat
  fileTransfer : Option (String × Bool)
  viewCamera : Bool
  terminal : Bool
  portForwardSocket : Bool
  portForwardAddress : String
  authorized : Bool
  /-- The secret of the second factor, while one is asked for. -/
  require2fa : Option String
  keyboard : Bool
  clipboard : Bool
  audio : Bool
  file : Bool
  restart : Bool
  recording : Bool
  blockInput : Bool
  lockAfterSessionEnd : Bool
  showRemoteCursor : Bool
  followRemoteCursor : Bool
  followRemoteWindow : Bool
  multiUiSession : Bool
  disableKeyboard : Bool
  disableClipboard : Bool
  disableAudio : Bool
  enableFileTransfer : Bool
  lr : LoginRequest
  fromSwitch : Bool
  voiceCallRequested : Bool
  voiceCalling : Bool
  optionsInLogin : Option OptionMessage
  closed : Bool
  authedConnType : Option AuthConnType
  servicesSubed : Bool
  pendingInvitePassword : Option String
  terminalServiceId : String
deriving DecidableEq, Repr

namespace Connection

/-- The connection `start` makes. -/
def new (settings : Settings) (out : Outside) (require2fa : Option String) : Connection where
  displayIdx := settings.primaryDisplayIdx
  fileTransfer := none
  viewCamera := false
  terminal := false
  portForwardSocket := false
  portForwardAddress := ""
  authorized := false
  require2fa := require2fa
  keyboard := out.permission "enable-keyboard"
  clipboard := out.permission "enable-clipboard"
  audio := out.permission "enable-audio"
  file := out.permission "enable-file-transfer"
  restart := out.permission "enable-remote-restart"
  recording := out.permission "enable-record-session"
  blockInput := out.permission "enable-block-input"
  lockAfterSessionEnd := false
  showRemoteCursor := false
  followRemoteCursor := false
  followRemoteWindow := false
  multiUiSession := false
  disableKeyboard := false
  disableClipboard := false
  disableAudio := false
  enableFileTransfer := false
  lr := .unset
  fromSwitch := false
  voiceCallRequested := false
  voiceCalling := false
  optionsInLogin := none
  closed := false
  authedConnType := none
  servicesSubed := false
  pendingInvitePassword := none
  terminalServiceId := ""

variable (c : Connection)

/-- `session_key`. -/
def sessionKey : SessionKey := ⟨c.lr.myId, c.lr.myName, c.lr.sessionId⟩

/-- `is_remote`. -/
def isRemote : Bool :=
  c.fileTransfer.isNone && !c.portForwardSocket && !c.viewCamera && !c.terminal

/-- `peer_keyboard_enabled`. -/
def peerKeyboardEnabled : Bool := c.keyboard && !c.disableKeyboard

/-- `clipboard_enabled`. -/
def clipboardEnabled : Bool := c.clipboard && !c.disableClipboard

/-- `audio_enabled`. -/
def audioEnabled : Bool := c.audio && !c.disableAudio

/-- `file_transfer_enabled`. -/
def fileTransferEnabled : Bool := c.file && c.enableFileTransfer

/-- `can_sub_clipboard_service`. -/
def canSubClipboardService (settings : Settings) : Bool :=
  c.clipboardEnabled && c.peerKeyboardEnabled && !settings.oneWayClipboardRedirection

/-- `can_sub_file_clipboard_service`. -/
def canSubFileClipboardService (settings : Settings) : Bool :=
  c.clipboardEnabled && c.fileTransferEnabled && !settings.oneWayFileTransfer

/-- `is_authed_view_camera_conn`. -/
def isAuthedViewCameraConn : Bool := c.authedConnType = some .viewCamera

/-- `video_source`. -/
def videoSource : VideoSource := if c.viewCamera then .camera else .monitor

/-- The type a connection is authorized as. -/
def authConnType : AuthConnType :=
  if c.fileTransfer.isSome then .fileTransfer
  else if c.portForwardSocket then .portForward
  else if c.viewCamera then .viewCamera
  else .remote

end Connection

/-- What the connections share: the services, the sessions that may return without a password, the
UUIDs of sides being switched, the two tables of failed logins, the authorized connections, and the
terminal services. -/
structure Globals where
  server : Server
  sessions : SessionKey → Option Session
  switchSidesUuid : String → Option (List UInt8)
  loginFailures : Fin 2 → Failures String
  authedConns : List (Int × AuthConnType × SessionKey)
  terminals : TerminalServices

/-- A connection at work. -/
structure State where
  settings : Settings
  ip : String
  conn : Connection
  globals : Globals
  sent : List Reply
  /-- The loop of `start` goes on. -/
  running : Bool

namespace State

variable (s : State)

def modify (f : Connection → Connection) : State := { s with conn := f s.conn }

def onGlobals (f : Globals → Globals) : State := { s with globals := f s.globals }

def tell (r : Reply) : State := { s with sent := s.sent ++ [r] }

/-- `send_login_error`. -/
def loginError (error : String) : State := s.tell (.loginError error)

def connInner : ConnInner := ⟨s.settings.id⟩

def onServer (f : Server → Server) : State :=
  s.onGlobals fun g => { g with server := f g.server }

/-- `Server::subscribe`, of this connection. -/
def subscribe (name : ServiceName) (sub : Bool) : State :=
  s.onServer (·.subscribe name s.connInner sub)

/-! ## Options -/

/-- Does what an option asks for, if it is set. -/
def option (o : Option BoolOption) (f : State → Bool → State) : State :=
  match chosen o with
  | some b => f s b
  | none => s

def setLockAfterSessionEnd (yes : Bool) : State :=
  s.modify ({ · with lockAfterSessionEnd := yes })

def setShowRemoteCursor (yes : Bool) : State :=
  let s := s.modify ({ · with showRemoteCursor := yes })
  (s.subscribe .cursor (s.conn.peerKeyboardEnabled || s.conn.showRemoteCursor)).subscribe .pos
    s.conn.showRemoteCursor

def setFollowRemoteCursor (yes : Bool) : State :=
  s.modify ({ · with followRemoteCursor := yes })

def setFollowRemoteWindow (yes : Bool) : State :=
  let s := s.modify ({ · with followRemoteWindow := yes })
  s.subscribe .windowFocus s.conn.followRemoteWindow

/-- The audio service after a change of what audio is enabled: a camera is watched without sound,
but for a voice call. -/
def subscribeAudio : State :=
  if s.conn.isAuthedViewCameraConn then
    if s.conn.voiceCalling || !s.conn.audioEnabled then s.subscribe .audio s.conn.audioEnabled
    else s
  else s.subscribe .audio s.conn.audioEnabled

def setDisableAudio (yes : Bool) : State :=
  (s.modify ({ · with disableAudio := yes })).subscribeAudio

def subscribeClipboard : State :=
  s.subscribe .clipboard (s.conn.canSubClipboardService s.settings)

def subscribeFileClipboard : State :=
  s.subscribe .fileClipboard (s.conn.canSubFileClipboardService s.settings)

def setEnableFileTransfer (yes : Bool) : State :=
  (s.modify ({ · with enableFileTransfer := yes })).subscribeFileClipboard

def setDisableClipboard (yes : Bool) : State :=
  (s.modify ({ · with disableClipboard := yes })).subscribeClipboard

def setDisableKeyboard (yes : Bool) : State :=
  let s := (s.modify ({ · with disableKeyboard := yes })).subscribeClipboard.subscribeFileClipboard
  s.subscribe .cursor (s.conn.peerKeyboardEnabled || s.conn.showRemoteCursor)

/-- `update_options`, as far as it reaches the connection and the services. -/
def updateOptions (o : OptionMessage) : State :=
  s |>.option o.lockAfterSessionEnd setLockAfterSessionEnd
    |>.option o.showRemoteCursor setShowRemoteCursor
    |>.option o.followRemoteCursor setFollowRemoteCursor
    |>.option o.followRemoteWindow setFollowRemoteWindow
    |>.option o.disableAudio setDisableAudio
    |>.option o.enableFileTransfer setEnableFileTransfer
    |>.option o.disableClipboard setDisableClipboard
    |>.option o.disableKeyboard setDisableKeyboard

/-! ## Permissions -/

/-- `SwitchPermission`, of the connection manager. -/
def switchPermission (name : String) (enabled : Bool) : State :=
  if name = "keyboard" then
    let s := (s.modify ({ · with keyboard := enabled })).tell (.permissionInfo .keyboard enabled)
    s.subscribeClipboard.subscribeFileClipboard.subscribe .cursor
      (enabled || s.conn.showRemoteCursor)
  else if name = "clipboard" then
    let s := (s.modify ({ · with clipboard := enabled })).tell (.permissionInfo .clipboard enabled)
    s.subscribeClipboard
  else if name = "audio" then
    let s := (s.modify ({ · with audio := enabled })).tell (.permissionInfo .audio enabled)
    if s.conn.authorized then s.subscribeAudio else s
  else if name = "file" then
    let s := (s.modify ({ · with file := enabled })).tell (.permissionInfo .file enabled)
    s.subscribeFileClipboard
  else if name = "restart" then
    (s.modify ({ · with restart := enabled })).tell (.permissionInfo .restart enabled)
  else if name = "recording" then
    (s.modify ({ · with recording := enabled })).tell (.permissionInfo .recording enabled)
  else if name = "block_input" then
    (s.modify ({ · with blockInput := enabled })).tell (.permissionInfo .blockInput enabled)
  else if name = "camera" then
    let s := s.tell (.permissionInfo .camera enabled)
    if s.conn.viewCamera then s.subscribe (.video .camera Server.primaryCameraIdx) enabled else s
  else s

/-! ## Sessions and passwords -/

def setSessions (sessions : SessionKey → Option Session) : State :=
  s.onGlobals ({ · with sessions := sessions })

/-- `update_or_insert_session`. -/
def updateOrInsertSession (key : SessionKey) (password : Option String) (tfa : Option Bool) :
    State :=
  let session := (s.globals.sessions key).getD ⟨"", false⟩
  s.setSessions (Function.update s.globals.sessions key
    (some ⟨password.getD session.randomPassword, tfa.getD session.tfa⟩))

/-- `set_session_2fa`. -/
def setSession2fa (key : SessionKey) : State := s.updateOrInsertSession key none (some true)

/-- `check_remove_session`. -/
def checkRemoveSession : State :=
  let key := s.conn.sessionKey
  match s.globals.sessions key with
  | none => s
  | some _ =>
    let isRemote := s.globals.authedConns.any fun c => c.1 = s.settings.id ∧ c.2.1 = .remote
    let anotherRemote := s.globals.authedConns.any fun c =>
      c.1 ≠ s.settings.id ∧ c.2.2 = key ∧ c.2.1 = .remote
    if isRemote || !anotherRemote then
      s.setSessions (Function.update s.globals.sessions key none)
    else s

/-- `validate_one_password`. -/
def validateOnePassword (password : String) : Bool :=
  if password = "" then false
  else
    let hash := s.settings.sha256 (password.toUTF8.toList ++ s.settings.salt.toUTF8.toList)
    s.settings.sha256 (hash ++ s.settings.challenge.toUTF8.toList) = s.conn.lr.password

/-- The sessions `is_recent_session` keeps. -/
def recentSessions (out : Outside) : SessionKey → Option Session :=
  fun key => if out.sessionIdle key < 30 then s.globals.sessions key else none

/-- What `is_recent_session` answers. -/
def isRecentSession (out : Outside) (tfa : Bool) : Bool :=
  match s.recentSessions out s.conn.sessionKey with
  | none => false
  | some session =>
    !s.conn.lr.password.isEmpty &&
      (tfa && session.tfa || !tfa && s.validateOnePassword session.randomPassword)

/-- The temporary password, when it is the one the peer used. -/
def matchesTemporary (out : Outside) : Option String :=
  out.temporaryPassword.filter s.validateOnePassword

/-- What `validate_password` answers. -/
def validatePassword (out : Outside) : Bool :=
  let tokenex := s.conn.lr.tokenex
  if out.ssoLogin then
    tokenex.utf8ByteSize = 32 && out.validateSsoPassword tokenex
  else if tokenex ≠ "" && out.hasTeamId then out.checkToken s.conn.lr
  else (s.matchesTemporary out).isSome || (out.permanentPassword.filter s.validateOnePassword).isSome

/-- What `validate_password` leaves: the temporary password makes a session. -/
def afterPassword (out : Outside) : State :=
  if out.ssoLogin || (s.conn.lr.tokenex ≠ "" && out.hasTeamId) then s
  else
    match s.matchesTemporary out with
    | some password => s.updateOrInsertSession s.conn.sessionKey (some password) (some false)
    | none => s

/-- `check_failure`, of the table `i`. -/
def checkFailure (out : Outside) (i : Fin 2) : (Failure × Int) × Option Refusal :=
  Host.checkFailure (s.globals.loginFailures i) s.ip out.time

/-- `update_failure`, of the table `i`. -/
def updateFailure (failure : Failure × Int) (remove : Bool) (i : Fin 2) : State :=
  s.onGlobals fun g => { g with
    loginFailures := Function.update g.loginFailures i
      (Host.updateFailure (g.loginFailures i) s.ip failure remove) }

/-! ## Logging in -/

/-- `try_sub_camera_displays`. -/
def trySubCameraDisplays (out : Outside) : State :=
  s.onServer fun server =>
    (server.tryAddPrimaryCameraService out.primaryCameraExists).addCameraConnection
      out.primaryCameraExists s.connInner

/-- The services `try_sub_monitor_services` has no permission for. -/
def noperms : List ServiceName :=
  (if !s.conn.peerKeyboardEnabled && !s.conn.showRemoteCursor then [.cursor] else []) ++
  (if !s.conn.showRemoteCursor then [.pos] else []) ++
  (if !s.conn.followRemoteWindow then [.windowFocus] else []) ++
  (if !s.conn.canSubClipboardService s.settings then [.clipboard] else []) ++
  (if !s.conn.canSubFileClipboardService s.settings then [.fileClipboard] else []) ++
  (if !s.conn.audioEnabled then [.audio] else [])

/-- `try_sub_monitor_services`. -/
def trySubMonitorServices : State :=
  if s.conn.isRemote && !s.conn.servicesSubed then
    let s := s.modify ({ · with servicesSubed := true })
    s.onServer fun server =>
      (server.tryAddPrimaryVideoService s.settings.primaryDisplayIdx).addConnection
        s.settings.primaryDisplayIdx s.connInner s.noperms
  else s

/-- The second factor is asked for and not satisfied. -/
def lacksSecondFactor (out : Outside) : Bool :=
  s.conn.require2fa.isSome && !s.isRecentSession out true && !s.conn.fromSwitch

/-- What `is_recent_session` leaves, where the second factor is asked for. -/
def afterSecondFactor (out : Outside) : State :=
  if s.conn.require2fa.isSome then s.setSessions (s.recentSessions out) else s

/-- The connection becomes authorized: the flag, its type, and its place among the authorized. -/
def authorize : State :=
  let type := s.conn.authConnType
  (s.modify ({ · with authorized := true, authedConnType := some type })).onGlobals fun g =>
    { g with authedConns := g.authedConns ++ [(s.settings.id, type, s.conn.sessionKey)] }

/-- The options that came with the login request. -/
def takeOptionsInLogin : State :=
  match s.conn.optionsInLogin with
  | some o => (s.modify ({ · with optionsInLogin := none })).updateOptions o
  | none => s

/-- What `send_logon_response` does once the response is out. -/
def subscribeOnLogin (out : Outside) (subService : Bool) : State :=
  if s.conn.fileTransfer.isSome then s
  else if s.conn.viewCamera then
    let s := (s.trySubCameraDisplays out).modify ({ · with keyboard := false })
    s.tell (.permissionInfo .keyboard false)
  else if subService && s.conn.pendingInvitePassword.isNone then s.trySubMonitorServices
  else s

/-- What `send_logon_response` does when no second factor is left to ask for. -/
def enter (out : Outside) : State :=
  let s := (s.afterSecondFactor out).authorize
  if s.conn.portForwardSocket then s.tell .loginResponse
  else if s.conn.isRemote && out.displayServerError ≠ "" then s.loginError out.displayServerError
  else
    let screen := s.conn.fileTransfer.isNone && !s.conn.terminal && !s.conn.viewCamera
    let error := if screen then out.syncDisplaysError else none
    let s := match error with
      | some err => s.loginError err
      | none => s.tell .loginResponse
    s.takeOptionsInLogin.subscribeOnLogin out (screen && error.isNone)

/-- `send_logon_response`. -/
def sendLogonResponse (out : Outside) : State :=
  if s.conn.authorized then s
  else if s.lacksSecondFactor out then (s.afterSecondFactor out).loginError "2FA Required"
  else s.enter out

/-- The device the peer logs in from is trusted. -/
def trustedDevice (out : Outside) (lr : LoginRequest) : Bool :=
  !lr.hwid.isEmpty && out.enableTrustedDevices &&
    match out.trustedDevices.find? (·.hwid = lr.hwid) with
    | some device => !device.outdate && device.id = lr.myId && device.name = lr.myName &&
        device.platform = lr.myPlatform
    | none => false

/-- `handle_login_request_without_validation`. -/
def handleLoginRequestWithoutValidation (out : Outside) (lr : LoginRequest) : State :=
  s.modify fun c => { c with
    lr := lr
    optionsInLogin := lr.option.or c.optionsInLogin
    require2fa := if trustedDevice out lr then none else c.require2fa }

/-- What the kind of a login request sets up. False where the loop ends. -/
def setUpLogin (out : Outside) : Option LoginUnion → State × Bool
  | some (.fileTransfer dir showHidden) =>
    if out.permission "enable-file-transfer" then
      (s.modify ({ · with fileTransfer := some (dir, showHidden) }), true)
    else (s.loginError "No permission of file transfer", false)
  | some .viewCamera =>
    if out.permission "enable-camera" then (s.modify ({ · with viewCamera := true }), true)
    else (s.loginError "No permission of viewing camera", false)
  | some (.portForward host port) =>
    if out.permission "enable-tunnel" then
      let isRdp := host = "RDP" && port = 0
      let host := if isRdp || host = "" then "localhost" else host
      let port := if isRdp then 3389 else port
      let addr := host ++ ":" ++ toString port
      let s := s.modify ({ · with portForwardAddress := addr })
      if out.connects addr then (s.modify ({ · with portForwardSocket := true }), true)
      else
        let addr := if isRdp then "RDP" else addr
        (s.loginError
          s!"Could not connect to {addr}. Make sure the service is running on that port.", false)
    else (s.loginError "TCP Tunneling is not enabled on the remote machine", false)
  | some (.terminal serviceId) =>
    if out.permission "enable-terminal" then
      let s := s.modify ({ · with terminal := true })
      let serviceId := if serviceId = "" then out.generateServiceId else serviceId
      match TerminalServices.getOrCreateService s.globals.terminals serviceId false false with
      | .error e => (s.loginError s!"Failed to create terminal service: {e}", false)
      | .ok terminals =>
        ((s.onGlobals ({ · with terminals := terminals })).modify
          ({ · with terminalServiceId := serviceId }), true)
    else (s.loginError "Terminal is not enabled on the remote machine", false)
  | none =>
    if out.isInPrivacyMode then (s.loginError "Someone turned on privacy mode, exiting.", false)
    else (s, true)

/-- The user at the host has to click, whatever the password. -/
def clickOnly (out : Outside) : Bool :=
  out.approveMode = .click && !(out.allowLogonScreenPassword && out.isLogon) ||
    out.approveMode = .both && !out.hasValidPassword

/-- The error of a login while the desktop session is not ready, or the other one. -/
def loginErrorWith (errMsg other notReady : String) : State :=
  s.loginError (if errMsg = "" then other else notReady)

/-- The password check of a login request, and what follows from it. -/
def checkPassword (out : Outside) (errMsg : String) : State :=
  let (failure, refusal) := s.checkFailure out 0
  match refusal with
  | some r => s.loginError r.text
  | none =>
    let ok := s.validatePassword out
    let s := (s.afterPassword out).updateFailure failure ok 0
    if !ok then
      s.loginErrorWith errMsg "Wrong Password" "Desktop session not ready, password wrong"
    else if errMsg = "" then s.sendLogonResponse out
    else s.loginError errMsg

/-- The password of the last login request passes. -/
def passes (out : Outside) : Bool :=
  s.isRecentSession out false ||
    !s.conn.lr.password.isEmpty && (s.checkFailure out 0).2.isNone && s.validatePassword out

/-- A login request once its kind is set up. False where the loop ends. -/
def checkLogin (out : Outside) (lr : LoginRequest) : State × Bool :=
  let errMsg := out.tryStartDesktop
  if errMsg ≠ "" && errMsg ≠ "Desktop session not ready" then (s.loginError errMsg, true)
  else if !out.addressesHost lr.username then (s.loginError "Offline", false)
  else if clickOnly out then
    if getVersionNumber lr.version ≥ getVersionNumber "1.2.0" then
      (s.loginError "No Password Access", true)
    else (s, true)
  else
    let recent := s.isRecentSession out false
    let s := s.setSessions (s.recentSessions out)
    if recent then (if errMsg = "" then s.sendLogonResponse out else s.loginError errMsg, true)
    else if lr.password.isEmpty then
      (if errMsg = "" then s else s.loginError "Desktop session not ready, password empty", true)
    else (s.checkPassword out errMsg, true)

/-- `LoginRequest`. -/
def onLoginRequest (out : Outside) (lr : LoginRequest) : State × Bool :=
  let s := s.handleLoginRequestWithoutValidation out lr
  if s.conn.authorized then (s, true)
  else
    match s.setUpLogin out lr.union with
    | (s, true) => s.checkLogin out lr
    | (s, false) => (s, false)

/-- `Auth2fa`. -/
def onAuth2fa (out : Outside) (code : String) : State :=
  let (failure, refusal) := s.checkFailure out 1
  match refusal with
  | some r => s.loginError r.text
  | none =>
    match s.conn.require2fa.bind (out.checkCurrent · code) with
    | some true =>
      let s := (s.updateFailure failure true 1).modify ({ · with require2fa := none })
      (s.setSession2fa s.conn.sessionKey).sendLogonResponse out
    | some false => (s.updateFailure failure false 1).loginError "Wrong 2FA Code"
    | none => s

/-- A code of the second factor is accepted. -/
def acceptsCode (out : Outside) (code : String) : Bool :=
  (s.checkFailure out 1).2.isNone &&
    s.conn.require2fa.bind (out.checkCurrent · code) = some true

/-- The UUID stored for a peer id, while it is less than ten seconds old. -/
def storedUuid (out : Outside) (id : String) : Option (List UInt8) :=
  if out.uuidAge id < 10 then s.globals.switchSidesUuid id else none

/-- `SwitchSidesResponse`. -/
def onSwitchSidesResponse (out : Outside) (uuid : List UInt8) (lr : LoginRequest) : State :=
  let stored := s.storedUuid out lr.myId
  let s := (s.handleLoginRequestWithoutValidation out lr).onGlobals fun g => { g with
    switchSidesUuid := fun id =>
      if id = lr.myId ∨ ¬ out.uuidAge id < 10 then none else g.switchSidesUuid id }
  if uuid.length = 16 ∧ stored = some uuid then
    (s.modify ({ · with fromSwitch := true })).sendLogonResponse out
  else s

/-! ## Displays -/

/-- `display as usize`. -/
def asUsize (display : Int) : Nat := (display % 2 ^ 64).toNat

/-- `switch_display_to`. -/
def switchDisplayTo (displayIdx : Nat) : State :=
  let source := s.conn.videoSource
  let s' := s.onServer fun server =>
    if displayIdx ≠ s.settings.primaryDisplayIdx then server.ensureVideoService source displayIdx
    else server
  let s' := if isSupportMultiUiSession s.conn.lr.version then s'
    else s'.subscribe (.video source s.conn.displayIdx) false
  (s'.subscribe (.video source displayIdx) true).modify ({ · with displayIdx := displayIdx })

/-- `handle_switch_display`. -/
def handleSwitchDisplay (display : Int) : State :=
  if s.conn.displayIdx ≠ asUsize display then s.switchDisplayTo (asUsize display) else s

/-- `capture_displays`. -/
def captureDisplays (add sub set : List Int) : State :=
  let source := s.conn.videoSource
  let add := add.map asUsize
  let sub := sub.map asUsize
  let set := set.map asUsize
  let s := s.onServer fun server =>
    (add ++ set).foldl (fun server display => server.ensureVideoService source display) server
  let s := s.onServer fun server =>
    if !add.isEmpty then server.captureDisplays s.connInner source add true false
    else if !sub.isEmpty then server.captureDisplays s.connInner source sub false true
    else server.captureDisplays s.connInner source set true true
  let s := s.modify fun c =>
    { c with multiUiSession := s.globals.server.getSubbedDisplaysCount s.settings.id > 1 }
  if s.conn.followRemoteWindow then s.subscribe .windowFocus !s.conn.multiUiSession else s

/-! ## Voice calls -/

/-- `handle_voice_call`. -/
def handleVoiceCall (accepted : Bool) : State :=
  if s.conn.voiceCallRequested then
    let s := s.tell (.voiceCallResponse accepted)
    let s := s.modify ({ · with voiceCallRequested := false, voiceCalling := accepted })
    if s.conn.isAuthedViewCameraConn then s.subscribe .audio (s.conn.audioEnabled && accepted)
    else s
  else s

/-- `close_voice_call`. -/
def closeVoiceCall : State :=
  let s := s.modify ({ · with voiceCalling := false })
  if s.conn.isAuthedViewCameraConn then s.subscribe .audio false else s

/-! ## The end of a connection -/

/-- `on_close`. -/
def onClose : State :=
  if s.conn.closed then s
  else
    let s := s.modify ({ · with closed := true, portForwardSocket := false })
    if s.conn.terminal && s.conn.terminalServiceId ≠ "" then
      s.onGlobals fun g => { g with
        terminals := TerminalServices.onDisconnect g.terminals s.conn.terminalServiceId }
    else s

/-- `try_port_forward_loop`, run to its end, and what follows from that. -/
def tryPortForwardLoop : State :=
  if s.conn.portForwardSocket then
    ((s.modify ({ · with portForwardSocket := false })).onClose).checkRemoveSession
  else s

/-- What `start` does after its loop. -/
def endLoop : State :=
  let s := s.tryPortForwardLoop
  let s := (s.onServer (·.removeConnection s.connInner)).onClose
  let s := s.onGlobals fun g => { g with
    authedConns := g.authedConns.filter (·.1 ≠ s.settings.id) }
  { s with running := false }

/-! ## Messages -/

/-- What `on_message` does with a message of an authorized connection. False where the loop ends. -/
def onAuthorizedMessage (out : Outside) : Message → State × Bool
  | .switchDisplay display => (s.handleSwitchDisplay display, true)
  | .captureDisplays add sub set => (s.captureDisplays add sub set, true)
  | .option o => (s.updateOptions o, true)
  | .closeReason _ => (s.onClose.checkRemoveSession, false)
  | .switchSidesRequest uuid => if uuid.length = 16 then (s.onClose, false) else (s, true)
  | .voiceCallRequest isConnect =>
    if isConnect then (s.modify ({ · with voiceCallRequested := true }), true)
    else (s.closeVoiceCall, true)
  | .terminalAction action =>
    if s.conn.terminal then
      (s.onGlobals fun g => { g with
        terminals := TerminalServices.handleAction g.terminals s.conn.terminalServiceId out.spawn
          action }, true)
    else (s, true)
  | _ => (s, true)

/-- `on_message`. False where the loop ends. -/
def onMessage (out : Outside) (msg : Message) : State × Bool :=
  match msg with
  | .loginRequest lr => s.onLoginRequest out lr
  | .auth2fa code => (s.onAuth2fa out code, true)
  | .inviteRequest _ _ passwordToConnect =>
    (s.modify ({ · with pendingInvitePassword := some passwordToConnect }), true)
  | .switchSidesResponse uuid lr =>
    match lr with
    | some lr => (s.onSwitchSidesResponse out uuid lr, true)
    | none => (s, true)
  | msg =>
    if s.conn.authorized && !s.conn.portForwardSocket then s.onAuthorizedMessage out msg
    else (s, true)

/-- A message of the peer, and the end of the loop where it comes to that. -/
def onPeer (out : Outside) (msg : Message) : State :=
  match s.onMessage out msg with
  | (s, false) => s.endLoop
  | (s, true) =>
    if s.conn.portForwardSocket && s.conn.authorized && out.noTestDelay then s.endLoop else s

/-- A message of the connection manager. -/
def onCm (out : Outside) : CmData → State
  | .authorize =>
    let s := (s.modify ({ · with require2fa := none })).sendLogonResponse out
    if s.conn.portForwardSocket then s.endLoop else s
  | .close =>
    (s.tell (.closeReason "The remote partner has closed the session.")).onClose.endLoop
  | .inviteResponse accepted =>
    let s := s.tell (.inviteResponse accepted)
    if accepted then s else s.onClose.endLoop
  | .cmErr err => if err = "expected" then s else s.onClose.endLoop
  | .switchPermission name enabled => s.switchPermission name enabled
  | .voiceCallResponse accepted => s.handleVoiceCall accepted
  | .closeVoiceCall => s.closeVoiceCall.tell (.voiceCallRequest false)
  | .other => s

end State

/-! ## Runs -/

/-- What happens to a connection. -/
inductive Event
  | cm (out : Outside) (data : CmData)
  | peer (out : Outside) (msg : Message)
  /-- The stream ends or fails, or a timer of the loop closes the connection. -/
  | lost
  /-- A service asks for the stop of the connection. -/
  | stopService
  /-- `terminal_timer`. -/
  | terminalTick (out : Outside)
  /-- Another connection, a service or the clock changes what is shared. -/
  | elsewhere (globals : Globals)

/-- What can happen elsewhere: the subscriptions of this connection are left alone, and the services
stay. -/
structure Globals.Elsewhere (id : Int) (g g' : Globals) : Prop where
  isSubed : ∀ name, g'.server.IsSubed name id ↔ g.server.IsSubed name id
  contains : ∀ name, g.server.Contains name → g'.server.Contains name

namespace State

/-- The loop takes an event while it goes on. -/
def Can (s : State) : Event → Prop
  | .elsewhere globals => s.globals.Elsewhere s.settings.id globals
  | _ => s.running = true

def next (s : State) : Event → State
  | .cm out data => s.onCm out data
  | .peer out msg => s.onPeer out msg
  | .lost => s.onClose.endLoop
  | .stopService =>
    ((s.tell (.closeReason "Closed manually by the peer")).checkRemoveSession).onClose.endLoop
  | .terminalTick out =>
    if s.conn.terminal && s.conn.authorized && s.conn.terminalServiceId ≠ "" then
      s.onGlobals fun g => { g with
        terminals := TerminalServices.readOutputs g.terminals s.conn.terminalServiceId out.finished }
    else s
  | .elsewhere globals => { s with globals := globals }

/-- A connection whose loop begins. Its number is new, so it is subscribed to nothing. -/
structure Fresh (s : State) : Prop where
  conn : ∃ out require2fa, s.conn = .new s.settings out require2fa
  unsubed : ∀ name, ¬ s.globals.server.IsSubed name s.settings.id
  running : s.running = true

/-- The runs of a connection. -/
def system : System State Event where
  init := Fresh
  step s e s' := Can s e ∧ s' = next s e

end State

end HopToDesk.Host
