import HopToDesk.Laws.Host.Subscriptions

/-!
# What the login handlers do

A login touches a connection in three ways. Most of what a handler does is beside the point: errors
it sends, sessions and failures it counts (`Beside`). What the kind of the request sets up is a few
fields (`setUpLogin_conn`). The rest is one call of `sendLogonResponse`, and each handler is taken
apart into what leads up to that call.
-/

set_option autoImplicit false

namespace HopToDesk.Host

/-- A connection without the fields that the kind of a login request sets up and those that its end
does. -/
def Connection.core (c : Connection) : Connection :=
  { c with
    fileTransfer := none
    viewCamera := false
    terminal := false
    portForwardSocket := false
    portForwardAddress := ""
    closed := false
    terminalServiceId := "" }

namespace State

/-- The two states differ in nothing but the messages sent, the sessions, the failures and who else
is authorized. -/
structure Beside (s s' : State) : Prop where
  settings : s'.settings = s.settings
  conn : s'.conn = s.conn
  server : s'.globals.server = s.globals.server
  terminals : s'.globals.terminals = s.globals.terminals

namespace Beside

variable {s s' s'' : State}

theorem refl (s : State) : Beside s s := ⟨rfl, rfl, rfl, rfl⟩

theorem trans (h : Beside s s') (h' : Beside s' s'') : Beside s s'' where
  settings := h'.settings.trans h.settings
  conn := h'.conn.trans h.conn
  server := h'.server.trans h.server
  terminals := h'.terminals.trans h.terminals

theorem subed (h : Beside s s') (n : ServiceName) : s'.Subed n ↔ s.Subed n := by
  rw [Subed, Subed, h.server, h.settings]

theorem tell (h : Beside s s') (r : Reply) : Beside s (s'.tell r) :=
  h.trans ⟨rfl, rfl, rfl, rfl⟩

theorem loginError (h : Beside s s') (e : String) : Beside s (s'.loginError e) := h.tell _

theorem setSessions (h : Beside s s') (sessions : SessionKey → Option Session) :
    Beside s (s'.setSessions sessions) :=
  h.trans ⟨rfl, rfl, rfl, rfl⟩

theorem updateFailure (h : Beside s s') (failure : Failure × Int) (remove : Bool) (i : Fin 2) :
    Beside s (s'.updateFailure failure remove i) :=
  h.trans ⟨rfl, rfl, rfl, rfl⟩

theorem afterPassword (h : Beside s s') (out : Outside) : Beside s (s'.afterPassword out) := by
  unfold State.afterPassword
  split
  · exact h
  · split
    · exact h.setSessions _
    · exact h

theorem afterSecondFactor (h : Beside s s') (out : Outside) :
    Beside s (s'.afterSecondFactor out) := by
  unfold State.afterSecondFactor
  split
  · exact h.setSessions _
  · exact h

theorem checkRemoveSession (h : Beside s s') : Beside s s'.checkRemoveSession := by
  unfold State.checkRemoveSession
  dsimp only
  split
  · exact h
  · split
    · exact h.setSessions _
    · exact h

end Beside

variable (s : State) (out : Outside)

/-! ## `send_logon_response` -/

@[simp]
theorem authorized_updateOptions (o : OptionMessage) :
    (s.updateOptions o).conn.authorized = s.conn.authorized := by
  rw [conn_updateOptions]
  rfl

@[simp]
theorem authorized_takeOptionsInLogin :
    s.takeOptionsInLogin.conn.authorized = s.conn.authorized := by
  unfold takeOptionsInLogin
  split
  · exact authorized_updateOptions _ _
  · rfl

@[simp]
theorem authorized_trySubMonitorServices :
    s.trySubMonitorServices.conn.authorized = s.conn.authorized := by
  unfold trySubMonitorServices
  split
  · rfl
  · rfl

@[simp]
theorem authorized_subscribeOnLogin (subService : Bool) :
    (s.subscribeOnLogin out subService).conn.authorized = s.conn.authorized := by
  unfold subscribeOnLogin
  split
  · rfl
  · split
    · rfl
    · split
      · exact authorized_trySubMonitorServices s
      · rfl

@[simp]
theorem authorized_enter : (s.enter out).conn.authorized = true := by
  unfold enter
  dsimp only
  split
  · rfl
  · split
    · rfl
    · rw [authorized_subscribeOnLogin, authorized_takeOptionsInLogin]
      split
      · rfl
      · rfl

/-- Either the connection is let in, or it stays as it is and is perhaps asked for the second
factor. -/
theorem sendLogonResponse_cases :
    (s.lacksSecondFactor out = false ∧ s.conn.authorized = false ∧
        s.sendLogonResponse out = s.enter out) ∨
      (s.conn.authorized = true ∨ s.lacksSecondFactor out = true) ∧
        Beside s (s.sendLogonResponse out) := by
  unfold sendLogonResponse
  cases hauth : s.conn.authorized with
  | true => exact .inr ⟨.inl rfl, .refl s⟩
  | false =>
    cases hlacks : s.lacksSecondFactor out with
    | true => exact .inr ⟨.inr rfl, ((Beside.refl s).afterSecondFactor out).loginError _⟩
    | false => exact .inl ⟨rfl, rfl, rfl⟩

/-! ## Login requests -/

/-- The kind of a login request sets up its fields, and perhaps a terminal service. -/
structure SetUp (s s' : State) : Prop where
  settings : s'.settings = s.settings
  ip : s'.ip = s.ip
  conn : s'.conn.core = s.conn.core
  server : s'.globals.server = s.globals.server
  sessions : s'.globals.sessions = s.globals.sessions
  loginFailures : s'.globals.loginFailures = s.globals.loginFailures

theorem setUpLogin_spec (union : Option LoginUnion) : SetUp s (s.setUpLogin out union).1 := by
  unfold setUpLogin
  cases union with
  | none => dsimp only; split <;> exact ⟨rfl, rfl, rfl, rfl, rfl, rfl⟩
  | some union =>
    cases union with
    | fileTransfer dir showHidden => dsimp only; split <;> exact ⟨rfl, rfl, rfl, rfl, rfl, rfl⟩
    | viewCamera => dsimp only; split <;> exact ⟨rfl, rfl, rfl, rfl, rfl, rfl⟩
    | portForward host port =>
      dsimp only
      split
      · split <;> split <;> split <;> exact ⟨rfl, rfl, rfl, rfl, rfl, rfl⟩
      · exact ⟨rfl, rfl, rfl, rfl, rfl, rfl⟩
    | terminal serviceId =>
      dsimp only
      split
      · split <;> exact ⟨rfl, rfl, rfl, rfl, rfl, rfl⟩
      · exact ⟨rfl, rfl, rfl, rfl, rfl, rfl⟩

namespace SetUp

variable {s s' : State}

theorem subed (h : SetUp s s') (n : ServiceName) : s'.Subed n ↔ s.Subed n := by
  rw [Subed, Subed, h.server, h.settings]

end SetUp

/-! ### The password -/

/-- A login request gets to the password check. -/
def getsToPassword (lr : LoginRequest) : Bool :=
  !(out.tryStartDesktop ≠ "" && out.tryStartDesktop ≠ "Desktop session not ready") &&
    out.addressesHost lr.username && !clickOnly out

/-- A password check that makes a session makes one without a second factor. -/
theorem isRecentSession_afterPassword (h : (s.afterPassword out).isRecentSession out true = true) :
    s.isRecentSession out true = true := by
  revert h
  unfold afterPassword
  split
  · exact id
  · split
    · intro h
      by_cases hidle : out.sessionIdle s.conn.sessionKey < 30
      · simp [isRecentSession, recentSessions, updateOrInsertSession, setSessions, hidle] at h
      · simp [isRecentSession, recentSessions, updateOrInsertSession, setSessions, hidle] at h
    · exact id

/-- The password check of a login request comes to `sendLogonResponse` only when the password
passes. -/
theorem checkPassword_cases (errMsg : String) :
    Beside s (s.checkPassword out errMsg) ∨
      (s.checkFailure out 0).2.isNone = true ∧ s.validatePassword out = true ∧
        ∃ failure, s.checkPassword out errMsg =
          ((s.afterPassword out).updateFailure failure true 0).sendLogonResponse out := by
  unfold checkPassword
  cases hrefusal : (s.checkFailure out 0).2 with
  | some r =>
    refine .inl ?_
    simp only [hrefusal]
    exact (Beside.refl s).loginError _
  | none =>
    simp only [hrefusal]
    have hbeside (failure : Failure × Int) (ok : Bool) :
        Beside s ((s.afterPassword out).updateFailure failure ok 0) :=
      ((Beside.refl s).afterPassword out).updateFailure failure ok 0
    cases hok : s.validatePassword out with
    | false => exact .inl ((hbeside _ _).loginError _)
    | true =>
      by_cases herr : errMsg = ""
      · refine .inr ⟨rfl, rfl, (s.checkFailure out 0).1, ?_⟩
        simp only [herr, Bool.not_true, Bool.false_eq_true, if_false, if_true]
      · refine .inl ?_
        simp only [herr, Bool.not_true, Bool.false_eq_true, if_false]
        exact (hbeside _ _).loginError _

/-- A login request comes to `sendLogonResponse` only when its password passes. By then only
sessions and failures differ, and no session has gained a second factor. -/
theorem checkLogin_cases {lr : LoginRequest} (hlr : s.conn.lr = lr) :
    Beside s (s.checkLogin out lr).1 ∨
      getsToPassword out lr = true ∧ s.passes out = true ∧ ∃ t, Beside s t ∧
        (t.isRecentSession out true = true → s.isRecentSession out true = true) ∧
        s.checkLogin out lr = (t.sendLogonResponse out, true) := by
  have hself := Beside.refl s
  unfold checkLogin
  dsimp only
  split
  · exact .inl (hself.loginError _)
  next hdesktop =>
  split
  · exact .inl (hself.loginError _)
  next hhost =>
  split
  · split
    · exact .inl (hself.loginError _)
    · exact .inl hself
  next hclick =>
  have hgets : getsToPassword out lr = true := by
    simp only [Bool.not_eq_true, Bool.not_eq_false'] at hdesktop hhost hclick
    simp only [getsToPassword, hdesktop, hhost, hclick, Bool.not_false, Bool.and_self]
  have hsessions : Beside s (s.setSessions (s.recentSessions out)) := hself.setSessions _
  have hrecent (tfa : Bool) : (s.setSessions (s.recentSessions out)).isRecentSession out tfa =
      s.isRecentSession out tfa := by
    have h : (s.setSessions (s.recentSessions out)).recentSessions out = s.recentSessions out := by
      funext key
      by_cases hidle : out.sessionIdle key < 30
      · simp only [recentSessions, setSessions, onGlobals, hidle, if_true]
      · simp only [recentSessions, hidle, if_false]
    simp only [isRecentSession, h]
    rfl
  split
  next hfirst =>
    split
    · refine .inr ⟨hgets, by simp only [passes, hfirst, Bool.true_or], _, hsessions, ?_, rfl⟩
      intro h
      rwa [hrecent] at h
    · exact .inl (hsessions.loginError _)
  split
  · split
    · exact .inl hsessions
    · exact .inl (hsessions.loginError _)
  next hpassword =>
    obtain h | ⟨hrefusal, hvalid, failure, h⟩ :=
      (s.setSessions (s.recentSessions out)).checkPassword_cases out out.tryStartDesktop
    · exact .inl (hsessions.trans h)
    · refine .inr ⟨hgets, ?_, _, (hsessions.afterPassword out).updateFailure failure true 0, ?_, ?_⟩
      · have hrefusal' : (s.checkFailure out 0).2.isNone = true := hrefusal
        have hvalid' : s.validatePassword out = true := hvalid
        simp only [passes, hlr, hpassword, hrefusal', hvalid', Bool.not_false, Bool.and_self,
          Bool.or_true]
      · intro hr
        rw [← hrecent]
        exact isRecentSession_afterPassword _ out hr
      · rw [h]

/-- The password of this login request is checked, and passes. -/
def passesPassword (lr : LoginRequest) : Bool :=
  let (s, ok) := (s.handleLoginRequestWithoutValidation out lr).setUpLogin out lr.union
  ok && getsToPassword out lr && s.passes out

/-- A login request of a connection that is not authorized: once it is set up, it comes to
`sendLogonResponse` only when its password passes. -/
theorem onLoginRequest_cases {s : State} (hauth : s.conn.authorized = false) (lr : LoginRequest) :
    let t₀ := ((s.handleLoginRequestWithoutValidation out lr).setUpLogin out lr.union).1
    Beside t₀ (s.onLoginRequest out lr).1 ∨
      s.passesPassword out lr = true ∧ ∃ t, Beside t₀ t ∧
        (t.isRecentSession out true = true → t₀.isRecentSession out true = true) ∧
        s.onLoginRequest out lr = (t.sendLogonResponse out, true) := by
  intro t₀
  have hauth' : (s.handleLoginRequestWithoutValidation out lr).conn.authorized = false := hauth
  have hlr : t₀.conn.lr = lr :=
    congrArg Connection.lr (setUpLogin_spec _ out lr.union).conn
  unfold onLoginRequest
  dsimp only
  rw [if_neg (by simp only [hauth', Bool.false_eq_true, not_false_eq_true])]
  cases hset : (s.handleLoginRequestWithoutValidation out lr).setUpLogin out lr.union with
  | mk t ok =>
    have ht : t₀ = t := congrArg Prod.fst hset
    subst ht
    cases ok with
    | false => exact .inl (.refl _)
    | true =>
      obtain h | ⟨hgets, hpasses, t, hbeside, hrecent, h⟩ := t₀.checkLogin_cases out hlr
      · exact .inl h
      · refine .inr ⟨?_, t, hbeside, hrecent, h⟩
        simp only [passesPassword, hset, hgets, hpasses, Bool.and_self]

/-! ## The other two ways in -/

/-- An accepted code is taken for the second factor, and that is all `sendLogonResponse` asks for. -/
theorem onAuth2fa_cases (code : String) :
    Beside s (s.onAuth2fa out code) ∧ s.acceptsCode out code = false ∨
      s.acceptsCode out code = true ∧
        ∃ t, Beside (s.modify ({ · with require2fa := none })) t ∧
          s.onAuth2fa out code = t.sendLogonResponse out := by
  have hself := Beside.refl s
  unfold onAuth2fa acceptsCode
  dsimp only
  cases hrefusal : (s.checkFailure out 1).2 with
  | some r => exact .inl ⟨hself.loginError _, rfl⟩
  | none =>
    dsimp only
    cases hcode : s.conn.require2fa.bind (out.checkCurrent · code) with
    | none => exact .inl ⟨hself, rfl⟩
    | some ok =>
      cases ok with
      | false => exact .inl ⟨(hself.updateFailure _ _ _).loginError _, rfl⟩
      | true =>
        let t := (s.updateFailure (s.checkFailure out 1).1 true 1).modify
          ({ · with require2fa := none })
        refine .inr ⟨rfl, t.setSession2fa t.conn.sessionKey, ?_, rfl⟩
        exact (Beside.mk rfl rfl rfl rfl : Beside (s.modify ({ · with require2fa := none })) t).setSessions _

/-- The UUID of a `SwitchSidesResponse` is the one stored for the id of the peer. -/
def switches (uuid : List UInt8) (lr : LoginRequest) : Bool :=
  uuid.length = 16 ∧ s.storedUuid out lr.myId = some uuid

/-- The sides are switched when the UUID is the one stored. The login request that comes with it is
taken over in any case. -/
theorem onSwitchSidesResponse_cases (uuid : List UInt8) (lr : LoginRequest) :
    let t₀ := s.handleLoginRequestWithoutValidation out lr
    s.switches out uuid lr = false ∧ Beside t₀ (s.onSwitchSidesResponse out uuid lr) ∨
      s.switches out uuid lr = true ∧ ∃ t, Beside (t₀.modify ({ · with fromSwitch := true })) t ∧
        s.onSwitchSidesResponse out uuid lr = t.sendLogonResponse out := by
  unfold onSwitchSidesResponse switches
  dsimp only
  split
  next h =>
    refine .inr ⟨decide_eq_true h, _, ?_, rfl⟩
    exact ⟨rfl, rfl, rfl, rfl⟩
  next h => exact .inl ⟨decide_eq_false h, ⟨rfl, rfl, rfl, rfl⟩⟩

/-! ## The end -/

theorem onClose_spec :
    s.onClose.settings = s.settings ∧ s.onClose.conn.core = s.conn.core ∧
      s.onClose.globals.server = s.globals.server := by
  unfold onClose
  split
  · exact ⟨rfl, rfl, rfl⟩
  · dsimp only
    split
    · exact ⟨rfl, rfl, rfl⟩
    · exact ⟨rfl, rfl, rfl⟩

theorem tryPortForwardLoop_spec :
    s.tryPortForwardLoop.settings = s.settings ∧ s.tryPortForwardLoop.conn.core = s.conn.core := by
  unfold tryPortForwardLoop
  split
  · have hbeside := (Beside.refl (s.modify ({ · with portForwardSocket := false })).onClose).checkRemoveSession
    obtain ⟨hsettings, hcore, -⟩ := (s.modify ({ · with portForwardSocket := false })).onClose_spec
    exact ⟨hbeside.settings.trans hsettings, (congrArg _ hbeside.conn).trans hcore⟩
  · exact ⟨rfl, rfl⟩

/-- The end of the loop leaves the connection unsubscribed. -/
theorem endLoop_spec :
    s.endLoop.settings = s.settings ∧ s.endLoop.conn.core = s.conn.core ∧
      ∀ n, ¬ s.endLoop.Subed n := by
  obtain ⟨hsettings, hcore⟩ := s.tryPortForwardLoop_spec
  let t := s.tryPortForwardLoop.onServer (·.removeConnection s.tryPortForwardLoop.connInner)
  obtain ⟨hsettings', hcore', hserver'⟩ := t.onClose_spec
  refine ⟨hsettings'.trans hsettings, hcore'.trans hcore, ?_⟩
  intro n h
  have hid : t.onClose.settings.id = s.tryPortForwardLoop.connInner.id := by rw [hsettings']; rfl
  have h' : t.onClose.globals.server.IsSubed n t.onClose.settings.id := h
  rw [hserver', hid] at h'
  exact Server.isSubed_removeConnection _ _ h'

/-! ## Once authorized, always authorized -/

section Authorized

variable {s}

theorem authorized_onClose (h : s.conn.authorized = true) : s.onClose.conn.authorized = true :=
  (congrArg Connection.authorized s.onClose_spec.2.1).trans h

theorem authorized_endLoop (h : s.conn.authorized = true) : s.endLoop.conn.authorized = true :=
  (congrArg Connection.authorized s.endLoop_spec.2.1).trans h

theorem authorized_switchPermission (name : String) (enabled : Bool) :
    (s.switchPermission name enabled).conn.authorized = s.conn.authorized := by
  rw [conn_switchPermission, Connection.withPermission]
  repeat' split
  all_goals rfl

theorem authorized_handleVoiceCall (accepted : Bool) :
    (s.handleVoiceCall accepted).conn.authorized = s.conn.authorized := by
  unfold handleVoiceCall
  split
  · dsimp only
    split
    · rfl
    · rfl
  · rfl

theorem authorized_closeVoiceCall :
    s.closeVoiceCall.conn.authorized = s.conn.authorized := by
  unfold closeVoiceCall
  dsimp only
  split
  · rfl
  · rfl

theorem authorized_handleSwitchDisplay (display : Int) :
    (s.handleSwitchDisplay display).conn.authorized = s.conn.authorized := by
  unfold handleSwitchDisplay switchDisplayTo
  split
  · dsimp only
    split <;> split <;> rfl
  · rfl

theorem authorized_captureDisplays (add sub set : List Int) :
    (s.captureDisplays add sub set).conn.authorized = s.conn.authorized := by
  have hfocus (t : State) : (if t.conn.followRemoteWindow = true then
      t.subscribe .windowFocus !t.conn.multiUiSession else t).conn = t.conn := by
    split <;> rfl
  unfold captureDisplays
  dsimp only
  rw [hfocus]
  rfl

theorem authorized_onAuthorizedMessage (out : Outside) (msg : Message)
    (h : s.conn.authorized = true) : (s.onAuthorizedMessage out msg).1.conn.authorized = true := by
  cases msg with
  | switchDisplay display => exact (authorized_handleSwitchDisplay display).trans h
  | captureDisplays add sub set => exact (authorized_captureDisplays add sub set).trans h
  | option o => exact (s.authorized_updateOptions o).trans h
  | closeReason =>
    exact (congrArg _ ((Beside.refl s.onClose).checkRemoveSession).conn).trans (authorized_onClose h)
  | switchSidesRequest uuid =>
    simp only [onAuthorizedMessage]
    split
    · exact authorized_onClose h
    · exact h
  | voiceCallRequest isConnect =>
    simp only [onAuthorizedMessage]
    split
    · exact h
    · exact authorized_closeVoiceCall.trans h
  | terminalAction action =>
    simp only [onAuthorizedMessage]
    split
    · exact h
    · exact h
  | _ => exact h

theorem authorized_onMessage (out : Outside) (msg : Message) (h : s.conn.authorized = true) :
    (s.onMessage out msg).1.conn.authorized = true := by
  cases msg with
  | loginRequest lr =>
    have h' : (s.handleLoginRequestWithoutValidation out lr).conn.authorized = true := h
    simp only [onMessage, onLoginRequest, h', if_true]
  | auth2fa code =>
    obtain ⟨hbeside, -⟩ | ⟨-, t, hbeside, heq⟩ := s.onAuth2fa_cases out code
    · exact (congrArg _ hbeside.conn).trans h
    · have ht : t.conn.authorized = true := (congrArg Connection.authorized hbeside.conn).trans h
      simp only [onMessage, heq, sendLogonResponse, ht, if_true]
  | inviteRequest => exact h
  | switchSidesResponse uuid lr =>
    cases lr with
    | none => exact h
    | some lr =>
      obtain ⟨-, hbeside⟩ | ⟨-, t, hbeside, heq⟩ := s.onSwitchSidesResponse_cases out uuid lr
      · exact (congrArg Connection.authorized hbeside.conn).trans h
      · have ht : t.conn.authorized = true := (congrArg Connection.authorized hbeside.conn).trans h
        simp only [onMessage, heq, sendLogonResponse, ht, if_true]
  | _ =>
    simp only [onMessage]
    split
    · exact authorized_onAuthorizedMessage out _ h
    · exact h

theorem authorized_onPeer (out : Outside) (msg : Message) (h : s.conn.authorized = true) :
    (s.onPeer out msg).conn.authorized = true := by
  have hmsg := authorized_onMessage out msg h
  unfold onPeer
  split
  next heq =>
    rw [heq] at hmsg
    exact authorized_endLoop hmsg
  next heq =>
    rw [heq] at hmsg
    split
    · exact authorized_endLoop hmsg
    · exact hmsg

theorem authorized_onCm (out : Outside) (data : CmData) (h : s.conn.authorized = true) :
    (s.onCm out data).conn.authorized = true := by
  cases data with
  | authorize =>
    have h' : (s.modify ({ · with require2fa := none })).conn.authorized = true := h
    simp only [onCm, sendLogonResponse, h', if_true]
    split
    · exact authorized_endLoop h'
    · exact h'
  | close => exact authorized_endLoop (authorized_onClose h)
  | inviteResponse accepted =>
    simp only [onCm]
    split
    · exact h
    · exact authorized_endLoop (authorized_onClose h)
  | cmErr err =>
    simp only [onCm]
    split
    · exact h
    · exact authorized_endLoop (authorized_onClose h)
  | switchPermission name enabled => exact (authorized_switchPermission name enabled).trans h
  | voiceCallResponse accepted => exact (authorized_handleVoiceCall accepted).trans h
  | closeVoiceCall => exact authorized_closeVoiceCall.trans h
  | other => exact h

theorem authorized_next (e : Event) (h : s.conn.authorized = true) :
    (s.next e).conn.authorized = true := by
  cases e with
  | cm out data => exact authorized_onCm out data h
  | peer out msg => exact authorized_onPeer out msg h
  | lost => exact authorized_endLoop (authorized_onClose h)
  | stopService =>
    have hbeside := (Beside.refl (s.tell (.closeReason "Closed manually by the peer"))).checkRemoveSession
    exact authorized_endLoop (authorized_onClose ((congrArg _ hbeside.conn).trans h))
  | terminalTick =>
    simp only [next]
    split
    · exact h
    · exact h
  | elsewhere => exact h

end Authorized

end State

/-! ## A plain host -/

/-- The settings of a host that restricts nothing. -/
def Settings.plain : Settings where
  id := 7
  salt := "salt"
  challenge := "challenge"
  sha256 := fun bytes => bytes
  primaryDisplayIdx := 0
  oneWayClipboardRedirection := false
  oneWayFileTransfer := false

/-- A minute in which everything is permitted and nothing is in the way. -/
def Outside.plain : Outside where
  time := 1
  permission _ := true
  enableTrustedDevices := false
  trustedDevices := []
  sessionIdle _ := 0
  uuidAge _ := 0
  isInPrivacyMode := false
  connects _ := false
  generateServiceId := "service"
  tryStartDesktop := ""
  addressesHost _ := true
  approveMode := .both
  allowLogonScreenPassword := false
  isLogon := false
  hasValidPassword := true
  ssoLogin := false
  validateSsoPassword _ := false
  hasTeamId := false
  checkToken _ := false
  temporaryPassword := none
  permanentPassword := none
  checkCurrent _ _ := none
  displayServerError := ""
  syncDisplaysError := none
  primaryCameraExists := false
  noTestDelay := false
  spawn := none
  finished := []

/-- The server of a host with the services a session uses. -/
def Server.plain : Server :=
  ((((Server.mk [] ∅).addService .audio true).addService .clipboard true).addService .fileClipboard
    true).addService .cursor true

/-- A new connection of the plain host. -/
def State.plain (require2fa : Option String) : State where
  settings := .plain
  ip := "10.0.0.2"
  conn := .new .plain .plain require2fa
  globals := ⟨.plain, fun _ => none, fun _ => none, fun _ _ => none, [], ∅⟩
  sent := []
  running := true

theorem State.fresh_plain (require2fa : Option String) : (State.plain require2fa).Fresh where
  conn := ⟨.plain, require2fa, rfl⟩
  unsubed n h := by
    obtain ⟨s, hs, -⟩ : (Server.mk [] ∅).IsSubed n 7 := by
      simp only [State.plain, Server.plain, Server.isSubed_addService] at h
      exact h.2.2.2.2
    cases hs
  running := rfl

end HopToDesk.Host
