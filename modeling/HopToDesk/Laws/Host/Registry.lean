import HopToDesk.Laws.Host.Login

/-!
# One connection and the sessions of the others

`SESSIONS` holds, by session key, who may return without a password. The key of a connection is not
stored: every use takes it from the latest `LoginRequest`, which the peer can send at any time. Here
is what a connection does to the registry, with the keys that are its own: those under which it has
passed its password check or been authorized.
-/

set_option autoImplicit false

namespace HopToDesk.Host

open Kit

def LoginRequest.sessionKey (lr : LoginRequest) : SessionKey := ⟨lr.myId, lr.myName, lr.sessionId⟩

/-- The session has received nothing for so long that `is_recent_session` drops it. -/
def Outside.TimedOut (out : Outside) (key : SessionKey) : Prop := ¬ out.sessionIdle key < 30

/-- What happens to a connection. `auto_disconnect_timer` closes it when nobody uses it. -/
inductive RegistryStep
  | event (e : Event)
  | autoDisconnect

/-- The step is not one of the connection. -/
def RegistryStep.isElsewhere : RegistryStep → Bool
  | .event (.elsewhere _) => true
  | _ => false

namespace State

variable (s : State)

def nextStep : RegistryStep → State
  | .event e => s.next e
  | .autoDisconnect =>
    let s := s.tell (.closeReason "Connection failed due to inactivity")
    s.checkRemoveSession.onClose.endLoop

def CanStep : RegistryStep → Prop
  | .event e => s.Can e
  | .autoDisconnect => s.running = true

/-- The latest `LoginRequest`, with the one that comes in this step. -/
def latestLr : RegistryStep → LoginRequest
  | .event (.peer _ (.loginRequest lr)) => lr
  | .event (.peer _ (.switchSidesResponse _ (some lr))) => lr
  | _ => s.conn.lr

def latestKey (step : RegistryStep) : SessionKey := (s.latestLr step).sessionKey

/-- The connection passes its password check. -/
def passesCheck : RegistryStep → Bool
  | .event (.peer out (.loginRequest lr)) => !s.conn.authorized && s.passesPassword out lr
  | _ => false

/-- It becomes authorized. -/
def enters (step : RegistryStep) : Bool :=
  !s.conn.authorized && (s.nextStep step).conn.authorized

/-- A code of the second factor is accepted, and the session marked. -/
def marksSession : RegistryStep → Bool
  | .event (.peer out (.auth2fa code)) => s.acceptsCode out code
  | _ => false

/-- The handler of this message comes to `check_remove_session`. -/
def closes : Message → Bool
  | .closeReason _ => s.conn.authorized && !s.conn.portForwardSocket
  | _ => false

/-- The step comes to `check_remove_session`: the peer gives a reason for its close, the connection
gives one to the peer, or the loop ends with a socket to forward. -/
def removesSession : RegistryStep → Bool
  | .autoDisconnect => true
  | .event .stopService => true
  | .event (.peer out msg) =>
    let (t, ok) := s.onMessage out msg
    s.closes msg || (!ok || t.conn.authorized && out.noTestDelay) && t.conn.portForwardSocket
  | .event (.cm out .authorize) =>
    ((s.modify ({ · with require2fa := none })).sendLogonResponse out).conn.portForwardSocket
  | .event (.cm _ .close) => s.onClose.conn.portForwardSocket
  | .event (.cm _ (.inviteResponse accepted)) => !accepted && s.onClose.conn.portForwardSocket
  | .event (.cm _ (.cmErr err)) => err ≠ "expected" && s.onClose.conn.portForwardSocket
  | .event (.cm _ _) => false
  | .event .lost => s.onClose.conn.portForwardSocket
  | .event (.terminalTick _) => false
  | .event (.elsewhere _) => false

/-- The step may insert, mark or remove a session. -/
def touches (step : RegistryStep) : Bool :=
  s.passesCheck step || s.marksSession step || s.removesSession step

/-- The sessions that have timed out when this step looks for recent ones. -/
def TimedOut : RegistryStep → SessionKey → Prop
  | .event (.peer out _) => out.TimedOut
  | .event (.cm out _) => out.TimedOut
  | _ => fun _ => False

/-- The runs of a connection. -/
def registry : System State RegistryStep where
  init := Fresh
  step s step s' := s.CanStep step ∧ s' = s.nextStep step

/-- Along these steps the connection passed its password check under this key, or was authorized
under it. -/
def OwnIn (tr : List (State × RegistryStep)) (key : SessionKey) : Prop :=
  ∃ x ∈ tr, x.1.latestKey x.2 = key ∧ (x.1.passesCheck x.2 = true ∨ x.1.enters x.2 = true)

instance (tr : List (State × RegistryStep)) (key : SessionKey) : Decidable (OwnIn tr key) :=
  List.decidableBEx _ tr

/-! ## What a step does to the registry -/

section

variable {s s' s'' : State}

/-- The latest `LoginRequest` and the sessions stay. -/
structure Keeps (s s' : State) : Prop where
  lr : s'.conn.lr = s.conn.lr
  sessions : s'.globals.sessions = s.globals.sessions

namespace Keeps

theorem refl (s : State) : Keeps s s := ⟨rfl, rfl⟩

theorem trans (h : Keeps s s') (h' : Keeps s' s'') : Keeps s s'' :=
  ⟨h'.lr.trans h.lr, h'.sessions.trans h.sessions⟩

/-- From a state with the same two. -/
theorem from_eq {t : State} (h : Keeps t s') (hlr : t.conn.lr = s.conn.lr)
    (hsessions : t.globals.sessions = s.globals.sessions) : Keeps s s' :=
  ⟨h.lr.trans hlr, h.sessions.trans hsessions⟩

theorem option {f : State → Bool → State} (hf : ∀ (s : State) (b : Bool), Keeps s (f s b))
    (h : Keeps s s') (o : Option BoolOption) : Keeps s (s'.option o f) := by
  unfold State.option
  split
  · exact h.trans (hf _ _)
  · exact h

theorem subscribeAudio (s : State) : Keeps s s.subscribeAudio := by
  unfold State.subscribeAudio
  split
  · split
    · exact ⟨rfl, rfl⟩
    · exact ⟨rfl, rfl⟩
  · exact ⟨rfl, rfl⟩

theorem updateOptions (s : State) (o : OptionMessage) : Keeps s (s.updateOptions o) := by
  unfold State.updateOptions
  have h := ((((Keeps.refl s).option (fun _ _ => ⟨rfl, rfl⟩) o.lockAfterSessionEnd
    (f := setLockAfterSessionEnd)).option (f := setShowRemoteCursor) (fun _ _ => ⟨rfl, rfl⟩)
    o.showRemoteCursor).option (f := setFollowRemoteCursor) (fun _ _ => ⟨rfl, rfl⟩)
    o.followRemoteCursor).option (f := setFollowRemoteWindow) (fun _ _ => ⟨rfl, rfl⟩)
    o.followRemoteWindow
  have h := h.option (f := setDisableAudio)
    (fun s b => (subscribeAudio (s.modify ({ · with disableAudio := b }))).from_eq rfl rfl)
    o.disableAudio
  exact ((h.option (f := setEnableFileTransfer) (fun _ _ => ⟨rfl, rfl⟩) o.enableFileTransfer).option
    (f := setDisableClipboard) (fun _ _ => ⟨rfl, rfl⟩) o.disableClipboard).option
    (f := setDisableKeyboard) (fun _ _ => ⟨rfl, rfl⟩) o.disableKeyboard

theorem switchPermission (s : State) (name : String) (enabled : Bool) :
    Keeps s (s.switchPermission name enabled) := by
  unfold State.switchPermission
  split
  · exact ⟨rfl, rfl⟩
  split
  · exact ⟨rfl, rfl⟩
  split
  · dsimp only
    split
    · exact (subscribeAudio _).from_eq rfl rfl
    · exact ⟨rfl, rfl⟩
  iterate 4
    split
    · exact ⟨rfl, rfl⟩
  split
  · dsimp only
    split
    · exact ⟨rfl, rfl⟩
    · exact ⟨rfl, rfl⟩
  · exact .refl s

theorem handleVoiceCall (s : State) (accepted : Bool) : Keeps s (s.handleVoiceCall accepted) := by
  unfold State.handleVoiceCall
  split
  · dsimp only
    split
    · exact ⟨rfl, rfl⟩
    · exact ⟨rfl, rfl⟩
  · exact .refl s

theorem closeVoiceCall (s : State) : Keeps s s.closeVoiceCall := by
  unfold State.closeVoiceCall
  dsimp only
  split
  · exact ⟨rfl, rfl⟩
  · exact ⟨rfl, rfl⟩

theorem handleSwitchDisplay (s : State) (display : Int) :
    Keeps s (s.handleSwitchDisplay display) := by
  unfold State.handleSwitchDisplay State.switchDisplayTo
  split
  · dsimp only
    split <;> split <;> exact ⟨rfl, rfl⟩
  · exact .refl s

theorem captureDisplays (s : State) (add sub set : List Int) :
    Keeps s (s.captureDisplays add sub set) := by
  have hfocus (t : State) : Keeps t (if t.conn.followRemoteWindow = true then
      t.subscribe .windowFocus !t.conn.multiUiSession else t) := by
    split
    · exact ⟨rfl, rfl⟩
    · exact .refl t
  unfold State.captureDisplays
  exact (hfocus _).from_eq rfl rfl

theorem onClose (s : State) : Keeps s s.onClose := by
  refine ⟨(congrArg Connection.lr s.onClose_spec.2.1 :), ?_⟩
  unfold State.onClose
  split
  · rfl
  · dsimp only
    split
    · rfl
    · rfl

theorem takeOptionsInLogin (s : State) : Keeps s s.takeOptionsInLogin := by
  unfold State.takeOptionsInLogin
  split
  · exact (updateOptions _ _).from_eq rfl rfl
  · exact .refl s

theorem subscribeOnLogin (s : State) (out : Outside) (subService : Bool) :
    Keeps s (s.subscribeOnLogin out subService) := by
  unfold State.subscribeOnLogin
  split
  · exact .refl s
  split
  · exact ⟨rfl, rfl⟩
  split
  · unfold State.trySubMonitorServices
    split
    · exact ⟨rfl, rfl⟩
    · exact .refl s
  · exact .refl s

end Keeps

/-- From one state to the other, with this request the latest, its session is touched only where `P`
holds, and others only drop out when they have timed out. -/
structure Changes (timedOut : SessionKey → Prop) (lr : LoginRequest) (P : Prop) (s s' : State) :
    Prop where
  latest : s'.conn.lr = lr
  sessions : ∀ key, key = lr.sessionKey ∧ P ∨ s'.globals.sessions key = s.globals.sessions key ∨
    s'.globals.sessions key = none ∧ timedOut key

namespace Changes

variable {timedOut : SessionKey → Prop} {out : Outside} {lr : LoginRequest} {P Q : Prop}

theorem of_keeps (h : Keeps s s') (hlr : s.conn.lr = lr) : Changes timedOut lr P s s' where
  latest := h.lr.trans hlr
  sessions key := .inr (.inl (congrFun h.sessions key))

theorem mono (h : Changes timedOut lr P s s') (hPQ : P → Q) : Changes timedOut lr Q s s' where
  latest := h.latest
  sessions key := (h.sessions key).imp_left fun hkey => ⟨hkey.1, hPQ hkey.2⟩

theorem trans (h : Changes timedOut lr P s s') (h' : Changes timedOut lr P s' s'') :
    Changes timedOut lr P s s'' where
  latest := h'.latest
  sessions key := by
    rcases h'.sessions key with hkey | hsame | hdrop
    · exact .inl hkey
    · rw [hsame]
      exact h.sessions key
    · exact .inr (.inr hdrop)

theorem keeps (h : Changes timedOut lr P s s') (h' : Keeps s' s'') : Changes timedOut lr P s s'' :=
  h.trans (of_keeps h' h.latest)

/-- From a state with the same sessions. -/
theorem from_eq {t : State} (h : Changes timedOut lr P t s')
    (hsessions : t.globals.sessions = s.globals.sessions) : Changes timedOut lr P s s' :=
  ⟨h.latest, hsessions ▸ h.sessions⟩

/-- `is_recent_session` drops what has timed out. -/
theorem recentSessions (hlr : s.conn.lr = lr) :
    Changes out.TimedOut lr P s (s.setSessions (s.recentSessions out)) where
  latest := hlr
  sessions key := by
    by_cases hidle : out.sessionIdle key < 30
    · exact .inr (.inl (if_pos hidle))
    · exact .inr (.inr ⟨if_neg hidle, hidle⟩)

/-- A change of the entry of the connection's own key. -/
theorem update (hlr : s.conn.lr = lr) (hP : P) (session : Option Session) :
    Changes timedOut lr P s
      (s.setSessions (Function.update s.globals.sessions s.conn.sessionKey session)) where
  latest := hlr
  sessions key := by
    by_cases hkey : key = s.conn.sessionKey
    · rw [← hlr]
      exact .inl ⟨hkey, hP⟩
    · exact .inr (.inl (Function.update_of_ne hkey _ _))

theorem afterSecondFactor (hlr : s.conn.lr = lr) :
    Changes out.TimedOut lr P s (s.afterSecondFactor out) := by
  unfold State.afterSecondFactor
  split
  · exact recentSessions hlr
  · exact of_keeps (.refl s) hlr

theorem enter (hlr : s.conn.lr = lr) : Changes out.TimedOut lr P s (s.enter out) := by
  have h : Changes out.TimedOut lr P s (s.afterSecondFactor out) := afterSecondFactor hlr
  unfold State.enter
  dsimp only
  split
  · exact h.keeps ⟨rfl, rfl⟩
  split
  · exact h.keeps ⟨rfl, rfl⟩
  · refine h.keeps ?_
    refine Keeps.trans ?_ (Keeps.subscribeOnLogin _ _ _)
    refine (Keeps.takeOptionsInLogin _).from_eq ?_ ?_
    · split <;> rfl
    · split <;> rfl

theorem sendLogonResponse (hlr : s.conn.lr = lr) :
    Changes out.TimedOut lr P s (s.sendLogonResponse out) := by
  unfold State.sendLogonResponse
  split
  · exact of_keeps (.refl s) hlr
  split
  · exact (afterSecondFactor hlr).keeps ⟨rfl, rfl⟩
  · exact enter hlr

theorem checkRemoveSession (hlr : s.conn.lr = lr) (hP : P) :
    Changes timedOut lr P s s.checkRemoveSession := by
  unfold State.checkRemoveSession
  dsimp only
  split
  · exact of_keeps (.refl s) hlr
  split
  · exact update hlr hP none
  · exact of_keeps (.refl s) hlr

/-- The end of the loop removes a session where there is a socket to forward. -/
theorem endLoop (hlr : s.conn.lr = lr) (hP : s.conn.portForwardSocket = true → P) :
    Changes timedOut lr P s s.endLoop := by
  have h : Changes timedOut lr P s s.tryPortForwardLoop := by
    unfold State.tryPortForwardLoop
    split
    next hsocket =>
      have hclose := Keeps.onClose (s.modify ({ · with portForwardSocket := false }))
      exact (checkRemoveSession (hclose.lr.trans hlr) (hP hsocket)).from_eq hclose.sessions
    next => exact of_keeps (.refl s) hlr
  unfold State.endLoop
  have hclose := h.keeps ((Keeps.onClose (s.tryPortForwardLoop.onServer
    (·.removeConnection s.tryPortForwardLoop.connInner))).from_eq rfl rfl)
  exact hclose.keeps ⟨rfl, rfl⟩

end Changes

/-! ## Handlers -/

section

variable {out : Outside} {lr : LoginRequest}

theorem changes_afterPassword (hlr : s.conn.lr = lr) :
    Changes out.TimedOut lr (s.validatePassword out = true) s (s.afterPassword out) := by
  unfold afterPassword
  split
  · exact .of_keeps (.refl s) hlr
  next htoken =>
    split
    next password hmatches =>
      refine .update hlr ?_ _
      simp only [Bool.or_eq_true, not_or, Bool.not_eq_true] at htoken
      have hvalid : s.validatePassword out = ((s.matchesTemporary out).isSome ||
          (out.permanentPassword.filter s.validateOnePassword).isSome) := by
        unfold validatePassword
        dsimp only
        rw [htoken.1, htoken.2]
        rfl
      rw [hvalid, hmatches]
      rfl
    next => exact .of_keeps (.refl s) hlr

theorem changes_checkPassword (hlr : s.conn.lr = lr) (errMsg : String) :
    Changes out.TimedOut lr
      ((s.checkFailure out 0).2.isNone = true ∧ s.validatePassword out = true) s
      (s.checkPassword out errMsg) := by
  unfold checkPassword
  cases hrefusal : (s.checkFailure out 0).2 with
  | some r =>
    simp only [hrefusal]
    exact .of_keeps ⟨rfl, rfl⟩ hlr
  | none =>
    simp only [hrefusal]
    have hupdate (ok : Bool) : Changes out.TimedOut lr
        (true = true ∧ s.validatePassword out = true) s
        ((s.afterPassword out).updateFailure (s.checkFailure out 0).1 ok 0) :=
      ((changes_afterPassword hlr).mono fun h => ⟨rfl, h⟩).keeps ⟨rfl, rfl⟩
    split
    · exact (hupdate _).keeps ⟨rfl, rfl⟩
    split
    · exact (hupdate _).trans (.sendLogonResponse (hupdate _).latest)
    · exact (hupdate _).keeps ⟨rfl, rfl⟩

theorem changes_checkLogin (hlr : s.conn.lr = lr) :
    Changes out.TimedOut lr (getsToPassword out lr = true ∧ s.passes out = true) s
      (s.checkLogin out lr).1 := by
  unfold checkLogin
  dsimp only
  split
  · exact .of_keeps ⟨rfl, rfl⟩ hlr
  next hdesktop =>
  split
  · exact .of_keeps ⟨rfl, rfl⟩ hlr
  next hhost =>
  split
  · split
    · exact .of_keeps ⟨rfl, rfl⟩ hlr
    · exact .of_keeps (.refl s) hlr
  next hclick =>
  have hgets : getsToPassword out lr = true := by
    simp only [Bool.not_eq_true, Bool.not_eq_false'] at hdesktop hhost hclick
    simp only [getsToPassword, hdesktop, hhost, hclick, Bool.not_false, Bool.and_self]
  have hrecent {P : Prop} : Changes out.TimedOut lr P s (s.setSessions (s.recentSessions out)) :=
    .recentSessions hlr
  split
  · split
    · exact hrecent.trans (.sendLogonResponse hlr)
    · exact hrecent.keeps ⟨rfl, rfl⟩
  split
  · split
    · exact hrecent
    · exact hrecent.keeps ⟨rfl, rfl⟩
  next hpassword =>
    let t := s.setSessions (s.recentSessions out)
    have hlr' : t.conn.lr = lr := hlr
    have hcheck : Changes out.TimedOut lr _ t (t.checkPassword out out.tryStartDesktop) :=
      changes_checkPassword hlr' _
    refine hrecent.trans (hcheck.mono ?_)
    rintro ⟨hrefusal, hvalid⟩
    have hrefusal' : (s.checkFailure out 0).2.isNone = true := hrefusal
    have hvalid' : s.validatePassword out = true := hvalid
    refine ⟨hgets, ?_⟩
    simp only [passes, hlr, hpassword, hrefusal', hvalid', Bool.not_false, Bool.and_self,
      Bool.or_true]

theorem changes_onLoginRequest (request : LoginRequest) :
    Changes out.TimedOut request
      (s.passesCheck (.event (.peer out (.loginRequest request))) = true) s
      (s.onLoginRequest out request).1 := by
  have hauthorized : (s.handleLoginRequestWithoutValidation out request).conn.authorized =
      s.conn.authorized := rfl
  have hset := setUpLogin_spec (s.handleLoginRequestWithoutValidation out request) out request.union
  unfold onLoginRequest passesCheck passesPassword
  dsimp only
  rw [hauthorized]
  cases hauth : s.conn.authorized with
  | true => exact ⟨rfl, fun key => .inr (.inl rfl)⟩
  | false =>
    rw [if_neg Bool.false_ne_true]
    let t := s.handleLoginRequestWithoutValidation out request
    cases heq : t.setUpLogin out request.union with
    | mk t ok =>
      rw [heq] at hset
      have hlr : t.conn.lr = request := congrArg Connection.lr hset.conn
      cases ok with
      | false => exact (Changes.of_keeps (.refl t) hlr).from_eq hset.sessions
      | true =>
        refine ((changes_checkLogin hlr).mono ?_).from_eq hset.sessions
        rintro ⟨hgets, hpasses⟩
        simp only [hgets, hpasses, Bool.not_false, Bool.and_self]

theorem changes_onAuth2fa (hlr : s.conn.lr = lr) (code : String) :
    Changes out.TimedOut lr (s.acceptsCode out code = true) s (s.onAuth2fa out code) := by
  unfold onAuth2fa acceptsCode
  dsimp only
  cases hrefusal : (s.checkFailure out 1).2 with
  | some r => exact .of_keeps ⟨rfl, rfl⟩ hlr
  | none =>
    dsimp only
    cases hcode : s.conn.require2fa.bind (out.checkCurrent · code) with
    | none => exact .of_keeps (.refl s) hlr
    | some ok =>
      cases ok with
      | false => exact .of_keeps ⟨rfl, rfl⟩ hlr
      | true =>
        let password := ((s.globals.sessions s.conn.sessionKey).getD ⟨"", false⟩).randomPassword
        have hmark : Changes out.TimedOut lr
            (((none : Option Refusal).isNone && decide (some true = some true)) = true) s _ :=
          .update hlr rfl (some ⟨password, true⟩)
        refine (hmark.keeps ?_).trans (.sendLogonResponse hlr)
        exact ⟨rfl, rfl⟩

theorem changes_onSwitchSidesResponse {P : Prop} (uuid : List UInt8) (request : LoginRequest) :
    Changes out.TimedOut request P s (s.onSwitchSidesResponse out uuid request) := by
  unfold onSwitchSidesResponse
  have hlogon (t : State) (hlr : t.conn.lr = request)
      (hsessions : t.globals.sessions = s.globals.sessions) :
      Changes out.TimedOut request P s (t.sendLogonResponse out) :=
    (Changes.sendLogonResponse hlr).from_eq hsessions
  dsimp only
  split
  · exact hlogon _ rfl rfl
  · exact ⟨rfl, fun key => .inr (.inl rfl)⟩

/-- Of the messages of an authorized connection, the reason for a close touches a session. -/
theorem changes_onAuthorizedMessage {P : Prop} (hlr : s.conn.lr = lr) (msg : Message)
    (hclose : ∀ reason, msg = .closeReason reason → P) :
    Changes out.TimedOut lr P s (s.onAuthorizedMessage out msg).1 := by
  cases msg with
  | switchDisplay display => exact .of_keeps (.handleSwitchDisplay s display) hlr
  | captureDisplays add sub set => exact .of_keeps (.captureDisplays s add sub set) hlr
  | option o => exact .of_keeps (.updateOptions s o) hlr
  | closeReason reason =>
    have hclosed := Keeps.onClose s
    exact (Changes.checkRemoveSession (hclosed.lr.trans hlr) (hclose reason rfl)).from_eq
      hclosed.sessions
  | switchSidesRequest uuid =>
    simp only [onAuthorizedMessage]
    split
    · exact .of_keeps (.onClose s) hlr
    · exact .of_keeps (.refl s) hlr
  | voiceCallRequest isConnect =>
    simp only [onAuthorizedMessage]
    split
    · exact .of_keeps ⟨rfl, rfl⟩ hlr
    · exact .of_keeps (.closeVoiceCall s) hlr
  | terminalAction action =>
    simp only [onAuthorizedMessage]
    split
    · exact .of_keeps ⟨rfl, rfl⟩ hlr
    · exact .of_keeps (.refl s) hlr
  | _ => exact .of_keeps (.refl s) hlr

theorem changes_onMessage (msg : Message) :
    Changes out.TimedOut (s.latestLr (.event (.peer out msg)))
      (s.passesCheck (.event (.peer out msg)) = true ∨
        s.marksSession (.event (.peer out msg)) = true ∨ s.closes msg = true)
      s (s.onMessage out msg).1 := by
  cases msg with
  | loginRequest request => exact (changes_onLoginRequest request).mono .inl
  | auth2fa code => exact (changes_onAuth2fa rfl code).mono fun h => .inr (.inl h)
  | inviteRequest => exact .of_keeps ⟨rfl, rfl⟩ rfl
  | switchSidesResponse uuid request =>
    cases request with
    | none => exact .of_keeps (.refl s) rfl
    | some request => exact changes_onSwitchSidesResponse uuid request
  | closeReason reason =>
    simp only [onMessage]
    split
    next h => exact changes_onAuthorizedMessage rfl _ fun _ _ => .inr (.inr h)
    next => exact .of_keeps (.refl s) rfl
  | _ =>
    simp only [onMessage]
    split
    · refine changes_onAuthorizedMessage rfl _ ?_
      rintro reason ⟨⟩
    · exact .of_keeps (.refl s) rfl

theorem changes_onPeer (msg : Message) :
    Changes out.TimedOut (s.latestLr (.event (.peer out msg)))
      (s.touches (.event (.peer out msg)) = true) s (s.onPeer out msg) := by
  have hmessage : Changes _ _ _ s (s.onMessage out msg).1 := changes_onMessage msg
  unfold onPeer touches removesSession
  cases heq : s.onMessage out msg with
  | mk t ok =>
    rw [heq] at hmessage
    have hpart : Changes _ _ _ s t := hmessage.mono (Q := (s.passesCheck (.event (.peer out msg)) ||
      s.marksSession (.event (.peer out msg)) || (s.closes msg ||
        (!ok || t.conn.authorized && out.noTestDelay) && t.conn.portForwardSocket)) = true) (by
      rintro (h | h | h)
      · simp [h]
      · simp [h]
      · simp [h])
    simp only [heq]
    cases ok with
    | false =>
      refine hpart.trans (.endLoop hpart.latest fun h => ?_)
      simp [h]
    | true =>
      dsimp only
      split
      next hforward =>
        simp only [Bool.and_eq_true] at hforward
        refine hpart.trans (.endLoop hpart.latest fun _ => ?_)
        simp [hforward]
      next => exact hpart

theorem conn_onClose (s : State) : s.onClose.conn =
    if s.conn.closed then s.conn
    else { s.conn with closed := true, portForwardSocket := false } := by
  unfold onClose
  split
  · rfl
  · dsimp only
    split
    · rfl
    · rfl

theorem conn_onClose_tell (r : Reply) : (s.tell r).onClose.conn = s.onClose.conn := by
  rw [conn_onClose, conn_onClose]
  rfl

theorem changes_onCm (hlr : s.conn.lr = lr) (data : CmData) :
    Changes out.TimedOut lr (s.touches (.event (.cm out data)) = true) s (s.onCm out data) := by
  have hend (t : State) (h : Keeps s t) (hsocket : t.conn.portForwardSocket = true →
      s.removesSession (.event (.cm out data)) = true) :
      Changes out.TimedOut lr (s.touches (.event (.cm out data)) = true) s t.endLoop := by
    refine (Changes.endLoop (h.lr.trans hlr) fun hs => ?_).from_eq h.sessions
    rw [touches, hsocket hs, Bool.or_true]
  cases data with
  | authorize =>
    have hlogon : Changes out.TimedOut lr (s.touches (.event (.cm out .authorize)) = true) s
        ((s.modify ({ · with require2fa := none })).sendLogonResponse out) := by
      have hasked : Keeps s (s.modify ({ · with require2fa := none })) := ⟨rfl, rfl⟩
      exact (Changes.sendLogonResponse (hasked.lr.trans hlr)).from_eq hasked.sessions
    simp only [onCm]
    split
    next hsocket =>
      refine hlogon.trans (.endLoop hlogon.latest fun _ => ?_)
      rw [touches, removesSession, hsocket, Bool.or_true]
    next => exact hlogon
  | close =>
    refine hend _ (.from_eq (.onClose _) rfl rfl) fun h => ?_
    rwa [conn_onClose_tell] at h
  | inviteResponse accepted =>
    cases accepted with
    | true => exact .of_keeps ⟨rfl, rfl⟩ hlr
    | false =>
      refine hend _ (.from_eq (.onClose _) rfl rfl) fun h => ?_
      rwa [conn_onClose_tell] at h
  | cmErr err =>
    simp only [onCm]
    split
    · exact .of_keeps (.refl s) hlr
    next herr =>
      refine hend _ (.onClose s) fun h => ?_
      simp only [removesSession, herr, h, ne_eq, not_false_eq_true, decide_true, Bool.and_self]
  | switchPermission name enabled => exact .of_keeps (.switchPermission s name enabled) hlr
  | voiceCallResponse accepted => exact .of_keeps (.handleVoiceCall s accepted) hlr
  | closeVoiceCall => exact .of_keeps ((Keeps.closeVoiceCall s).trans ⟨rfl, rfl⟩) hlr
  | other => exact .of_keeps (.refl s) hlr

/-- A step of the connection touches at most the session of the latest `LoginRequest`. -/
theorem changes_nextStep {step : RegistryStep} (hown : step.isElsewhere = false) :
    Changes (TimedOut step) (s.latestLr step) (s.touches step = true) s (s.nextStep step) := by
  have hend {step : RegistryStep} (t : State) (h : Keeps s t)
      (hsocket : t.conn.portForwardSocket = true → s.removesSession step = true) :
      Changes (TimedOut step) s.conn.lr (s.touches step = true) s t.endLoop := by
    refine (Changes.endLoop h.lr fun hs => ?_).from_eq h.sessions
    rw [touches, hsocket hs, Bool.or_true]
  have hremove {step : RegistryStep} (t : State) (h : Keeps s t)
      (hremoves : s.removesSession step = true) :
      Changes (TimedOut step) s.conn.lr (s.touches step = true) s
        (t.checkRemoveSession.onClose.endLoop) := by
    have htouches : s.touches step = true := by rw [touches, hremoves, Bool.or_true]
    have hclosed : Changes (TimedOut step) s.conn.lr (s.touches step = true) t
        t.checkRemoveSession.onClose :=
      (Changes.checkRemoveSession h.lr htouches).keeps (.onClose _)
    exact (hclosed.trans (.endLoop hclosed.latest fun _ => htouches)).from_eq h.sessions
  cases step with
  | autoDisconnect => exact hremove _ ⟨rfl, rfl⟩ rfl
  | event e =>
    cases e with
    | cm out data => exact changes_onCm rfl data
    | peer out msg => exact changes_onPeer msg
    | lost => exact hend _ (.onClose s) fun h => h
    | stopService => exact hremove _ ⟨rfl, rfl⟩ rfl
    | terminalTick out =>
      refine .of_keeps ?_ rfl
      simp only [nextStep, next]
      split
      · exact ⟨rfl, rfl⟩
      · exact .refl s
    | elsewhere => cases hown

end

/-! ## Runs -/

/-- **A connection leaves the sessions of the others alone**, but for two things. Looking for a
recent session drops what has timed out. And a mark or a removal goes to the session of the latest
`LoginRequest`, whoever sent it. -/
theorem others_unchanged_of_trace {tr : List (State × RegistryStep)} {step : RegistryStep}
    (h : registry.Trace (tr ++ [(s, step)]) s') (hown : step.isElsewhere = false) {key : SessionKey}
    (hkey : ¬ OwnIn (tr ++ [(s, step)]) key) :
    s'.globals.sessions key = s.globals.sessions key ∨
      s'.globals.sessions key = none ∧ TimedOut step key ∨
      key = s.latestKey step ∧ (s.marksSession step = true ∨ s.removesSession step = true) := by
  obtain ⟨-, hs'⟩ := h.step_last
  have hchecked : s.latestKey step = key → s.passesCheck step = false := by
    intro heq
    by_contra hpasses
    refine hkey ⟨(s, step), List.mem_append_right _ List.mem_cons_self, heq, .inl ?_⟩
    rwa [Bool.not_eq_false] at hpasses
  rw [hs']
  rcases (changes_nextStep hown).sessions key with ⟨heq, htouches⟩ | hsame | hdrop
  · refine .inr (.inr ⟨heq, ?_⟩)
    rw [touches, hchecked heq.symm, Bool.false_or, Bool.or_eq_true] at htouches
    exact htouches
  · exact .inl hsame
  · exact .inr (.inl hdrop)

end

/-! ### Examples -/

/-- A request that names itself, with or without a password. -/
def requestOf (myId : String) (password : List UInt8) : LoginRequest :=
  { LoginRequest.unset with myId, password }

/-- A new connection, while a device named `B` has a session. -/
def besideB : State :=
  (State.plain none).setSessions fun key =>
    if key = (requestOf "B" []).sessionKey then some ⟨"pass", false⟩ else none

/-- The user at the host lets a device named `A` in. -/
def letIn : List RegistryStep :=
  [.event (.peer .plain (.loginRequest (requestOf "A" []))), .event (.cm .plain .authorize)]

theorem trace_nextStep {s : State} {tr : List (State × RegistryStep)} (h : registry.Trace tr s)
    (step : RegistryStep) (hcan : s.CanStep step) :
    registry.Trace (tr ++ [(s, step)]) (s.nextStep step) :=
  h.snoc ⟨hcan, rfl⟩

theorem trace_letIn : registry.Trace (System.path nextStep besideB letIn)
    (letIn.foldl nextStep besideB) := by
  have hfresh : besideB.Fresh := ⟨⟨.plain, none, rfl⟩, (fresh_plain none).unsubed, rfl⟩
  have hlogin := trace_nextStep (.start hfresh)
    (.event (.peer .plain (.loginRequest (requestOf "A" [])))) rfl
  exact trace_nextStep hlogin (.event (.cm .plain .authorize)) rfl

/-- The device closes the connection, and the session of `B` stays. -/
theorem others_unchanged_of_trace_closeReason :
    ((letIn.foldl nextStep besideB).nextStep
      (.event (.peer .plain (.closeReason "")))).globals.sessions (requestOf "B" []).sessionKey =
        some ⟨"pass", false⟩ := by
  have htrace := trace_nextStep trace_letIn (.event (.peer .plain (.closeReason ""))) rfl
  have hown : ¬ OwnIn (System.path nextStep besideB letIn ++
      [(letIn.foldl nextStep besideB, .event (.peer .plain (.closeReason "")))])
        (requestOf "B" []).sessionKey := by
    decide
  rcases others_unchanged_of_trace htrace rfl hown with h | ⟨-, h⟩ | ⟨h, -⟩
  · exact h
  · exact absurd (by decide : (0 : Nat) < 30) h
  · exact absurd h (by decide)

/-- The other two cases do occur: a login request with a wrong password drops the session of `B`,
which has timed out, and a device that was let in as `A` removes it by calling itself `B` before it
closes the connection. -/
theorem not_others_unchanged :
    (¬ ∀ tr s step s', registry.Trace (tr ++ [(s, step)]) s' → step.isElsewhere = false →
      s.touches step = false → ∀ key, ¬ OwnIn (tr ++ [(s, step)]) key →
        s'.globals.sessions key = s.globals.sessions key) ∧
    ¬ ∀ tr s step s', registry.Trace (tr ++ [(s, step)]) s' → step.isElsewhere = false →
      ∀ key, ¬ TimedOut step key → ¬ OwnIn (tr ++ [(s, step)]) key →
        s'.globals.sessions key = s.globals.sessions key := by
  constructor
  · intro hall
    let later : RegistryStep := .event (.peer { Outside.plain with sessionIdle := fun _ => 30 }
      (.loginRequest (requestOf "A" [0])))
    have hfresh : besideB.Fresh := ⟨⟨.plain, none, rfl⟩, (fresh_plain none).unsubed, rfl⟩
    have htrace := trace_nextStep (.start hfresh) later rfl
    have hsame := hall [] _ _ _ htrace rfl (by decide) (requestOf "B" []).sessionKey (by decide)
    cases hsame
  · intro hall
    let renamed : RegistryStep := .event (.peer .plain (.loginRequest (requestOf "B" [])))
    let close : RegistryStep := .event (.peer .plain (.closeReason ""))
    have htrace := trace_nextStep (trace_nextStep trace_letIn renamed rfl) close rfl
    have hsame := hall _ _ _ _ htrace rfl (requestOf "B" []).sessionKey (not_not_intro (by decide))
      (by decide)
    cases hsame

end State

end HopToDesk.Host
