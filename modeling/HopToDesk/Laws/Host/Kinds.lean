import HopToDesk.Laws.Host.Login

/-!
# What a connection for files or a terminal may see

A connection that logs in to transfer files or to use a terminal has no business with the screen, the
cursor, the clipboard and the sound. Its kind is decided at the login, but the handlers of options,
of displays and of permissions run for every authorized connection. The connection stays out of
those services exactly as long as it is not told to do otherwise (`StaysOut`).
-/

set_option autoImplicit false

namespace HopToDesk.Host

open Kit

/-- The services of a session with a screen. -/
def ServiceName.ofScreen : ServiceName → Bool
  | .video .monitor _ | .cursor | .clipboard | .audio => true
  | _ => false

namespace State

/-- The connection is subscribed to nothing of the screen. -/
def OutOfScreen (s : State) : Prop := ∀ n, n.ofScreen = true → ¬ s.Subed n

/-- The connection is for files or for a terminal. -/
def ForFilesOrTerminal (s : State) : Prop :=
  s.conn.fileTransfer.isSome = true ∨ s.conn.terminal = true

/-- What a connection does from its login on. -/
inductive Act
  | login (out : Outside)
  | event (e : Event)

/-- The lives of connections for files or a terminal, from the moment they are let in. Before that
they are subscribed to nothing of the screen. -/
def life : System State Act where
  init s := s.conn.authorized = false ∧ s.ForFilesOrTerminal ∧ s.OutOfScreen
  step s a s' :=
    match a with
    | .login out =>
      s.conn.authorized = false ∧ s.lacksSecondFactor out = false ∧ s' = s.sendLogonResponse out
    | .event e => s.conn.authorized = true ∧ s.Can e ∧ s' = s.next e

/-! ## When a step stays out -/

/-- The services of the screen that follow the flags. -/
def screenFlags : List ServiceName := [.cursor, .clipboard, .audio]

/-- Where a message with options settles a service, the flags it leaves do not want it. `c` are the
flags before. -/
def OptionsStayOut (s : State) (c : Connection) (o : OptionMessage) : Prop :=
  ∀ n ∈ screenFlags, s.Offers n → o.settles (c.withOptions o) n = true →
    (c.withOptions o).wants s.settings n = false

/-- The options that came with the login are not asked for, or stay out. -/
def LoginStaysOut (s : State) : Prop :=
  s.conn.portForwardSocket = false → ∀ o, s.conn.optionsInLogin = some o →
    s.OptionsStayOut { s.conn with authedConnType := some s.conn.authConnType } o

/-- A message of the peer stays out. Displays are those of the camera where one is watched. -/
def MessageStaysOut (s : State) : Message → Prop
  | .option o => s.OptionsStayOut s.conn o
  | .switchDisplay display =>
    s.conn.viewCamera = true ∨ asUsize display = s.conn.displayIdx ∨
      asUsize display = s.settings.primaryDisplayIdx ∧
        ¬ s.Offers (.video .monitor s.settings.primaryDisplayIdx)
  | .captureDisplays add sub set =>
    s.conn.viewCamera = true ∨ add = [] ∧ (sub ≠ [] ∨ set = [])
  | _ => True

/-- A message of the connection manager stays out. -/
def CmStaysOut (s : State) : CmData → Prop
  | .switchPermission name enabled =>
    let c := s.conn.withPermission name enabled
    ∀ n ∈ screenFlags, s.Offers n → c.toggleSettles name n = true →
      c.toggleLeaves s.settings enabled n = false
  | .voiceCallResponse accepted =>
    s.conn.voiceCallRequested = true → s.conn.isAuthedViewCameraConn = true → s.Offers .audio →
      accepted = true → s.conn.audioEnabled = false
  | _ => True

def StaysOut (s : State) : Act → Prop
  | .login _ => s.LoginStaysOut
  | .event (.peer _ msg) => s.conn.portForwardSocket = false → s.MessageStaysOut msg
  | .event (.cm _ data) => s.CmStaysOut data
  | .event _ => True

/-! ## Each handler -/

/-- What a step that settles services does: it stays out exactly when no service of the screen is
settled to be subscribed to. -/
theorem Settled.outOfScreen_iff {s s' : State} {t v : ServiceName → Bool} (h : Settled s s' t v)
    (hs : s.OutOfScreen) :
    s'.OutOfScreen ↔ ∀ n, n.ofScreen = true → s.Offers n → t n = true → v n = false := by
  refine forall₂_congr fun n hn => ?_
  rw [h.subed n]
  cases t n with
  | true => simp only [if_true, not_and, Bool.not_eq_true, forall_const]
  | false =>
    simp only [Bool.false_eq_true, if_false, false_imp_iff, implies_true, iff_true]
    exact hs n hn

/-- A statement about the services of the screen that is clear for the screens themselves. -/
theorem forall_ofScreen_iff {P : ServiceName → Prop} (hvideo : ∀ idx, P (.video .monitor idx)) :
    (∀ n, n.ofScreen = true → P n) ↔ ∀ n ∈ screenFlags, P n := by
  constructor
  · intro h n hn
    simp only [screenFlags, List.mem_cons, List.not_mem_nil, or_false] at hn
    rcases hn with rfl | rfl | rfl
    · exact h .cursor rfl
    · exact h .clipboard rfl
    · exact h .audio rfl
  · intro h n hn
    cases n with
    | cursor => exact h .cursor (by decide)
    | clipboard => exact h .clipboard (by decide)
    | audio => exact h .audio (by decide)
    | video source idx =>
      cases source with
      | monitor => exact hvideo idx
      | camera => cases hn
    | _ => cases hn

theorem outOfScreen_updateOptions_iff {s : State} (hs : s.OutOfScreen) (o : OptionMessage) :
    (s.updateOptions o).OutOfScreen ↔ s.OptionsStayOut s.conn o := by
  rw [(s.settled_updateOptions o).outOfScreen_iff hs]
  refine (forall_ofScreen_iff ?_).trans ?_
  · intro idx _ hsettles
    cases hsettles
  · refine forall₂_congr fun n hn => ?_
    simp only [screenFlags, List.mem_cons, List.not_mem_nil, or_false] at hn
    rcases hn with rfl | rfl | rfl <;> rfl

theorem outOfScreen_switchPermission_iff {s : State} (hs : s.OutOfScreen) (name : String)
    (enabled : Bool) :
    (s.switchPermission name enabled).OutOfScreen ↔
      s.CmStaysOut (.switchPermission name enabled) := by
  rw [(s.settled_switchPermission name enabled).outOfScreen_iff hs]
  refine forall_ofScreen_iff ?_
  intro idx _ hsettles
  simp [Connection.toggleSettles] at hsettles

theorem outOfScreen_subscribe_iff {s : State} (hs : s.OutOfScreen) (name : ServiceName)
    (sub : Bool) :
    (s.subscribe name sub).OutOfScreen ↔ (name.ofScreen = true → s.Offers name → sub = false) := by
  rw [(s.settled_subscribe name sub).outOfScreen_iff hs]
  constructor
  · intro h hname hoffers
    exact h name hname hoffers (decide_eq_true rfl)
  · intro h n hn hoffers hsettles
    obtain rfl := of_decide_eq_true hsettles
    exact h hn hoffers

theorem outOfScreen_handleVoiceCall_iff {s : State} (hs : s.OutOfScreen) (accepted : Bool) :
    (s.handleVoiceCall accepted).OutOfScreen ↔ s.CmStaysOut (.voiceCallResponse accepted) := by
  unfold handleVoiceCall
  split
  next hrequested =>
    have hs' : ((s.tell (.voiceCallResponse accepted)).modify
        ({ · with voiceCallRequested := false, voiceCalling := accepted })).OutOfScreen := hs
    dsimp only
    split
    next hcamera =>
      have hcamera' : s.conn.isAuthedViewCameraConn = true := hcamera
      rw [outOfScreen_subscribe_iff hs']
      have henabled : ((s.tell (.voiceCallResponse accepted)).modify
          ({ · with voiceCallRequested := false, voiceCalling := accepted })).conn.audioEnabled =
            s.conn.audioEnabled := rfl
      rw [henabled]
      constructor
      · intro h _ _ hoffers haccepted
        simpa only [haccepted, Bool.and_true] using h rfl hoffers
      · intro h _ hoffers
        cases haccepted : accepted with
        | true => rw [Bool.and_true, h hrequested hcamera' hoffers haccepted]
        | false => rw [Bool.and_false]
    next hcamera =>
      have hcamera' : ¬ s.conn.isAuthedViewCameraConn = true := hcamera
      exact iff_of_true hs' fun _ h => absurd h hcamera'
  next hrequested =>
    exact iff_of_true hs fun h => absurd h hrequested

theorem OutOfScreen.closeVoiceCall {s : State} (hs : s.OutOfScreen) :
    s.closeVoiceCall.OutOfScreen := by
  have hs' : (s.modify ({ · with voiceCalling := false })).OutOfScreen := hs
  unfold State.closeVoiceCall
  dsimp only
  split
  · rw [outOfScreen_subscribe_iff hs']
    intro _ _
    rfl
  · exact hs'

/-! ### Displays -/

/-- Switching to a display subscribes to the service of it, where there is one or one is added. -/
theorem subed_switchDisplayTo {s : State} (displayIdx : Nat) (n : ServiceName) :
    (s.switchDisplayTo displayIdx).Subed n ↔
      if n = .video s.conn.videoSource displayIdx then
        displayIdx ≠ s.settings.primaryDisplayIdx ∨ s.Offers n
      else if n = .video s.conn.videoSource s.conn.displayIdx ∧
          isSupportMultiUiSession s.conn.lr.version = false then False
      else s.Subed n := by
  let s₁ := s.onServer fun server =>
    if displayIdx ≠ s.settings.primaryDisplayIdx then
      server.ensureVideoService s.conn.videoSource displayIdx
    else server
  have hsubed (n : ServiceName) : s₁.Subed n ↔ s.Subed n := by
    simp only [s₁, Subed, onServer, globals_onGlobals, settings_onGlobals]
    split
    · exact Server.isSubed_ensureVideoService _ _ n _
    · rfl
  have hoffers : s₁.Offers (.video s.conn.videoSource displayIdx) ↔
      displayIdx ≠ s.settings.primaryDisplayIdx ∨ s.Offers (.video s.conn.videoSource displayIdx) := by
    simp only [s₁, Offers, onServer, globals_onGlobals]
    split
    next h =>
      rw [Server.contains_ensureVideoService]
      exact iff_of_true (.inl rfl) (.inl h)
    next h => simp only [h, false_or]
  have heq : s.switchDisplayTo displayIdx =
      ((if isSupportMultiUiSession s.conn.lr.version then s₁
        else s₁.subscribe (.video s.conn.videoSource s.conn.displayIdx) false).subscribe
          (.video s.conn.videoSource displayIdx) true).modify
            ({ · with displayIdx := displayIdx }) := rfl
  rw [heq, subed_modify, subed_subscribe]
  by_cases hn : n = .video s.conn.videoSource displayIdx
  · subst hn
    simp only [if_true, and_true]
    rw [← hoffers]
    split
    · rfl
    · exact offers_subscribe _ _ _ _
  · simp only [hn, if_false]
    cases isSupportMultiUiSession s.conn.lr.version with
    | true => simp only [if_true, hsubed, Bool.true_eq_false, and_false, if_false]
    | false =>
      simp only [Bool.false_eq_true, if_false, subed_subscribe, and_false, hsubed, and_true]

theorem outOfScreen_handleSwitchDisplay_iff {s : State} (hs : s.OutOfScreen) (display : Int) :
    (s.handleSwitchDisplay display).OutOfScreen ↔ s.MessageStaysOut (.switchDisplay display) := by
  unfold handleSwitchDisplay
  split
  next hother =>
    constructor
    · intro h
      by_cases hcamera : s.conn.viewCamera = true
      · exact .inl hcamera
      · have hsource : s.conn.videoSource = .monitor := if_neg hcamera
        have hn := h (.video .monitor (asUsize display)) rfl
        rw [subed_switchDisplayTo, hsource, if_pos rfl, not_or, not_not] at hn
        exact .inr (.inr ⟨hn.1, hn.1 ▸ hn.2⟩)
    · intro h n hn
      rw [subed_switchDisplayTo]
      split
      next hnew =>
        subst hnew
        have hmonitor : s.conn.videoSource = .monitor := by
          cases hsource : s.conn.videoSource with
          | monitor => rfl
          | camera =>
            rw [hsource] at hn
            cases hn
        rcases h with hcamera | hsame | ⟨hprimary, hoffers⟩
        · rw [Connection.videoSource, if_pos hcamera] at hmonitor
          cases hmonitor
        · exact absurd hsame.symm hother
        · rw [hmonitor, hprimary]
          simp only [ne_eq, not_true_eq_false, false_or]
          exact hoffers
      next =>
        split
        · exact id
        · exact hs n hn
  next hsame => exact iff_of_true hs (.inr (.inl (not_not.mp hsame).symm))


theorem outOfScreen_captureDisplays_iff {s : State} (hs : s.OutOfScreen) (add sub set : List Int) :
    (s.captureDisplays add sub set).OutOfScreen ↔
      s.MessageStaysOut (.captureDisplays add sub set) := by
  constructor
  · intro h
    by_cases hcamera : s.conn.viewCamera = true
    · exact .inl hcamera
    have hsource : s.conn.videoSource = .monitor := if_neg hcamera
    -- A display that is included is subscribed to: its service has been added.
    have hnot (d : Int) : ¬ (s.captureDisplays add sub set).Subed (.video .monitor (asUsize d)) :=
      h _ rfl
    have hmem (d : Int) (ds : List Int) :
        ServiceName.video .monitor (asUsize d) ∈ s.displayNames (d :: ds) := by
      rw [displayNames, hsource]
      exact List.mem_cons_self
    cases add with
    | cons d ds =>
      refine absurd ?_ (hnot d)
      rw [s.subed_captureDisplays _ _ _ rfl, if_pos (List.cons_ne_nil d ds)]
      exact .inl (hmem d ds)
    | nil =>
      refine .inr ⟨rfl, ?_⟩
      cases sub with
      | cons d ds => exact .inl (List.cons_ne_nil d ds)
      | nil =>
        cases set with
        | nil => exact .inr rfl
        | cons d ds =>
          refine absurd ?_ (hnot d)
          rw [s.subed_captureDisplays _ _ _ rfl, if_neg fun hne => hne rfl,
            if_neg fun hne => hne rfl]
          exact hmem d ds
  · intro h n hn hsubed
    refine hs n hn ?_
    by_cases hvideo : n.isVideo = true
    · rw [s.subed_captureDisplays _ _ _ hvideo] at hsubed
      rcases h with hcamera | ⟨rfl, h⟩
      · have hsource : s.conn.videoSource = .camera := if_pos hcamera
        have hnot (displays : List Int) : n ∉ s.displayNames displays := by
          intro hmem
          obtain ⟨d, -, rfl⟩ := List.mem_map.mp hmem
          rw [hsource] at hn
          cases hn
        split at hsubed
        · exact hsubed.resolve_left (hnot add)
        split at hsubed
        · exact hsubed.2
        · exact absurd hsubed (hnot set)
      · rw [if_neg fun hne => hne rfl] at hsubed
        split at hsubed
        · exact hsubed.2
        next hsub =>
          rcases h with h | rfl
          · exact absurd h hsub
          · cases hsubed
    · have hfocus : n ≠ .windowFocus := by
        rintro rfl
        cases hn
      exact (s.subed_captureDisplays_of_not_isVideo _ _ _ (Bool.eq_false_iff.mpr hvideo)
        hfocus).mp hsubed

/-! ### The login -/

theorem ForFilesOrTerminal.isRemote {s : State} (h : s.ForFilesOrTerminal) :
    s.conn.isRemote = false := by
  rcases h with h | h
  · simp only [Connection.isRemote, Option.isNone_eq_false_iff.mpr h, Bool.false_and]
  · simp only [Connection.isRemote, h, Bool.not_true, Bool.and_false]

/-- At its login such a connection is subscribed to displays of the camera at most. -/
theorem outOfScreen_subscribeOnLogin_iff {s : State} (h : s.ForFilesOrTerminal) (out : Outside)
    (subService : Bool) : (s.subscribeOnLogin out subService).OutOfScreen ↔ s.OutOfScreen := by
  unfold subscribeOnLogin
  split
  · rfl
  · split
    · refine forall₂_congr fun n hn => ?_
      rw [subed_tell, subed_modify, not_iff_not]
      refine (Server.isSubed_addCameraConnection _ s.connInner n).trans ?_
      have hcamera : n ≠ .video .camera Server.primaryCameraIdx := by
        rintro rfl
        cases hn
      simp only [hcamera, and_false, or_false, Server.tryAddPrimaryCameraService]
      split
      · exact Server.isSubed_ensureVideoService _ _ n _
      · rfl
    · split
      · unfold trySubMonitorServices
        rw [h.isRemote, Bool.false_and, if_neg Bool.false_ne_true]
      · rfl

/-- Whether options stay out depends on the flags alone. -/
theorem optionsStayOut_congr {s s' : State} {c c' : Connection} (o : OptionMessage)
    (hserver : s'.globals.server = s.globals.server) (hsettings : s'.settings = s.settings)
    (hsettles : ∀ n, o.settles (c'.withOptions o) n = o.settles (c.withOptions o) n)
    (hwants : ∀ n, (c'.withOptions o).wants s.settings n = (c.withOptions o).wants s.settings n) :
    s'.OptionsStayOut c' o ↔ s.OptionsStayOut c o := by
  simp only [OptionsStayOut, Offers, hserver, hsettings, hsettles, hwants]

theorem outOfScreen_takeOptionsInLogin_iff {s : State} (hs : s.OutOfScreen) :
    s.takeOptionsInLogin.OutOfScreen ↔
      ∀ o, s.conn.optionsInLogin = some o → s.OptionsStayOut s.conn o := by
  unfold takeOptionsInLogin
  split
  next o ho =>
    have hs' : (s.modify ({ · with optionsInLogin := none })).OutOfScreen := hs
    rw [outOfScreen_updateOptions_iff hs', ho]
    simp only [Option.some.injEq, forall_eq']
    refine optionsStayOut_congr o rfl rfl ?_ ?_
    · intro n
      cases n <;> rfl
    · intro n
      cases n <;> rfl
  next ho =>
    simp only [ho, reduceCtorEq, false_imp_iff, implies_true, iff_true]
    exact hs

theorem ForFilesOrTerminal.takeOptionsInLogin {s : State} (h : s.ForFilesOrTerminal) :
    s.takeOptionsInLogin.ForFilesOrTerminal := by
  unfold State.takeOptionsInLogin
  split
  · rw [ForFilesOrTerminal, conn_updateOptions]
    exact h
  · exact h

theorem outOfScreen_enter_iff {s : State} (h : s.ForFilesOrTerminal) (hs : s.OutOfScreen)
    (out : Outside) : (s.enter out).OutOfScreen ↔ s.LoginStaysOut := by
  have hbeside := (Beside.refl s).afterSecondFactor out
  -- The reply aside, the state the options are read in.
  have hstate (r : Reply) :
      let t := (s.afterSecondFactor out).authorize.tell r
      t.OutOfScreen ∧ t.ForFilesOrTerminal ∧ t.settings = s.settings ∧
        t.globals.server = s.globals.server ∧ t.conn = { s.conn with
          authorized := true
          authedConnType := some s.conn.authConnType } := by
    have hconn : ((s.afterSecondFactor out).authorize.tell r).conn = { s.conn with
        authorized := true
        authedConnType := some s.conn.authConnType } := by
      simp only [authorize, conn_tell, conn_onGlobals, conn_modify, hbeside.conn]
    refine ⟨?_, ?_, hbeside.settings, hbeside.server, hconn⟩
    · intro n hn hsubed
      exact hs n hn ((hbeside.subed n).mp hsubed)
    · rw [ForFilesOrTerminal, hconn]
      exact h
  have hoptions (r : Reply) (subService : Bool) :
      (((s.afterSecondFactor out).authorize.tell r).takeOptionsInLogin.subscribeOnLogin out
        subService).OutOfScreen ↔ ∀ o, s.conn.optionsInLogin = some o →
          s.OptionsStayOut { s.conn with authedConnType := some s.conn.authConnType } o := by
    obtain ⟨hout, hkind, hsettings, hserver, hconn⟩ := hstate r
    rw [outOfScreen_subscribeOnLogin_iff hkind.takeOptionsInLogin,
      outOfScreen_takeOptionsInLogin_iff hout, hconn]
    refine forall₂_congr fun o _ => optionsStayOut_congr o hserver hsettings ?_ ?_
    · intro n
      cases n <;> rfl
    · intro n
      cases n <;> rfl
  have hsocket : (s.afterSecondFactor out).authorize.conn.portForwardSocket =
      s.conn.portForwardSocket :=
    (congrArg Connection.portForwardSocket hbeside.conn :)
  have hremote : (s.afterSecondFactor out).authorize.conn.isRemote = false := by
    have hkind := (hstate .loginResponse).2.1
    exact hkind.isRemote
  unfold enter
  dsimp only
  rw [hsocket, hremote, Bool.false_and]
  split
  next hin =>
    refine iff_of_true (hstate .loginResponse).1 fun hout => ?_
    rw [hin] at hout
    cases hout
  next hin =>
    rw [if_neg Bool.false_ne_true]
    have hin' : s.conn.portForwardSocket = false := Bool.eq_false_iff.mpr hin
    have hlogin : s.LoginStaysOut ↔ ∀ o, s.conn.optionsInLogin = some o →
        s.OptionsStayOut { s.conn with authedConnType := some s.conn.authConnType } o :=
      ⟨fun hlogin => hlogin hin', fun hoptions _ => hoptions⟩
    rw [hlogin]
    split
    · exact hoptions _ _
    · exact hoptions _ _

/-! ### Messages -/

/-- The end of the loop ends the subscriptions. -/
theorem outOfScreen_endLoop (s : State) : s.endLoop.OutOfScreen :=
  fun n _ => s.endLoop_spec.2.2 n

theorem OutOfScreen.beside {s s' : State} (hs : s.OutOfScreen) (hb : Beside s s') :
    s'.OutOfScreen :=
  fun n hn hsubed => hs n hn ((hb.subed n).mp hsubed)

theorem OutOfScreen.onClose {s : State} (hs : s.OutOfScreen) : s.onClose.OutOfScreen := by
  obtain ⟨hsettings, -, hserver⟩ := s.onClose_spec
  intro n hn hsubed
  refine hs n hn ?_
  rwa [Subed, hserver, hsettings] at hsubed

/-- A login message of a connection that is authorized already. -/
theorem OutOfScreen.sendLogonResponse {s t : State} (hs : s.OutOfScreen) (hb : Beside s t)
    (hauth : s.conn.authorized = true) (out : Outside) :
    (t.sendLogonResponse out).OutOfScreen := by
  have ht : t.conn.authorized = true := (congrArg Connection.authorized hb.conn).trans hauth
  rw [State.sendLogonResponse, if_pos ht]
  exact hs.beside hb

theorem outOfScreen_onAuthorizedMessage_iff {s : State} (hs : s.OutOfScreen) (out : Outside)
    (msg : Message) : (s.onAuthorizedMessage out msg).1.OutOfScreen ↔ s.MessageStaysOut msg := by
  cases msg with
  | option o => exact outOfScreen_updateOptions_iff hs o
  | switchDisplay display => exact outOfScreen_handleSwitchDisplay_iff hs display
  | captureDisplays add sub set => exact outOfScreen_captureDisplays_iff hs add sub set
  | closeReason =>
    refine iff_of_true ?_ trivial
    exact hs.onClose.beside (Beside.refl _).checkRemoveSession
  | switchSidesRequest uuid =>
    refine iff_of_true ?_ trivial
    simp only [onAuthorizedMessage]
    split
    · exact hs.onClose
    · exact hs
  | voiceCallRequest isConnect =>
    refine iff_of_true ?_ trivial
    simp only [onAuthorizedMessage]
    split
    · exact hs
    · exact hs.closeVoiceCall
  | terminalAction action =>
    refine iff_of_true ?_ trivial
    simp only [onAuthorizedMessage]
    split
    · exact hs
    · exact hs
  | _ => exact iff_of_true hs trivial

theorem outOfScreen_onMessage_iff {s : State} (hauth : s.conn.authorized = true)
    (hs : s.OutOfScreen) (out : Outside) (msg : Message) :
    (s.onMessage out msg).1.OutOfScreen ↔
      (s.conn.portForwardSocket = false → s.MessageStaysOut msg) := by
  have hrest : (if s.conn.authorized && !s.conn.portForwardSocket then
      s.onAuthorizedMessage out msg else (s, true)).1.OutOfScreen ↔
        (s.conn.portForwardSocket = false → s.MessageStaysOut msg) := by
    cases hsocket : s.conn.portForwardSocket with
    | true =>
      rw [hauth, Bool.not_true, Bool.and_false, if_neg Bool.false_ne_true]
      exact iff_of_true hs fun h => by cases h
    | false =>
      rw [hauth, Bool.not_false, Bool.and_self, if_pos rfl,
        outOfScreen_onAuthorizedMessage_iff hs out msg]
      exact ⟨fun h _ => h, fun h => h rfl⟩
  cases msg with
  | loginRequest lr =>
    have hauth' : (s.handleLoginRequestWithoutValidation out lr).conn.authorized = true := hauth
    refine iff_of_true ?_ fun _ => trivial
    simp only [onMessage, onLoginRequest, hauth', if_true]
    exact hs
  | auth2fa code =>
    refine iff_of_true ?_ fun _ => trivial
    obtain ⟨hbeside, -⟩ | ⟨-, t, hbeside, heq⟩ := s.onAuth2fa_cases out code
    · exact hs.beside hbeside
    · have hs' : (s.modify ({ · with require2fa := none })).OutOfScreen := hs
      simp only [onMessage, heq]
      exact hs'.sendLogonResponse hbeside hauth out
  | inviteRequest => exact iff_of_true hs fun _ => trivial
  | switchSidesResponse uuid lr =>
    refine iff_of_true ?_ fun _ => trivial
    cases lr with
    | none => exact hs
    | some lr =>
      have hs' : (s.handleLoginRequestWithoutValidation out lr).OutOfScreen := hs
      obtain ⟨-, hbeside⟩ | ⟨-, t, hbeside, heq⟩ := s.onSwitchSidesResponse_cases out uuid lr
      · exact hs'.beside hbeside
      · have hs'' : ((s.handleLoginRequestWithoutValidation out lr).modify
            ({ · with fromSwitch := true })).OutOfScreen := hs
        simp only [onMessage, heq]
        exact hs''.sendLogonResponse hbeside hauth out
  | _ => exact hrest

/-- The messages that can subscribe do not end the loop and leave the socket of a port forward
alone. -/
theorem goesOn_onMessage {s : State} (hauth : s.conn.authorized = true)
    (hsocket : s.conn.portForwardSocket = false) (out : Outside) {msg : Message}
    (hmsg : ¬ s.MessageStaysOut msg) :
    (s.onMessage out msg).1.conn.portForwardSocket = false ∧ (s.onMessage out msg).2 = true := by
  cases msg with
  | option o =>
    simp only [onMessage, hauth, hsocket, Bool.not_false, Bool.and_self, if_true,
      onAuthorizedMessage, conn_updateOptions, and_true]
    exact hsocket
  | switchDisplay display =>
    simp only [onMessage, hauth, hsocket, Bool.not_false, Bool.and_self, if_true,
      onAuthorizedMessage, handleSwitchDisplay, switchDisplayTo, and_true]
    split
    · split <;> split <;> exact hsocket
    · exact hsocket
  | captureDisplays add sub set =>
    have hfocus (t : State) : (if t.conn.followRemoteWindow = true then
        t.subscribe .windowFocus !t.conn.multiUiSession else t).conn = t.conn := by
      split <;> rfl
    simp only [onMessage, hauth, hsocket, Bool.not_false, Bool.and_self, if_true,
      onAuthorizedMessage, captureDisplays, hfocus, and_true]
    exact hsocket
  | _ => exact absurd trivial hmsg

theorem outOfScreen_onPeer_iff {s : State} (hauth : s.conn.authorized = true)
    (hs : s.OutOfScreen) (out : Outside) (msg : Message) :
    (s.onPeer out msg).OutOfScreen ↔
      (s.conn.portForwardSocket = false → s.MessageStaysOut msg) := by
  have hmsg := outOfScreen_onMessage_iff hauth hs out msg
  unfold onPeer
  split
  next t heq =>
    refine iff_of_true (outOfScreen_endLoop t) fun hsocket => ?_
    by_contra hnot
    have hgoes := (goesOn_onMessage hauth hsocket out hnot).2
    rw [heq] at hgoes
    cases hgoes
  next t heq =>
    rw [heq] at hmsg
    split
    next hends =>
      refine iff_of_true (outOfScreen_endLoop t) fun hsocket => ?_
      by_contra hnot
      have hgoes := (goesOn_onMessage hauth hsocket out hnot).1
      rw [heq] at hgoes
      have hsocket' : t.conn.portForwardSocket = false := hgoes
      simp only [hsocket', Bool.false_and, Bool.false_eq_true] at hends
    next => exact hmsg

theorem outOfScreen_onCm_iff {s : State} (hauth : s.conn.authorized = true) (hs : s.OutOfScreen)
    (out : Outside) (data : CmData) : (s.onCm out data).OutOfScreen ↔ s.CmStaysOut data := by
  cases data with
  | switchPermission name enabled => exact outOfScreen_switchPermission_iff hs name enabled
  | voiceCallResponse accepted => exact outOfScreen_handleVoiceCall_iff hs accepted
  | authorize =>
    refine iff_of_true ?_ trivial
    have hs' : (s.modify ({ · with require2fa := none })).OutOfScreen := hs
    have hlogon := hs'.sendLogonResponse (Beside.refl _) hauth out
    simp only [onCm]
    split
    · exact outOfScreen_endLoop _
    · exact hlogon
  | close => exact iff_of_true (outOfScreen_endLoop _) trivial
  | inviteResponse accepted =>
    refine iff_of_true ?_ trivial
    simp only [onCm]
    split
    · exact hs
    · exact outOfScreen_endLoop _
  | cmErr err =>
    refine iff_of_true ?_ trivial
    simp only [onCm]
    split
    · exact hs
    · exact outOfScreen_endLoop _
  | closeVoiceCall => exact iff_of_true hs.closeVoiceCall trivial
  | other => exact iff_of_true hs trivial

/-- What an event of an authorized connection does. -/
theorem outOfScreen_next_iff {s : State} {e : Event} (hauth : s.conn.authorized = true)
    (hs : s.OutOfScreen) (hcan : s.Can e) : (s.next e).OutOfScreen ↔ s.StaysOut (.event e) := by
  cases e with
  | cm out data => exact outOfScreen_onCm_iff hauth hs out data
  | peer out msg => exact outOfScreen_onPeer_iff hauth hs out msg
  | lost => exact iff_of_true (outOfScreen_endLoop _) trivial
  | stopService => exact iff_of_true (outOfScreen_endLoop _) trivial
  | terminalTick out =>
    refine iff_of_true ?_ trivial
    simp only [next]
    split
    · exact hs
    · exact hs
  | elsewhere globals =>
    refine iff_of_true ?_ trivial
    intro n hn hsubed
    exact hs n hn ((hcan.isSubed n).mp hsubed)

/-! ## Whole lives -/

/-- **Services follow the kind.** All through the life of a connection for files or a terminal, it is
out of the services of the screen exactly when each thing it does stays out. -/
theorem outOfScreen_iff_staysOut {tr : List (State × Act)} {s : State} (h : life.Trace tr s) :
    System.Always OutOfScreen tr s ↔ ∀ x ∈ tr, x.1.StaysOut x.2 := by
  have hstep {s s' : State} {a : Act}
      (hs : (s.conn.authorized = false → s.ForFilesOrTerminal) ∧ s.OutOfScreen)
      (hstep : life.step s a s') :
      s'.conn.authorized = true ∧ (s'.OutOfScreen ↔ s.StaysOut a) := by
    cases a with
    | login out =>
      obtain ⟨hauth, hlacks, rfl⟩ := hstep
      have henter : s.sendLogonResponse out = s.enter out := by
        rw [sendLogonResponse, hauth, hlacks, if_neg Bool.false_ne_true, if_neg Bool.false_ne_true]
      rw [henter]
      exact ⟨s.authorized_enter out, outOfScreen_enter_iff (hs.1 hauth) hs.2 out⟩
    | event e =>
      obtain ⟨hauth, hcan, rfl⟩ := hstep
      exact ⟨authorized_next e hauth, outOfScreen_next_iff hauth hs.2 hcan⟩
  refine h.always_iff (I := fun s =>
    (s.conn.authorized = false → s.ForFilesOrTerminal) ∧ s.OutOfScreen) ?_ And.right ?_ ?_
  · intro s hs
    exact ⟨fun _ => hs.2.1, hs.2.2⟩
  · intro s a s' hs hs' hok
    obtain ⟨hauth, hiff⟩ := hstep hs hs'
    refine ⟨fun hnot => ?_, hiff.mpr hok⟩
    rw [hauth] at hnot
    cases hnot
  · intro s a s' hs hs' hgood
    exact (hstep hs hs').2.mp hgood

/-- A connection of the plain host that asks for files. -/
def forFiles : State :=
  { State.plain none with
    conn := { (State.plain none).conn with fileTransfer := some ("", false) } }

theorem forFiles_init : life.init forFiles :=
  ⟨rfl, .inl rfl, fun n _ => (fresh_plain none).unsubed n⟩

/-- Logged in without options, it is out of the screen. -/
theorem outOfScreen_login :
    System.Always OutOfScreen [(forFiles, Act.login .plain)] (forFiles.sendLogonResponse .plain) := by
  have htrace : life.Trace [] forFiles := .start forFiles_init
  have hstep : life.step forFiles (.login .plain) (forFiles.sendLogonResponse .plain) :=
    ⟨rfl, rfl, rfl⟩
  refine (outOfScreen_iff_staysOut (htrace.snoc hstep)).mpr ?_
  intro x hx
  obtain rfl := List.mem_singleton.mp hx
  intro _ o ho
  cases ho

/-- It is given the screen for the asking. -/
theorem not_outOfScreen_captureDisplays :
    ¬ ∀ (tr : List (State × Act)) (s : State), life.Trace tr s →
      System.Always OutOfScreen tr s := by
  intro h
  have htrace : life.Trace [] forFiles := .start forFiles_init
  have hlogin : life.step forFiles (.login .plain) (forFiles.sendLogonResponse .plain) :=
    ⟨rfl, rfl, rfl⟩
  have hcapture : life.step (forFiles.sendLogonResponse .plain)
      (.event (.peer .plain (.captureDisplays [1] [] []))) _ := ⟨rfl, rfl, rfl⟩
  refine (h _ _ ((htrace.snoc hlogin).snoc hcapture)).2 (.video .monitor 1) rfl ?_
  exact (Server.isSubed_iff _ _).mp (by decide)

end State

end HopToDesk.Host
