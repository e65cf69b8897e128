import HopToDesk.Client.Options
import HopToDesk.Laws.Host.Registry

/-!
# Both sides hold the same options

The controlling side says each toggle to the host in a message of its own, and all of them at once
when it logs in. `view-only` forces four of them while it is on: it takes the keyboard and the
clipboard away, shows the host's cursor, and leaves files and the lock at the end of the session
out. The messages arrive in the order they were sent, while the host goes on with everything else.

The host's flags are what the messages under way will make of them (`Sharing.settled`), and that is
what the config of the peer shows (`Flags.shown`). One thing escapes: a toggle of a forced option
goes through while `view-only` is on, so the host then holds what the next login would not give it.
-/

set_option autoImplicit false

namespace HopToDesk.Client.Options

open Kit HopToDesk.Host

/-- The flags of a connection that options set. -/
@[ext]
structure Flags where
  lockAfterSessionEnd : Bool
  showRemoteCursor : Bool
  followRemoteCursor : Bool
  followRemoteWindow : Bool
  disableAudio : Bool
  enableFileTransfer : Bool
  disableClipboard : Bool
  disableKeyboard : Bool
deriving DecidableEq, Repr

/-- Those of a connection that has just begun. -/
def Flags.unset : Flags := ⟨false, false, false, false, false, false, false, false⟩

def Flags.ofConnection (c : Connection) : Flags where
  lockAfterSessionEnd := c.lockAfterSessionEnd
  showRemoteCursor := c.showRemoteCursor
  followRemoteCursor := c.followRemoteCursor
  followRemoteWindow := c.followRemoteWindow
  disableAudio := c.disableAudio
  enableFileTransfer := c.enableFileTransfer
  disableClipboard := c.disableClipboard
  disableKeyboard := c.disableKeyboard

/-- What a message with options makes of the flags. -/
def Flags.apply (f : Flags) (o : OptionMessage) : Flags where
  lockAfterSessionEnd := (chosen o.lockAfterSessionEnd).getD f.lockAfterSessionEnd
  showRemoteCursor := (chosen o.showRemoteCursor).getD f.showRemoteCursor
  followRemoteCursor := (chosen o.followRemoteCursor).getD f.followRemoteCursor
  followRemoteWindow := (chosen o.followRemoteWindow).getD f.followRemoteWindow
  disableAudio := (chosen o.disableAudio).getD f.disableAudio
  enableFileTransfer := (chosen o.enableFileTransfer).getD f.enableFileTransfer
  disableClipboard := (chosen o.disableClipboard).getD f.disableClipboard
  disableKeyboard := (chosen o.disableKeyboard).getD f.disableKeyboard

theorem Flags.ofConnection_withOptions (c : Connection) (o : OptionMessage) :
    ofConnection (c.withOptions o) = (ofConnection c).apply o := rfl

/-- What `view-only` forces an option to. -/
def forced (name : String) : Option Bool :=
  if name = "lock-after-session-end" then some false
  else if name = "enable-file-copy-paste" then some false
  else if name = "show-remote-cursor" then some true
  else if name = "disable-clipboard" then some true
  else none

/-- What the host holds of an option, where `own` is what the config says: the forced value while
`view-only` is on, unless the option was toggled since. -/
def held (viewOnly : Bool) (touched : List String) (name : String) (own : Bool) : Bool :=
  if viewOnly = true ∧ name ∉ touched then (forced name).getD own else own

/-- The flags a config shows at the host, where `touched` was toggled since `view-only` was. -/
def Flags.shown (c : PeerConfig) (touched : List String) : Flags where
  lockAfterSessionEnd := held c.viewOnly touched "lock-after-session-end" c.lockAfterSessionEnd
  showRemoteCursor := held c.viewOnly touched "show-remote-cursor" c.showRemoteCursor
  followRemoteCursor := c.followRemoteCursor
  followRemoteWindow := c.followRemoteWindow
  disableAudio := c.disableAudio
  enableFileTransfer := held c.viewOnly touched "enable-file-copy-paste" c.enableFileCopyPaste
  disableClipboard := held c.viewOnly touched "disable-clipboard" c.disableClipboard
  disableKeyboard := c.viewOnly

/-- What was toggled since `view-only` was, once this is toggled too. -/
def touch (touched : List String) (name : String) : List String :=
  if name = "view-only" then [] else name :: touched

/-! ## What a message says -/

@[simp] theorem chosen_boolOption (b : Bool) : chosen (boolOption b) = some b := by
  cases b <;> rfl

@[simp] theorem chosen_notSet : chosen (some .notSet) = none := rfl

@[simp] theorem chosen_yesIf_getD (b : Bool) : (chosen (yesIf b)).getD false = b := by
  cases b <;> rfl

@[simp] theorem held_of_not_viewOnly (touched : List String) (name : String) (own : Bool) :
    held false touched name own = own := rfl

theorem held_of_mem {viewOnly : Bool} {touched : List String} {name : String} (h : name ∈ touched)
    (own : Bool) : held viewOnly touched name own = own :=
  if_neg fun hviewOnly => hviewOnly.2 h

theorem held_of_not_mem {touched : List String} {name : String} (h : name ∉ touched) (own : Bool) :
    held true touched name own = (forced name).getD own :=
  if_pos ⟨rfl, h⟩

/-- Another option was toggled. -/
theorem held_cons_of_ne (viewOnly : Bool) (touched : List String) {name other : String}
    (h : name ≠ other) (own : Bool) :
    held viewOnly (other :: touched) name own = held viewOnly touched name own := by
  simp only [held, List.mem_cons, h, false_or]

/-- The message of a login shows the config as it is. -/
theorem apply_optionMessage (h : LoginConfigHandler) :
    Flags.unset.apply h.optionMessage.toOptionMessage = .shown h.config [] := by
  have hempty (viewOnly : Bool) (name : String) (own : Bool) :
      held viewOnly [] name own = if viewOnly = true then (forced name).getD own else own := by
    simp only [held, List.not_mem_nil, not_false_eq_true, and_true]
  cases hviewOnly : h.config.viewOnly <;>
    simp [Flags.apply, Flags.unset, Flags.shown, LoginConfigHandler.optionMessage,
      LoginConfigHandler.getToggleOption, hempty, forced, hviewOnly]

/-- The names `toggle_option` knows. -/
def known : List String :=
  ["show-remote-cursor", "follow-remote-cursor", "follow-remote-window", "disable-audio",
    "disable-clipboard", "lock-after-session-end", "privacy-mode", "enable-file-copy-paste",
    "block-input", "unblock-input", "show-quality-monitor", "allow_swap_key", "view-only",
    "show-my-cursor"]

theorem toggleOption_of_not_known (h : LoginConfigHandler) {name : String} (hname : name ∉ known) :
    h.toggleOption name = (h.toggleOther name, none) := by
  simp only [known, List.mem_cons, List.not_mem_nil, or_false, not_or] at hname
  simp only [LoginConfigHandler.toggleOption, hname, if_false]

/-- `view-only` turned on forces its four options, turned off it gives them back. -/
theorem apply_viewOnlyMessage (h : LoginConfigHandler) (viewOnly : Bool) (touched : List String) :
    (Flags.shown h.config touched).apply
        (h.viewOnlyMessage { h.config with viewOnly := viewOnly }).2.toOptionMessage =
      .shown (h.viewOnlyMessage { h.config with viewOnly := viewOnly }).1 [] := by
  cases viewOnly with
  | true =>
    ext <;> simp [LoginConfigHandler.viewOnlyMessage, Flags.apply, Flags.shown, held, forced,
      Message.unset, OptionMessage.unset]
  | false =>
    cases hcursor : h.config.showMyCursor <;>
      ext <;> simp [LoginConfigHandler.viewOnlyMessage, LoginConfigHandler.getToggleOption,
        Flags.apply, Flags.shown, Message.unset, OptionMessage.unset, hcursor]

/-- **What a toggle says.** The host's flags go on as the config shows them. -/
theorem apply_toggleOption (h : LoginConfigHandler) (hstored : h.config = h.file) (name : String)
    (touched : List String) :
    (Flags.shown h.config touched).apply ((h.toggleOption name).2.getD .unset).toOptionMessage =
      .shown (h.toggleOption name).1.config (touch touched name) := by
  obtain ⟨connType, c, file⟩ := h
  obtain rfl : c = file := hstored
  by_cases hviewOnly : name = "view-only"
  · subst hviewOnly
    have happly := apply_viewOnlyMessage ⟨connType, c, c⟩ (!c.viewOnly) touched
    simpa [LoginConfigHandler.toggleOption, LoginConfigHandler.loadConfig,
      LoginConfigHandler.saveConfig, touch] using happly
  by_cases hname : name ∈ known
  · simp only [known, List.mem_cons, List.not_mem_nil, or_false, hviewOnly, false_or] at hname
    rcases hname with rfl | rfl | rfl | rfl | rfl | rfl | rfl | rfl | rfl | rfl | rfl | rfl | rfl
    all_goals
      ext <;> simp [Flags.apply, Flags.shown, touch, held_cons_of_ne, held_of_mem, Message.unset,
        OptionMessage.unset, LoginConfigHandler.toggleOption, LoginConfigHandler.saveConfig,
        LoginConfigHandler.loadConfig]
  · -- An option of the table is none of those the flags are about.
    have hne {other : String} (h : other ∈ known) : other ≠ name := fun heq => hname (heq ▸ h)
    have hlock : "lock-after-session-end" ≠ name := hne (by decide)
    have hfile : "enable-file-copy-paste" ≠ name := hne (by decide)
    have hcursor : "show-remote-cursor" ≠ name := hne (by decide)
    have hclipboard : "disable-clipboard" ≠ name := hne (by decide)
    rw [toggleOption_of_not_known _ hname]
    ext <;> simp [Flags.apply, Flags.shown, touch, held_cons_of_ne, Message.unset,
      OptionMessage.unset, LoginConfigHandler.toggleOther, LoginConfigHandler.saveConfig, hviewOnly,
      hlock, hfile, hcursor, hclipboard]

/-- A toggle leaves the two copies of the config one. -/
theorem toggleOption_stored (h : LoginConfigHandler) (hstored : h.config = h.file) (name : String) :
    (h.toggleOption name).1.config = (h.toggleOption name).1.file := by
  by_cases hname : name ∈ known
  · simp only [known, List.mem_cons, List.not_mem_nil, or_false] at hname
    rcases hname with
      rfl | rfl | rfl | rfl | rfl | rfl | rfl | rfl | rfl | rfl | rfl | rfl | rfl | rfl
    all_goals simp [LoginConfigHandler.toggleOption, LoginConfigHandler.saveConfig, hstored]
  · rw [toggleOption_of_not_known _ hname]
    rfl

/-! ## What leaves the flags of the host alone -/

/-- The flags are left alone, and the connection does not become a tunnel. -/
structure Leaves (s s' : State) : Prop where
  flags : Flags.ofConnection s'.conn = Flags.ofConnection s.conn
  socket : s.conn.portForwardSocket = false → s'.conn.portForwardSocket = false

namespace Leaves

variable {s s' s'' : State}

theorem of_conn (h : s'.conn = s.conn) : Leaves s s' where
  flags := congrArg Flags.ofConnection h
  socket hsocket := (congrArg Connection.portForwardSocket h).trans hsocket

theorem refl (s : State) : Leaves s s := of_conn rfl

theorem trans (h : Leaves s s') (h' : Leaves s' s'') : Leaves s s'' where
  flags := h'.flags.trans h.flags
  socket hsocket := h'.socket (h.socket hsocket)

theorem flags_of_core {c c' : Connection} (h : c'.core = c.core) :
    Flags.ofConnection c' = Flags.ofConnection c :=
  (congrArg Flags.ofConnection h :)

theorem onClose (s : State) : Leaves s s.onClose where
  flags := flags_of_core s.onClose_spec.2.1
  socket hsocket := by
    rw [State.conn_onClose]
    split
    · exact hsocket
    · rfl

theorem checkRemoveSession (s : State) : Leaves s s.checkRemoveSession :=
  of_conn (State.Beside.refl s).checkRemoveSession.conn

theorem endLoop (s : State) : Leaves s s.endLoop where
  flags := flags_of_core s.endLoop_spec.2.1
  socket hsocket := by
    have htry : s.tryPortForwardLoop = s := by
      rw [State.tryPortForwardLoop, hsocket]
      rfl
    unfold State.endLoop
    rw [htry]
    exact (onClose _).socket hsocket

theorem switchPermission (s : State) (name : String) (enabled : Bool) :
    Leaves s (s.switchPermission name enabled) := by
  have hflags : ∀ c : Connection, Flags.ofConnection (c.withPermission name enabled) =
      Flags.ofConnection c ∧ (c.withPermission name enabled).portForwardSocket =
        c.portForwardSocket := by
    intro c
    unfold Connection.withPermission
    repeat' split
    all_goals exact ⟨rfl, rfl⟩
  constructor
  · rw [State.conn_switchPermission]
    exact (hflags s.conn).1
  · intro hsocket
    rw [State.conn_switchPermission]
    exact (hflags s.conn).2.trans hsocket

theorem handleVoiceCall (s : State) (accepted : Bool) : Leaves s (s.handleVoiceCall accepted) := by
  unfold State.handleVoiceCall
  split
  · dsimp only
    split
    · exact ⟨rfl, id⟩
    · exact ⟨rfl, id⟩
  · exact refl s

theorem closeVoiceCall (s : State) : Leaves s s.closeVoiceCall := by
  unfold State.closeVoiceCall
  dsimp only
  split
  · exact ⟨rfl, id⟩
  · exact ⟨rfl, id⟩

theorem handleSwitchDisplay (s : State) (display : Int) :
    Leaves s (s.handleSwitchDisplay display) := by
  unfold State.handleSwitchDisplay State.switchDisplayTo
  split
  · dsimp only
    split <;> split <;> exact ⟨rfl, id⟩
  · exact refl s

theorem captureDisplays (s : State) (add sub set : List Int) :
    Leaves s (s.captureDisplays add sub set) := by
  have hfocus (t : State) : (if t.conn.followRemoteWindow = true then
      t.subscribe .windowFocus !t.conn.multiUiSession else t).conn = t.conn := by
    split <;> rfl
  unfold State.captureDisplays
  dsimp only
  constructor
  · rw [hfocus]
    rfl
  · intro hsocket
    rw [hfocus]
    exact hsocket

theorem onAuthorizedMessage (s : State) (out : Outside) {msg : Host.Message}
    (hmsg : ∀ o, msg ≠ .option o) : Leaves s (s.onAuthorizedMessage out msg).1 := by
  cases msg with
  | switchDisplay display => exact handleSwitchDisplay s display
  | captureDisplays add sub set => exact captureDisplays s add sub set
  | option o => exact absurd rfl (hmsg o)
  | closeReason => exact (onClose s).trans (checkRemoveSession _)
  | switchSidesRequest uuid =>
    simp only [State.onAuthorizedMessage]
    split
    · exact onClose s
    · exact refl s
  | voiceCallRequest isConnect =>
    simp only [State.onAuthorizedMessage]
    split
    · exact ⟨rfl, id⟩
    · exact closeVoiceCall s
  | terminalAction action =>
    simp only [State.onAuthorizedMessage]
    split
    · exact ⟨rfl, id⟩
    · exact refl s
  | _ => exact refl s

/-- The connection is authorized already, so a login does nothing more. -/
theorem sendLogonResponse {t : State} (ht : t.conn.authorized = true) (out : Outside)
    (h : Leaves s t) : Leaves s (t.sendLogonResponse out) := by
  rw [State.sendLogonResponse, if_pos ht]
  exact h

theorem onMessage {s : State} (hauth : s.conn.authorized = true) (out : Outside)
    {msg : Host.Message} (hmsg : ∀ o, msg ≠ .option o) : Leaves s (s.onMessage out msg).1 := by
  cases msg with
  | loginRequest lr =>
    have hauth' : (s.handleLoginRequestWithoutValidation out lr).conn.authorized = true := hauth
    simp only [State.onMessage, State.onLoginRequest, hauth', if_true]
    exact ⟨rfl, id⟩
  | auth2fa code =>
    obtain ⟨hbeside, -⟩ | ⟨-, t, hbeside, heq⟩ := s.onAuth2fa_cases out code
    · exact of_conn hbeside.conn
    · have ht : t.conn.authorized = true :=
        (congrArg Connection.authorized hbeside.conn).trans hauth
      have hasked : Leaves s (s.modify ({ · with require2fa := none })) := ⟨rfl, id⟩
      simp only [State.onMessage, heq]
      exact sendLogonResponse ht out (hasked.trans (of_conn hbeside.conn))
  | inviteRequest => exact ⟨rfl, id⟩
  | switchSidesResponse uuid lr =>
    cases lr with
    | none => exact refl s
    | some lr =>
      have hkept : Leaves s (s.handleLoginRequestWithoutValidation out lr) := ⟨rfl, id⟩
      obtain ⟨-, hbeside⟩ | ⟨-, t, hbeside, heq⟩ := s.onSwitchSidesResponse_cases out uuid lr
      · exact hkept.trans (of_conn hbeside.conn)
      · have ht : t.conn.authorized = true :=
          (congrArg Connection.authorized hbeside.conn).trans hauth
        let u := s.handleLoginRequestWithoutValidation out lr
        have hswitch : Leaves s (u.modify ({ · with fromSwitch := true })) := ⟨rfl, id⟩
        simp only [State.onMessage, heq]
        exact sendLogonResponse ht out (hswitch.trans (of_conn hbeside.conn))
  | _ =>
    simp only [State.onMessage]
    split
    · exact onAuthorizedMessage s out hmsg
    · exact refl s

theorem onPeer {s : State} (hauth : s.conn.authorized = true) (out : Outside) {msg : Host.Message}
    (hmsg : ∀ o, msg ≠ .option o) : Leaves s (s.onPeer out msg) := by
  have h := onMessage hauth out hmsg
  unfold State.onPeer
  split
  next heq =>
    rw [heq] at h
    exact h.trans (endLoop _)
  next heq =>
    rw [heq] at h
    split
    · exact h.trans (endLoop _)
    · exact h

theorem onCm {s : State} (hauth : s.conn.authorized = true) (out : Outside) (data : CmData) :
    Leaves s (s.onCm out data) := by
  cases data with
  | authorize =>
    have hasked : Leaves s (s.modify ({ · with require2fa := none })) := ⟨rfl, id⟩
    have h := sendLogonResponse (t := s.modify ({ · with require2fa := none })) hauth out hasked
    simp only [State.onCm]
    split
    · exact h.trans (endLoop _)
    · exact h
  | close =>
    have htell : Leaves s (s.tell (.closeReason "The remote partner has closed the session.")) :=
      of_conn rfl
    exact (htell.trans (onClose _)).trans (endLoop _)
  | inviteResponse accepted =>
    have htell : Leaves s (s.tell (.inviteResponse accepted)) := of_conn rfl
    simp only [State.onCm]
    split
    · exact htell
    · exact (htell.trans (onClose _)).trans (endLoop _)
  | cmErr err =>
    simp only [State.onCm]
    split
    · exact refl s
    · exact (onClose s).trans (endLoop _)
  | switchPermission name enabled => exact switchPermission s name enabled
  | voiceCallResponse accepted => exact handleVoiceCall s accepted
  | closeVoiceCall => exact (closeVoiceCall s).trans (of_conn rfl)
  | other => exact refl s

/-- Whatever happens to an authorized connection, only its options touch the flags. -/
theorem next {s : State} (hauth : s.conn.authorized = true) {e : Event}
    (he : ∀ out o, e ≠ .peer out (.option o)) : Leaves s (s.next e) := by
  cases e with
  | cm out data => exact onCm hauth out data
  | peer out msg =>
    apply onPeer hauth out
    intro o hmsg
    exact he out o (congrArg (Event.peer out) hmsg)
  | lost => exact (onClose s).trans (endLoop _)
  | stopService =>
    have htell : Leaves s (s.tell (.closeReason "Closed manually by the peer")) := of_conn rfl
    exact ((htell.trans (checkRemoveSession _)).trans (onClose _)).trans (endLoop _)
  | terminalTick out =>
    simp only [State.next]
    split
    · exact of_conn rfl
    · exact refl s
  | elsewhere globals => exact of_conn rfl

end Leaves

/-! ## Runs -/

/-- A session: the handler, the messages with options under way, oldest first, and the connection of
the host. -/
structure Sharing where
  handler : LoginConfigHandler
  wire : List OptionMessage
  host : State

inductive Act
  | toggle (name : String)
  /-- The host said of its privacy mode. -/
  | privacyMode (implKey : String) (on : Bool)
  /-- The host takes the oldest message with options. -/
  | deliver (out : Outside)
  /-- Anything else happens to the connection of the host. -/
  | host (e : Host.Event)

namespace Sharing

/-- The host has just let a connection in whose options nobody had set, but for those in its login
request. -/
structure LoggedIn (s : Sharing) : Prop where
  stored : s.handler.config = s.handler.file
  wire : s.wire = []
  host : ∃ (t : State) (out : Outside) (o : Message), s.handler.getOptionMessage = some o ∧
    t.conn.optionsInLogin = some o.toOptionMessage ∧ Flags.ofConnection t.conn = .unset ∧
    t.conn.portForwardSocket = false ∧ out.displayServerError = "" ∧ s.host = t.enter out

inductive Step : Sharing → Act → Sharing → Prop
  | toggle (s : Sharing) (name : String) :
      Step s (.toggle name) { s with
        handler := (s.handler.toggleOption name).1
        wire := s.wire ++ (s.handler.toggleOption name).2.toList.map (·.toOptionMessage) }
  | privacyMode (s : Sharing) (implKey : String) (on : Bool) :
      Step s (.privacyMode implKey on)
        { s with handler := s.handler.updatePrivacyMode implKey on }
  | deliver (s : Sharing) (out : Outside) (o : OptionMessage) (rest : List OptionMessage)
      (hwire : s.wire = o :: rest) (hcan : s.host.Can (.peer out (.option o))) :
      Step s (.deliver out) { s with wire := rest, host := s.host.next (.peer out (.option o)) }
  | host (s : Sharing) (e : Host.Event) (he : ∀ out o, e ≠ .peer out (.option o))
      (hcan : s.host.Can e) : Step s (.host e) { s with host := s.host.next e }

/-- The runs of a session in which nobody else writes the config of the peer. -/
def system : System Sharing Act where
  init := LoggedIn
  step := Step

/-- The flags of the host once it has taken everything under way. -/
def settled (s : Sharing) : Flags := s.wire.foldl Flags.apply (.ofConnection s.host.conn)

/-- What was toggled since `view-only` was. -/
def touched (as : List Act) : List String :=
  as.foldl (fun names a => match a with
    | .toggle name => touch names name
    | _ => names) []

/-- Where a session is after these acts. -/
structure Agrees (as : List Act) (s : Sharing) : Prop where
  stored : s.handler.config = s.handler.file
  authorized : s.host.conn.authorized = true
  socket : s.host.conn.portForwardSocket = false
  settled : s.settled = .shown s.handler.config (touched as)

/-! ### The login -/

theorem conn_takeOptionsInLogin {t : State} {o : OptionMessage}
    (ho : t.conn.optionsInLogin = some o) :
    t.takeOptionsInLogin.conn = { t.conn with optionsInLogin := none }.withOptions o := by
  unfold State.takeOptionsInLogin
  rw [ho]
  exact State.conn_updateOptions _ o

theorem leaves_subscribeOnLogin (t : State) (out : Outside) (subService : Bool) :
    Leaves t (t.subscribeOnLogin out subService) := by
  unfold State.subscribeOnLogin State.trySubCameraDisplays State.trySubMonitorServices
  dsimp only
  split
  · exact .refl t
  · split
    · exact ⟨rfl, id⟩
    · split
      · split
        · exact ⟨rfl, id⟩
        · exact .refl t
      · exact .refl t

/-- A connection that is let in takes the options of its login request. -/
theorem ofConnection_enter {t : State} {out : Outside} {o : OptionMessage}
    (ho : t.conn.optionsInLogin = some o) (hsocket : t.conn.portForwardSocket = false)
    (hdisplay : out.displayServerError = "") :
    Flags.ofConnection (t.enter out).conn = (Flags.ofConnection t.conn).apply o ∧
      (t.enter out).conn.portForwardSocket = false := by
  have hconn : (t.afterSecondFactor out).conn = t.conn := by
    unfold State.afterSecondFactor
    split <;> rfl
  have hsocket' : (t.afterSecondFactor out).authorize.conn.portForwardSocket = false :=
    (congrArg Connection.portForwardSocket hconn).trans hsocket
  have ho' : (t.afterSecondFactor out).authorize.conn.optionsInLogin = some o :=
    (congrArg Connection.optionsInLogin hconn).trans ho
  have hflags : Flags.ofConnection (t.afterSecondFactor out).authorize.conn =
      .ofConnection t.conn := (congrArg Flags.ofConnection hconn :)
  unfold State.enter
  dsimp only
  generalize (t.afterSecondFactor out).authorize = u at hsocket' ho' hflags ⊢
  -- Whether the displays could be synchronised is said to the peer, and changes nothing here.
  have htake (v : State) (hv : v.conn = u.conn) (sub : Bool) :
      Flags.ofConnection (v.takeOptionsInLogin.subscribeOnLogin out sub).conn =
        (Flags.ofConnection t.conn).apply o ∧
      (v.takeOptionsInLogin.subscribeOnLogin out sub).conn.portForwardSocket = false := by
    have hleaves := leaves_subscribeOnLogin v.takeOptionsInLogin out sub
    have hv' := conn_takeOptionsInLogin ((congrArg Connection.optionsInLogin hv).trans ho')
    constructor
    · rw [hleaves.flags, hv', Flags.ofConnection_withOptions, ← hflags, ← hv]
      rfl
    · apply hleaves.socket
      rw [hv']
      exact (congrArg Connection.portForwardSocket hv).trans hsocket'
  rw [if_neg (ne_true_of_eq_false hsocket'), hdisplay, if_neg (by simp)]
  apply htake
  split <;> rfl

theorem LoggedIn.agrees_nil {s : Sharing} (h : s.LoggedIn) : Agrees [] s := by
  obtain ⟨t, out, o, hoption, ho, hunset, hsocket, hdisplay, hhost⟩ := h.host
  obtain ⟨hflags, hsocket'⟩ := ofConnection_enter ho hsocket hdisplay
  have hmessage : o = s.handler.optionMessage := by
    unfold LoginConfigHandler.getOptionMessage at hoption
    split at hoption
    · cases hoption
    · exact (Option.some.inj hoption).symm
  refine ⟨h.stored, ?_, ?_, ?_⟩
  · rw [hhost]
    exact t.authorized_enter out
  · rw [hhost]
    exact hsocket'
  · rw [settled, h.wire, List.foldl_nil, hhost, hflags, hunset, hmessage]
    exact apply_optionMessage s.handler

/-! ### One step -/

theorem touched_snoc (as : List Act) (a : Act) : touched (as ++ [a]) =
    match a with
    | .toggle name => touch (touched as) name
    | _ => touched as := by
  rw [touched, List.foldl_append]
  rfl

theorem Agrees.toggle {as : List Act} {s : Sharing} (h : Agrees as s) (name : String) :
    Agrees (as ++ [.toggle name]) { s with
      handler := (s.handler.toggleOption name).1
      wire := s.wire ++ (s.handler.toggleOption name).2.toList.map (·.toOptionMessage) } where
  stored := toggleOption_stored s.handler h.stored name
  authorized := h.authorized
  socket := h.socket
  settled := by
    have happly := apply_toggleOption s.handler h.stored name (touched as)
    rw [Sharing.settled, List.foldl_append, touched_snoc, ← happly, ← h.settled]
    cases (s.handler.toggleOption name).2 with
    | none => rfl
    | some o => rfl

/-- What the host says of its privacy mode is none of the flags. -/
theorem Agrees.privacyMode {as : List Act} {s : Sharing} (h : Agrees as s) (implKey : String)
    (on : Bool) : Agrees (as ++ [.privacyMode implKey on])
      { s with handler := s.handler.updatePrivacyMode implKey on } := by
  have hshown : Flags.shown (s.handler.updatePrivacyMode implKey on).config (touched as) =
      .shown s.handler.file (touched as) := by
    cases on <;> rfl
  constructor
  · cases on <;> rfl
  · exact h.authorized
  · exact h.socket
  · rw [touched_snoc, hshown, ← h.stored]
    exact h.settled

theorem next_option {t : State} (hauth : t.conn.authorized = true)
    (hsocket : t.conn.portForwardSocket = false) (out : Outside) (o : OptionMessage) :
    t.next (.peer out (.option o)) = t.updateOptions o := by
  have hmessage : t.onMessage out (.option o) = (t.updateOptions o, true) := by
    simp only [State.onMessage, hauth, hsocket, Bool.not_false, Bool.and_self, if_true,
      State.onAuthorizedMessage]
  have hsocket' : (t.updateOptions o).conn.portForwardSocket = false := by
    rw [State.conn_updateOptions]
    exact hsocket
  simp only [State.next, State.onPeer, hmessage, hsocket', Bool.false_and, Bool.false_eq_true,
    if_false]

theorem Agrees.deliver {as : List Act} {s : Sharing} (h : Agrees as s) (out : Outside)
    {o : OptionMessage} {rest : List OptionMessage} (hwire : s.wire = o :: rest) :
    Agrees (as ++ [.deliver out])
      { s with wire := rest, host := s.host.next (.peer out (.option o)) } := by
  have hconn : (s.host.next (.peer out (.option o))).conn = s.host.conn.withOptions o := by
    rw [next_option h.authorized h.socket out o]
    exact State.conn_updateOptions s.host o
  have hsettled := h.settled
  constructor
  · exact h.stored
  · exact (congrArg Connection.authorized hconn).trans h.authorized
  · exact (congrArg Connection.portForwardSocket hconn).trans h.socket
  · rw [Sharing.settled, hwire, List.foldl_cons] at hsettled
    rw [Sharing.settled, hconn, Flags.ofConnection_withOptions, touched_snoc]
    exact hsettled

theorem Agrees.host {as : List Act} {s : Sharing} (h : Agrees as s) {e : Host.Event}
    (he : ∀ out o, e ≠ .peer out (.option o)) :
    Agrees (as ++ [.host e]) { s with host := s.host.next e } := by
  have hleaves := Leaves.next h.authorized he
  constructor
  · exact h.stored
  · exact State.authorized_next e h.authorized
  · exact hleaves.socket h.socket
  · rw [Sharing.settled, hleaves.flags, touched_snoc]
    exact h.settled

/-! ### Every run -/

theorem agrees_of_run {as : List Act} {s : Sharing} (h : system.Run as s) : Agrees as s := by
  induction h with
  | start h => exact h.agrees_nil
  | snoc _ hs ih =>
    cases hs with
    | toggle name => exact ih.toggle name
    | privacyMode implKey on => exact ih.privacyMode implKey on
    | deliver out o rest hwire _ => exact ih.deliver out hwire
    | host e he _ => exact ih.host he

theorem held_eq_iff (viewOnly : Bool) (touched : List String) (name : String) (own : Bool) :
    held viewOnly touched name own = held viewOnly [] name own ↔
      (viewOnly = true → name ∈ touched → own = (forced name).getD own) := by
  cases viewOnly with
  | false => simp only [held_of_not_viewOnly, Bool.false_eq_true, false_imp_iff]
  | true =>
    rw [held_of_not_mem (List.not_mem_nil (a := name))]
    by_cases hmem : name ∈ touched
    · simp only [held_of_mem hmem, hmem, true_imp_iff]
    · simp only [held_of_not_mem hmem, hmem, false_imp_iff, implies_true]

/-- The config shows what a login would say unless `view-only` is on and a forced option was toggled
to something else. -/
theorem shown_eq_login_iff (h : LoginConfigHandler) (touched : List String) :
    Flags.shown h.config touched = .shown h.config [] ↔
      (h.config.viewOnly = true → ∀ name ∈ touched, ∀ v, forced name = some v →
        h.getToggleOption name = v) := by
  constructor
  · intro heq hviewOnly name hmem v hforced
    have hown (own : Bool) (hheld : held h.config.viewOnly touched name own =
        held h.config.viewOnly [] name own) : own = v := by
      have h' := (held_eq_iff _ _ _ _).mp hheld hviewOnly hmem
      rwa [hforced] at h'
    unfold forced at hforced
    split_ifs at hforced with hlock hfile hcursor hclipboard
    · subst hlock
      exact hown _ (congrArg Flags.lockAfterSessionEnd heq)
    · subst hfile
      exact hown _ (congrArg Flags.enableFileTransfer heq)
    · subst hcursor
      exact hown _ (congrArg Flags.showRemoteCursor heq)
    · subst hclipboard
      exact hown _ (congrArg Flags.disableClipboard heq)
  · intro hback
    ext
    case lockAfterSessionEnd =>
      apply (held_eq_iff _ _ _ _).mpr
      intro hviewOnly hmem
      exact hback hviewOnly _ hmem false rfl
    case showRemoteCursor =>
      apply (held_eq_iff _ _ _ _).mpr
      intro hviewOnly hmem
      exact hback hviewOnly _ hmem true rfl
    case enableFileTransfer =>
      apply (held_eq_iff _ _ _ _).mpr
      intro hviewOnly hmem
      exact hback hviewOnly _ hmem false rfl
    case disableClipboard =>
      apply (held_eq_iff _ _ _ _).mpr
      intro hviewOnly hmem
      exact hback hviewOnly _ hmem true rfl
    all_goals rfl

/-- **Both sides hold the same options.** Once the host has taken every message under way, its flags
are those a new login would set exactly when, as long as `view-only` is on, each forced option that
was toggled since is back at its forced value. -/
theorem settled_eq_login_iff {as : List Act} {s : Sharing} (h : system.Run as s) :
    s.settled = Flags.unset.apply s.handler.optionMessage.toOptionMessage ↔
      (s.handler.config.viewOnly = true → ∀ name ∈ touched as, ∀ v, forced name = some v →
        s.handler.getToggleOption name = v) := by
  rw [(agrees_of_run h).settled, apply_optionMessage]
  exact shown_eq_login_iff s.handler (touched as)

/-- A config with nothing turned on but `disable-clipboard`. -/
def muted : PeerConfig where
  showRemoteCursor := false
  followRemoteCursor := false
  followRemoteWindow := false
  disableAudio := false
  disableClipboard := true
  lockAfterSessionEnd := false
  privacyMode := false
  enableFileCopyPaste := false
  showQualityMonitor := false
  allowSwapKey := false
  viewOnly := false
  showMyCursor := false
  options _ := none

/-- A connection of the plain host whose login request came with the options of this handler. -/
def asked (h : LoginConfigHandler) : State :=
  { State.plain none with conn := { (State.plain none).conn with
      optionsInLogin := some h.optionMessage.toOptionMessage } }

/-- A session that has just begun with this config. -/
def begun : Sharing where
  handler := ⟨.defaultConn, muted, muted⟩
  wire := []
  host := (asked ⟨.defaultConn, muted, muted⟩).enter .plain

theorem loggedIn_begun : begun.LoggedIn where
  stored := rfl
  wire := rfl
  host := ⟨asked _, .plain, begun.handler.optionMessage, rfl, rfl, rfl, rfl, rfl, rfl⟩

/-- While `view-only` is on, the clipboard can be turned on again at the host. -/
theorem settled_ne_login_clipboard :
    ∃ as s, system.Run as s ∧ s.handler.config.viewOnly = true ∧
      s.settled ≠ Flags.unset.apply s.handler.optionMessage.toOptionMessage := by
  have hbegun : system.Run [] begun := .start loggedIn_begun
  have hviewOnly : system.Run [.toggle "view-only"] _ := hbegun.snoc (Step.toggle begun "view-only")
  have hclipboard : system.Run [.toggle "view-only", .toggle "disable-clipboard"] _ :=
    hviewOnly.snoc (Step.toggle _ "disable-clipboard")
  refine ⟨_, _, hclipboard, rfl, ?_⟩
  rw [Ne, settled_eq_login_iff hclipboard]
  intro hback
  have hforced : false = true := hback rfl "disable-clipboard" (by decide) true rfl
  cases hforced

end Sharing

end HopToDesk.Client.Options
