import HopToDesk.Laws.Host.Login

/-!
# A connection that is not authorized

What it is subscribed to: nothing, as long as the connection manager does not toggle a permission of
it in a way that subscribes (`Harmless`). No message of the peer needs a condition: options are kept
for the login, and what subscribes on a message asks for the authorization first.
-/

set_option autoImplicit false

namespace HopToDesk.Host

open Kit

/-- The flags a subscription of an unauthorized connection could come from. -/
def Connection.flags (c : Connection) : Option AuthConnType × Bool × Bool × Bool × Bool :=
  (c.authedConnType, c.showRemoteCursor, c.enableFileTransfer, c.disableKeyboard, c.disableClipboard)

namespace State

/-- A connection that is not authorized, not subscribed, and whose options nobody has set. -/
structure Unentered (s : State) : Prop where
  authorized : s.conn.authorized = false
  flags : s.conn.flags = (none, false, false, false, false)
  unsubed : ∀ n, ¬ s.Subed n

namespace Unentered

variable {s s' : State}

theorem of_eq (h : Unentered s) (hauth : s'.conn.authorized = s.conn.authorized)
    (hflags : s'.conn.flags = s.conn.flags) (hsubed : ∀ n, s'.Subed n ↔ s.Subed n) :
    Unentered s' where
  authorized := hauth.trans h.authorized
  flags := hflags.trans h.flags
  unsubed n hn := h.unsubed n ((hsubed n).mp hn)

theorem beside (h : Unentered s) (hb : Beside s s') : Unentered s' :=
  h.of_eq (congrArg _ hb.conn) (congrArg _ hb.conn) hb.subed

theorem setUp (h : Unentered s) (hs : SetUp s s') : Unentered s' :=
  h.of_eq (congrArg Connection.authorized hs.conn :) (congrArg Connection.flags hs.conn :) hs.subed

theorem onClose (h : Unentered s) : Unentered s.onClose := by
  obtain ⟨hsettings, hcore, hserver⟩ := s.onClose_spec
  refine h.of_eq (congrArg Connection.authorized hcore :) (congrArg Connection.flags hcore :) ?_
  intro n
  rw [Subed, Subed, hserver, hsettings]

theorem endLoop (h : Unentered s) : Unentered s.endLoop := by
  obtain ⟨-, hcore, hunsubed⟩ := s.endLoop_spec
  exact ⟨(congrArg Connection.authorized hcore).trans h.authorized,
    (congrArg Connection.flags hcore).trans h.flags, hunsubed⟩

theorem isAuthedViewCameraConn (h : Unentered s) : s.conn.isAuthedViewCameraConn = false := by
  have hnone : s.conn.authedConnType = none := congrArg Prod.fst h.flags
  simp only [Connection.isAuthedViewCameraConn, hnone, reduceCtorEq, decide_false]

end Unentered

/-- The invariant: authorized, or not subscribed to anything. -/
def Guarded (s : State) : Prop := s.conn.authorized = true ∨ Unentered s

theorem Guarded.beside {s s' : State} (h : Guarded s) (hb : Beside s s') : Guarded s' := by
  rcases h with h | h
  · exact .inl ((congrArg _ hb.conn).trans h)
  · exact .inr (h.beside hb)

theorem Guarded.endLoop {s : State} (h : Guarded s) : Guarded s.endLoop := by
  rcases h with h | h
  · exact .inl ((congrArg Connection.authorized s.endLoop_spec.2.1).trans h)
  · exact .inr h.endLoop

theorem Unentered.sendLogonResponse {s : State} (h : Unentered s) (out : Outside) :
    Guarded (s.sendLogonResponse out) := by
  obtain ⟨-, -, heq⟩ | ⟨-, hbeside⟩ := s.sendLogonResponse_cases out
  · rw [heq]
    exact .inl (s.authorized_enter out)
  · exact .inr (h.beside hbeside)

/-! ## Messages of the peer -/

theorem Unentered.onLoginRequest {s : State} (h : Unentered s) (out : Outside) (lr : LoginRequest) :
    Guarded (s.onLoginRequest out lr).1 := by
  have h₀ : Unentered (s.handleLoginRequestWithoutValidation out lr) :=
    h.of_eq rfl rfl fun _ => Iff.rfl
  have ht₀ := h₀.setUp (setUpLogin_spec _ out lr.union)
  obtain hbeside | ⟨-, t, hbeside, -, heq⟩ := onLoginRequest_cases out h.authorized lr
  · exact .inr (ht₀.beside hbeside)
  · rw [heq]
    exact (ht₀.beside hbeside).sendLogonResponse out

theorem Unentered.onAuth2fa {s : State} (h : Unentered s) (out : Outside) (code : String) :
    Guarded (s.onAuth2fa out code) := by
  obtain ⟨hbeside, -⟩ | ⟨-, t, hbeside, heq⟩ := s.onAuth2fa_cases out code
  · exact .inr (h.beside hbeside)
  · rw [heq]
    have h₀ : Unentered (s.modify ({ · with require2fa := none })) :=
      h.of_eq rfl rfl fun _ => Iff.rfl
    exact (h₀.beside hbeside).sendLogonResponse out

theorem Unentered.onSwitchSidesResponse {s : State} (h : Unentered s) (out : Outside)
    (uuid : List UInt8) (lr : LoginRequest) : Guarded (s.onSwitchSidesResponse out uuid lr) := by
  have h₀ : Unentered (s.handleLoginRequestWithoutValidation out lr) :=
    h.of_eq rfl rfl fun _ => Iff.rfl
  obtain ⟨-, hbeside⟩ | ⟨-, t, hbeside, heq⟩ := s.onSwitchSidesResponse_cases out uuid lr
  · exact .inr (h₀.beside hbeside)
  · rw [heq]
    have h₁ : Unentered ((s.handleLoginRequestWithoutValidation out lr).modify
        ({ · with fromSwitch := true })) := h₀.of_eq rfl rfl fun _ => Iff.rfl
    exact (h₁.beside hbeside).sendLogonResponse out

theorem Unentered.onMessage {s : State} (h : Unentered s) (out : Outside) (msg : Message) :
    Guarded (s.onMessage out msg).1 := by
  have hrest : (s.conn.authorized && !s.conn.portForwardSocket) = false := by
    rw [h.authorized, Bool.false_and]
  cases msg with
  | loginRequest lr => exact h.onLoginRequest out lr
  | auth2fa code => exact h.onAuth2fa out code
  | inviteRequest => exact .inr (h.of_eq rfl rfl fun _ => Iff.rfl)
  | switchSidesResponse uuid lr =>
    cases lr with
    | some lr => exact h.onSwitchSidesResponse out uuid lr
    | none => exact .inr h
  | _ =>
    simp only [State.onMessage, hrest, Bool.false_eq_true, if_false]
    exact .inr h

theorem Unentered.onPeer {s : State} (h : Unentered s) (out : Outside) (msg : Message) :
    Guarded (s.onPeer out msg) := by
  have hmsg := h.onMessage out msg
  unfold State.onPeer
  split
  next heq =>
    rw [heq] at hmsg
    exact hmsg.endLoop
  next heq =>
    rw [heq] at hmsg
    split
    · exact hmsg.endLoop
    · exact hmsg

/-! ## Messages of the connection manager -/

/-- A toggle does not subscribe an unauthorized connection: it turns nothing on, or nothing that a
service the server has would follow. -/
def HarmlessToggle (s : State) (name : String) (enabled : Bool) : Prop :=
  enabled = true →
    (name = "keyboard" → ¬ s.Offers .cursor ∧
      (s.Offers .clipboard → s.conn.clipboard = true →
        s.settings.oneWayClipboardRedirection = true)) ∧
    (name = "clipboard" → s.Offers .clipboard → s.conn.keyboard = true →
      s.settings.oneWayClipboardRedirection = true) ∧
    (name = "camera" → s.Offers (.video .camera Server.primaryCameraIdx) →
      s.conn.viewCamera = false)

theorem Unentered.toggle_iff {s : State} (h : Unentered s) (name : String) (enabled : Bool) :
    (∀ n, ¬ (s.switchPermission name enabled).Subed n) ↔ s.HarmlessToggle name enabled := by
  have hsettled := s.settled_switchPermission name enabled
  have hflags := h.flags
  simp only [Connection.flags, Prod.mk.injEq] at hflags
  obtain ⟨-, hshow, hfile, hkeyboard, hclipboard⟩ := hflags
  constructor
  · intro hnone henabled
    subst henabled
    refine ⟨?_, ?_, ?_⟩
    · intro hname
      subst hname
      have hcursor := hnone .cursor
      have hclip := hnone .clipboard
      rw [hsettled.subed] at hcursor hclip
      constructor
      · intro hoffers
        exact hcursor (by simp [Connection.toggleSettles, Connection.toggleLeaves, hoffers])
      · intro hoffers hclipboard'
        simpa [Connection.toggleSettles, Connection.toggleLeaves, Connection.wants,
          Connection.canSubClipboardService, Connection.clipboardEnabled,
          Connection.peerKeyboardEnabled, Connection.withPermission, hoffers, hclipboard',
          hclipboard, hkeyboard] using hclip
    · intro hname hoffers hkeyboard'
      subst hname
      have hclip := hnone .clipboard
      rw [hsettled.subed] at hclip
      simpa [Connection.toggleSettles, Connection.toggleLeaves, Connection.wants,
        Connection.canSubClipboardService, Connection.clipboardEnabled,
        Connection.peerKeyboardEnabled, Connection.withPermission, hoffers, hkeyboard',
        hclipboard, hkeyboard] using hclip
    · intro hname hoffers
      subst hname
      have hcamera := hnone (.video .camera Server.primaryCameraIdx)
      rw [hsettled.subed] at hcamera
      simpa [Connection.toggleSettles, Connection.toggleLeaves, Connection.withPermission,
        hoffers, h.unsubed] using hcamera
  · intro hharmless n hn
    rw [hsettled.subed n] at hn
    cases hset : ((s.conn.withPermission name enabled).toggleSettles name n) with
    | false =>
      rw [hset, if_neg Bool.false_ne_true] at hn
      exact h.unsubed n hn
    | true =>
      rw [hset, if_pos rfl] at hn
      obtain ⟨hoffers, hleaves⟩ := hn
      cases n with
      | cursor =>
        have hname : name = "keyboard" := by simpa [Connection.toggleSettles] using hset
        subst hname
        have henabled : enabled = true := by
          simpa [Connection.toggleLeaves, Connection.withPermission, hshow] using hleaves
        exact ((hharmless henabled).1 rfl).1 hoffers
      | clipboard =>
        have hname : name = "keyboard" ∨ name = "clipboard" := by
          simpa [Connection.toggleSettles] using hset
        rcases hname with hname | hname
        · subst hname
          simp [Connection.toggleLeaves, Connection.wants, Connection.canSubClipboardService,
            Connection.clipboardEnabled, Connection.peerKeyboardEnabled,
            Connection.withPermission, hclipboard, hkeyboard] at hleaves
          obtain ⟨⟨hclipboard', henabled⟩, hone⟩ := hleaves
          have := ((hharmless henabled).1 rfl).2 hoffers hclipboard'
          simp [hone] at this
        · subst hname
          simp [Connection.toggleLeaves, Connection.wants, Connection.canSubClipboardService,
            Connection.clipboardEnabled, Connection.peerKeyboardEnabled,
            Connection.withPermission, hclipboard, hkeyboard] at hleaves
          obtain ⟨⟨henabled, hkeyboard'⟩, hone⟩ := hleaves
          have := (hharmless henabled).2.1 rfl hoffers hkeyboard'
          simp [hone] at this
      | fileClipboard =>
        have hname : name = "keyboard" ∨ name = "file" := by
          simpa [Connection.toggleSettles] using hset
        rcases hname with hname | hname
        · subst hname
          simp [Connection.toggleLeaves, Connection.wants, Connection.canSubFileClipboardService,
            Connection.fileTransferEnabled, Connection.withPermission, hfile] at hleaves
        · subst hname
          simp [Connection.toggleLeaves, Connection.wants, Connection.canSubFileClipboardService,
            Connection.fileTransferEnabled, Connection.withPermission, hfile] at hleaves
      | audio =>
        have hname : name = "audio" := by
          simp [Connection.toggleSettles] at hset
          exact hset.1.1
        subst hname
        simp [Connection.toggleSettles, Connection.withPermission, h.authorized] at hset
      | video source idx =>
        have hname : name = "camera" := by
          simp [Connection.toggleSettles] at hset
          exact hset.1.1.1
        subst hname
        simp [Connection.toggleSettles, Connection.withPermission] at hset
        obtain ⟨⟨hview, hsource⟩, hidx⟩ := hset
        subst hsource hidx
        have := (hharmless hleaves).2.2 rfl hoffers
        simp [hview] at this
      | display => cases hset
      | pos => cases hset
      | windowFocus => cases hset

/-- A step is harmless unless it toggles a permission of an unauthorized connection so that it
subscribes. -/
def Harmless (s : State) : Event → Prop
  | .cm _ (.switchPermission name enabled) =>
    s.conn.authorized = false → s.HarmlessToggle name enabled
  | _ => True

/-- A connection that is not authorized is not subscribed to anything. -/
def Apart (s : State) : Prop := s.conn.authorized = false → ∀ n, ¬ s.Subed n

theorem Guarded.apart {s : State} (h : Guarded s) : Apart s := by
  intro hauth
  rcases h with h | h
  · rw [hauth] at h
    cases h
  · exact h.unsubed

theorem Unentered.onCm {s : State} (h : Unentered s) (out : Outside) (data : CmData)
    (hok : s.Harmless (.cm out data)) : Guarded (s.onCm out data) := by
  cases data with
  | authorize =>
    have h' : Unentered (s.modify ({ · with require2fa := none })) :=
      h.of_eq rfl rfl fun _ => Iff.rfl
    have hlogon := h'.sendLogonResponse out
    simp only [State.onCm]
    split
    · exact hlogon.endLoop
    · exact hlogon
  | close =>
    have h' : Unentered
        (s.tell (.closeReason "The remote partner has closed the session.")) :=
      h.of_eq rfl rfl fun _ => Iff.rfl
    exact .inr h'.onClose.endLoop
  | inviteResponse accepted =>
    have h' : Unentered (s.tell (.inviteResponse accepted)) := h.of_eq rfl rfl fun _ => Iff.rfl
    simp only [State.onCm]
    split
    · exact .inr h'
    · exact .inr h'.onClose.endLoop
  | cmErr err =>
    simp only [State.onCm]
    split
    · exact .inr h
    · exact .inr h.onClose.endLoop
  | switchPermission name enabled =>
    refine .inr ⟨?_, ?_, (h.toggle_iff name enabled).mpr (hok h.authorized)⟩
    · exact (authorized_switchPermission name enabled).trans h.authorized
    · refine Eq.trans ?_ h.flags
      simp only [State.onCm, conn_switchPermission, Connection.withPermission]
      repeat' split
      all_goals rfl
  | voiceCallResponse accepted =>
    simp only [State.onCm, State.handleVoiceCall]
    split
    · let t := (s.tell (.voiceCallResponse accepted)).modify
        ({ · with voiceCallRequested := false, voiceCalling := accepted })
      have ht : Unentered t := h.of_eq rfl rfl fun _ => Iff.rfl
      have hskip : ¬ t.conn.isAuthedViewCameraConn = true := by
        rw [ht.isAuthedViewCameraConn]
        exact Bool.false_ne_true
      rw [if_neg hskip]
      exact .inr ht
    · exact .inr h
  | closeVoiceCall =>
    let t := s.modify ({ · with voiceCalling := false })
    have ht : Unentered t := h.of_eq rfl rfl fun _ => Iff.rfl
    have hskip : ¬ t.conn.isAuthedViewCameraConn = true := by
      rw [ht.isAuthedViewCameraConn]
      exact Bool.false_ne_true
    simp only [State.onCm, State.closeVoiceCall]
    rw [if_neg hskip]
    exact .inr (ht.of_eq rfl rfl fun _ => Iff.rfl)
  | other => exact .inr h

theorem Guarded.next {s : State} {e : Event} (h : Guarded s) (hcan : s.Can e)
    (hok : s.Harmless e) : Guarded (s.next e) := by
  rcases h with h | h
  · exact .inl (authorized_next e h)
  · cases e with
    | cm out data => exact h.onCm out data hok
    | peer out msg => exact h.onPeer out msg
    | lost => exact .inr h.onClose.endLoop
    | stopService =>
      have hbeside :=
        ((Beside.refl s).tell (.closeReason "Closed manually by the peer")).checkRemoveSession
      exact .inr (h.beside hbeside).onClose.endLoop
    | terminalTick =>
      have hrest : (s.conn.terminal && s.conn.authorized && s.conn.terminalServiceId ≠ "") = false := by
        rw [h.authorized, Bool.and_false, Bool.false_and]
      simp only [State.next, hrest, Bool.false_eq_true, if_false]
      exact .inr h
    | elsewhere globals =>
      exact .inr (h.of_eq rfl rfl hcan.isSubed)

/-- **Nobody is subscribed before the login.** In a run of a connection, the connection is subscribed
to nothing while it is not authorized exactly when every toggle of an unauthorized connection is
harmless. -/
theorem apart_iff_harmless {tr : List (State × Event)} {s : State} (h : system.Trace tr s) :
    System.Always Apart tr s ↔ ∀ x ∈ tr, x.1.Harmless x.2 := by
  refine h.always_iff (I := Guarded) ?_ Guarded.apart ?_ ?_
  · intro s hfresh
    obtain ⟨out, require2fa, hconn⟩ := hfresh.conn
    refine .inr ⟨?_, ?_, hfresh.unsubed⟩
    · rw [hconn]
      rfl
    · rw [hconn]
      rfl
  · intro s e s' hs hstep hok
    obtain ⟨hcan, rfl⟩ := hstep
    exact hs.next hcan hok
  · intro s e s' hs hstep hgood
    obtain ⟨hcan, rfl⟩ := hstep
    unfold Harmless
    split
    next out name enabled =>
      intro hauth
      have hun : Unentered s := by
        rcases hs with h | h
        · rw [hauth] at h
          cases h
        · exact h
      apply (hun.toggle_iff name enabled).mp
      apply hgood
      exact (authorized_switchPermission name enabled).trans hauth
    · trivial

/-- The audio toggle looks at the authorization. -/
theorem apart_audio_toggled :
    System.Always Apart
      [(State.plain none, Event.cm .plain (.switchPermission "audio" true))]
      ((State.plain none).next (.cm .plain (.switchPermission "audio" true))) := by
  have htrace : system.Trace [] (State.plain none) := .start (fresh_plain none)
  have hstep : system.step (State.plain none) (.cm .plain (.switchPermission "audio" true)) _ :=
    ⟨rfl, rfl⟩
  refine (apart_iff_harmless (htrace.snoc hstep)).mpr ?_
  intro x hx
  obtain rfl := List.mem_singleton.mp hx
  intro _ _
  refine ⟨?_, ?_, ?_⟩
  · intro hname
    exact absurd hname (by decide)
  · intro hname
    exact absurd hname (by decide)
  · intro hname
    exact absurd hname (by decide)

/-- The keyboard toggle does not: it subscribes a connection nobody has let in to the cursor. -/
theorem not_apart_keyboard_toggled :
    ¬ ∀ (tr : List (State × Event)) (s : State), system.Trace tr s → System.Always Apart tr s := by
  intro h
  have hapart := (h [(State.plain none, Event.cm .plain (.switchPermission "keyboard" true))] _
    (.snoc (.start (fresh_plain none)) ⟨rfl, rfl⟩)).2
  refine hapart rfl .cursor ?_
  exact (Server.isSubed_iff _ _).mp (by decide)

end State

end HopToDesk.Host
