import HopToDesk.Host.Connection

/-!
# What the handlers do to the subscriptions

For each handler that subscribes: which services it settles, and to what. A service the server does
not have is never subscribed to, so "settled to `b`" reads "offered, and `b`".

`updateOptions` goes through the options one after another and settles a service at each option that
bears on it, with the flags as they are by then. The last one to settle a service decides; the
lemmas at the end say so for each of the services, over the flags as the message leaves them
(`withOptions`).
-/

set_option autoImplicit false

namespace HopToDesk.Host

namespace State

/-- This connection is subscribed to the service. -/
def Subed (s : State) (n : ServiceName) : Prop := s.globals.server.IsSubed n s.settings.id

/-- The server has the service. -/
def Offers (s : State) (n : ServiceName) : Prop := s.globals.server.Contains n

instance (s : State) (n : ServiceName) : Decidable (s.Offers n) :=
  inferInstanceAs (Decidable (s.globals.server.Contains n))

variable (s : State) (n : ServiceName)

/-! ## The small steps -/

section Small

variable (f : Connection → Connection) (g : Globals → Globals) (r : Reply) (name : ServiceName)
  (sub : Bool)

@[simp] theorem conn_modify : (s.modify f).conn = f s.conn := rfl
@[simp] theorem settings_modify : (s.modify f).settings = s.settings := rfl
@[simp] theorem globals_modify : (s.modify f).globals = s.globals := rfl
@[simp] theorem conn_tell : (s.tell r).conn = s.conn := rfl
@[simp] theorem settings_tell : (s.tell r).settings = s.settings := rfl
@[simp] theorem globals_tell : (s.tell r).globals = s.globals := rfl
@[simp] theorem conn_onGlobals : (s.onGlobals g).conn = s.conn := rfl
@[simp] theorem settings_onGlobals : (s.onGlobals g).settings = s.settings := rfl
@[simp] theorem globals_onGlobals : (s.onGlobals g).globals = g s.globals := rfl
@[simp] theorem conn_subscribe : (s.subscribe name sub).conn = s.conn := rfl
@[simp] theorem settings_subscribe : (s.subscribe name sub).settings = s.settings := rfl

@[simp] theorem subed_modify : (s.modify f).Subed n ↔ s.Subed n := Iff.rfl
@[simp] theorem offers_modify : (s.modify f).Offers n ↔ s.Offers n := Iff.rfl
@[simp] theorem subed_tell : (s.tell r).Subed n ↔ s.Subed n := Iff.rfl
@[simp] theorem offers_tell : (s.tell r).Offers n ↔ s.Offers n := Iff.rfl

@[simp]
theorem offers_subscribe : (s.subscribe name sub).Offers n ↔ s.Offers n :=
  Server.contains_subscribe name s.connInner sub n

/-- `subscribe` settles its service. -/
@[simp]
theorem subed_subscribe :
    (s.subscribe name sub).Subed n ↔ if n = name then s.Offers n ∧ sub = true else s.Subed n := by
  refine (Server.isSubed_subscribe name s.connInner sub n).trans ?_
  by_cases hn : n = name
  · subst hn
    rfl
  · simp only [if_neg hn]
    rfl

end Small

theorem Subed.offers {s : State} {n : ServiceName} (h : s.Subed n) : s.Offers n := Server.IsSubed.contains h

/-! ## The parts of handlers -/

@[simp] theorem conn_subscribeAudio : s.subscribeAudio.conn = s.conn := by
  unfold subscribeAudio
  split
  · split
    · rfl
    · rfl
  · rfl

@[simp] theorem settings_subscribeAudio : s.subscribeAudio.settings = s.settings := by
  unfold subscribeAudio
  split
  · split
    · rfl
    · rfl
  · rfl

@[simp] theorem terminals_subscribeAudio :
    s.subscribeAudio.globals.terminals = s.globals.terminals := by
  unfold subscribeAudio
  split
  · split
    · rfl
    · rfl
  · rfl

@[simp] theorem offers_subscribeAudio : s.subscribeAudio.Offers n ↔ s.Offers n := by
  unfold subscribeAudio
  split
  · split
    · exact offers_subscribe s n _ _
    · rfl
  · exact offers_subscribe s n _ _

/-- The audio service follows what is enabled, but for a camera watched without a voice call. -/
theorem subed_subscribeAudio :
    s.subscribeAudio.Subed n ↔
      if n = .audio ∧ (s.conn.isAuthedViewCameraConn = true →
          s.conn.voiceCalling = true ∨ s.conn.audioEnabled = false)
        then s.Offers n ∧ s.conn.audioEnabled = true else s.Subed n := by
  unfold subscribeAudio
  by_cases hn : n = .audio
  · subst hn
    cases hcamera : s.conn.isAuthedViewCameraConn <;>
      cases hcalling : s.conn.voiceCalling <;> cases haudio : s.conn.audioEnabled <;>
        simp [subed_subscribe]
  · simp only [hn, false_and, if_false]
    split
    · split
      · rw [subed_subscribe, if_neg hn]
      · rfl
    · rw [subed_subscribe, if_neg hn]

end State

/-! ## What the flags want -/

/-- What the flags of a connection want of a service that follows them. -/
def Connection.wants (c : Connection) (settings : Settings) : ServiceName → Bool
  | .cursor => c.peerKeyboardEnabled || c.showRemoteCursor
  | .pos => c.showRemoteCursor
  | .windowFocus => c.followRemoteWindow
  | .clipboard => c.canSubClipboardService settings
  | .fileClipboard => c.canSubFileClipboardService settings
  | .audio => c.audioEnabled
  | .display | .video _ _ => false

/-- A change of what audio is enabled reaches the audio service. -/
def Connection.settlesAudio (c : Connection) : Bool :=
  !c.isAuthedViewCameraConn || c.voiceCalling || !c.audioEnabled

/-- The flags as a message with options leaves them. -/
def Connection.withOptions (c : Connection) (o : OptionMessage) : Connection :=
  { c with
    lockAfterSessionEnd := (chosen o.lockAfterSessionEnd).getD c.lockAfterSessionEnd
    showRemoteCursor := (chosen o.showRemoteCursor).getD c.showRemoteCursor
    followRemoteCursor := (chosen o.followRemoteCursor).getD c.followRemoteCursor
    followRemoteWindow := (chosen o.followRemoteWindow).getD c.followRemoteWindow
    disableAudio := (chosen o.disableAudio).getD c.disableAudio
    enableFileTransfer := (chosen o.enableFileTransfer).getD c.enableFileTransfer
    disableClipboard := (chosen o.disableClipboard).getD c.disableClipboard
    disableKeyboard := (chosen o.disableKeyboard).getD c.disableKeyboard }

/-- A message with options settles a service, where `c` are the flags it leaves. -/
def OptionMessage.settles (o : OptionMessage) (c : Connection) : ServiceName → Bool
  | .cursor => (chosen o.disableKeyboard).isSome || (chosen o.showRemoteCursor).isSome
  | .pos => (chosen o.showRemoteCursor).isSome
  | .windowFocus => (chosen o.followRemoteWindow).isSome
  | .clipboard => (chosen o.disableKeyboard).isSome || (chosen o.disableClipboard).isSome
  | .fileClipboard => (chosen o.disableKeyboard).isSome || (chosen o.enableFileTransfer).isSome
  | .audio => (chosen o.disableAudio).isSome && c.settlesAudio
  | .display | .video _ _ => false

/-- What a message with options leaves a service it settles at. -/
def OptionMessage.leaves (o : OptionMessage) (settings : Settings) (c : Connection) :
    ServiceName → Bool
  | .fileClipboard =>
    if (chosen o.disableKeyboard).isSome then (c.withOptions o).canSubFileClipboardService settings
    else
      { c.withOptions o with disableClipboard := c.disableClipboard }.canSubFileClipboardService
        settings
  | n => (c.withOptions o).wants settings n

namespace State

variable (s : State) (n : ServiceName)

/-- The state after a step that settles the services `touched`, each to its `value`. -/
structure Settled (s s' : State) (touched value : ServiceName → Bool) : Prop where
  settings : s'.settings = s.settings
  terminals : s'.globals.terminals = s.globals.terminals
  offers : ∀ n, s'.Offers n ↔ s.Offers n
  subed : ∀ n, s'.Subed n ↔ if touched n = true then s.Offers n ∧ value n = true else s.Subed n

/-- The flags alone change nothing. -/
theorem settled_modify (f : Connection → Connection) (value : ServiceName → Bool) :
    Settled s (s.modify f) (fun _ => false) value where
  settings := rfl
  terminals := rfl
  offers _ := Iff.rfl
  subed _ := Iff.rfl

/-- Two steps after each other: the second one has the last word. -/
theorem Settled.trans {s s' s'' : State} {t t' v v' : ServiceName → Bool} (h : Settled s s' t v)
    (h' : Settled s' s'' t' v') :
    Settled s s'' (fun n => t' n || t n) (fun n => if t' n = true then v' n else v n) where
  settings := h'.settings.trans h.settings
  terminals := h'.terminals.trans h.terminals
  offers n := (h'.offers n).trans (h.offers n)
  subed n := by
    rw [h'.subed n, h.offers n, h.subed n]
    cases t' n with
    | true => simp only [Bool.true_or, if_true]
    | false => simp only [Bool.false_eq_true, if_false, Bool.false_or]

theorem Settled.congr {s s' : State} {t t' v v' : ServiceName → Bool} (h : Settled s s' t v)
    (ht : ∀ n, t' n = t n) (hv : ∀ n, t n = true → v' n = v n) : Settled s s' t' v' where
  settings := h.settings
  terminals := h.terminals
  offers := h.offers
  subed n := by
    rw [h.subed n, ht n]
    cases htn : t n with
    | true => simp only [if_true, hv n htn]
    | false => simp only [Bool.false_eq_true, if_false]

/-- One service is subscribed to or left. -/
theorem settled_subscribe (name : ServiceName) (sub : Bool) :
    Settled s (s.subscribe name sub) (fun n => n = name) fun _ => sub where
  settings := rfl
  terminals := rfl
  offers n := s.offers_subscribe n name sub
  subed n := by
    rw [subed_subscribe]
    by_cases hn : n = name
    · subst hn
      simp only [if_true, decide_true]
    · simp only [hn, if_false, decide_false, Bool.false_eq_true]

theorem Settled.subscribe {s s' : State} {t v : ServiceName → Bool} (h : Settled s s' t v)
    (name : ServiceName) (sub : Bool) :
    Settled s (s'.subscribe name sub) (fun n => n = name || t n)
      (fun n => if n = name then sub else v n) := by
  refine (h.trans (s'.settled_subscribe name sub)).congr ?_ ?_
  · intro n
    rfl
  · intro n _
    simp only [decide_eq_true_eq]

/-! ## Options -/

section Setters

variable (yes : Bool)

theorem settled_setShowRemoteCursor :
    Settled s (s.setShowRemoteCursor yes) (fun n => n = .pos || n = .cursor)
      ((s.setShowRemoteCursor yes).conn.wants s.settings) := by
  have h := s.settled_modify ({ · with showRemoteCursor := yes }) fun _ => true
  refine ((h.subscribe .cursor _).subscribe .pos _).congr ?_ ?_
  · intro n
    simp only [Bool.or_false]
  · intro n hn
    cases n <;> simp at hn <;> rfl

theorem settled_setFollowRemoteWindow :
    Settled s (s.setFollowRemoteWindow yes) (fun n => n = .windowFocus)
      ((s.setFollowRemoteWindow yes).conn.wants s.settings) := by
  have h := s.settled_modify ({ · with followRemoteWindow := yes }) fun _ => true
  refine (h.subscribe .windowFocus _).congr ?_ ?_
  · intro n
    simp only [Bool.or_false]
  · intro n hn
    obtain rfl : n = .windowFocus := by simpa only [Bool.or_false, decide_eq_true_eq] using hn
    rfl

theorem settled_subscribeAudio :
    Settled s s.subscribeAudio (fun n => n = .audio && s.conn.settlesAudio)
      (s.conn.wants s.settings) where
  settings := s.settings_subscribeAudio
  terminals := s.terminals_subscribeAudio
  offers n := s.offers_subscribeAudio n
  subed n := by
    rw [subed_subscribeAudio]
    by_cases hn : n = .audio
    · subst hn
      simp only [Connection.settlesAudio, Connection.wants]
      cases s.conn.isAuthedViewCameraConn <;> cases s.conn.voiceCalling <;>
        cases s.conn.audioEnabled <;> simp
    · simp only [hn, false_and, decide_false, Bool.false_and, Bool.false_eq_true, if_false]

theorem settled_setDisableAudio :
    Settled s (s.setDisableAudio yes) (fun n => n = .audio && (s.setDisableAudio yes).conn.settlesAudio)
      ((s.setDisableAudio yes).conn.wants s.settings) := by
  have h := settled_subscribeAudio (s.modify ({ · with disableAudio := yes }))
  rw [setDisableAudio, conn_subscribeAudio]
  exact ⟨h.settings, h.terminals, h.offers, h.subed⟩

theorem settled_setEnableFileTransfer :
    Settled s (s.setEnableFileTransfer yes) (fun n => n = .fileClipboard)
      ((s.setEnableFileTransfer yes).conn.wants s.settings) := by
  have h := s.settled_modify ({ · with enableFileTransfer := yes }) fun _ => true
  refine (h.subscribe .fileClipboard _).congr ?_ ?_
  · intro n
    simp only [Bool.or_false]
  · intro n hn
    obtain rfl : n = .fileClipboard := by simpa only [Bool.or_false, decide_eq_true_eq] using hn
    rfl

theorem settled_setDisableClipboard :
    Settled s (s.setDisableClipboard yes) (fun n => n = .clipboard)
      ((s.setDisableClipboard yes).conn.wants s.settings) := by
  have h := s.settled_modify ({ · with disableClipboard := yes }) fun _ => true
  refine (h.subscribe .clipboard _).congr ?_ ?_
  · intro n
    simp only [Bool.or_false]
  · intro n hn
    obtain rfl : n = .clipboard := by simpa only [Bool.or_false, decide_eq_true_eq] using hn
    rfl

theorem settled_setDisableKeyboard :
    Settled s (s.setDisableKeyboard yes)
      (fun n => n = .cursor || (n = .fileClipboard || n = .clipboard))
      ((s.setDisableKeyboard yes).conn.wants s.settings) := by
  have h := s.settled_modify ({ · with disableKeyboard := yes }) fun _ => true
  refine (((h.subscribe .clipboard _).subscribe .fileClipboard _).subscribe .cursor _).congr ?_ ?_
  · intro n
    simp only [Bool.or_false]
  · intro n hn
    cases n <;> simp at hn <;> rfl

end Setters

section Option

variable {s n} (o : Option BoolOption) (f : State → Bool → State)

/-- What an option leaves of the flags, where `get` and `set` are the flag it is about. -/
theorem conn_option (set : Connection → Bool → Connection) (get : Connection → Bool)
    (hf : ∀ s b, (f s b).conn = set s.conn b) (hget : ∀ c, set c (get c) = c) :
    (s.option o f).conn = set s.conn ((chosen o).getD (get s.conn)) := by
  unfold State.option
  cases chosen o with
  | none => exact (hget s.conn).symm
  | some b => exact hf s b

/-- An option settles what its setter settles, if it is set. -/
theorem settled_option (touched : Connection → ServiceName → Bool)
    (hf : ∀ b, Settled s (f s b) (touched (f s b).conn) ((f s b).conn.wants s.settings)) :
    Settled s (s.option o f) (fun n => (chosen o).isSome && touched (s.option o f).conn n)
      ((s.option o f).conn.wants s.settings) := by
  unfold State.option
  cases chosen o with
  | none => exact ⟨rfl, rfl, fun _ => Iff.rfl, fun _ => Iff.rfl⟩
  | some b => exact hf b

end Option

section Flags

variable (s : State) (q : Option BoolOption)

@[simp]
theorem conn_option_setLockAfterSessionEnd :
    (s.option q setLockAfterSessionEnd).conn =
      { s.conn with lockAfterSessionEnd := (chosen q).getD s.conn.lockAfterSessionEnd } :=
  conn_option q _ ({ · with lockAfterSessionEnd := · }) (·.lockAfterSessionEnd)
    (fun _ _ => rfl) (fun _ => rfl)

@[simp]
theorem conn_option_setShowRemoteCursor :
    (s.option q setShowRemoteCursor).conn =
      { s.conn with showRemoteCursor := (chosen q).getD s.conn.showRemoteCursor } :=
  conn_option q _ ({ · with showRemoteCursor := · }) (·.showRemoteCursor)
    (fun _ _ => rfl) (fun _ => rfl)

@[simp]
theorem conn_option_setFollowRemoteCursor :
    (s.option q setFollowRemoteCursor).conn =
      { s.conn with followRemoteCursor := (chosen q).getD s.conn.followRemoteCursor } :=
  conn_option q _ ({ · with followRemoteCursor := · }) (·.followRemoteCursor)
    (fun _ _ => rfl) (fun _ => rfl)

@[simp]
theorem conn_option_setFollowRemoteWindow :
    (s.option q setFollowRemoteWindow).conn =
      { s.conn with followRemoteWindow := (chosen q).getD s.conn.followRemoteWindow } :=
  conn_option q _ ({ · with followRemoteWindow := · }) (·.followRemoteWindow)
    (fun _ _ => rfl) (fun _ => rfl)

@[simp]
theorem conn_option_setDisableAudio :
    (s.option q setDisableAudio).conn =
      { s.conn with disableAudio := (chosen q).getD s.conn.disableAudio } :=
  conn_option q _ ({ · with disableAudio := · }) (·.disableAudio)
    (fun _ _ => conn_subscribeAudio _) (fun _ => rfl)

@[simp]
theorem conn_option_setEnableFileTransfer :
    (s.option q setEnableFileTransfer).conn =
      { s.conn with enableFileTransfer := (chosen q).getD s.conn.enableFileTransfer } :=
  conn_option q _ ({ · with enableFileTransfer := · }) (·.enableFileTransfer)
    (fun _ _ => rfl) (fun _ => rfl)

@[simp]
theorem conn_option_setDisableClipboard :
    (s.option q setDisableClipboard).conn =
      { s.conn with disableClipboard := (chosen q).getD s.conn.disableClipboard } :=
  conn_option q _ ({ · with disableClipboard := · }) (·.disableClipboard)
    (fun _ _ => rfl) (fun _ => rfl)

@[simp]
theorem conn_option_setDisableKeyboard :
    (s.option q setDisableKeyboard).conn =
      { s.conn with disableKeyboard := (chosen q).getD s.conn.disableKeyboard } :=
  conn_option q _ ({ · with disableKeyboard := · }) (·.disableKeyboard)
    (fun _ _ => rfl) (fun _ => rfl)
end Flags

variable (s : State) (o : OptionMessage)

theorem conn_updateOptions : (s.updateOptions o).conn = s.conn.withOptions o := by
  simp only [updateOptions, conn_option_setLockAfterSessionEnd, conn_option_setShowRemoteCursor,
    conn_option_setFollowRemoteCursor, conn_option_setFollowRemoteWindow,
    conn_option_setDisableAudio, conn_option_setEnableFileTransfer, conn_option_setDisableClipboard,
    conn_option_setDisableKeyboard, Connection.withOptions]

/-- A message with options settles what it bears on, as the flags want by the end of it. The file
clipboard alone may be settled before the last flag it follows, `disable_clipboard`, is read. -/
theorem settled_updateOptions :
    Settled s (s.updateOptions o) (o.settles (s.conn.withOptions o))
      (o.leaves s.settings s.conn) := by
  let s₁ := s.option o.lockAfterSessionEnd setLockAfterSessionEnd
  let s₂ := s₁.option o.showRemoteCursor setShowRemoteCursor
  let s₃ := s₂.option o.followRemoteCursor setFollowRemoteCursor
  let s₄ := s₃.option o.followRemoteWindow setFollowRemoteWindow
  let s₅ := s₄.option o.disableAudio setDisableAudio
  let s₆ := s₅.option o.enableFileTransfer setEnableFileTransfer
  let s₇ := s₆.option o.disableClipboard setDisableClipboard
  have hconn : s₅.conn.settlesAudio = (s.conn.withOptions o).settlesAudio := by
    simp [s₁, s₂, s₃, s₄, s₅, Connection.withOptions, Connection.settlesAudio,
      Connection.isAuthedViewCameraConn, Connection.audioEnabled]
    rfl
  have h₁ : Settled s s₁ _ _ := settled_option _ _ (fun _ _ => false) fun _ => s.settled_modify _ _
  have h₂ : Settled s₁ s₂ _ _ :=
    settled_option _ _ (fun _ n => n = .pos || n = .cursor) s₁.settled_setShowRemoteCursor
  have h₃ : Settled s₂ s₃ _ _ :=
    settled_option _ _ (fun _ _ => false) fun _ => s₂.settled_modify _ _
  have h₄ : Settled s₃ s₄ _ _ :=
    settled_option _ _ (fun _ n => n = .windowFocus) s₃.settled_setFollowRemoteWindow
  have h₅ : Settled s₄ s₅ _ _ :=
    settled_option _ _ (fun c n => n = .audio && c.settlesAudio) s₄.settled_setDisableAudio
  have h₆ : Settled s₅ s₆ _ _ :=
    settled_option _ _ (fun _ n => n = .fileClipboard) s₅.settled_setEnableFileTransfer
  have h₇ : Settled s₆ s₇ _ _ :=
    settled_option _ _ (fun _ n => n = .clipboard) s₆.settled_setDisableClipboard
  have h₈ : Settled s₇ (s.updateOptions o) _ _ :=
    settled_option _ _ (fun _ n => n = .cursor || (n = .fileClipboard || n = .clipboard))
      s₇.settled_setDisableKeyboard
  have h := ((((((h₁.trans h₂).trans h₃).trans h₄).trans h₅).trans h₆).trans h₇).trans h₈
  refine h.congr ?_ ?_
  · intro n
    cases n <;> simp [OptionMessage.settles, s₅, ← hconn]
  · intro n hn
    have hsettings₃ : s₃.settings = s.settings := by
      rw [h₃.settings, h₂.settings, h₁.settings]
    have hsettings₅ : s₅.settings = s.settings := by rw [h₅.settings, h₄.settings, hsettings₃]
    have hsettings₇ : s₇.settings = s.settings := by rw [h₇.settings, h₆.settings, hsettings₅]
    rw [hsettings₇, h₆.settings, hsettings₅, h₄.settings, hsettings₃, h₂.settings, h₁.settings]
    clear h h₁ h₂ h₃ h₄ h₅ h₆ h₇ h₈
    cases n <;>
      simp only [reduceCtorEq, decide_true, decide_false, Bool.or_true, Bool.or_false, Bool.and_true,
        Bool.and_false, Bool.false_and, Bool.false_eq_true, Bool.true_and, Bool.false_or, if_false]
        at hn ⊢
    case audio | pos | windowFocus =>
      rw [if_pos hn]
      simp [OptionMessage.leaves, Connection.wants, Connection.withOptions, s₁, s₂, s₃, s₄,
        Connection.audioEnabled]
    case cursor =>
      simp [OptionMessage.leaves, Connection.wants, Connection.withOptions, s₁, s₂, s₃, s₄, s₅, s₆,
        s₇, Connection.peerKeyboardEnabled]
      cases chosen o.disableKeyboard <;> simp_all
    case clipboard =>
      simp [OptionMessage.leaves, Connection.wants, Connection.withOptions, s₁, s₂, s₃, s₄, s₅, s₆,
        s₇, Connection.peerKeyboardEnabled, Connection.canSubClipboardService,
        Connection.clipboardEnabled]
      cases chosen o.disableKeyboard <;> simp_all
    case fileClipboard =>
      simp [OptionMessage.leaves, Connection.withOptions, s₁, s₂, s₃, s₄, s₅, s₆, s₇,
        Connection.wants, Connection.canSubFileClipboardService, Connection.clipboardEnabled,
        Connection.fileTransferEnabled]
      cases chosen o.disableKeyboard <;> simp_all

end State

/-! ## Displays -/

namespace State

variable (s : State)

/-- The services of displays of the source of the connection. -/
def displayNames (displays : List Int) : List ServiceName :=
  (displays.map asUsize).map (ServiceName.video s.conn.videoSource)

/-- The server as `capture_displays` leaves it, before it comes to the window focus. -/
def serverCapturing (add sub set : List Int) : Server :=
  let server := (add.map asUsize ++ set.map asUsize).foldl
    (fun server display => server.ensureVideoService s.conn.videoSource display) s.globals.server
  if !(add.map asUsize).isEmpty then
    server.captureDisplays s.connInner s.conn.videoSource (add.map asUsize) true false
  else if !(sub.map asUsize).isEmpty then
    server.captureDisplays s.connInner s.conn.videoSource (sub.map asUsize) false true
  else server.captureDisplays s.connInner s.conn.videoSource (set.map asUsize) true true

theorem subed_captureDisplays_iff (add sub set : List Int) {n : ServiceName}
    (hn : n ≠ .windowFocus) :
    (s.captureDisplays add sub set).Subed n ↔
      (s.serverCapturing add sub set).IsSubed n s.connInner.id := by
  have hfocus (t : State) : (if t.conn.followRemoteWindow = true then
      t.subscribe .windowFocus !t.conn.multiUiSession else t).Subed n ↔ t.Subed n := by
    split
    · rw [subed_subscribe, if_neg hn]
    · rfl
  exact hfocus _

/-- `capture_displays` leaves the other services alone. -/
theorem subed_captureDisplays_of_not_isVideo (add sub set : List Int) {n : ServiceName}
    (hn : n.isVideo = false) (hfocus : n ≠ .windowFocus) :
    (s.captureDisplays add sub set).Subed n ↔ s.Subed n := by
  have hold : ∀ displays : List Nat, (displays.foldl (fun server display =>
      server.ensureVideoService s.conn.videoSource display) s.globals.server).IsSubed n
        s.connInner.id ↔ s.Subed n :=
    fun displays => Server.isSubed_foldl_ensureVideoService _ displays n _
  rw [subed_captureDisplays_iff s add sub set hfocus]
  unfold serverCapturing
  dsimp only
  split
  · simp only [Server.isSubed_captureDisplays, hn, Bool.false_eq_true, false_and, if_false, hold]
  split
  · simp only [Server.isSubed_captureDisplays, hn, Bool.false_eq_true, false_and, if_false, hold]
  · simp only [Server.isSubed_captureDisplays, hn, Bool.false_eq_true, false_and, if_false, hold]

/-- What `capture_displays` leaves of the video services: the displays to add are subscribed to, of
those to subtract the others are left, and those to set are all there is then. -/
theorem subed_captureDisplays (add sub set : List Int) {n : ServiceName} (hn : n.isVideo = true) :
    (s.captureDisplays add sub set).Subed n ↔
      if add ≠ [] then n ∈ s.displayNames add ∨ s.Subed n
      else if sub ≠ [] then n ∈ s.displayNames sub ∧ s.Subed n
      else n ∈ s.displayNames set := by
  let server := (add.map asUsize ++ set.map asUsize).foldl
    (fun server display => server.ensureVideoService s.conn.videoSource display) s.globals.server
  have hfocus : n ≠ .windowFocus := by
    rintro rfl
    cases hn
  have hold : server.IsSubed n s.connInner.id ↔ s.Subed n :=
    Server.isSubed_foldl_ensureVideoService _ _ n _
  have hadded : server.Contains n ↔
      n ∈ (add.map asUsize ++ set.map asUsize).map (ServiceName.video s.conn.videoSource) ∨
        s.Offers n :=
    Server.contains_foldl_ensureVideoService _ _ n
  rw [List.map_append, List.mem_append] at hadded
  rw [subed_captureDisplays_iff s add sub set hfocus]
  unfold displayNames
  cases add with
  | cons display add =>
    have heq : s.serverCapturing (display :: add) sub set =
      server.captureDisplays s.connInner s.conn.videoSource ((display :: add).map asUsize) true
        false := rfl
    rw [heq, Server.isSubed_captureDisplays, if_pos (List.cons_ne_nil display add)]
    simp only [hn, true_and, and_true, Bool.false_eq_true, and_false, if_false, hold, hadded]
    split
    next hmem => exact iff_of_true (.inl (.inl hmem)) (.inl hmem)
    next hnot => exact (or_iff_right hnot).symm
  | nil =>
    rw [if_neg fun hne => hne rfl]
    cases sub with
    | cons display sub =>
      have heq : s.serverCapturing [] (display :: sub) set =
        server.captureDisplays s.connInner s.conn.videoSource ((display :: sub).map asUsize) false
          true := rfl
      rw [heq, Server.isSubed_captureDisplays, if_pos (List.cons_ne_nil display sub)]
      simp only [hn, true_and, and_true, Bool.false_eq_true, and_false, if_false, hold]
      split
      next hnot => exact iff_of_false id fun h => hnot h.1
      next hmem => exact (and_iff_right (not_not.mp hmem)).symm
    | nil =>
      have heq : s.serverCapturing [] [] set =
        server.captureDisplays s.connInner s.conn.videoSource (set.map asUsize) true true := rfl
      have hnone : ¬ ([] : List Int) ≠ [] := fun hne => hne rfl
      rw [heq, Server.isSubed_captureDisplays, if_neg hnone]
      simp only [hn, true_and, and_true, hadded]
      split
      next hmem => exact iff_of_true (.inl (.inr hmem)) hmem
      next hnot => exact iff_of_false id hnot

end State

/-! ## Permissions -/

/-- The flags as a toggle of the connection manager leaves them. -/
def Connection.withPermission (c : Connection) (name : String) (enabled : Bool) : Connection :=
  if name = "keyboard" then { c with keyboard := enabled }
  else if name = "clipboard" then { c with clipboard := enabled }
  else if name = "audio" then { c with audio := enabled }
  else if name = "file" then { c with file := enabled }
  else if name = "restart" then { c with restart := enabled }
  else if name = "recording" then { c with recording := enabled }
  else if name = "block_input" then { c with blockInput := enabled }
  else c

/-- A toggle settles a service, where `c` are the flags it leaves. -/
def Connection.toggleSettles (c : Connection) (name : String) : ServiceName → Bool
  | .cursor => name = "keyboard"
  | .clipboard => name = "keyboard" || name = "clipboard"
  | .fileClipboard => name = "keyboard" || name = "file"
  | .audio => name = "audio" && c.authorized && c.settlesAudio
  | .video source idx =>
    name = "camera" && c.viewCamera && source = .camera && idx = Server.primaryCameraIdx
  | .display | .pos | .windowFocus => false

/-- What a toggle leaves a service it settles at. The cursor follows the toggle rather than the
keyboard of the peer. -/
def Connection.toggleLeaves (c : Connection) (settings : Settings) (enabled : Bool) :
    ServiceName → Bool
  | .cursor => enabled || c.showRemoteCursor
  | .video _ _ => enabled
  | n => c.wants settings n

namespace State

variable (s : State) (name : String) (enabled : Bool)

theorem conn_switchPermission :
    (s.switchPermission name enabled).conn = s.conn.withPermission name enabled := by
  unfold switchPermission Connection.withPermission
  dsimp only
  split
  · rfl
  split
  · rfl
  split
  · split
    · exact conn_subscribeAudio _
    · rfl
  split
  · rfl
  split
  · rfl
  split
  · rfl
  split
  · rfl
  split
  · split
    · rfl
    · rfl
  · rfl

theorem settled_tell_modify (f : Connection → Connection) (r : Reply) :
    Settled s ((s.modify f).tell r) (fun _ => false) fun _ => false :=
  ⟨rfl, rfl, fun _ => Iff.rfl, fun _ => Iff.rfl⟩

/-- Audio is settled once the connection is authorized. -/
theorem settled_switchPermission_audio : Settled s (s.switchPermission "audio" enabled)
    ((s.conn.withPermission "audio" enabled).toggleSettles "audio")
    ((s.conn.withPermission "audio" enabled).toggleLeaves s.settings enabled) := by
  have h := s.settled_tell_modify ({ · with audio := enabled }) (.permissionInfo .audio enabled)
  have hconn : s.conn.withPermission "audio" enabled = { s.conn with audio := enabled } := rfl
  rw [hconn]
  by_cases hauth : s.conn.authorized = true
  · have heq : s.switchPermission "audio" enabled =
        ((s.modify ({ · with audio := enabled })).tell
          (.permissionInfo .audio enabled)).subscribeAudio := if_pos hauth
    rw [heq]
    refine (h.trans (settled_subscribeAudio _)).congr ?_ ?_
    · intro n
      cases n <;> simp [Connection.toggleSettles, hauth]
    · intro n hn
      cases n <;> simp at hn
      simp [hn, Connection.toggleLeaves]
  · have heq : s.switchPermission "audio" enabled =
        (s.modify ({ · with audio := enabled })).tell (.permissionInfo .audio enabled) :=
      if_neg hauth
    rw [heq]
    refine h.congr ?_ ?_
    · intro n
      cases n <;> simp [Connection.toggleSettles, hauth]
    · intro n hn
      cases hn

/-- The primary camera is settled where the connection views cameras. -/
theorem settled_switchPermission_camera : Settled s (s.switchPermission "camera" enabled)
    ((s.conn.withPermission "camera" enabled).toggleSettles "camera")
    ((s.conn.withPermission "camera" enabled).toggleLeaves s.settings enabled) := by
  have h : Settled s (s.tell (.permissionInfo .camera enabled)) (fun _ => false) fun _ => false :=
    s.settled_tell_modify id _
  have hconn : s.conn.withPermission "camera" enabled = s.conn := rfl
  rw [hconn]
  by_cases hview : s.conn.viewCamera = true
  · have heq : s.switchPermission "camera" enabled =
        (s.tell (.permissionInfo .camera enabled)).subscribe
          (.video .camera Server.primaryCameraIdx) enabled := if_pos hview
    rw [heq]
    refine (h.subscribe (.video .camera Server.primaryCameraIdx) enabled).congr ?_ ?_
    · intro n
      cases n <;> simp [Connection.toggleSettles, hview]
    · intro n hn
      cases n <;> simp at hn
      simp [hn, Connection.toggleLeaves]
  · have heq : s.switchPermission "camera" enabled =
        s.tell (.permissionInfo .camera enabled) := if_neg hview
    rw [heq]
    refine h.congr ?_ ?_
    · intro n
      cases n <;> simp [Connection.toggleSettles, hview]
    · intro n hn
      cases hn

/-- A toggle settles the services it bears on. -/
theorem settled_switchPermission :
    Settled s (s.switchPermission name enabled)
      ((s.conn.withPermission name enabled).toggleSettles name)
      ((s.conn.withPermission name enabled).toggleLeaves s.settings enabled) := by
  have hquiet := s.settled_tell_modify
  by_cases hkeyboard : name = "keyboard"
  · subst hkeyboard
    refine ((((hquiet ({ · with keyboard := enabled }) (.permissionInfo .keyboard enabled)).subscribe
      .clipboard _).subscribe .fileClipboard _).subscribe .cursor _).congr ?_ ?_
    · intro n
      cases n <;> simp [Connection.toggleSettles]
    · intro n hn
      cases n <;> simp at hn <;> rfl
  by_cases hclipboard : name = "clipboard"
  · subst hclipboard
    refine ((hquiet ({ · with clipboard := enabled }) (.permissionInfo .clipboard enabled)).subscribe
      .clipboard _).congr ?_ ?_
    · intro n
      cases n <;> simp [Connection.toggleSettles]
    · intro n hn
      cases n <;> simp at hn
      rfl
  by_cases haudio : name = "audio"
  · subst haudio
    exact s.settled_switchPermission_audio enabled
  by_cases hfile : name = "file"
  · subst hfile
    refine ((hquiet ({ · with file := enabled }) (.permissionInfo .file enabled)).subscribe
      .fileClipboard _).congr ?_ ?_
    · intro n
      cases n <;> simp [Connection.toggleSettles]
    · intro n hn
      cases n <;> simp at hn
      rfl
  by_cases hcamera : name = "camera"
  · subst hcamera
    exact s.settled_switchPermission_camera enabled
  have hrest : Settled s (s.switchPermission name enabled) (fun _ => false) fun _ => false := by
    simp only [switchPermission, hkeyboard, hclipboard, haudio, hfile, hcamera, if_false]
    split
    · exact hquiet _ _
    split
    · exact hquiet _ _
    split
    · exact hquiet _ _
    · exact ⟨rfl, rfl, fun _ => Iff.rfl, fun _ => Iff.rfl⟩
  refine hrest.congr ?_ ?_
  · intro n
    cases n <;>
      simp [Connection.toggleSettles, hkeyboard, hclipboard, haudio, hfile, hcamera]
  · intro n hn
    cases hn

end State

end HopToDesk.Host
