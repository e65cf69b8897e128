import HopToDesk.Laws.Host.Login

/-!
# Subscriptions that follow the flags

An authorized remote connection is subscribed to the clipboard, the file clipboard, the cursor and
the audio service when it logs in, as far as its flags want them. Later each toggle of the connection
manager and each message with options changes some flags and settles some services again. The
subscriptions stay what the flags want exactly when each of these steps `KeepsUp`. Two kinds of step
do not: the keyboard toggle forgets `disable_keyboard`, and neither the clipboard toggle nor
`disable_clipboard` settles the file clipboard, which both bear on.
-/

set_option autoImplicit false

namespace HopToDesk.Host

open Kit

/-- What bears on the flags: a toggle, or a message with options. -/
inductive Event.Bears : Event → Prop
  | toggle (out : Outside) (name : String) (enabled : Bool) :
      Bears (.cm out (.switchPermission name enabled))
  | options (out : Outside) (o : OptionMessage) : Bears (.peer out (.option o))
  | elsewhere (globals : Globals) : Bears (.elsewhere globals)

namespace State

/-- The services whose subscriptions follow the flags. -/
def followed : List ServiceName := [.clipboard, .fileClipboard, .cursor, .audio]

/-- The connection is subscribed to the services its flags want. -/
def Coherent (s : State) : Prop :=
  ∀ n ∈ followed, s.Subed n ↔ s.conn.wants s.settings n = true

/-- An authorized remote connection, of a server with the services. -/
structure Remote (s : State) : Prop where
  authorized : s.conn.authorized = true
  authedConnType : s.conn.authedConnType = some .remote
  isRemote : s.conn.isRemote = true
  offers : ∀ n ∈ followed, s.Offers n

/-- A connection that `try_sub_monitor_services` has just subscribed. Before, it was subscribed to
nothing that its flags do not want. -/
def Entered (s : State) : Prop :=
  ∃ t : State, t.Remote ∧ t.conn.servicesSubed = false ∧
    (∀ n ∈ followed, t.Subed n → t.conn.wants t.settings n = true) ∧ s = t.trySubMonitorServices

/-- The runs after the login in which permissions are toggled and options set, in any order. -/
def session : System State Event where
  init := Entered
  step s e s' := e.Bears ∧ s.Can e ∧ s' = s.next e

/-! ## At the login -/

/-- A followed service is without permission exactly when the flags do not want it. -/
theorem mem_noperms_iff (s : State) {n : ServiceName} (hn : n ∈ followed) :
    n ∈ s.noperms ↔ s.conn.wants s.settings n = false := by
  simp only [followed, List.mem_cons, List.not_mem_nil, or_false] at hn
  rcases hn with rfl | rfl | rfl | rfl <;>
    simp only [noperms, Connection.wants, List.mem_append, List.mem_ite_nil_right, List.mem_singleton,
      reduceCtorEq, and_false, or_false, false_or, and_true, Bool.and_eq_true, Bool.not_eq_true',
      Bool.or_eq_false_iff]

theorem Remote.trySubMonitorServices_eq {t : State} (h : t.Remote)
    (hsubed : t.conn.servicesSubed = false) :
    t.trySubMonitorServices =
      (t.modify ({ · with servicesSubed := true })).onServer fun server =>
        (server.tryAddPrimaryVideoService t.settings.primaryDisplayIdx).addConnection
          t.settings.primaryDisplayIdx t.connInner t.noperms := by
  unfold trySubMonitorServices
  rw [if_pos (by simp only [h.isRemote, hsubed, Bool.not_false, Bool.and_self])]
  rfl

theorem subed_trySubMonitorServices {t : State} (h : t.Remote)
    (hsubed : t.conn.servicesSubed = false) {n : ServiceName} (hn : n ∈ followed) :
    t.trySubMonitorServices.Subed n ↔ t.Subed n ∨ t.conn.wants t.settings n = true := by
  have hoffers : t.Offers n := h.offers n hn
  have hvideo : n.isVideo = false := by
    simp only [followed, List.mem_cons, List.not_mem_nil, or_false] at hn
    rcases hn with rfl | rfl | rfl | rfl <;> rfl
  have hcontains : (t.globals.server.tryAddPrimaryVideoService
      t.settings.primaryDisplayIdx).Contains n := by
    rw [Server.tryAddPrimaryVideoService, Server.contains_ensureVideoService]
    exact .inr hoffers
  have hold : (t.globals.server.tryAddPrimaryVideoService
      t.settings.primaryDisplayIdx).IsSubed n t.connInner.id ↔ t.Subed n := by
    rw [Server.tryAddPrimaryVideoService, Server.isSubed_ensureVideoService]
    rfl
  rw [h.trySubMonitorServices_eq hsubed]
  refine (Server.isSubed_addConnection _ _ _ n).trans ?_
  rw [globals_modify, hold, mem_noperms_iff t hn]
  simp only [hcontains, hvideo, Bool.false_eq_true, false_imp_iff, and_true, true_and,
    Bool.not_eq_false]

/-- What a step does to coherence: each followed service has to end up as the flags want it, whether
the step settles it or not. -/
theorem Settled.coherent_iff {s s' : State} {t v : ServiceName → Bool} (h : Settled s s' t v)
    (hs : s.Remote) (hcoherent : s.Coherent) :
    s'.Coherent ↔ ∀ n ∈ followed, (if t n = true then v n else s.conn.wants s.settings n) =
      s'.conn.wants s.settings n := by
  refine forall₂_congr fun n hn => ?_
  rw [h.subed n, h.settings]
  cases t n with
  | true =>
    rw [if_pos rfl, if_pos rfl, and_iff_right (hs.offers n hn)]
    exact Bool.eq_iff_iff.symm
  | false =>
    rw [if_neg Bool.false_ne_true, if_neg Bool.false_ne_true, hcoherent n hn]
    exact Bool.eq_iff_iff.symm

/-- A step keeps the subscriptions up with the flags. -/
def KeepsUp (s : State) : Event → Prop
  | .cm _ (.switchPermission name enabled) =>
    (name = "keyboard" → enabled = true → s.conn.disableKeyboard = true →
      s.conn.showRemoteCursor = true) ∧
    (name = "clipboard" → s.conn.disableClipboard = false → s.conn.fileTransferEnabled = true →
      s.settings.oneWayFileTransfer = false → enabled = s.conn.clipboard)
  | .peer _ (.option o) =>
    (chosen o.disableKeyboard).isSome = true ∨
      (s.conn.clipboard = true → (s.conn.withOptions o).fileTransferEnabled = true →
        s.settings.oneWayFileTransfer = false →
        (s.conn.withOptions o).disableClipboard = s.conn.disableClipboard)
  | _ => True

theorem coherent_switchPermission_iff {s : State} (hs : s.Remote) (hcoherent : s.Coherent)
    (out : Outside) (name : String) (enabled : Bool) :
    (s.switchPermission name enabled).Coherent ↔
      s.KeepsUp (.cm out (.switchPermission name enabled)) := by
  rw [(s.settled_switchPermission name enabled).coherent_iff hs hcoherent, conn_switchPermission]
  simp only [followed, List.forall_mem_cons, List.not_mem_nil, false_imp_iff, implies_true, and_true,
    KeepsUp]
  by_cases hkeyboard : name = "keyboard"
  · subst hkeyboard
    simp [Connection.toggleSettles, Connection.toggleLeaves, Connection.withPermission,
      Connection.wants, Connection.peerKeyboardEnabled, Connection.audioEnabled]
    cases enabled <;> cases s.conn.disableKeyboard <;> simp
  by_cases hclipboard : name = "clipboard"
  · subst hclipboard
    simp [Connection.toggleSettles, Connection.toggleLeaves, Connection.withPermission,
      Connection.wants, Connection.peerKeyboardEnabled, Connection.audioEnabled,
      Connection.canSubFileClipboardService, Connection.clipboardEnabled,
      Connection.fileTransferEnabled]
    cases s.conn.disableClipboard <;> cases s.conn.file <;> cases s.conn.enableFileTransfer <;>
      cases s.settings.oneWayFileTransfer <;> simp [eq_comm]
  -- The other toggles settle what they bear on.
  simp only [hkeyboard, hclipboard, false_imp_iff, and_self, iff_true]
  by_cases haudio : name = "audio"
  · subst haudio
    simp [Connection.toggleSettles, Connection.toggleLeaves, Connection.withPermission,
      Connection.wants, Connection.settlesAudio, Connection.isAuthedViewCameraConn, hs.authorized,
      hs.authedConnType, Connection.peerKeyboardEnabled, Connection.canSubClipboardService,
      Connection.canSubFileClipboardService, Connection.clipboardEnabled,
      Connection.fileTransferEnabled]
  by_cases hfile : name = "file"
  · subst hfile
    simp [Connection.toggleSettles, Connection.toggleLeaves, Connection.withPermission,
      Connection.wants, Connection.peerKeyboardEnabled, Connection.canSubClipboardService,
      Connection.clipboardEnabled, Connection.audioEnabled]
  simp only [Connection.toggleSettles, hkeyboard, hclipboard, haudio, hfile, decide_false,
    Bool.or_self, Bool.false_and, Bool.false_eq_true, if_false, Connection.withPermission]
  repeat' split
  all_goals exact ⟨rfl, rfl, rfl, rfl⟩

theorem coherent_updateOptions_iff {s : State} (hs : s.Remote) (hcoherent : s.Coherent)
    (out : Outside) (o : OptionMessage) :
    (s.updateOptions o).Coherent ↔ s.KeepsUp (.peer out (.option o)) := by
  rw [(s.settled_updateOptions o).coherent_iff hs hcoherent, conn_updateOptions]
  have hclipboard : (if o.settles (s.conn.withOptions o) .clipboard = true then
      o.leaves s.settings s.conn .clipboard else s.conn.wants s.settings .clipboard) =
        (s.conn.withOptions o).wants s.settings .clipboard := by
    split
    next => rfl
    next hset =>
      simp only [OptionMessage.settles, Bool.or_eq_true, Option.isSome_iff_ne_none, not_or,
        not_not] at hset
      simp only [Connection.wants, Connection.canSubClipboardService, Connection.clipboardEnabled,
        Connection.peerKeyboardEnabled, Connection.withOptions, hset, Option.getD_none]
  have hcursor : (if o.settles (s.conn.withOptions o) .cursor = true then
      o.leaves s.settings s.conn .cursor else s.conn.wants s.settings .cursor) =
        (s.conn.withOptions o).wants s.settings .cursor := by
    split
    next => rfl
    next hset =>
      simp only [OptionMessage.settles, Bool.or_eq_true, Option.isSome_iff_ne_none, not_or,
        not_not] at hset
      simp only [Connection.wants, Connection.peerKeyboardEnabled, Connection.withOptions, hset,
        Option.getD_none]
  have haudio : (if o.settles (s.conn.withOptions o) .audio = true then
      o.leaves s.settings s.conn .audio else s.conn.wants s.settings .audio) =
        (s.conn.withOptions o).wants s.settings .audio := by
    split
    next => rfl
    next hset =>
      have hcamera : (s.conn.withOptions o).isAuthedViewCameraConn = false := by
        simp only [Connection.isAuthedViewCameraConn, Connection.withOptions, hs.authedConnType,
          Option.some.injEq, reduceCtorEq, decide_false]
      simp only [OptionMessage.settles, Connection.settlesAudio, hcamera, Bool.not_false,
        Bool.true_or, Bool.and_true, Option.isSome_iff_ne_none, not_not] at hset
      simp only [Connection.wants, Connection.audioEnabled, Connection.withOptions, hset,
        Option.getD_none]
  have hfile : (if o.settles (s.conn.withOptions o) .fileClipboard = true then
      o.leaves s.settings s.conn .fileClipboard else s.conn.wants s.settings .fileClipboard) =
        (s.conn.withOptions o).wants s.settings .fileClipboard ↔
          s.KeepsUp (.peer out (.option o)) := by
    obtain hK | ⟨yes, hK⟩ := (chosen o.disableKeyboard).eq_none_or_eq_some
    · have hvalue : (if o.settles (s.conn.withOptions o) .fileClipboard = true then
          o.leaves s.settings s.conn .fileClipboard else s.conn.wants s.settings .fileClipboard) =
            (s.conn.clipboard && !s.conn.disableClipboard &&
              (s.conn.withOptions o).fileTransferEnabled && !s.settings.oneWayFileTransfer) := by
        split
        next =>
          simp only [OptionMessage.leaves, hK, Option.isSome_none, Bool.false_eq_true, if_false]
          rfl
        next hset =>
          simp only [OptionMessage.settles, Bool.or_eq_true, Option.isSome_iff_ne_none, not_or,
            not_not] at hset
          simp only [Connection.fileTransferEnabled, Connection.withOptions, hset, Option.getD_none]
          rfl
      rw [hvalue]
      simp only [KeepsUp, hK, Option.isSome_none, Bool.false_eq_true, false_or, Connection.wants,
        Connection.canSubFileClipboardService, Connection.clipboardEnabled]
      have hclip : (s.conn.withOptions o).clipboard = s.conn.clipboard := rfl
      rw [hclip]
      cases s.conn.clipboard <;> cases (s.conn.withOptions o).fileTransferEnabled <;>
        cases s.settings.oneWayFileTransfer <;> cases s.conn.disableClipboard <;>
          cases (s.conn.withOptions o).disableClipboard <;> simp
    · simp [OptionMessage.settles, OptionMessage.leaves, Connection.wants, KeepsUp, hK]
  simp only [followed, List.forall_mem_cons, List.not_mem_nil, false_imp_iff, implies_true, and_true,
    hclipboard, hcursor, haudio, hfile, true_and]

/-! ## Runs -/

theorem Remote.of_conn {s s' : State} (h : s.Remote)
    (hauth : s'.conn.authorized = s.conn.authorized)
    (htype : s'.conn.authedConnType = s.conn.authedConnType)
    (hremote : s'.conn.isRemote = s.conn.isRemote) (hoffers : ∀ n, s.Offers n → s'.Offers n) :
    s'.Remote where
  authorized := hauth.trans h.authorized
  authedConnType := htype.trans h.authedConnType
  isRemote := hremote.trans h.isRemote
  offers n hn := hoffers n (h.offers n hn)

theorem Remote.switchPermission {s : State} (h : s.Remote) (name : String) (enabled : Bool) :
    (s.switchPermission name enabled).Remote := by
  refine h.of_conn (authorized_switchPermission name enabled) ?_ ?_ ?_
  · rw [conn_switchPermission, Connection.withPermission]
    repeat' split
    all_goals rfl
  · rw [conn_switchPermission, Connection.withPermission]
    repeat' split
    all_goals rfl
  · intro n
    exact ((s.settled_switchPermission name enabled).offers n).mpr

theorem Remote.updateOptions {s : State} (h : s.Remote) (o : OptionMessage) :
    (s.updateOptions o).Remote := by
  refine h.of_conn (s.authorized_updateOptions o) ?_ ?_ ?_
  · rw [conn_updateOptions]
    rfl
  · rw [conn_updateOptions]
    rfl
  · intro n
    exact ((s.settled_updateOptions o).offers n).mpr

theorem Remote.next_option {s : State} (h : s.Remote) (out : Outside) (o : OptionMessage) :
    s.next (.peer out (.option o)) = s.updateOptions o := by
  have hsocket {t : State} (ht : t.Remote) : t.conn.portForwardSocket = false := by
    have h' := ht.isRemote
    simp only [Connection.isRemote, Bool.and_eq_true, Bool.not_eq_true'] at h'
    exact h'.1.1.2
  have hmessage : s.onMessage out (.option o) = (s.updateOptions o, true) := by
    simp only [onMessage, h.authorized, hsocket h, Bool.not_false, Bool.and_self, if_true,
      onAuthorizedMessage]
  simp only [next, onPeer, hmessage, hsocket (h.updateOptions o), Bool.false_and,
    Bool.false_eq_true, if_false]

/-- What a step does to coherence. -/
theorem coherent_next_iff {s : State} {e : Event} (hs : s.Remote) (hcoherent : s.Coherent)
    (he : e.Bears) (hcan : s.Can e) : (s.next e).Coherent ↔ s.KeepsUp e := by
  cases he with
  | toggle out name enabled => exact coherent_switchPermission_iff hs hcoherent out name enabled
  | options out o =>
    rw [hs.next_option out o]
    exact coherent_updateOptions_iff hs hcoherent out o
  | elsewhere globals =>
    simp only [KeepsUp, iff_true]
    intro n hn
    exact (hcan.isSubed n).trans (hcoherent n hn)

theorem Remote.next {s : State} {e : Event} (h : s.Remote) (he : e.Bears) (hcan : s.Can e) :
    (s.next e).Remote := by
  cases he with
  | toggle out name enabled => exact h.switchPermission name enabled
  | options out o =>
    rw [h.next_option out o]
    exact h.updateOptions o
  | elsewhere globals => exact h.of_conn rfl rfl rfl hcan.contains

theorem Entered.remote {s : State} (h : s.Entered) : s.Remote := by
  obtain ⟨t, ht, hsubed, -, rfl⟩ := h
  rw [ht.trySubMonitorServices_eq hsubed]
  refine ht.of_conn rfl rfl rfl ?_
  intro n hn
  refine (Server.contains_addConnection _ _ _ n).mpr ?_
  rw [Server.tryAddPrimaryVideoService, Server.contains_ensureVideoService]
  exact .inr hn

theorem Entered.coherent {s : State} (h : s.Entered) : s.Coherent := by
  obtain ⟨t, ht, hsubed, hwants, rfl⟩ := h
  intro n hn
  rw [subed_trySubMonitorServices ht hsubed hn, or_iff_right_of_imp (hwants n hn),
    ht.trySubMonitorServices_eq hsubed]
  rfl

/-- **Subscriptions follow the flags.** In a run after the login, the connection is subscribed to
what its flags want in every state exactly when every step keeps up. -/
theorem coherent_iff_keepsUp {tr : List (State × Event)} {s : State} (h : session.Trace tr s) :
    System.Always Coherent tr s ↔ ∀ x ∈ tr, x.1.KeepsUp x.2 := by
  refine h.always_iff (I := fun s => s.Remote ∧ s.Coherent) ?_ And.right ?_ ?_
  · intro s hs
    exact ⟨hs.remote, hs.coherent⟩
  · intro s e s' hs hstep hok
    obtain ⟨he, hcan, rfl⟩ := hstep
    exact ⟨hs.1.next he hcan, (coherent_next_iff hs.1 hs.2 he hcan).mpr hok⟩
  · intro s e s' hs hstep hgood
    obtain ⟨he, hcan, rfl⟩ := hstep
    exact (coherent_next_iff hs.1 hs.2 he hcan).mp hgood

/-- A connection of the plain host that has logged in and may use everything, copied files too. -/
def entered : State :=
  { State.plain none with
    conn := { (State.plain none).conn with
      authorized := true
      authedConnType := some .remote
      enableFileTransfer := true } }

theorem entered_trySubMonitorServices : entered.trySubMonitorServices.Entered := by
  refine ⟨entered, ⟨rfl, rfl, rfl, ?_⟩, rfl, ?_, rfl⟩
  · intro n hn
    simp only [followed, List.mem_cons, List.not_mem_nil, or_false] at hn
    rcases hn with rfl | rfl | rfl | rfl <;> decide
  · intro n _ h
    exact absurd h ((fresh_plain none).unsubed n)

/-- The audio toggle settles the audio service. -/
theorem coherent_audio_toggled :
    System.Always Coherent
      [(entered.trySubMonitorServices, Event.cm .plain (.switchPermission "audio" false))]
      (entered.trySubMonitorServices.next (.cm .plain (.switchPermission "audio" false))) := by
  have htrace : session.Trace [] entered.trySubMonitorServices :=
    .start entered_trySubMonitorServices
  have hstep : session.step entered.trySubMonitorServices
      (.cm .plain (.switchPermission "audio" false)) _ := ⟨.toggle _ _ _, rfl, rfl⟩
  refine (coherent_iff_keepsUp (htrace.snoc hstep)).mpr ?_
  intro x hx
  obtain rfl := List.mem_singleton.mp hx
  constructor
  · intro hname
    exact absurd hname (by decide)
  · intro hname
    exact absurd hname (by decide)

/-- The clipboard toggle does not settle the file clipboard: turned off, copied files still come. -/
theorem not_coherent_clipboard_toggled :
    ¬ ∀ (tr : List (State × Event)) (s : State), session.Trace tr s →
      System.Always Coherent tr s := by
  intro h
  have hcoherent := (h
    [(entered.trySubMonitorServices, Event.cm .plain (.switchPermission "clipboard" false))] _
    (.snoc (.start entered_trySubMonitorServices) ⟨.toggle _ _ _, rfl, rfl⟩)).2
  have hwanted := (hcoherent .fileClipboard (by decide)).mp
    ((Server.isSubed_iff _ _).mp (by decide))
  exact absurd hwanted (by decide)

end State

end HopToDesk.Host
