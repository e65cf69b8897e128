import HopToDesk.Laws.Host.Login

/-!
# Terminal services before the login

A login request for a terminal gets its terminal service, or has one made, before its password is
looked at. A connection that has not come to that (`TakesNoService`) leaves the services of the
others alone for as long as it is not authorized, whatever it is sent, and also when it ends.
-/

set_option autoImplicit false

namespace HopToDesk.Host

open Kit

/-- What the connections of a terminal service rely on: whether it is persistent, and its sessions. -/
def PersistentTerminalService.kept (service : PersistentTerminalService) :
    Bool × TerminalSessions :=
  (service.isPersistent, service.sessions)

/-- No service is made or removed, and those there are have kept their sessions as they were. -/
def TerminalServices.Unchanged (services services' : TerminalServices) : Prop :=
  ∀ id, (services'.lookup id).map PersistentTerminalService.kept =
    (services.lookup id).map PersistentTerminalService.kept

namespace State

/-- The connection has no terminal service, and these are the services there are. -/
structure Bare (services : TerminalServices) (s : State) : Prop where
  terminalServiceId : s.conn.terminalServiceId = ""
  terminals : s.globals.terminals = services

namespace Bare

variable {services : TerminalServices} {s s' : State}

theorem of_eq (h : Bare services s)
    (hid : s'.conn.terminalServiceId = s.conn.terminalServiceId)
    (hterminals : s'.globals.terminals = s.globals.terminals) : Bare services s' :=
  ⟨hid.trans h.terminalServiceId, hterminals.trans h.terminals⟩

theorem beside (h : Bare services s) (hb : Beside s s') : Bare services s' :=
  h.of_eq (congrArg _ hb.conn) hb.terminals

/-! ## The end -/

theorem onClose (h : Bare services s) : Bare services s.onClose := by
  unfold State.onClose
  split
  · exact h
  · have hnone : ¬ (s.conn.terminal && s.conn.terminalServiceId ≠ "") = true := by
      simp only [h.terminalServiceId, ne_eq, not_true_eq_false, decide_false, Bool.and_false,
        Bool.false_eq_true, not_false_eq_true]
    have hskip : ¬ ((s.modify ({ · with closed := true, portForwardSocket := false })).conn.terminal &&
        (s.modify ({ · with closed := true, portForwardSocket := false })).conn.terminalServiceId ≠ "")
          = true := hnone
    dsimp only
    rw [if_neg hskip]
    exact h.of_eq rfl rfl

theorem endLoop (h : Bare services s) : Bare services s.endLoop := by
  have hforward : Bare services s.tryPortForwardLoop := by
    unfold State.tryPortForwardLoop
    split
    · have h' : Bare services (s.modify ({ · with portForwardSocket := false })) := h.of_eq rfl rfl
      exact h'.onClose.beside (Beside.refl _).checkRemoveSession
    · exact h
  have hremoved : Bare services (s.tryPortForwardLoop.onServer
      (·.removeConnection s.tryPortForwardLoop.connInner)) := hforward.of_eq rfl rfl
  exact hremoved.onClose.of_eq rfl rfl

/-! ## The login -/

theorem updateOptions (h : Bare services s) (o : OptionMessage) :
    Bare services (s.updateOptions o) := by
  refine h.of_eq ?_ (s.settled_updateOptions o).terminals
  rw [conn_updateOptions]
  rfl

theorem takeOptionsInLogin (h : Bare services s) : Bare services s.takeOptionsInLogin := by
  unfold State.takeOptionsInLogin
  split
  next o _ =>
    have h' : Bare services (s.modify ({ · with optionsInLogin := none })) := h.of_eq rfl rfl
    exact h'.updateOptions o
  next => exact h

theorem subscribeOnLogin (h : Bare services s) (out : Outside) (subService : Bool) :
    Bare services (s.subscribeOnLogin out subService) := by
  unfold State.subscribeOnLogin trySubMonitorServices
  split
  · exact h
  · split
    · exact h.of_eq rfl rfl
    · split
      · split
        · exact h.of_eq rfl rfl
        · exact h
      · exact h

theorem enter (h : Bare services s) (out : Outside) : Bare services (s.enter out) := by
  have hin : Bare services (s.afterSecondFactor out).authorize :=
    (h.beside ((Beside.refl s).afterSecondFactor out)).of_eq rfl rfl
  have htell (r : Reply) : Bare services ((s.afterSecondFactor out).authorize.tell r) :=
    hin.of_eq rfl rfl
  unfold State.enter
  dsimp only
  split
  · exact htell _
  · split
    · exact htell _
    · apply subscribeOnLogin
      apply takeOptionsInLogin
      split
      · exact htell _
      · exact htell _

theorem sendLogonResponse (h : Bare services s) (out : Outside) :
    Bare services (s.sendLogonResponse out) := by
  obtain ⟨-, -, heq⟩ | ⟨-, hbeside⟩ := s.sendLogonResponse_cases out
  · rw [heq]
    exact h.enter out
  · exact h.beside hbeside

end Bare

/-- The request asks for a terminal, is permitted to, and there is a service for it or room for
one. -/
def takesService (services : TerminalServices) (out : Outside) : Option LoginUnion → Prop
  | some (.terminal serviceId) =>
    let serviceId := if serviceId = "" then out.generateServiceId else serviceId
    out.permission "enable-terminal" = true ∧
      (serviceId ∈ services ∨ services.entries.length < maxServices)
  | _ => False

theorem Bare.setUpLogin {services : TerminalServices} {s : State} (h : Bare services s)
    (out : Outside) (union : Option LoginUnion) (hnone : ¬ takesService services out union) :
    Bare services (s.setUpLogin out union).1 := by
  unfold State.setUpLogin
  cases union with
  | none => dsimp only; split <;> exact h.of_eq rfl rfl
  | some union =>
    cases union with
    | fileTransfer dir showHidden => dsimp only; split <;> exact h.of_eq rfl rfl
    | viewCamera => dsimp only; split <;> exact h.of_eq rfl rfl
    | portForward host port =>
      dsimp only
      split
      · split <;> split <;> split <;> exact h.of_eq rfl rfl
      · exact h.of_eq rfl rfl
    | terminal serviceId =>
      dsimp only
      split
      next hpermission =>
        simp only [takesService, hpermission, true_and, not_or, not_lt] at hnone
        obtain ⟨e, he⟩ : ∃ e, TerminalServices.getOrCreateService
            (s.modify ({ · with terminal := true })).globals.terminals
            (if serviceId = "" then out.generateServiceId else serviceId) false false = .error e := by
          refine ⟨_, if_pos ?_⟩
          rw [globals_modify, h.terminals]
          exact hnone
        simp only [he]
        exact h.of_eq rfl rfl
      next => exact h.of_eq rfl rfl

/-- A step by which an unauthorized connection does not get to a terminal service. -/
def TakesNoService (s : State) : Event → Prop
  | .peer out (.loginRequest lr) =>
    s.conn.authorized = false → ¬ takesService s.globals.terminals out lr.union
  | _ => True

section Unauthorized

variable {services : TerminalServices} {s : State}

theorem Bare.onMessage (h : Bare services s) (hauth : s.conn.authorized = false) (out : Outside)
    (msg : Message) (hnone : s.TakesNoService (.peer out msg)) :
    Bare services (s.onMessage out msg).1 := by
  have hrest : (s.conn.authorized && !s.conn.portForwardSocket) = false := by
    rw [hauth, Bool.false_and]
  cases msg with
  | loginRequest lr =>
    have h₀ : Bare services (s.handleLoginRequestWithoutValidation out lr) := h.of_eq rfl rfl
    have hset := h₀.setUpLogin out lr.union (h.terminals ▸ hnone hauth)
    obtain hbeside | ⟨-, t, hbeside, -, heq⟩ := onLoginRequest_cases out hauth lr
    · exact hset.beside hbeside
    · simp only [State.onMessage, heq]
      exact (hset.beside hbeside).sendLogonResponse out
  | auth2fa code =>
    obtain ⟨hbeside, -⟩ | ⟨-, t, hbeside, heq⟩ := s.onAuth2fa_cases out code
    · exact h.beside hbeside
    · have h₀ : Bare services (s.modify ({ · with require2fa := none })) := h.of_eq rfl rfl
      simp only [State.onMessage, heq]
      exact (h₀.beside hbeside).sendLogonResponse out
  | inviteRequest => exact h.of_eq rfl rfl
  | switchSidesResponse uuid lr =>
    cases lr with
    | none => exact h
    | some lr =>
      have h₀ : Bare services (s.handleLoginRequestWithoutValidation out lr) := h.of_eq rfl rfl
      obtain ⟨-, hbeside⟩ | ⟨-, t, hbeside, heq⟩ := s.onSwitchSidesResponse_cases out uuid lr
      · exact h₀.beside hbeside
      · have h₁ : Bare services ((s.handleLoginRequestWithoutValidation out lr).modify
            ({ · with fromSwitch := true })) := h₀.of_eq rfl rfl
        simp only [State.onMessage, heq]
        exact (h₁.beside hbeside).sendLogonResponse out
  | _ =>
    simp only [State.onMessage, hrest, Bool.false_eq_true, if_false]
    exact h

theorem Bare.onPeer (h : Bare services s) (hauth : s.conn.authorized = false) (out : Outside)
    (msg : Message) (hnone : s.TakesNoService (.peer out msg)) :
    Bare services (s.onPeer out msg) := by
  have hmsg := h.onMessage hauth out msg hnone
  unfold State.onPeer
  split
  next heq =>
    rw [heq] at hmsg
    exact hmsg.endLoop
  next heq =>
    rw [heq] at hmsg
    split
    · exact hmsg.endLoop
    · exact hmsg

theorem Bare.onCm (h : Bare services s) (out : Outside) (data : CmData) :
    Bare services (s.onCm out data) := by
  cases data with
  | authorize =>
    have h' : Bare services (s.modify ({ · with require2fa := none })) := h.of_eq rfl rfl
    have hlogon := h'.sendLogonResponse out
    simp only [State.onCm]
    split
    · exact hlogon.endLoop
    · exact hlogon
  | close =>
    have h' : Bare services (s.tell (.closeReason "The remote partner has closed the session.")) :=
      h.of_eq rfl rfl
    exact h'.onClose.endLoop
  | inviteResponse accepted =>
    have h' : Bare services (s.tell (.inviteResponse accepted)) := h.of_eq rfl rfl
    simp only [State.onCm]
    split
    · exact h'
    · exact h'.onClose.endLoop
  | cmErr err =>
    simp only [State.onCm]
    split
    · exact h
    · exact h.onClose.endLoop
  | switchPermission name enabled =>
    refine h.of_eq ?_ (s.settled_switchPermission name enabled).terminals
    simp only [State.onCm, conn_switchPermission, Connection.withPermission]
    repeat' split
    all_goals rfl
  | voiceCallResponse accepted =>
    simp only [State.onCm, handleVoiceCall]
    split
    · split <;> exact h.of_eq rfl rfl
    · exact h
  | closeVoiceCall =>
    simp only [State.onCm, closeVoiceCall]
    split <;> exact h.of_eq rfl rfl
  | other => exact h

/-- A step of an unauthorized connection, but not what happens elsewhere. -/
theorem Bare.next (h : Bare services s) (hauth : s.conn.authorized = false) {e : Event}
    (hown : ∀ globals, e ≠ .elsewhere globals) (hnone : s.TakesNoService e) :
    Bare services (s.next e) := by
  cases e with
  | cm out data => exact h.onCm out data
  | peer out msg => exact h.onPeer hauth out msg hnone
  | lost => exact h.onClose.endLoop
  | stopService =>
    have h' : Bare services (s.tell (.closeReason "Closed manually by the peer")).checkRemoveSession :=
      h.beside ((Beside.refl s).tell _).checkRemoveSession
    exact h'.onClose.endLoop
  | terminalTick out =>
    have hrest : (s.conn.terminal && s.conn.authorized && s.conn.terminalServiceId ≠ "") = false := by
      rw [hauth, Bool.and_false, Bool.false_and]
    simp only [State.next, hrest, Bool.false_eq_true, if_false]
    exact h
  | elsewhere globals => exact absurd rfl (hown globals)

end Unauthorized

/-- **Terminal services before the login.** In a run of a connection that takes no terminal service
while it is not authorized, no step it takes while it is not authorized touches the services. -/
theorem unchanged_of_takesNoService {tr : List (State × Event)} {s : State}
    (h : system.Trace tr s) (hnone : ∀ x ∈ tr, x.1.TakesNoService x.2) :
    ∀ x ∈ tr, x.1.conn.authorized = false → (∀ globals, x.2 ≠ .elsewhere globals) →
      x.1.globals.terminals.Unchanged (x.1.next x.2).globals.terminals := by
  have hbare := h.always (I := fun s => s.conn.authorized = false → s.conn.terminalServiceId = "")
    ?_ ?_ hnone
  · intro x hx hauth hown id
    have hx' : Bare x.1.globals.terminals x.1 := ⟨hbare.1 x hx hauth, rfl⟩
    rw [(hx'.next hauth hown (hnone x hx)).terminals]
  · intro s hfresh _
    obtain ⟨out, require2fa, hconn⟩ := hfresh.conn
    rw [hconn]
    rfl
  · intro s e s' hid hstep hok hauth'
    obtain ⟨hcan, rfl⟩ := hstep
    have hauth : s.conn.authorized = false := by
      by_contra hne
      rw [authorized_next e (Bool.not_eq_false _ ▸ hne)] at hauth'
      cases hauth'
    cases e with
    | elsewhere globals => exact hid hauth
    | _ =>
      have h' : Bare s.globals.terminals s := ⟨hid hauth, rfl⟩
      refine (h'.next hauth ?_ hok).terminalServiceId
      intro globals h
      cases h

/-- A login request that asks for no terminal. -/
theorem unchanged_loginRequest :
    (State.plain none).globals.terminals.Unchanged
      ((State.plain none).next (.peer .plain (.loginRequest .unset))).globals.terminals := by
  have htrace : system.Trace [] (State.plain none) := .start (fresh_plain none)
  have hstep : system.step (State.plain none) (.peer .plain (.loginRequest .unset)) _ := ⟨rfl, rfl⟩
  refine unchanged_of_takesNoService (htrace.snoc hstep) ?_ _ (List.mem_singleton_self _) rfl ?_
  · intro x hx
    obtain rfl := List.mem_singleton.mp hx
    intro _
    exact id
  · intro globals h
    cases h

/-- A terminal another connection has open. -/
def openTerminal : TerminalServices :=
  (∅ : TerminalServices).insert "service"
    { PersistentTerminalService.new "service" false false with
      sessions := (∅ : TerminalSessions).insert 1 ⟨4711, 24, 80, false, true⟩ }

/-- A login request with no password at all closes it. -/
theorem openTerminal_changed :
    ¬ ∀ (tr : List (State × Event)) (s : State), system.Trace tr s →
      ∀ x ∈ tr, x.1.conn.authorized = false → (∀ globals, x.2 ≠ .elsewhere globals) →
        x.1.globals.terminals.Unchanged (x.1.next x.2).globals.terminals := by
  intro h
  let start : State :=
    { State.plain none with
      globals := { (State.plain none).globals with terminals := openTerminal } }
  have hfresh : Fresh start :=
    ⟨(fresh_plain none).conn, (fresh_plain none).unsubed, rfl⟩
  let request : Event :=
    .peer .plain (.loginRequest { LoginRequest.unset with union := some (.terminal "service") })
  have htrace : system.Trace [(start, request)] (start.next request) :=
    .snoc (.start hfresh) ⟨rfl, rfl⟩
  have hsame := h _ _ htrace _ (List.mem_singleton_self _) rfl (by intro globals h; cases h)
    "service"
  have hopened := congrArg (fun kept : Option (Bool × TerminalSessions) =>
    kept.bind fun k => (k.2.lookup 1).map TerminalSession.isOpened) hsame
  exact absurd hopened (by decide)

end State

end HopToDesk.Host
