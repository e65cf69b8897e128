import HopToDesk.Laws.Host.Login

/-!
# What lets a connection in

A connection becomes authorized in `sendLogonResponse`, which five handlers call and which itself
asks for the second factor alone. Whoever calls it is trusted to have seen a reason: the click of the
user at the host, the UUID of a switch of sides, or a password. The handler of second-factor codes
has seen none. A run is `Vouched` for as long as each code that is accepted comes after a password.
-/

set_option autoImplicit false

namespace HopToDesk.Host

open Kit

namespace State

/-! ## Reasons -/

/-- The connection manager lets the connection in. -/
def CmAuthorizes : State × Event → Prop
  | (_, .cm _ .authorize) => True
  | _ => False

/-- The sides are switched, by the UUID stored for the peer less than ten seconds before. -/
def SwitchesSides : State × Event → Prop
  | (s, .peer out (.switchSidesResponse uuid (some lr))) => s.switches out uuid lr = true
  | _ => False

/-- A login request passes the password check. -/
def PassesPassword : State × Event → Prop
  | (s, .peer out (.loginRequest lr)) => s.passesPassword out lr = true
  | _ => False

/-- The second factor is satisfied: by a code, by a trusted device, or by a session that has it. -/
def SecondFactor : State × Event → Prop
  | (s, .peer out (.auth2fa code)) => s.acceptsCode out code = true
  | (s, .peer out (.loginRequest lr)) =>
    trustedDevice out lr = true ∨
      (s.handleLoginRequestWithoutValidation out lr).isRecentSession out true = true
  | (_, .peer out (.switchSidesResponse _ (some lr))) => trustedDevice out lr = true
  | _ => False

/-- What has happened on a connection is a reason to let it in. `configured` says that the second
factor was configured when it began. -/
def Vouched (configured : Bool) (tr : List (State × Event)) : Prop :=
  (∃ x ∈ tr, CmAuthorizes x) ∨ (∃ x ∈ tr, SwitchesSides x) ∨
    (∃ x ∈ tr, PassesPassword x) ∧ (configured = true → ∃ x ∈ tr, SecondFactor x)

theorem Vouched.mono {configured : Bool} {tr : List (State × Event)} (h : Vouched configured tr)
    (x : State × Event) : Vouched configured (tr ++ [x]) := by
  have hleft {P : State × Event → Prop} (h : ∃ y ∈ tr, P y) : ∃ y ∈ tr ++ [x], P y := by
    obtain ⟨y, hy, hP⟩ := h
    exact ⟨y, List.mem_append_left _ hy, hP⟩
  rcases h with h | h | ⟨hpassword, hfactor⟩
  · exact .inl (hleft h)
  · exact .inr (.inl (hleft h))
  · exact .inr (.inr ⟨hleft hpassword, fun hconfigured => hleft (hfactor hconfigured)⟩)

/-- The runs of a connection that begins with this second factor configured, remembered. -/
def remembered (require2fa : Option String) : System (List (State × Event) × State) Event :=
  System.recorded { system with init := fun s => s.Fresh ∧ s.conn.require2fa = require2fa }

/-- A connection that is let in is vouched for. -/
def AuthorizedVouched (require2fa : Option String) (x : List (State × Event) × State) : Prop :=
  x.2.conn.authorized = true → Vouched require2fa.isSome x.1

/-- A code that a connection not yet let in has accepted comes after a password. -/
def AfterPassword (x : List (State × Event) × State) : Event → Prop
  | .peer out (.auth2fa code) =>
    x.2.conn.authorized = false → x.2.acceptsCode out code = true → ∃ y ∈ x.1, PassesPassword y
  | _ => True

/-! ## One step -/

/-- A step of a connection that is not authorized and has not switched sides: either it stays so,
and loses the second factor only for a reason, or it is let in for one. -/
inductive Outcome (s : State) (e : Event) (s' : State) : Prop
  | stays (hauth : s'.conn.authorized = false) (hswitch : s'.conn.fromSwitch = false)
      (hnone : ¬ CmAuthorizes (s, e) ∧ ¬ SwitchesSides (s, e))
      (hfactor : s'.conn.require2fa = s.conn.require2fa ∨ SecondFactor (s, e))
  | byCm (hauth : s'.conn.authorized = true) (h : CmAuthorizes (s, e))
  | bySides (hauth : s'.conn.authorized = true) (h : SwitchesSides (s, e))
  | byPassword (hauth : s'.conn.authorized = true) (h : PassesPassword (s, e))
      (hfactor : s.conn.require2fa = none ∨ SecondFactor (s, e))
  | byCode (out : Outside) (code : String) (hauth : s'.conn.authorized = true)
      (he : e = .peer out (.auth2fa code)) (haccepts : s.acceptsCode out code = true)

/-- Where a connection stands with `sendLogonResponse`. -/
theorem authorized_sendLogonResponse {t : State} (hauth : t.conn.authorized = false)
    (out : Outside) :
    (t.sendLogonResponse out).conn.authorized = true ∧ t.lacksSecondFactor out = false ∨
      (t.sendLogonResponse out).conn = t.conn ∧ t.lacksSecondFactor out = true := by
  obtain ⟨hlacks, -, heq⟩ | ⟨hor, hbeside⟩ := t.sendLogonResponse_cases out
  · rw [heq]
    exact .inl ⟨t.authorized_enter out, hlacks⟩
  · refine .inr ⟨hbeside.conn, hor.resolve_left ?_⟩
    rw [hauth]
    exact Bool.false_ne_true

/-- The end of the loop leaves these fields alone. -/
theorem Outcome.endLoop {s s' : State} {e : Event} (h : Outcome s e s') : Outcome s e s'.endLoop := by
  have hcore := s'.endLoop_spec.2.1
  have hauth : s'.endLoop.conn.authorized = s'.conn.authorized :=
    (congrArg Connection.authorized hcore :)
  cases h with
  | stays h hswitch hnone hfactor =>
    refine .stays (hauth.trans h) ((congrArg Connection.fromSwitch hcore).trans hswitch) hnone ?_
    rcases hfactor with hfactor | hfactor
    · exact .inl ((congrArg Connection.require2fa hcore).trans hfactor)
    · exact .inr hfactor
  | byCm h hcm => exact .byCm (hauth.trans h) hcm
  | bySides h hsides => exact .bySides (hauth.trans h) hsides
  | byPassword h hpassword hfactor => exact .byPassword (hauth.trans h) hpassword hfactor
  | byCode out code h he haccepts => exact .byCode out code (hauth.trans h) he haccepts

/-- A step that leaves these fields alone. -/
theorem Outcome.of_core {s s' : State} {e : Event} (hauth : s.conn.authorized = false)
    (hswitch : s.conn.fromSwitch = false) (hnone : ¬ CmAuthorizes (s, e) ∧ ¬ SwitchesSides (s, e))
    (hcore : s'.conn.core = s.conn.core) : Outcome s e s' :=
  .stays ((congrArg Connection.authorized hcore).trans hauth)
    ((congrArg Connection.fromSwitch hcore).trans hswitch) hnone
    (.inl (congrArg Connection.require2fa hcore :))

/-- The kind of a login does not change which session the peer returns to. -/
theorem isRecentSession_setUp {s s' : State} (h : SetUp s s') (out : Outside) :
    s'.isRecentSession out true = s.isRecentSession out true := by
  have hlr : s'.conn.lr = s.conn.lr := (congrArg Connection.lr h.conn :)
  simp only [isRecentSession, recentSessions, Connection.sessionKey, h.sessions, hlr, Bool.true_and,
    Bool.not_true, Bool.false_and, Bool.or_false]
  rfl

section Step

variable {s : State} (hauth : s.conn.authorized = false) (hswitch : s.conn.fromSwitch = false)

include hauth hswitch

theorem outcome_onLoginRequest (out : Outside) (lr : LoginRequest) :
    Outcome s (.peer out (.loginRequest lr)) (s.onLoginRequest out lr).1 := by
  let t₀ := ((s.handleLoginRequestWithoutValidation out lr).setUpLogin out lr.union).1
  have hset : SetUp (s.handleLoginRequestWithoutValidation out lr) t₀ := setUpLogin_spec _ out lr.union
  have hauth₀ : t₀.conn.authorized = false := (congrArg Connection.authorized hset.conn).trans hauth
  have hswitch₀ : t₀.conn.fromSwitch = false :=
    (congrArg Connection.fromSwitch hset.conn).trans hswitch
  have hfactor₀ : t₀.conn.require2fa =
      if trustedDevice out lr = true then none else s.conn.require2fa :=
    (congrArg Connection.require2fa hset.conn :)
  -- The second factor is lost to a trusted device only.
  have hfactor : t₀.conn.require2fa = s.conn.require2fa ∨
      SecondFactor (s, .peer out (.loginRequest lr)) := by
    rw [hfactor₀]
    split
    next htrusted => exact .inr (.inl htrusted)
    next => exact .inl rfl
  obtain hbeside | ⟨hpasses, t, hbeside, hrecent, heq⟩ := onLoginRequest_cases out hauth lr
  · refine .stays ?_ ?_ ⟨id, id⟩ ?_
    · exact (congrArg Connection.authorized hbeside.conn).trans hauth₀
    · exact (congrArg Connection.fromSwitch hbeside.conn).trans hswitch₀
    · rwa [hbeside.conn]
  · rw [heq]
    have htauth : t.conn.authorized = false :=
      (congrArg Connection.authorized hbeside.conn).trans hauth₀
    obtain ⟨hin, hlacks⟩ | ⟨hconn, -⟩ := authorized_sendLogonResponse htauth out
    · refine .byPassword hin hpasses ?_
      have htswitch : t.conn.fromSwitch = false :=
        (congrArg Connection.fromSwitch hbeside.conn).trans hswitch₀
      simp only [lacksSecondFactor, htswitch, Bool.not_false, Bool.and_true, Bool.and_eq_false_iff,
        Bool.not_eq_false', Option.isSome_eq_false_iff, Option.isNone_iff_eq_none] at hlacks
      rcases hlacks with hnone | hsession
      · rcases hfactor with hsame | hfactor
        · rw [hbeside.conn, hsame] at hnone
          exact .inl hnone
        · exact .inr hfactor
      · refine .inr (.inr ?_)
        rw [← isRecentSession_setUp hset]
        exact hrecent hsession
    · refine .stays ?_ ?_ ⟨id, id⟩ ?_
      · rw [hconn]
        exact htauth
      · rw [hconn, hbeside.conn]
        exact hswitch₀
      · rwa [hconn, hbeside.conn]

theorem outcome_onAuth2fa (out : Outside) (code : String) :
    Outcome s (.peer out (.auth2fa code)) (s.onAuth2fa out code) := by
  obtain ⟨hbeside, -⟩ | ⟨haccepts, t, hbeside, heq⟩ := s.onAuth2fa_cases out code
  · exact .of_core hauth hswitch ⟨id, id⟩ (congrArg _ hbeside.conn)
  · rw [heq]
    have htauth : t.conn.authorized = false :=
      (congrArg Connection.authorized hbeside.conn).trans hauth
    have hnone : t.conn.require2fa = none := congrArg Connection.require2fa hbeside.conn
    obtain ⟨hin, -⟩ | ⟨-, hlacks⟩ := authorized_sendLogonResponse htauth out
    · exact .byCode out code hin rfl haccepts
    · simp only [lacksSecondFactor, hnone, Option.isSome_none, Bool.false_and,
        Bool.false_eq_true] at hlacks

theorem outcome_onSwitchSidesResponse (out : Outside) (uuid : List UInt8) (lr : LoginRequest) :
    Outcome s (.peer out (.switchSidesResponse uuid (some lr)))
      (s.onSwitchSidesResponse out uuid lr) := by
  obtain ⟨hnot, hbeside⟩ | ⟨hswitches, t, hbeside, heq⟩ := s.onSwitchSidesResponse_cases out uuid lr
  · refine .stays ?_ ?_ ⟨id, fun h => ?_⟩ ?_
    · exact (congrArg Connection.authorized hbeside.conn).trans hauth
    · exact (congrArg Connection.fromSwitch hbeside.conn).trans hswitch
    · rw [SwitchesSides, hnot] at h
      cases h
    · have hfactor : (s.onSwitchSidesResponse out uuid lr).conn.require2fa =
          if trustedDevice out lr = true then none else s.conn.require2fa :=
        congrArg Connection.require2fa hbeside.conn
      rw [hfactor]
      split
      next htrusted => exact .inr htrusted
      next => exact .inl rfl
  · rw [heq]
    have htauth : t.conn.authorized = false :=
      (congrArg Connection.authorized hbeside.conn).trans hauth
    have htswitch : t.conn.fromSwitch = true := congrArg Connection.fromSwitch hbeside.conn
    obtain ⟨hin, -⟩ | ⟨-, hlacks⟩ := authorized_sendLogonResponse htauth out
    · exact .bySides hin hswitches
    · simp only [lacksSecondFactor, htswitch, Bool.not_true, Bool.and_false,
        Bool.false_eq_true] at hlacks

theorem outcome_onMessage (out : Outside) (msg : Message) :
    Outcome s (.peer out msg) (s.onMessage out msg).1 := by
  cases msg with
  | loginRequest lr => exact outcome_onLoginRequest hauth hswitch out lr
  | auth2fa code => exact outcome_onAuth2fa hauth hswitch out code
  | inviteRequest => exact .stays hauth hswitch ⟨id, id⟩ (.inl rfl)
  | switchSidesResponse uuid lr =>
    cases lr with
    | some lr => exact outcome_onSwitchSidesResponse hauth hswitch out uuid lr
    | none => exact .stays hauth hswitch ⟨id, id⟩ (.inl rfl)
  | _ =>
    simp only [onMessage, hauth, Bool.false_and, Bool.false_eq_true, if_false]
    exact .stays hauth hswitch ⟨id, id⟩ (.inl rfl)

theorem outcome_onPeer (out : Outside) (msg : Message) :
    Outcome s (.peer out msg) (s.onPeer out msg) := by
  have hmsg := outcome_onMessage hauth hswitch out msg
  unfold onPeer
  split
  next heq =>
    rw [heq] at hmsg
    exact hmsg.endLoop
  next heq =>
    rw [heq] at hmsg
    split
    · exact hmsg.endLoop
    · exact hmsg

theorem outcome_onCm (out : Outside) (data : CmData) :
    Outcome s (.cm out data) (s.onCm out data) := by
  cases data with
  | authorize =>
    have hauth' : (s.modify ({ · with require2fa := none })).conn.authorized = false := hauth
    have hin : Outcome s (.cm out .authorize)
        ((s.modify ({ · with require2fa := none })).sendLogonResponse out) := by
      obtain ⟨hin, -⟩ | ⟨-, hlacks⟩ := authorized_sendLogonResponse hauth' out
      · exact .byCm hin trivial
      · simp only [lacksSecondFactor, conn_modify, Option.isSome_none, Bool.false_and,
          Bool.false_eq_true] at hlacks
    simp only [onCm]
    split
    · exact hin.endLoop
    · exact hin
  | close =>
    have hcore := onClose_spec
      (s.tell (.closeReason "The remote partner has closed the session."))
    exact (Outcome.of_core hauth hswitch ⟨id, id⟩ hcore.2.1).endLoop
  | inviteResponse accepted =>
    simp only [onCm]
    split
    · exact .of_core hauth hswitch ⟨id, id⟩ rfl
    · exact (Outcome.of_core hauth hswitch ⟨id, id⟩
        (onClose_spec (s.tell (.inviteResponse accepted))).2.1).endLoop
  | cmErr err =>
    simp only [onCm]
    split
    · exact .of_core hauth hswitch ⟨id, id⟩ rfl
    · exact (Outcome.of_core hauth hswitch ⟨id, id⟩ s.onClose_spec.2.1).endLoop
  | switchPermission name enabled =>
    simp only [onCm]
    refine .stays ((authorized_switchPermission name enabled).trans hauth) ?_ ⟨id, id⟩ (.inl ?_)
    · rw [conn_switchPermission, Connection.withPermission]
      repeat' split
      all_goals exact hswitch
    · rw [conn_switchPermission, Connection.withPermission]
      repeat' split
      all_goals rfl
  | voiceCallResponse accepted =>
    simp only [onCm, handleVoiceCall]
    split
    · split <;> exact .stays hauth hswitch ⟨id, id⟩ (.inl rfl)
    · exact .stays hauth hswitch ⟨id, id⟩ (.inl rfl)
  | closeVoiceCall =>
    simp only [onCm, closeVoiceCall]
    split <;> exact .stays hauth hswitch ⟨id, id⟩ (.inl rfl)
  | other => exact .stays hauth hswitch ⟨id, id⟩ (.inl rfl)

theorem outcome_next (e : Event) : Outcome s e (s.next e) := by
  cases e with
  | cm out data => exact outcome_onCm hauth hswitch out data
  | peer out msg => exact outcome_onPeer hauth hswitch out msg
  | lost => exact (Outcome.of_core hauth hswitch ⟨id, id⟩ s.onClose_spec.2.1).endLoop
  | stopService =>
    have hbeside :=
      ((Beside.refl s).tell (.closeReason "Closed manually by the peer")).checkRemoveSession
    have hcore := (onClose_spec (s.tell
      (.closeReason "Closed manually by the peer")).checkRemoveSession).2.1
    exact (Outcome.of_core hauth hswitch ⟨id, id⟩ (hcore.trans (congrArg _ hbeside.conn))).endLoop
  | terminalTick out =>
    simp only [next, hauth, Bool.and_false, Bool.false_and, Bool.false_eq_true, if_false]
    exact .stays hauth hswitch ⟨id, id⟩ (.inl rfl)
  | elsewhere globals => exact .stays hauth hswitch ⟨id, id⟩ (.inl rfl)

end Step

/-! ## Runs -/

/-- What carries the induction: a connection that is let in is vouched for; one that is not has had
no reason but a password or a second factor, and has lost the second factor for a reason. -/
structure Waiting (require2fa : Option String) (tr : List (State × Event)) (s : State) : Prop where
  fromSwitch : s.conn.fromSwitch = false
  factor : s.conn.require2fa = require2fa ∨ ∃ x ∈ tr, SecondFactor x
  noReason : ∀ x ∈ tr, ¬ CmAuthorizes x ∧ ¬ SwitchesSides x

def Justified (require2fa : Option String) (x : List (State × Event) × State) : Prop :=
  AuthorizedVouched require2fa x ∧ (x.2.conn.authorized = false → Waiting require2fa x.1 x.2)

theorem Justified.next {require2fa : Option String} {tr : List (State × Event)} {s : State}
    (h : Justified require2fa (tr, s)) {e : Event} (hok : AfterPassword (tr, s) e) :
    Justified require2fa (tr ++ [(s, e)], s.next e) := by
  have hlast : (s, e) ∈ tr ++ [(s, e)] := List.mem_append_right _ (List.mem_singleton_self _)
  cases hauth : s.conn.authorized with
  | true =>
    have hauth' := authorized_next e hauth
    refine ⟨fun _ => (h.1 hauth).mono _, fun hnot => ?_⟩
    rw [hauth'] at hnot
    cases hnot
  | false =>
    have hwaiting := h.2 hauth
    have hin (hauth' : (s.next e).conn.authorized = true)
        (hvouched : Vouched require2fa.isSome (tr ++ [(s, e)])) :
        Justified require2fa (tr ++ [(s, e)], s.next e) := by
      refine ⟨fun _ => hvouched, fun hnot => ?_⟩
      rw [hauth'] at hnot
      cases hnot
    cases outcome_next hauth hwaiting.fromSwitch e with
    | stays hauth' hswitch hnone hfactor =>
      refine ⟨fun hin => ?_, fun _ => ⟨hswitch, ?_, ?_⟩⟩
      · rw [hauth'] at hin
        cases hin
      · rcases hfactor with hsame | hfactor
        · rcases hwaiting.factor with hfirst | ⟨x, hx, hfactor⟩
          · exact .inl (hsame.trans hfirst)
          · exact .inr ⟨x, List.mem_append_left _ hx, hfactor⟩
        · exact .inr ⟨_, hlast, hfactor⟩
      · simp only [List.forall_mem_append, List.forall_mem_singleton]
        exact ⟨hwaiting.noReason, hnone⟩
    | byCm hauth' hcm => exact hin hauth' (.inl ⟨_, hlast, hcm⟩)
    | bySides hauth' hsides => exact hin hauth' (.inr (.inl ⟨_, hlast, hsides⟩))
    | byPassword hauth' hpassword hfactor =>
      refine hin hauth' (.inr (.inr ⟨⟨_, hlast, hpassword⟩, fun hconfigured => ?_⟩))
      rcases hfactor with hnone | hfactor
      · rcases hwaiting.factor with hfirst | ⟨x, hx, hfactor⟩
        · rw [← hfirst, hnone] at hconfigured
          cases hconfigured
        · exact ⟨x, List.mem_append_left _ hx, hfactor⟩
      · exact ⟨_, hlast, hfactor⟩
    | byCode out code hauth' he haccepts =>
      subst he
      obtain ⟨x, hx, hpassword⟩ := hok hauth haccepts
      exact hin hauth' (.inr (.inr
        ⟨⟨x, List.mem_append_left _ hx, hpassword⟩, fun _ => ⟨_, hlast, haccepts⟩⟩))

/-- An accepted code lets the connection in, whatever came before. -/
theorem authorized_of_acceptsCode {s : State} (hauth : s.conn.authorized = false) {out : Outside}
    {code : String} (haccepts : s.acceptsCode out code = true) :
    (s.next (.peer out (.auth2fa code))).conn.authorized = true := by
  have hin : (s.onAuth2fa out code).conn.authorized = true := by
    obtain ⟨-, hnot⟩ | ⟨-, t, hbeside, heq⟩ := s.onAuth2fa_cases out code
    · rw [haccepts] at hnot
      cases hnot
    · have htauth : t.conn.authorized = false :=
        (congrArg Connection.authorized hbeside.conn).trans hauth
      have hnone : t.conn.require2fa = none := congrArg Connection.require2fa hbeside.conn
      obtain ⟨hin, -⟩ | ⟨-, hlacks⟩ := authorized_sendLogonResponse htauth out
      · rw [heq]
        exact hin
      · simp only [lacksSecondFactor, hnone, Option.isSome_none, Bool.false_and,
          Bool.false_eq_true] at hlacks
  simp only [next, onPeer, onMessage]
  split
  · exact authorized_endLoop hin
  · exact hin

/-- **What lets a connection in.** In a run of a connection, it is vouched for whenever it is
authorized exactly when every code accepted before the login comes after a password. -/
theorem vouched_iff_afterPassword (require2fa : Option String)
    {hist : List ((List (State × Event) × State) × Event)} {x : List (State × Event) × State}
    (h : (remembered require2fa).Trace hist x) :
    System.Always (AuthorizedVouched require2fa) hist x ↔
      ∀ y ∈ hist, AfterPassword y.1 y.2 := by
  refine h.always_iff (I := Justified require2fa) ?_ And.left ?_ ?_
  · intro x hx
    obtain ⟨htr, hfresh, hfactor⟩ := hx
    obtain ⟨out, r, hconn⟩ := hfresh.conn
    refine ⟨fun hauth => ?_, fun _ => ⟨?_, .inl hfactor, ?_⟩⟩
    · rw [hconn] at hauth
      cases hauth
    · rw [hconn]
      rfl
    · rw [htr]
      intro y hy
      cases hy
  · intro x e x' hx hstep hok
    obtain ⟨htr, hcan, hs⟩ := hstep
    have hx' : x' = (x.1 ++ [(x.2, e)], x.2.next e) := Prod.ext htr hs
    rw [hx']
    exact Justified.next hx hok
  · intro x e x' hx hstep hgood
    obtain ⟨htr, hcan, hs⟩ := hstep
    unfold AfterPassword
    split
    next out code =>
      intro hauth haccepts
      have hvouched := hgood (by rw [hs]; exact authorized_of_acceptsCode hauth haccepts)
      rw [htr] at hvouched
      have hwaiting := hx.2 hauth
      have hbefore {P : State × Event → Prop} (hnot : ¬ P (x.2, .peer out (.auth2fa code)))
          (h : ∃ y ∈ x.1 ++ [(x.2, .peer out (.auth2fa code))], P y) : ∃ y ∈ x.1, P y := by
        obtain ⟨y, hy, hP⟩ := h
        rcases List.mem_append.mp hy with hy | hy
        · exact ⟨y, hy, hP⟩
        · obtain rfl := List.mem_singleton.mp hy
          exact absurd hP hnot
      rcases hvouched with hcm | hsides | ⟨hpassword, -⟩
      · obtain ⟨y, hy, hcm⟩ := hbefore id hcm
        exact absurd hcm (hwaiting.noReason y hy).1
      · obtain ⟨y, hy, hsides⟩ := hbefore id hsides
        exact absurd hsides (hwaiting.noReason y hy).2
      · exact hbefore id hpassword
    next => trivial

/-- A click of the user at the host. -/
theorem vouched_authorize :
    System.Always (AuthorizedVouched (some "secret"))
      [(([], State.plain (some "secret")), Event.cm .plain .authorize)]
      ([(State.plain (some "secret"), .cm .plain .authorize)],
        (State.plain (some "secret")).next (.cm .plain .authorize)) := by
  have htrace : (remembered (some "secret")).Trace [] ([], State.plain (some "secret")) :=
    .start ⟨rfl, fresh_plain (some "secret"), rfl⟩
  have hstep : (remembered (some "secret")).step ([], State.plain (some "secret"))
      (.cm .plain .authorize) ([(State.plain (some "secret"), .cm .plain .authorize)],
        (State.plain (some "secret")).next (.cm .plain .authorize)) := ⟨rfl, rfl, rfl⟩
  refine (vouched_iff_afterPassword (some "secret") (htrace.snoc hstep)).mpr ?_
  intro y hy
  obtain rfl := List.mem_singleton.mp hy
  trivial

/-- The code of the second factor is all a peer needs. -/
theorem not_vouched_auth2fa :
    ¬ ∀ (require2fa : Option String) (hist : List ((List (State × Event) × State) × Event))
      (x : List (State × Event) × State), (remembered require2fa).Trace hist x →
        System.Always (AuthorizedVouched require2fa) hist x := by
  intro h
  let start := State.plain (some "secret")
  let code : Event :=
    .peer { Outside.plain with checkCurrent := fun _ code => some (code = "123456") }
      (.auth2fa "123456")
  have htrace : (remembered (some "secret")).Trace [] ([], start) :=
    .start ⟨rfl, fresh_plain (some "secret"), rfl⟩
  have hstep : (remembered (some "secret")).step ([], start) code
      ([(start, code)], start.next code) := ⟨rfl, rfl, rfl⟩
  have hvouched := (h _ _ _ (htrace.snoc hstep)).2 (by decide)
  rcases hvouched with ⟨x, hx, hreason⟩ | ⟨x, hx, hreason⟩ | ⟨⟨x, hx, hreason⟩, -⟩ <;>
    (obtain rfl := List.mem_singleton.mp hx; exact hreason)

end State

end HopToDesk.Host
