import HopToDesk.Laws.Host.Login

/-!
# What a login is answered with

Until a connection is authorized its peer hears of nothing but errors, and then of the one response
that lets it in (`Answered`). This is read off the handlers of the login, each of which leaves off
with an error, with nothing, or with `sendLogonResponse`.
-/

set_option autoImplicit false

namespace HopToDesk.Host.State

/-- A connection that was not authorized: it has been refused, or let in. -/
inductive Answered (s s' : State) : Prop
  | refused (hauth : s'.conn.authorized = false) (errs : List String)
      (hsent : s'.sent = s.sent ++ errs.map .loginError)
  | entered (hauth : s'.conn.authorized = true)
      (hsent : s'.conn.portForwardSocket = true → s'.sent = s.sent ++ [.loginResponse])

variable {s t s' : State} (out : Outside)

namespace Answered

theorem of_eq (h : Answered t s') (hsent : t.sent = s.sent) : Answered s s' := by
  cases h with
  | refused hauth errs h => exact .refused hauth errs (hsent ▸ h)
  | entered hauth h => exact .entered hauth (hsent ▸ h)

theorem quiet (hauth : s'.conn.authorized = false) (hsent : s'.sent = s.sent) : Answered s s' := by
  refine .refused hauth [] ?_
  rw [hsent]
  exact (List.append_nil s.sent).symm

theorem error (hauth : t.conn.authorized = false) (hsent : t.sent = s.sent) (e : String) :
    Answered s (t.loginError e) :=
  .refused hauth [e] (congrArg (· ++ [Reply.loginError e]) hsent)

end Answered

/-! ## `send_logon_response` -/

theorem sent_afterSecondFactor (s : State) : (s.afterSecondFactor out).sent = s.sent := by
  unfold afterSecondFactor
  split
  · rfl
  · rfl

theorem conn_afterSecondFactor (s : State) : (s.afterSecondFactor out).conn = s.conn :=
  ((Beside.refl s).afterSecondFactor out).conn

theorem socket_takeOptionsInLogin (s : State) :
    s.takeOptionsInLogin.conn.portForwardSocket = s.conn.portForwardSocket := by
  unfold takeOptionsInLogin
  split
  · rw [conn_updateOptions]
    rfl
  · rfl

theorem socket_subscribeOnLogin (s : State) (subService : Bool) :
    (s.subscribeOnLogin out subService).conn.portForwardSocket = s.conn.portForwardSocket := by
  unfold subscribeOnLogin trySubMonitorServices
  split
  · rfl
  · split
    · rfl
    · split
      · split
        · rfl
        · rfl
      · rfl

theorem socket_enter (s : State) :
    (s.enter out).conn.portForwardSocket = s.conn.portForwardSocket := by
  have hauthorize : (s.afterSecondFactor out).authorize.conn.portForwardSocket =
      s.conn.portForwardSocket := by
    rw [← conn_afterSecondFactor out s]
    rfl
  unfold enter
  dsimp only
  split
  · exact hauthorize
  · split
    · exact hauthorize
    · rw [socket_subscribeOnLogin, socket_takeOptionsInLogin]
      split
      · exact hauthorize
      · exact hauthorize

/-- A connection with a socket is let in with one response. -/
theorem sent_enter (s : State) (hsocket : s.conn.portForwardSocket = true) :
    (s.enter out).sent = s.sent ++ [.loginResponse] := by
  have hauthorize : (s.afterSecondFactor out).authorize.conn.portForwardSocket = true := by
    rw [← hsocket, ← conn_afterSecondFactor out s]
    rfl
  unfold enter
  rw [if_pos hauthorize]
  exact congrArg (· ++ [Reply.loginResponse]) (sent_afterSecondFactor out s)

theorem answered_sendLogonResponse (hauth : s.conn.authorized = false) :
    Answered s (s.sendLogonResponse out) := by
  unfold sendLogonResponse
  rw [if_neg (by simp only [hauth, Bool.false_eq_true, not_false_eq_true])]
  split
  · refine .error ?_ (sent_afterSecondFactor out s) "2FA Required"
    rw [conn_afterSecondFactor]
    exact hauth
  · refine .entered (authorized_enter s out) fun hsocket => ?_
    rw [socket_enter] at hsocket
    exact sent_enter out s hsocket

/-! ## Login requests -/

theorem sent_afterPassword (s : State) : (s.afterPassword out).sent = s.sent := by
  unfold afterPassword
  split
  · rfl
  · split
    · rfl
    · rfl

theorem answered_checkPassword (hauth : s.conn.authorized = false) (errMsg : String) :
    Answered s (s.checkPassword out errMsg) := by
  have hchecked (failure : Failure × Int) (ok : Bool) :
      ((s.afterPassword out).updateFailure failure ok 0).conn.authorized = false := by
    rw [(((Beside.refl s).afterPassword out).updateFailure failure ok 0).conn]
    exact hauth
  have hsent := sent_afterPassword out s
  unfold checkPassword
  dsimp only
  split
  · exact .error hauth rfl _
  · split
    · exact .error (hchecked _ _) hsent _
    · split
      · exact (answered_sendLogonResponse out (hchecked _ _)).of_eq hsent
      · exact .error (hchecked _ _) hsent _

theorem answered_checkLogin (hauth : s.conn.authorized = false) (lr : LoginRequest) :
    Answered s (s.checkLogin out lr).1 := by
  have hauth' : (s.setSessions (s.recentSessions out)).conn.authorized = false := hauth
  have hsent : (s.setSessions (s.recentSessions out)).sent = s.sent := rfl
  unfold checkLogin
  dsimp only
  split
  · exact .error hauth rfl _
  split
  · exact .error hauth rfl _
  split
  · split
    · exact .error hauth rfl _
    · exact .quiet hauth rfl
  split
  · split
    · exact (answered_sendLogonResponse out hauth').of_eq hsent
    · exact .error hauth' hsent _
  split
  · split
    · exact .quiet hauth' hsent
    · exact .error hauth' hsent _
  · exact (answered_checkPassword out hauth' _).of_eq hsent

/-- What the kind of a request sets up is answered when it fails, and then the loop ends. -/
theorem answered_setUpLogin (hauth : s.conn.authorized = false) (union : Option LoginUnion) :
    (s.setUpLogin out union).1.conn.authorized = false ∧
      ((s.setUpLogin out union).2 = true ∧ (s.setUpLogin out union).1.sent = s.sent ∨
        (s.setUpLogin out union).2 = false ∧ ∃ e, (s.setUpLogin out union).1.sent =
          s.sent ++ [.loginError e]) := by
  have hcore : (s.setUpLogin out union).1.conn.core = s.conn.core :=
    (setUpLogin_spec s out union).conn
  refine ⟨(congrArg Connection.authorized hcore).trans hauth, ?_⟩
  unfold setUpLogin
  cases union with
  | none =>
    dsimp only
    split
    · exact .inr ⟨rfl, _, rfl⟩
    · exact .inl ⟨rfl, rfl⟩
  | some union =>
    cases union with
    | fileTransfer dir showHidden =>
      dsimp only
      split
      · exact .inl ⟨rfl, rfl⟩
      · exact .inr ⟨rfl, _, rfl⟩
    | viewCamera =>
      dsimp only
      split
      · exact .inl ⟨rfl, rfl⟩
      · exact .inr ⟨rfl, _, rfl⟩
    | portForward host port =>
      dsimp only
      split
      · split <;> split <;> split
        all_goals first | exact .inl ⟨rfl, rfl⟩ | exact .inr ⟨rfl, _, rfl⟩
      · exact .inr ⟨rfl, _, rfl⟩
    | terminal serviceId =>
      dsimp only
      split
      · split
        · exact .inr ⟨rfl, _, rfl⟩
        · exact .inl ⟨rfl, rfl⟩
      · exact .inr ⟨rfl, _, rfl⟩

theorem answered_onLoginRequest (hauth : s.conn.authorized = false) (lr : LoginRequest) :
    Answered s (s.onLoginRequest out lr).1 := by
  have hauth' : (s.handleLoginRequestWithoutValidation out lr).conn.authorized = false := hauth
  obtain ⟨hset, hcases⟩ := answered_setUpLogin out hauth' lr.union
  unfold onLoginRequest
  dsimp only
  rw [if_neg (by simp only [hauth', Bool.false_eq_true, not_false_eq_true])]
  cases hset' : (s.handleLoginRequestWithoutValidation out lr).setUpLogin out lr.union with
  | mk t ok =>
    rw [hset'] at hset hcases
    obtain ⟨rfl, hsent⟩ | ⟨rfl, e, hsent⟩ := hcases
    · exact (answered_checkLogin out hset lr).of_eq hsent
    · exact .refused hset [e] hsent

/-! ## Codes -/

theorem answered_onAuth2fa (hauth : s.conn.authorized = false) (code : String) :
    Answered s (s.onAuth2fa out code) := by
  have hcounted (remove : Bool) :
      (s.updateFailure (s.checkFailure out 1).1 remove 1).sent = s.sent := rfl
  unfold onAuth2fa
  dsimp only
  split
  · exact .error hauth rfl _
  · split
    · refine (answered_sendLogonResponse out ?_).of_eq (hcounted true)
      exact hauth
    · refine .error ?_ (hcounted false) _
      exact hauth
    · exact .quiet hauth rfl

end HopToDesk.Host.State
