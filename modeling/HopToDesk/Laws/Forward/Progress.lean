import HopToDesk.Laws.Forward.Answers
import HopToDesk.Laws.Forward.Wired
import Mathlib.Tactic

/-!
# How far a login is

Which messages can be on the way between the two ends of a tunnel (`Progress`). The response is the
last of the server's. While the server is through with the login and waits, its `TestDelay` or the
answer is on the way, so that raw bytes of the client are never in front.

A turn of the server's loop leaves the connection what it is, or lets it in with the response
(`Admits`), and keeps the rest (`Progress.turn`).
-/

set_option autoImplicit false

namespace HopToDesk.Forward

open Wire

variable {Key : Type} {ps gs : List Packet} {rawS rawC : Bytes}

/-! ## What can be on the way -/

/-- What lets the client in. -/
abbrev response : Packet := .reply .loginResponse

/-- A message of the client. -/
inductive Asked : Packet → Prop
  | login (lr : Host.LoginRequest) : Asked (.message (.loginRequest lr))
  | code (code : String) : Asked (.message (.auth2fa code))
  | testDelay : Asked .testDelay

/-- The client writes raw, or has done so. -/
def Through (client : Client Key) (rawS : Bytes) : Prop :=
  client.phase = .forwarding ∨ rawS ≠ []

variable {client : Client Key} {server : Server Key}

/-- How far the login is. -/
structure Progress (client : Client Key) (server : Server Key) (ps gs : List Packet)
    (rawS rawC : Bytes) : Prop where
  asked : ∀ p ∈ ps, Asked p
  count : server.phase = .login → client.sent = server.read + ps.length
  waits : server.phase = .login → server.authorized = true → server.lastTestDelay = true
  outstanding : server.phase = .login → server.lastTestDelay = true →
    .testDelay ∈ gs ∨ .testDelay ∈ ps
  early : client.phase = .login → response ∉ gs →
    rawC = [] ∧ server.phase ≠ .forwarding ∧ (server.phase = .login → server.authorized = false)
  last : client.phase = .login → response ∈ gs →
    ∃ gs', gs = gs' ++ [response] ∧ response ∉ gs' ∧
      (server.phase = .login → server.authorized = true)
  read : Through client rawS → gs = []
  through : server.phase = .login → Through client rawS → server.authorized = true

/-- A turn in which the connection stays what it is, or is let in. -/
inductive Admits (before : Bool) (t : Turn Key) : Prop
  | same (hauth : t.server.authorized = before) (hsends : response ∉ t.sends)
  | entered (hbefore : before = false) (hafter : t.server.authorized = true)
      (hsends : t.sends = [response])

namespace Progress

/-- The client's raw bytes are not in front: an answer to `TestDelay` is. -/
theorem rawS_nil (h : Progress client server [] gs rawS rawC) (hlogin : server.phase = .login) :
    rawS = [] := by
  by_contra hne
  have hthrough : Through client rawS := .inr hne
  have hwaits := h.waits hlogin (h.through hlogin hthrough)
  obtain hgs | hps := h.outstanding hlogin hwaits
  · rw [h.read hthrough] at hgs
    cases hgs
  · cases hps

theorem rawC_nil (h : Progress client server ps [] rawS rawC) (hlogin : client.phase = .login) :
    rawC = [] :=
  (h.early hlogin (List.not_mem_nil)).1

/-- A turn of the server's loop. -/
theorem turn (h : Progress client server ps gs rawS rawC) (hserver : server.phase = .login)
    {t : Turn Key} (ht : t.server.phase = .login) {ps' : List Packet} (hps : ∀ p ∈ ps', p ∈ ps)
    (hcount : client.sent = t.server.read + ps'.length) (hadmits : Admits server.authorized t)
    (hquiet : server.authorized = true → t.sends = [])
    (hstay : t.leaves = false → t.server.authorized = true → t.server.lastTestDelay = true)
    (houtstanding : t.server.lastTestDelay = true →
      .testDelay ∈ gs ++ t.sends ∨ .testDelay ∈ ps')
    (hsettled : t.leaves = true → t.server.socket = true → t.server.authorized = true)
    (tcp : Tcp Key) :
    Progress client (if t.leaves then ({ t.server with tcp } : Server Key).leave
      else { t.server with tcp }) ps' (gs ++ t.sends) rawS rawC := by
  have hread (hthrough : Through client rawS) : gs ++ t.sends = [] := by
    rw [h.read hthrough, hquiet (h.through hserver hthrough)]
    rfl
  have hearly (hclient : client.phase = .login) (hnot : response ∉ gs ++ t.sends) :
      rawC = [] ∧ t.server.authorized = false := by
    rw [List.mem_append, not_or] at hnot
    obtain ⟨hraw, -, hauth⟩ := h.early hclient hnot.1
    cases hadmits with
    | same hsame => exact ⟨hraw, hsame.trans (hauth hserver)⟩
    | entered _ _ hsends =>
      rw [hsends] at hnot
      exact absurd (List.mem_singleton_self _) hnot.2
  have hlast (hclient : client.phase = .login) (hmem : response ∈ gs ++ t.sends) :
      ∃ gs', gs ++ t.sends = gs' ++ [response] ∧ response ∉ gs' ∧
        t.server.authorized = true := by
    cases hadmits with
    | same hsame hsends =>
      obtain ⟨gs', hgs, hnot, hauth⟩ :=
        h.last hclient ((List.mem_append.mp hmem).resolve_right hsends)
      refine ⟨gs', ?_, hnot, hsame.trans (hauth hserver)⟩
      rw [hquiet (hauth hserver), List.append_nil]
      exact hgs
    | entered hbefore hafter hsends =>
      refine ⟨gs, by rw [hsends], fun hgs => ?_, hafter⟩
      obtain ⟨-, -, -, hauth⟩ := h.last hclient hgs
      rw [hauth hserver] at hbefore
      cases hbefore
  have hasked (p : Packet) (hp : p ∈ ps') : Asked p := h.asked p (hps p hp)
  cases hleaves : t.leaves with
  | false =>
    refine ⟨hasked, fun _ => hcount, fun _ => hstay hleaves, fun _ => houtstanding, ?_, ?_, hread,
      ?_⟩
    · intro hclient hnot
      obtain ⟨hraw, hauth⟩ := hearly hclient hnot
      exact ⟨hraw, fun hphase => absurd (ht.symm.trans hphase) (by decide), fun _ => hauth⟩
    · intro hclient hmem
      obtain ⟨gs', hgs, hnot, hauth⟩ := hlast hclient hmem
      exact ⟨gs', hgs, hnot, fun _ => hauth⟩
    · intro _ hthrough
      have hauth := h.through hserver hthrough
      cases hadmits with
      | same hsame => exact hsame.trans hauth
      | entered hbefore => exact absurd (hauth.symm.trans hbefore) (by decide)
  | true =>
    have hlogin : ({ t.server with tcp } : Server Key).leave.phase ≠ .login := by
      intro hphase
      unfold Server.leave at hphase
      split at hphase
      · cases hphase
      · cases hphase
    have hforwarding (hphase : ({ t.server with tcp } : Server Key).leave.phase = .forwarding) :
        t.server.authorized = true := by
      refine hsettled hleaves ?_
      by_contra hsocket
      have hclosed : ({ t.server with tcp } : Server Key).leave = _ :=
        Server.leave_closed (Bool.eq_false_iff.mpr hsocket)
      rw [hclosed] at hphase
      cases hphase
    rw [if_pos rfl]
    refine ⟨hasked, fun hphase => absurd hphase hlogin, fun hphase => absurd hphase hlogin,
      fun hphase => absurd hphase hlogin, ?_, ?_, hread, fun hphase => absurd hphase hlogin⟩
    · intro hclient hnot
      obtain ⟨hraw, hauth⟩ := hearly hclient hnot
      refine ⟨hraw, fun hphase => ?_, fun hphase => absurd hphase hlogin⟩
      rw [hforwarding hphase] at hauth
      cases hauth
    · intro hclient hmem
      obtain ⟨gs', hgs, hnot, -⟩ := hlast hclient hmem
      exact ⟨gs', hgs, hnot, fun hphase => absurd hphase hlogin⟩

/-- What the two ends keep beside this does not matter. -/
theorem of_client (h : Progress client server ps gs rawS rawC) {client' : Client Key}
    (hphase : client'.phase = client.phase) (hsent : client'.sent = client.sent) :
    Progress client' server ps gs rawS rawC := by
  obtain ⟨tcp, phase, portForward, buffer, sent⟩ := client'
  dsimp only at hphase hsent
  subst hphase hsent
  exact ⟨h.asked, h.count, h.waits, h.outstanding, h.early, h.last, h.read, h.through⟩

theorem of_tcp (h : Progress client server ps gs rawS rawC) (tcp : Tcp Key) :
    Progress client { server with tcp } ps gs rawS rawC :=
  ⟨h.asked, h.count, h.waits, h.outstanding, h.early, h.last, h.read, h.through⟩

/-- The client sends a message. -/
theorem ask (h : Progress client server ps gs rawS rawC) {p : Packet} (hp : Asked p)
    {client' : Client Key} (hphase : client'.phase = client.phase)
    (hsent : client'.sent = client.sent + 1) :
    Progress client' server (ps ++ [p]) gs rawS rawC := by
  obtain ⟨tcp, phase, portForward, buffer, sent⟩ := client'
  dsimp only at hphase hsent
  subst hphase hsent
  refine ⟨?_, ?_, h.waits, ?_, h.early, h.last, h.read, h.through⟩
  · intro q hq
    rcases List.mem_append.mp hq with hq | hq
    · exact h.asked q hq
    · exact List.mem_singleton.mp hq ▸ hp
  · intro hserver
    have hcount := h.count hserver
    rw [List.length_append, List.length_singleton]
    dsimp only
    omega
  · intro hserver hwaits
    exact (h.outstanding hserver hwaits).imp_right (List.mem_append_left _)

/-- The client reads a message other than the response; a `TestDelay` it has answered. -/
theorem pop {p : Packet} (h : Progress client server ps (p :: gs) rawS rawC) (hne : p ≠ response)
    (hanswered : p = .testDelay → .testDelay ∈ ps) : Progress client server ps gs rawS rawC := by
  refine ⟨h.asked, h.count, h.waits, ?_, ?_, ?_, ?_, h.through⟩
  · intro hserver hwaits
    rcases h.outstanding hserver hwaits with hgs | hps
    · rcases List.mem_cons.mp hgs with heq | hgs
      · exact .inr (hanswered heq.symm)
      · exact .inl hgs
    · exact .inr hps
  · intro hclient hnot
    refine h.early hclient fun hmem => ?_
    rcases List.mem_cons.mp hmem with heq | hmem
    · exact hne heq.symm
    · exact hnot hmem
  · intro hclient hmem
    obtain ⟨gs', hgs, hnot, hauth⟩ := h.last hclient (List.mem_cons_of_mem p hmem)
    cases gs' with
    | nil => exact absurd (List.cons.inj hgs).1 hne
    | cons q gs' =>
      obtain ⟨rfl, rfl⟩ := List.cons.inj hgs
      exact ⟨gs', rfl, fun hmem' => hnot (List.mem_cons_of_mem _ hmem'), hauth⟩
  · intro hthrough
    exact absurd (h.read hthrough) (List.cons_ne_nil _ _)

/-- The response is the last message of the server, and the client goes raw. -/
theorem forward (h : Progress client server ps (response :: gs) rawS rawC)
    (hclient : client.phase = .login) :
    gs = [] ∧ ∀ (client' : Client Key) (rawS' : Bytes), client'.phase = .forwarding →
      client'.sent = client.sent → Progress client' server ps [] rawS' rawC := by
  obtain ⟨gs', hgs, hnot, hauth⟩ := h.last hclient List.mem_cons_self
  cases gs' with
  | cons q gs' =>
    obtain ⟨rfl, -⟩ := List.cons.inj hgs
    exact absurd List.mem_cons_self hnot
  | nil =>
    obtain ⟨-, rfl⟩ := List.cons.inj hgs
    refine ⟨rfl, fun client' rawS' hphase hsent => ?_⟩
    have hlogin {q : Prop} (hlogin : client'.phase = .login) : q :=
      absurd (hphase.symm.trans hlogin) (by decide)
    refine ⟨h.asked, ?_, h.waits, ?_, hlogin, hlogin, fun _ => rfl, fun hserver _ => hauth hserver⟩
    · rw [hsent]
      exact h.count
    · intro hserver hwaits
      rcases h.outstanding hserver hwaits with hmem | hps
      · cases List.mem_singleton.mp hmem
      · exact .inr hps

theorem clientEnd (h : Progress client server ps gs rawS rawC) :
    Progress { client with phase := .ended } server ps gs rawS rawC := by
  have hthrough (ht : Through { client with phase := .ended } rawS) : Through client rawS := by
    rcases ht with hphase | hne
    · cases hphase
    · exact .inr hne
  refine ⟨h.asked, h.count, h.waits, h.outstanding, ?_, ?_, fun ht => h.read (hthrough ht),
    fun hserver ht => h.through hserver (hthrough ht)⟩
  · intro hphase
    cases hphase
  · intro hphase
    cases hphase

theorem serverEnd (h : Progress client server ps gs rawS rawC) :
    Progress client { server with phase := .ended } ps gs rawS rawC := by
  have hlogin {q : Prop} (hphase : ({ server with phase := .ended } : Server Key).phase = .login) :
      q := by cases hphase
  refine ⟨h.asked, hlogin, hlogin, hlogin, ?_, ?_, h.read, hlogin⟩
  · intro hclient hnot
    refine ⟨(h.early hclient hnot).1, fun hphase => ?_, hlogin⟩
    cases hphase
  · intro hclient hmem
    obtain ⟨gs', hgs, hnot, -⟩ := h.last hclient hmem
    exact ⟨gs', hgs, hnot, hlogin⟩

/-- Raw bytes of the client that follow others, or are read. -/
theorem of_rawS (h : Progress client server ps gs rawS rawC) {rawS' : Bytes}
    (hthrough : Through client rawS' → Through client rawS) :
    Progress client server ps gs rawS' rawC :=
  ⟨h.asked, h.count, h.waits, h.outstanding, h.early, h.last, fun ht => h.read (hthrough ht),
    fun hserver ht => h.through hserver (hthrough ht)⟩

/-- Raw bytes of the server, where it is raw or the client is. -/
theorem of_rawC (h : Progress client server ps gs rawS rawC) {rawC' : Bytes}
    (hraw : client.phase = .login → server.phase ≠ .forwarding → rawC' = rawC) :
    Progress client server ps gs rawS rawC' := by
  refine ⟨h.asked, h.count, h.waits, h.outstanding, ?_, h.last, h.read, h.through⟩
  intro hclient hnot
  obtain ⟨hnil, hphase, hauth⟩ := h.early hclient hnot
  exact ⟨(hraw hclient hphase).trans hnil, hphase, hauth⟩

end Progress

/-! ## The turns of the server -/

theorem replies_self (server : Server Key) : server.replies server.host = [] := by
  rw [Server.replies, List.drop_length]
  rfl

section Turns

variable {t : Turn Key} (hconnected : t.server.authorized = true → t.server.socket = true)

include hconnected in
/-- A turn that answers a connection that is not authorized. -/
theorem Admits.of_answered (hauth : server.authorized = false)
    (hsends : t.sends = server.replies t.server.host) (h : server.host.Answered t.server.host) :
    Admits server.authorized t := by
  cases h with
  | refused hrefused errs hsent =>
    refine .same (hrefused.trans hauth.symm) fun hmem => ?_
    rw [hsends, Server.replies, hsent, List.drop_left, List.map_map] at hmem
    obtain ⟨e, -, he⟩ := List.mem_map.mp hmem
    cases he
  | entered hentered hsent =>
    refine .entered hauth hentered ?_
    rw [hsends, Server.replies, hsent (hconnected hentered), List.drop_left]
    rfl

/-- A turn of a connection that is authorized already, or that no login is about. -/
theorem Admits.of_quiet (hauth : t.server.authorized = server.authorized) (hsends : t.sends = []) :
    Admits server.authorized t := by
  refine .same hauth fun hmem => ?_
  rw [hsends] at hmem
  cases hmem

variable (server) (out : Host.Outside)

theorem admits_testDelay : Admits server.authorized (server.onPacket out .testDelay) :=
  .of_quiet rfl (replies_self server)

theorem admits_onMessage {m : Host.Message} (hasked : Asked (.message m))
    (ht : server.onPacket out (.message m) = t) (hquiet : server.authorized = true → t.sends = [])
    (hconnected : t.server.authorized = true → t.server.socket = true) :
    Admits server.authorized t := by
  subst ht
  cases hauth : server.authorized with
  | true =>
    have hauth' : (server.onPacket out (.message m)).server.authorized = true :=
      Host.State.authorized_onMessage out m hauth
    rw [← hauth]
    exact .of_quiet (hauth'.trans hauth.symm) (hquiet hauth)
  | false =>
    rw [← hauth]
    refine .of_answered hconnected hauth rfl ?_
    cases hasked with
    | login lr => exact Host.State.answered_onLoginRequest out hauth lr
    | code code => exact Host.State.answered_onAuth2fa out hauth code

theorem admits_onAuthorize (ht : server.onAuthorize out = t)
    (hquiet : server.authorized = true → t.sends = [])
    (hconnected : t.server.authorized = true → t.server.socket = true) :
    Admits server.authorized t := by
  subst ht
  cases hauth : server.authorized with
  | true =>
    have hauth' : (server.host.modify ({ · with require2fa := none })).conn.authorized = true :=
      hauth
    rw [← hauth]
    refine .of_quiet ?_ (hquiet hauth)
    rw [hauth, Server.authorized, Server.onAuthorize, Host.State.sendLogonResponse, if_pos hauth']
    exact hauth'
  | false =>
    have hauth' : (server.host.modify ({ · with require2fa := none })).conn.authorized = false :=
      hauth
    rw [← hauth]
    refine .of_answered hconnected hauth rfl ?_
    exact (Host.State.answered_sendLogonResponse out hauth').of_eq rfl

/-- A message after which the loop goes on leaves an authorized connection waiting. -/
theorem stays_onPacket (p : Packet) (ht : server.onPacket out p = t)
    (hconnected : t.server.authorized = true → t.server.socket = true) (hleaves : t.leaves = false)
    (hauth : t.server.authorized = true) : t.server.lastTestDelay = true := by
  have hgoes : (t.server.socket && t.server.authorized && !t.server.lastTestDelay) = false := by
    subst ht
    exact (Bool.or_eq_false_iff.mp hleaves).2
  rw [hconnected hauth, hauth, Bool.and_self, Bool.true_and] at hgoes
  simpa only [Bool.not_eq_eq_eq_not, Bool.not_false] using hgoes

end Turns

end HopToDesk.Forward
