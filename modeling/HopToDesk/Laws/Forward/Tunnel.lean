import HopToDesk.Kit.System
import HopToDesk.Laws.Forward.Progress

/-!
# Port forwarding is transparent, when the switch is orderly

Either end goes raw on its own, with messages of the other perhaps still on the way. The server
waits for the answer of its last `TestDelay` before it does, since an answer that comes later would
go to the target; but only where a message of the stream ends its loop. A click on `Authorize` ends
it at once, and then the bytes of the answer are written to the target (`not_transparent`).

`Orderly` is what it takes besides: nothing of the client is unread when the server goes raw, the
client sends no message after that, and the server none after the response. Then what is written at
one end is what was read at the other, in order (`transparent_of_orderly`).

The invariant has two parts: what the bytes between the two ends are (`Wired`), and which messages
these can be (`Progress`).
-/

set_option autoImplicit false

namespace HopToDesk.Forward

open Kit Wire

variable {Key : Type} (protocol : Protocol Key) (key : Option Key)

/-! ## What is promised -/

namespace Tunnel

/-- The runs of a tunnel. What the server sends first fits into frames. -/
def system : System (Tunnel Key) Event where
  init s := ∃ portForward host, host.Fresh ∧
    (∀ p ∈ Server.opening host, Fits protocol.box key (protocol.write p)) ∧
    s = start protocol key portForward host
  step s e s' := s' = s.next protocol e

/-- What is written to the target is a beginning of what the application wrote, and the other way
round; and a stream that is read raw holds what is missing and nothing else. -/
structure Transparent (s : Tunnel Key) : Prop where
  toTarget : s.toTarget <+: s.fromApp
  toApp : s.toApp <+: s.fromTarget
  rawAtServer : s.server.phase = .forwarding →
    s.toTarget ++ (s.server.tcp.buf ++ s.toServer ++ s.client.buffer) = s.fromApp
  rawAtClient : s.client.phase = .forwarding →
    s.toApp ++ (s.client.tcp.buf ++ s.toClient) = s.fromTarget

/-- The message an event has the client send. -/
def clientSends (s : Tunnel Key) (e : Event) : Option Packet :=
  match s.client.phase, e with
  | .login, .clientNext lr => (s.client.poll protocol).bind (s.client.answer lr)
  | .login, .uiLogin lr => some (s.client.createLoginMsg lr)
  | .login, .uiMessage code => some (.message (.auth2fa code))
  | _, _ => none

/-- The turn of the server's loop that an event is. -/
def turn (s : Tunnel Key) (e : Event) : Option (Turn Key) :=
  match s.server.phase, e with
  | .login, .serverNext out =>
    (s.server.poll protocol).map
      ({ s.server with tcp := (s.server.tcp.next protocol.box).1 }.onPacket out)
  | .login, .authorize out => some (s.server.onAuthorize out)
  | .login, .testDelayTimer => some s.server.onTestDelayTimer
  | _, _ => none

/-- A turn after which nothing crosses the switch: all that the client has sent is read when the
loop is left for the forwarding one, and then the connection is authorized; it is authorized for its
target; and once it is, no message follows. -/
structure OrderlyTurn (s : Tunnel Key) (t : Turn Key) : Prop where
  fits : ∀ p ∈ t.sends, Fits protocol.box key (protocol.write p)
  quiet : s.server.authorized = true → t.sends = []
  connected : t.server.authorized = true → t.server.socket = true
  settled : t.leaves = true → t.server.socket = true →
    t.server.authorized = true ∧ s.client.sent = t.server.read

/-- The client sends no message while the server forwards, and the turns of the server are
orderly. -/
structure Orderly (s : Tunnel Key) (e : Event) : Prop where
  client : ∀ p ∈ s.clientSends protocol e,
    s.server.phase ≠ .forwarding ∧ Fits protocol.box key (protocol.write p)
  server : ∀ t ∈ s.turn protocol e, s.OrderlyTurn protocol key t

end Tunnel

variable {protocol key} {s : Tunnel Key} {ps gs : List Packet} {rawS rawC : Bytes}

theorem Wired.transparent (h : Wired protocol key s ps gs rawS rawC) : s.Transparent where
  toTarget := ⟨_, h.app⟩
  toApp := ⟨_, h.target⟩
  rawAtServer hphase := by
    rw [(h.serverRaw hphase).2]
    exact h.app
  rawAtClient hphase := by
    rw [(h.clientRaw hphase).2.1]
    exact h.target

/-! ## The steps -/

/-- What the two ends have of one another. -/
structure Inv (protocol : Protocol Key) (key : Option Key) (s : Tunnel Key) (ps gs : List Packet)
    (rawS rawC : Bytes) : Prop where
  wired : Wired protocol key s ps gs rawS rawC
  progress : Progress s.client s.server ps gs rawS rawC

theorem foldl_serverSend (protocol : Protocol Key) (sends : List Packet) (s : Tunnel Key) :
    ∃ tcp toClient, sends.foldl (·.serverSend protocol ·) s =
      { s with server := { s.server with tcp }, toClient } := by
  induction sends generalizing s with
  | nil => exact ⟨s.server.tcp, s.toClient, rfl⟩
  | cons p sends ih =>
    obtain ⟨tcp, toClient, hfold⟩ := ih (s.serverSend protocol p)
    exact ⟨tcp, toClient, hfold⟩

namespace Inv

variable {tcp : Tcp Key} {t : Turn Key} {ps' : List Packet}

/-- The end of a turn: what it sends is on the way, and the loop is left with nothing unread. -/
theorem endTurn (hprogress : Progress s.client s.server ps gs rawS rawC)
    (hserver : s.server.phase = .login)
    (hwired : Wired protocol key (s.onServer ({ · with tcp })) ps' gs rawS rawC)
    (htcp : t.server.tcp = tcp) (hphase : t.server.phase = .login) (hps : ∀ p ∈ ps', p ∈ ps)
    (hcount : s.client.sent = t.server.read + ps'.length)
    (horderly : s.OrderlyTurn protocol key t) (hadmits : Admits s.server.authorized t)
    (hstay : t.leaves = false → t.server.authorized = true → t.server.lastTestDelay = true)
    (houtstanding : t.server.lastTestDelay = true →
      .testDelay ∈ gs ++ t.sends ∨ .testDelay ∈ ps') :
    Inv protocol key ((s.onServer ({ · with tcp })).endTurn protocol t) ps' (gs ++ t.sends) rawS
      rawC := by
  have hclient (hne : t.sends ≠ []) : s.client.phase ≠ .forwarding := by
    intro hforwarding
    exact hne (horderly.quiet (hprogress.through hserver (.inl hforwarding)))
  have hturn : Wired protocol key (s.onServer fun _ => t.server) ps' gs rawS rawC :=
    hwired.of_server htcp (hphase.trans hserver.symm)
  have hsent := hturn.serverSends hphase t.sends hclient horderly.fits
  have hsettled (hleaves : t.leaves = true) (hsocket : t.server.socket = true) : ps' = [] := by
    have hread := (horderly.settled hleaves hsocket).2
    exact List.length_eq_zero_iff.mp (by omega)
  obtain ⟨tcp', toClient, hfold⟩ :=
    foldl_serverSend protocol t.sends (s.onServer fun _ => t.server)
  have hprogress' := hprogress.turn hserver hphase hps hcount hadmits horderly.quiet hstay
    houtstanding (fun hleaves hsocket => (horderly.settled hleaves hsocket).1) tcp'
  rw [hfold] at hsent
  have hend : (s.onServer ({ · with tcp })).endTurn protocol t =
      if t.leaves then ({ s with server := { t.server with tcp := tcp' }, toClient } :
        Tunnel Key).onServer (·.leave)
      else { s with server := { t.server with tcp := tcp' }, toClient } := by
    unfold Tunnel.endTurn
    dsimp only
    exact congrArg (fun s : Tunnel Key => if t.leaves then s.onServer (·.leave) else s) hfold
  rw [hend]
  cases hleaves : t.leaves with
  | false =>
    rw [hleaves] at hprogress'
    exact ⟨hsent, hprogress'⟩
  | true =>
    rw [hleaves] at hprogress'
    exact ⟨hsent.leave hphase (hsettled hleaves), hprogress'⟩

end Inv

variable (hopens : Opens protocol.box key)
  (hparse : ∀ p, Fits protocol.box key (protocol.write p) →
    protocol.parse (protocol.write p) = some p)

/-- Something is kept of the two ends. -/
def Kept (protocol : Protocol Key) (key : Option Key) (s : Tunnel Key) : Prop :=
  ∃ ps gs rawS rawC, Inv protocol key s ps gs rawS rawC

namespace Inv

theorem turn_serverNext {tcp : Tcp Key} {p : Packet} {out : Host.Outside}
    (hserver : s.server.phase = .login)
    (hnext : s.server.tcp.next protocol.box = (tcp, some (.ok (protocol.write p))))
    (hparse : protocol.parse (protocol.write p) = some p) :
    s.turn protocol (.serverNext out) = some ({ s.server with tcp }.onPacket out p) := by
  have hpoll : s.server.poll protocol = some p := by
    rw [Server.poll, hnext]
    exact hparse
  unfold Tunnel.turn
  rw [hserver]
  dsimp only
  rw [hpoll, hnext]
  rfl

variable (h : Inv protocol key s ps gs rawS rawC)
include h

include hopens hparse in
theorem serverNext {out : Host.Outside} (horderly : s.Orderly protocol key (.serverNext out)) :
    Kept protocol key (s.serverNext protocol out) := by
  cases hserver : s.server.phase with
  | ended =>
    have hsame : s.serverNext protocol out = s := by
      obtain ⟨client, ⟨tcp, phase, host, lastTestDelay, read⟩, _⟩ := s
      cases hserver
      rfl
    rw [hsame]
    exact ⟨ps, gs, rawS, rawC, h⟩
  | forwarding =>
    obtain ⟨tcp, rawS', hclient, hserver', hwired, hthrough⟩ :=
      h.wired.serverForwards hserver out
    refine ⟨ps, gs, rawS', rawC, hwired, ?_⟩
    rw [hclient, hserver']
    exact (h.progress.of_tcp tcp).of_rawS (.imp_right hthrough)
  | login =>
    have hmore (hnil : ps = []) : rawS = [] := by
      have hprogress := h.progress
      rw [hnil] at hprogress
      exact hprogress.rawS_nil hserver
    obtain ⟨tcp, ⟨hnext, hwired⟩ | ⟨p, ps', rfl, hfits, hnext, hwired⟩⟩ :=
      h.wired.serverPoll hopens hserver hmore
    · rw [Tunnel.serverNext_waits out hnext (by rw [hserver]; decide)]
      exact ⟨ps, gs, rawS, rawC, hwired, h.progress.of_tcp tcp⟩
    have hparse' := hparse p hfits
    rw [Tunnel.serverNext_message out hserver hnext hparse']
    have hturn := horderly.server _ (turn_serverNext hserver hnext hparse')
    let server : Server Key := { s.server with tcp }
    have hcount := h.progress.count hserver
    have hcount' : s.client.sent = s.server.read + 1 + ps'.length := by
      rw [hcount, List.length_cons]
      omega
    refine ⟨ps', _, rawS, rawC, endTurn h.progress hserver hwired rfl hserver
      (fun q => List.mem_cons_of_mem p) hcount' hturn ?_
      (stays_onPacket _ out p rfl hturn.connected) ?_⟩
    · cases h.progress.asked p List.mem_cons_self with
      | testDelay => exact admits_testDelay { s.server with tcp } out
      | login lr => exact admits_onMessage server out (.login lr) rfl hturn.quiet hturn.connected
      | code code => exact admits_onMessage server out (.code code) rfl hturn.quiet hturn.connected
    · intro hwaits
      have houtstanding (hne : p ≠ .testDelay) (hwaits : s.server.lastTestDelay = true) :
          .testDelay ∈ gs ∨ .testDelay ∈ ps' := by
        refine (h.progress.outstanding hserver hwaits).imp_right fun hmem => ?_
        exact (List.mem_cons.mp hmem).resolve_left hne.symm
      refine .imp_left (List.mem_append_left _) ?_
      cases h.progress.asked p List.mem_cons_self with
      | testDelay => cases hwaits
      | login lr => exact houtstanding (fun heq => by cases heq) hwaits
      | code code => exact houtstanding (fun heq => by cases heq) hwaits

omit h in
theorem clientSends_clientNext {tcp : Tcp Key} {p : Packet} (lr : Host.LoginRequest)
    (hclient : s.client.phase = .login)
    (hnext : s.client.tcp.next protocol.box = (tcp, some (.ok (protocol.write p))))
    (hparse : protocol.parse (protocol.write p) = some p) :
    s.clientSends protocol (.clientNext lr) = s.client.answer lr p := by
  have hpoll : s.client.poll protocol = some p := by
    rw [Client.poll, hnext]
    exact hparse
  unfold Tunnel.clientSends
  rw [hclient]
  dsimp only
  rw [hpoll]
  rfl

/-- The client sends a message. -/
theorem clientSend (hclient : s.client.phase = .login) {p : Packet} (hp : Asked p)
    (hmay : s.server.phase ≠ .forwarding ∧ Fits protocol.box key (protocol.write p)) :
    Inv protocol key (s.clientSend protocol p) (ps ++ [p]) gs rawS rawC :=
  ⟨h.wired.clientSend hclient hmay.1 hmay.2, h.progress.ask hp rfl rfl⟩

omit h in
/-- The client handles a message, which it has taken off the stream. -/
theorem clientOn {p : Packet} {lr : Host.LoginRequest}
    (hwired : Wired protocol key s ps gs rawS rawC) (hclient : s.client.phase = .login)
    (hpolled : Progress s.client s.server ps (p :: gs) rawS rawC)
    (hmay : ∀ q ∈ s.client.answer lr p,
      s.server.phase ≠ .forwarding ∧ Fits protocol.box key (protocol.write q)) :
    Kept protocol key (s.clientOn protocol lr p) := by
  have hanswered {q : Packet} (hq : Asked q) (hne : p ≠ response)
      (htest : p = .testDelay → q = .testDelay) (hmem : q ∈ s.client.answer lr p) :
      Kept protocol key (s.clientSend protocol q) := by
    obtain ⟨hphase, hfits⟩ := hmay q hmem
    have hasked : Progress (s.clientSend protocol q).client s.server (ps ++ [q]) (p :: gs) rawS
        rawC := hpolled.ask hq rfl rfl
    refine ⟨ps ++ [q], gs, rawS, rawC, hwired.clientSend hclient hphase hfits, ?_⟩
    refine hasked.pop hne fun heq => ?_
    rw [htest heq]
    exact List.mem_append_right _ List.mem_cons_self
  have hskipped (hne : p ≠ response) (htest : p ≠ .testDelay) :
      Progress s.client s.server ps gs rawS rawC :=
    hpolled.pop hne fun heq => absurd heq htest
  cases p with
  | hash => exact hanswered (.login _) (fun heq => by cases heq) (fun heq => by cases heq) rfl
  | testDelay => exact hanswered .testDelay (fun heq => by cases heq) (fun _ => rfl) rfl
  | message m =>
    have hrest := hskipped (fun heq => by cases heq) (fun heq => by cases heq)
    exact ⟨ps, gs, rawS, rawC, hwired, hrest⟩
  | reply r =>
    cases r with
    | loginResponse =>
      obtain ⟨rfl, hforward⟩ := hpolled.forward hclient
      have hraw : Progress s.clientForward.client s.server ps [] s.client.buffer rawC :=
        hforward _ _ rfl rfl
      exact ⟨ps, [], s.client.buffer, rawC, hwired.clientForward hclient, hraw⟩
    | loginError err =>
      have hrest := hskipped (fun heq => by cases heq) (fun heq => by cases heq)
      have herror : s.clientOn protocol lr (.reply (.loginError err)) =
          if handleLoginError err then s else s.clientEnd := rfl
      rw [herror]
      split
      · exact ⟨ps, gs, rawS, rawC, hwired, hrest⟩
      · exact ⟨ps, gs, rawS, rawC, hwired.clientEnd, hrest.clientEnd⟩
    | _ =>
      have hrest := hskipped (fun heq => by cases heq) (fun heq => by cases heq)
      exact ⟨ps, gs, rawS, rawC, hwired, hrest⟩

include hopens hparse in
theorem clientNext {lr : Host.LoginRequest}
    (horderly : s.Orderly protocol key (.clientNext lr)) :
    Kept protocol key (s.clientNext protocol lr) := by
  cases hclient : s.client.phase with
  | ended =>
    have hsame : s.clientNext protocol lr = s := by
      obtain ⟨⟨tcp, phase, portForward, buffer, sent⟩, server, _⟩ := s
      cases hclient
      rfl
    rw [hsame]
    exact ⟨ps, gs, rawS, rawC, h⟩
  | forwarding =>
    obtain ⟨tcp, rawC', hserver, hclient', hwired⟩ := h.wired.clientForwards hclient lr
    refine ⟨ps, gs, rawS, rawC', hwired, ?_⟩
    rw [hclient', hserver]
    refine (h.progress.of_rawC fun hlogin => ?_).of_client rfl rfl
    exact absurd (hclient.symm.trans hlogin) (by decide)
  | login =>
    have hmore (hnil : gs = []) : rawC = [] := by
      have hprogress := h.progress
      rw [hnil] at hprogress
      exact hprogress.rawC_nil hclient
    obtain ⟨tcp, ⟨hnext, hwired⟩ | ⟨p, gs', rfl, hfits, hnext, hwired⟩⟩ :=
      h.wired.clientPoll hopens hclient hmore
    · rw [Tunnel.clientNext_waits lr hnext (by rw [hclient]; decide)]
      exact ⟨ps, gs, rawS, rawC, hwired, h.progress.of_client rfl rfl⟩
    have hparse' := hparse p hfits
    have hsends := clientSends_clientNext lr hclient hnext hparse'
    have hmay := horderly.client
    rw [hsends] at hmay
    rw [Tunnel.clientNext_message lr hclient hnext hparse']
    have hpolled : Progress { s.client with tcp } s.server ps (p :: gs') rawS rawC :=
      h.progress.of_client rfl rfl
    exact Inv.clientOn hwired hclient hpolled hmay

theorem fromUi {p : Packet} (hp : Asked p)
    (hmay : s.client.phase = .login →
      s.server.phase ≠ .forwarding ∧ Fits protocol.box key (protocol.write p)) :
    Kept protocol key (s.fromUi protocol p) := by
  unfold Tunnel.fromUi
  cases hclient : s.client.phase with
  | login => exact ⟨ps ++ [p], gs, rawS, rawC, h.clientSend hclient hp (hmay hclient)⟩
  | forwarding => exact ⟨ps, gs, rawS, rawC, h⟩
  | ended => exact ⟨ps, gs, rawS, rawC, h⟩

theorem appData (data : Bytes) : Kept protocol key (s.appData data) := by
  obtain ⟨rawS', hwired, hsame⟩ := h.wired.appData data
  have hprogress : Progress s.client s.server ps gs rawS' rawC := by
    refine h.progress.of_rawS fun hthrough => ?_
    by_cases hclient : s.client.phase = .forwarding
    · exact .inl hclient
    · rwa [hsame hclient] at hthrough
  refine ⟨ps, gs, rawS', rawC, hwired, ?_⟩
  unfold Tunnel.appData
  cases hclient : s.client.phase with
  | login => exact hprogress.of_client rfl rfl
  | forwarding => exact hprogress
  | ended => exact hprogress

theorem targetData (data : Bytes) : Kept protocol key (s.targetData data) := by
  obtain ⟨rawC', hwired, hsame⟩ := h.wired.targetData data
  have hprogress : Progress s.client s.server ps gs rawS rawC' :=
    h.progress.of_rawC fun _ hserver => hsame hserver
  refine ⟨ps, gs, rawS, rawC', hwired, ?_⟩
  unfold Tunnel.targetData
  cases hserver : s.server.phase with
  | login => exact hprogress
  | forwarding => exact hprogress
  | ended => exact hprogress

theorem authorize {out : Host.Outside} (horderly : s.Orderly protocol key (.authorize out)) :
    Kept protocol key (s.serverTurn protocol (s.server.onAuthorize out)) := by
  unfold Tunnel.serverTurn
  cases hserver : s.server.phase with
  | forwarding => exact ⟨ps, gs, rawS, rawC, h⟩
  | ended => exact ⟨ps, gs, rawS, rawC, h⟩
  | login =>
    have hturn : s.OrderlyTurn protocol key (s.server.onAuthorize out) := by
      refine horderly.server _ ?_
      unfold Tunnel.turn
      rw [hserver]
      exact rfl
    refine ⟨ps, _, rawS, rawC, endTurn h.progress hserver h.wired rfl hserver (fun q => id)
      (h.progress.count hserver) hturn
      (admits_onAuthorize s.server out rfl hturn.quiet hturn.connected) ?_ ?_⟩
    · intro hleaves hauth
      exact absurd ((hturn.connected hauth).symm.trans hleaves) (by decide)
    · intro hwaits
      exact (h.progress.outstanding hserver hwaits).imp_left (List.mem_append_left _)

theorem testDelayTimer (horderly : s.Orderly protocol key .testDelayTimer) :
    Kept protocol key (s.serverTurn protocol s.server.onTestDelayTimer) := by
  unfold Tunnel.serverTurn
  cases hserver : s.server.phase with
  | forwarding => exact ⟨ps, gs, rawS, rawC, h⟩
  | ended => exact ⟨ps, gs, rawS, rawC, h⟩
  | login =>
    have hturn : s.OrderlyTurn protocol key s.server.onTestDelayTimer := by
      refine horderly.server _ ?_
      unfold Tunnel.turn
      rw [hserver]
      exact rfl
    have htimer : s.server.onTestDelayTimer =
        ⟨{ s.server with lastTestDelay := true }, [.testDelay], false⟩ ∨
          s.server.onTestDelayTimer = ⟨s.server, [], false⟩ := by
      unfold Server.onTestDelayTimer
      split
      · exact .inl rfl
      · exact .inr rfl
    generalize s.server.onTestDelayTimer = t at hturn htimer
    rcases htimer with rfl | rfl
    · refine ⟨ps, _, rawS, rawC, endTurn h.progress hserver h.wired rfl hserver (fun q => id)
        (h.progress.count hserver) hturn (.same rfl fun hmem => ?_) (fun _ _ => rfl) fun _ => ?_⟩
      · cases List.mem_singleton.mp hmem
      · exact .inl (List.mem_append_right _ List.mem_cons_self)
    · refine ⟨ps, _, rawS, rawC, endTurn h.progress hserver h.wired rfl hserver (fun q => id)
        (h.progress.count hserver) hturn (.of_quiet rfl rfl) (fun _ => h.progress.waits hserver) ?_⟩
      intro hwaits
      exact (h.progress.outstanding hserver hwaits).imp_left (List.mem_append_left _)

include hopens hparse in
/-- Every orderly step keeps it. -/
theorem step {e : Event} (horderly : s.Orderly protocol key e) :
    Kept protocol key (s.next protocol e) := by
  have hui {p : Packet} (hp : s.client.phase = .login → p ∈ s.clientSends protocol e)
      (hlogin : s.client.phase = .login) := horderly.client p (hp hlogin)
  cases e with
  | clientNext lr => exact h.clientNext hopens hparse horderly
  | uiLogin lr =>
    refine h.fromUi (.login _) (hui fun hlogin => ?_)
    unfold Tunnel.clientSends
    rw [hlogin]
    exact rfl
  | uiMessage code =>
    refine h.fromUi (.code code) (hui fun hlogin => ?_)
    unfold Tunnel.clientSends
    rw [hlogin]
    exact rfl
  | appData data => exact h.appData data
  | clientLost => exact ⟨ps, gs, rawS, rawC, h.wired.clientEnd, h.progress.clientEnd⟩
  | serverNext out => exact h.serverNext hopens hparse horderly
  | authorize out => exact h.authorize horderly
  | testDelayTimer => exact h.testDelayTimer horderly
  | targetData data => exact h.targetData data
  | serverLost => exact ⟨ps, gs, rawS, rawC, h.wired.serverEnd, h.progress.serverEnd⟩
  | toServerArrives n =>
    exact ⟨ps, gs, rawS, rawC, h.wired.toServerArrives n, h.progress.of_tcp _⟩
  | toClientArrives n =>
    exact ⟨ps, gs, rawS, rawC, h.wired.toClientArrives n, h.progress.of_client rfl rfl⟩

end Inv

/-- A connection that begins. -/
theorem kept_start {portForward : String × Int} {host : Host.State} (hfresh : host.Fresh)
    (hfits : ∀ p ∈ Server.opening host, Fits protocol.box key (protocol.write p)) :
    Kept protocol key (Tunnel.start protocol key portForward host) := by
  have hauth : host.conn.authorized = false := by
    obtain ⟨out, require2fa, hconn⟩ := hfresh.conn
    rw [hconn]
    rfl
  have hnot : response ∉ Server.opening host := by
    simp only [Server.opening, List.mem_cons, List.mem_append, not_or]
    refine ⟨(fun heq => by cases heq), ?_⟩
    refine ⟨⟨⟨⟨⟨⟨?_, ?_⟩, ?_⟩, ?_⟩, ?_⟩, ?_⟩, ?_⟩
    all_goals
      intro hmem
      split at hmem
      · cases List.mem_singleton.mp hmem
      · cases hmem
  have hwired : Wired protocol key (Tunnel.new key portForward host) [] [] [] [] := by
    refine ⟨fun _ => .new _ key, fun _ => .new _ key, fun _ _ => .new key, fun _ _ => .new key, ?_,
      ?_, fun _ => rfl, rfl, rfl, fun _ => rfl⟩
    · intro hphase
      cases hphase
    · intro hphase
      cases hphase
  have hsent := hwired.serverSends rfl (Server.opening host) (fun _ hphase => by cases hphase) hfits
  rw [List.nil_append] at hsent
  refine ⟨[], Server.opening host, [], [], hsent, ?_⟩
  obtain ⟨tcp, toClient, hfold⟩ := foldl_serverSend protocol (Server.opening host)
    (Tunnel.new key portForward host)
  rw [Tunnel.start, hfold]
  have hthrough {client : Client Key} (hphase : client.phase = .login) (ht : Through client []) :
      False := by
    rcases ht with hforwarding | hne
    · exact absurd (hphase.symm.trans hforwarding) (by decide)
    · exact hne rfl
  refine ⟨fun p hp => absurd hp List.not_mem_nil, fun _ => rfl, ?_, ?_, ?_, ?_,
    fun ht => (hthrough rfl ht).elim, fun _ ht => (hthrough rfl ht).elim⟩
  · intro _ h
    exact absurd (hauth.symm.trans h) (by decide)
  · intro _ h
    cases h
  · intro _ _
    refine ⟨rfl, fun hphase => ?_, fun _ => hauth⟩
    cases hphase
  · intro _ hmem
    exact absurd hmem hnot

include hopens hparse in
/-- **Port forwarding is transparent**, in every run whose steps are orderly. -/
theorem transparent_of_orderly {s : Tunnel Key}
    (h : ((Tunnel.system protocol key).restrict (Tunnel.Orderly protocol key)).Reachable s) :
    s.Transparent := by
  have hkept : Kept protocol key s := by
    refine h.invariant ?_ ?_
    · rintro s ⟨portForward, host, hfresh, hfits, rfl⟩
      exact kept_start hfresh hfits
    · rintro s e s' ⟨ps, gs, rawS, rawC, h⟩ ⟨horderly, rfl⟩
      exact h.step hopens hparse horderly
  obtain ⟨ps, gs, rawS, rawC, hinv⟩ := hkept
  exact hinv.wired.transparent

/-! ## A tunnel to run -/

namespace Demo

/-- The request for port 22, without a password. -/
def request : Host.LoginRequest :=
  { Host.LoginRequest.unset with union := some (.portForward "" 22) }

/-- Short codes for the messages of the runs below; any other is too long for a frame. -/
def write : Packet → Bytes
  | .hash => [0]
  | .testDelay => [1]
  | .reply .loginResponse => [2]
  | .message (.loginRequest lr) => if lr = request then [3] else List.replicate 0x40000000 0
  | _ => List.replicate 0x40000000 0

def parse : Bytes → Option Packet
  | [0] => some .hash
  | [1] => some .testDelay
  | [2] => some response
  | [3] => some (.message (.loginRequest request))
  | _ => none

def short : Protocol Bytes := ⟨SecretBox.transparent, write, parse⟩

def sessionKey : Option Bytes := some [9]

theorem opens : Opens short.box sessionKey := by
  intro n msg
  refine ⟨(SecretBox.transparent_openWith _ _ _ _).mpr rfl, ?_⟩
  show 1 < (getNonce n ++ [9] ++ msg).length
  rw [List.length_append, List.length_append, getNonce, List.length_append]
  have hbytes : (toLeBytes n).length = 8 := rfl
  omega

theorem fits {msg : Bytes} (h : msg.length ≤ 1) : Fits short.box sessionKey msg := by
  intro n
  show (getNonce n ++ [9] ++ msg).length ≤ 0x3FFFFFFF
  rw [List.length_append, List.length_append, getNonce, List.length_append, List.length_replicate]
  have hbytes : (toLeBytes n).length = 8 := rfl
  rw [hbytes, NONCEBYTES, List.length_singleton]
  omega

theorem parses {p : Packet} (h : Fits short.box sessionKey (short.write p)) :
    short.parse (short.write p) = some p := by
  have hshort : (short.write p).length < 0x40000000 := by
    have hlen : (getNonce 0 ++ [9] ++ short.write p).length ≤ 0x3FFFFFFF := h 0
    rw [List.length_append] at hlen
    omega
  have hlong {q : Prop} (hwrite : short.write p = List.replicate 0x40000000 0) : q := by
    rw [hwrite, List.length_replicate] at hshort
    omega
  cases p with
  | hash => rfl
  | testDelay => rfl
  | reply r =>
    cases r with
    | loginResponse => rfl
    | _ => exact hlong rfl
  | message m =>
    cases m with
    | loginRequest lr =>
      by_cases hlr : lr = request
      · subst hlr
        have hwrite : short.write (.message (.loginRequest request)) = [3] := by
          show (if request = request then [3] else List.replicate 0x40000000 0) = [3]
          rw [if_pos rfl]
        rw [hwrite]
        rfl
      · exact hlong (if_neg hlr)
    | _ => exact hlong rfl

/-- A host whose target can be reached. -/
def out : Host.Outside := { Host.Outside.plain with connects := fun _ => true }

def start : Tunnel Bytes := Tunnel.start short sessionKey ("", 22) (Host.State.plain none)

/-- The events, one after the other. -/
def run (es : List Event) : Tunnel Bytes := es.foldl (·.next short ·) start

/-- The client has asked for its target, and the host is connected to it. -/
def asked : List Event :=
  [.toClientArrives 64, .clientNext request, .toServerArrives 64, .serverNext out]

theorem start_init : (Tunnel.system short sessionKey).init start := by
  refine ⟨("", 22), Host.State.plain none, Host.State.fresh_plain none, fun p hp => ?_, rfl⟩
  cases List.mem_singleton.mp hp
  exact fits (by decide)

theorem reachable_run (es : List Event) : (Tunnel.system short sessionKey).Reachable (run es) := by
  have hnext {s s' : Tunnel Bytes} {e : Event} (h : some (s.next short e) = some s') :
      (Tunnel.system short sessionKey).step s e s' := (Option.some.inj h).symm
  exact ⟨_, System.Run.of_foldlM hnext (.start start_init) List.foldlM_pure⟩

/-- What makes a step orderly, where the messages are short. -/
def orderly (s : Tunnel Bytes) (e : Event) : Bool :=
  (s.clientSends short e).all (fun p =>
    decide (s.server.phase ≠ .forwarding) && decide ((short.write p).length ≤ 1)) &&
  (s.turn short e).all fun t =>
    t.sends.all (fun p => decide ((short.write p).length ≤ 1)) &&
      (!s.server.authorized || t.sends.isEmpty) && (!t.server.authorized || t.server.socket) &&
      (!(t.leaves && t.server.socket) ||
        t.server.authorized && decide (s.client.sent = t.server.read))

theorem orderly_spec {s : Tunnel Bytes} {e : Event} (h : orderly s e = true) :
    s.Orderly short sessionKey e := by
  rw [orderly, Bool.and_eq_true, Option.all_eq_true, Option.all_eq_true] at h
  obtain ⟨hclient, hserver⟩ := h
  constructor
  · intro p hp
    have hp' := hclient p hp
    simp only [Bool.and_eq_true, decide_eq_true_eq] at hp'
    exact ⟨hp'.1, fits hp'.2⟩
  · intro t ht
    have ht' := hserver t ht
    simp only [Bool.and_eq_true, Bool.or_eq_true, Bool.not_eq_true', List.all_eq_true,
      decide_eq_true_eq, List.isEmpty_iff] at ht'
    obtain ⟨⟨⟨hfits, hquiet⟩, hconnected⟩, hsettled⟩ := ht'
    refine ⟨fun p hp => fits (hfits p hp), fun hauth => ?_, fun hauth => ?_,
      fun hleaves hsocket => ?_⟩
    · exact hquiet.resolve_left fun hnot => by simp [hauth] at hnot
    · exact hconnected.resolve_left fun hnot => by simp [hauth] at hnot
    · exact hsettled.resolve_left fun hnot => by simp [hleaves, hsocket] at hnot

/-- The events are orderly, one after the other. -/
def follows : Tunnel Bytes → List Event → Bool
  | _, [] => true
  | s, e :: es => orderly s e && follows (s.next short e) es

theorem run_orderly {as es : List Event} {s : Tunnel Bytes}
    (h : ((Tunnel.system short sessionKey).restrict (Tunnel.Orderly short sessionKey)).Run as s)
    (hes : follows s es = true) :
    ((Tunnel.system short sessionKey).restrict (Tunnel.Orderly short sessionKey)).Reachable
      (es.foldl (·.next short ·) s) := by
  induction es generalizing as s with
  | nil => exact ⟨as, h⟩
  | cons e es ih =>
    obtain ⟨he, hes⟩ := Bool.and_eq_true_iff.mp hes
    exact ih (.snoc h ⟨orderly_spec he, rfl⟩) hes

/-- A `TestDelay` is not answered yet when the user clicks, and its answer goes to the target. -/
def injected : List Event :=
  asked ++ [.testDelayTimer, .authorize out, .toClientArrives 64, .clientNext request,
    .toServerArrives 64, .serverNext out]

example : (run injected).toTarget.length = 27 := by decide

/-- The user clicks with nothing on the way, and the two talk. -/
def approved : List Event :=
  asked ++ [.appData [5], .authorize out, .targetData [6, 7], .toClientArrives 64,
    .clientNext request, .clientNext request, .toServerArrives 64, .serverNext out]

example : (run approved).toTarget = [5] ∧ (run approved).toApp = [6, 7] := by decide

end Demo

theorem transparent_of_orderly_approved : (Demo.run Demo.approved).Transparent :=
  transparent_of_orderly Demo.opens (fun _ => Demo.parses)
    (Demo.run_orderly (.start Demo.start_init)
      (by decide : Demo.follows Demo.start Demo.approved = true))

/-- The answer to a `TestDelay` is written to the target. -/
theorem not_transparent : ∃ s, (Tunnel.system Demo.short Demo.sessionKey).Reachable s ∧
    ¬ s.toTarget <+: s.fromApp := by
  refine ⟨_, Demo.reachable_run Demo.injected, ?_⟩
  decide

end HopToDesk.Forward
