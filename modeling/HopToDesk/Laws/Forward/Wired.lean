import HopToDesk.Forward.Tunnel
import HopToDesk.Laws.Wire.FramedStream

/-!
# The bytes of a tunnel

What is between the two ends: in each direction messages not yet read, and behind them raw bytes, if
the writer has gone raw (`Wired`). Each step of an end is one rule about it. A message goes behind
the others, a poll takes the first or waits, and an end that goes raw has read all the messages.
-/

set_option autoImplicit false

namespace HopToDesk.Forward

open Wire

variable {Key : Type} (protocol : Protocol Key) (key : Option Key)

/-! ## Polls -/

section Polls

variable {protocol} {s : Tunnel Key} {tcp : Tcp Key} {bytes : Bytes} {p : Packet}

namespace Tunnel

/-- A poll that waits. -/
theorem serverNext_waits (out : Host.Outside)
    (hnext : s.server.tcp.next protocol.box = (tcp, none)) (hphase : s.server.phase ≠ .ended) :
    s.serverNext protocol out = s.onServer ({ · with tcp }) := by
  obtain ⟨client, ⟨tcp', phase, host, lastTestDelay, read⟩, _⟩ := s
  unfold serverNext
  rw [hnext]
  cases phase with
  | login => rfl
  | forwarding => rfl
  | ended => exact absurd rfl hphase

theorem serverNext_message (out : Host.Outside) (hphase : s.server.phase = .login)
    (hnext : s.server.tcp.next protocol.box = (tcp, some (.ok bytes)))
    (hparse : protocol.parse bytes = some p) :
    s.serverNext protocol out = (s.onServer ({ · with tcp })).endTurn protocol
      ({ s.server with tcp }.onPacket out p) := by
  obtain ⟨client, ⟨tcp', phase, host, lastTestDelay, read⟩, _⟩ := s
  cases hphase
  unfold serverNext
  rw [hnext]
  dsimp only
  rw [hparse]
  rfl

theorem serverNext_raw (out : Host.Outside) (hphase : s.server.phase = .forwarding)
    (hnext : s.server.tcp.next protocol.box = (tcp, some (.ok bytes))) :
    s.serverNext protocol out =
      { s.onServer ({ · with tcp }) with toTarget := s.toTarget ++ bytes } := by
  obtain ⟨client, ⟨tcp', phase, host, lastTestDelay, read⟩, _⟩ := s
  cases hphase
  unfold serverNext
  rw [hnext]
  rfl

theorem clientNext_waits (lr : Host.LoginRequest)
    (hnext : s.client.tcp.next protocol.box = (tcp, none)) (hphase : s.client.phase ≠ .ended) :
    s.clientNext protocol lr = s.onClient ({ · with tcp }) := by
  obtain ⟨⟨tcp', phase, portForward, buffer, sent⟩, server, _⟩ := s
  unfold clientNext
  rw [hnext]
  cases phase with
  | login => rfl
  | forwarding => rfl
  | ended => exact absurd rfl hphase

theorem clientNext_message (lr : Host.LoginRequest) (hphase : s.client.phase = .login)
    (hnext : s.client.tcp.next protocol.box = (tcp, some (.ok bytes)))
    (hparse : protocol.parse bytes = some p) :
    s.clientNext protocol lr = (s.onClient ({ · with tcp })).clientOn protocol lr p := by
  obtain ⟨⟨tcp', phase, portForward, buffer, sent⟩, server, _⟩ := s
  cases hphase
  unfold clientNext
  rw [hnext]
  dsimp only
  rw [hparse]

theorem clientNext_raw (lr : Host.LoginRequest) (hphase : s.client.phase = .forwarding)
    (hnext : s.client.tcp.next protocol.box = (tcp, some (.ok bytes))) :
    s.clientNext protocol lr =
      { s.onClient ({ · with tcp }) with toApp := s.toApp ++ bytes } := by
  obtain ⟨⟨tcp', phase, portForward, buffer, sent⟩, server, _⟩ := s
  cases hphase
  unfold clientNext
  rw [hnext]
  rfl

end Tunnel

end Polls

/-! ## The bytes between the ends -/

variable {protocol key} {s : Tunnel Key} {ps gs : List Packet} {rawS rawC : Bytes}

/-- The messages on the way to the server and to the client, and the raw bytes behind each. -/
structure Wired (protocol : Protocol Key) (key : Option Key) (s : Tunnel Key) (ps gs : List Packet)
    (rawS rawC : Bytes) : Prop where
  toServer : s.server.phase = .login →
    Carries protocol.box key s.server.tcp s.toServer (ps.map protocol.write) rawS
  toClient : s.client.phase = .login →
    Carries protocol.box key s.client.tcp s.toClient (gs.map protocol.write) rawC
  clientInStep : s.client.phase = .login → s.server.phase = .login →
    InStep key s.client.tcp s.server.tcp (ps.map protocol.write)
  serverInStep : s.client.phase = .login → s.server.phase = .login →
    InStep key s.server.tcp s.client.tcp (gs.map protocol.write)
  serverRaw : s.server.phase = .forwarding →
    Raw s.server.tcp ∧ s.server.tcp.buf ++ s.toServer = rawS
  clientRaw : s.client.phase = .forwarding →
    Raw s.client.tcp ∧ s.client.tcp.buf ++ s.toClient = rawC ∧ s.client.buffer = []
  framed : s.client.phase = .login → rawS = []
  app : s.toTarget ++ (rawS ++ s.client.buffer) = s.fromApp
  target : s.toApp ++ rawC = s.fromTarget
  silent : s.server.phase = .login → s.fromTarget = []

theorem Server.leave_connected {server : Server Key} (h : server.socket = true) :
    server.leave = { server with tcp := server.tcp.setRaw, phase := .forwarding } := if_pos h

theorem Server.leave_closed {server : Server Key} (h : server.socket = false) :
    server.leave = { server with phase := .ended } := by
  rw [Server.leave, h]
  rfl

namespace Wired

theorem rawC_nil (h : Wired protocol key s ps gs rawS rawC) (hlogin : s.server.phase = .login) :
    rawC = [] := by
  have htarget := h.target
  rw [h.silent hlogin, List.append_eq_nil_iff] at htarget
  exact htarget.2

/-- A message of the client is behind the others. -/
theorem clientSend (h : Wired protocol key s ps gs rawS rawC) (hclient : s.client.phase = .login)
    (hserver : s.server.phase ≠ .forwarding) {p : Packet}
    (hfits : Fits protocol.box key (protocol.write p)) :
    Wired protocol key (s.clientSend protocol p) (ps ++ [p]) gs rawS rawC := by
  have hsend (hlogin : s.server.phase = .login) := by
    have hcarries := h.toServer hlogin
    rw [h.framed hclient] at hcarries
    exact (h.clientInStep hclient hlogin).send hcarries hfits
  refine ⟨?_, ?_, ?_, ?_, fun hphase => absurd hphase hserver, ?_, h.framed, h.app, h.target,
    h.silent⟩
  · intro hlogin
    rw [h.framed hclient, List.map_append]
    exact (hsend hlogin).2
  · intro hlogin
    exact (h.toClient hlogin).of_sendRaw _
  · intro _ hlogin
    rw [List.map_append]
    exact (hsend hlogin).1
  · intro _ hlogin
    exact (h.serverInStep hclient hlogin).of_sendRaw protocol.box _
  · intro hphase
    exact absurd (hclient.symm.trans hphase) (by decide)

/-- A message of the server is behind the others. -/
theorem serverSend (h : Wired protocol key s ps gs rawS rawC) (hserver : s.server.phase = .login)
    (hclient : s.client.phase ≠ .forwarding) {p : Packet}
    (hfits : Fits protocol.box key (protocol.write p)) :
    Wired protocol key (s.serverSend protocol p) ps (gs ++ [p]) rawS rawC := by
  have hsend (hlogin : s.client.phase = .login) := by
    have hcarries := h.toClient hlogin
    rw [h.rawC_nil hserver] at hcarries
    exact (h.serverInStep hlogin hserver).send hcarries hfits
  refine ⟨?_, ?_, ?_, ?_, ?_, fun hphase => absurd hphase hclient, h.framed, h.app, h.target,
    h.silent⟩
  · intro hlogin
    exact (h.toServer hlogin).of_sendRaw _
  · intro hlogin
    rw [h.rawC_nil hserver, List.map_append]
    exact (hsend hlogin).2
  · intro hlogin _
    exact (h.clientInStep hlogin hserver).of_sendRaw protocol.box _
  · intro hlogin _
    rw [List.map_append]
    exact (hsend hlogin).1
  · intro hphase
    exact absurd (hserver.symm.trans hphase) (by decide)

/-- A poll waits, or gives the first of the messages that were written. -/
theorem next_written {r : Tcp Key} {net rest : Bytes} {ps : List Packet}
    (hcarries : Carries protocol.box key r net (ps.map protocol.write) rest)
    (hopens : Opens protocol.box key) (hmore : ps = [] → rest = []) :
    ∃ r', (r.next protocol.box = (r', none) ∧
        Carries protocol.box key r' net (ps.map protocol.write) rest ∧ r'.reads = r.reads ∧
        r'.writes = r.writes) ∨
      ∃ p ps', ps = p :: ps' ∧ Fits protocol.box key (protocol.write p) ∧
        r.next protocol.box = (r', some (.ok (protocol.write p))) ∧
        Carries protocol.box key r' net (ps'.map protocol.write) rest ∧
        r'.reads = forward 1 r.reads ∧ r'.writes = r.writes := by
  have hmore' : ps.map protocol.write ≠ [] ∨ rest = [] := by
    cases ps with
    | nil => exact .inr (hmore rfl)
    | cons p ps => exact .inl (List.cons_ne_nil _ _)
  obtain ⟨r', hwaits⟩ | ⟨m, ms, r', hmsgs, hnext, hcarries', hreads, hwrites⟩ :=
    hcarries.next hopens hmore'
  · exact ⟨r', .inl hwaits⟩
  · obtain ⟨p, ps', rfl, rfl, rfl⟩ := List.map_eq_cons_iff.mp hmsgs
    exact ⟨r', .inr ⟨p, ps', rfl, hcarries.fits _ List.mem_cons_self, hnext, hcarries', hreads,
      hwrites⟩⟩

/-- A poll of the server waits, or gives the first message. -/
theorem serverPoll (h : Wired protocol key s ps gs rawS rawC) (hopens : Opens protocol.box key)
    (hlogin : s.server.phase = .login) (hmore : ps = [] → rawS = []) :
    ∃ tcp, (s.server.tcp.next protocol.box = (tcp, none) ∧
        Wired protocol key (s.onServer ({ · with tcp })) ps gs rawS rawC) ∨
      ∃ p ps', ps = p :: ps' ∧ Fits protocol.box key (protocol.write p) ∧
        s.server.tcp.next protocol.box = (tcp, some (.ok (protocol.write p))) ∧
        Wired protocol key (s.onServer ({ · with tcp })) ps' gs rawS rawC := by
  have hphase : s.server.phase ≠ .forwarding := by
    rw [hlogin]
    decide
  have hraw {q : Prop} (hforwarding : s.server.phase = .forwarding) : q :=
    absurd hforwarding hphase
  obtain ⟨tcp, ⟨hnext, hcarries', hreads, hwrites⟩ | ⟨p, ps', rfl, hfits, hnext, hcarries', hreads,
    hwrites⟩⟩ := next_written (h.toServer hlogin) hopens hmore
  · refine ⟨tcp, .inl ⟨hnext, fun _ => hcarries', h.toClient, ?_, ?_, hraw, h.clientRaw, h.framed,
      h.app, h.target, h.silent⟩⟩
    · intro hclient _
      exact (h.clientInStep hclient hlogin).of_reads hreads
    · intro hclient _
      exact (h.serverInStep hclient hlogin).of_writes hwrites hcarries'.pending.raw
  · refine ⟨tcp, .inr ⟨p, ps', rfl, hfits, hnext, fun _ => hcarries', h.toClient, ?_, ?_, hraw,
      h.clientRaw, h.framed, h.app, h.target, h.silent⟩⟩
    · intro hclient _
      exact (h.clientInStep hclient hlogin).of_next hreads
    · intro hclient _
      exact (h.serverInStep hclient hlogin).of_writes hwrites hcarries'.pending.raw

/-- A poll of the client waits, or gives the first message. -/
theorem clientPoll (h : Wired protocol key s ps gs rawS rawC) (hopens : Opens protocol.box key)
    (hlogin : s.client.phase = .login) (hmore : gs = [] → rawC = []) :
    ∃ tcp, (s.client.tcp.next protocol.box = (tcp, none) ∧
        Wired protocol key (s.onClient ({ · with tcp })) ps gs rawS rawC) ∨
      ∃ p gs', gs = p :: gs' ∧ Fits protocol.box key (protocol.write p) ∧
        s.client.tcp.next protocol.box = (tcp, some (.ok (protocol.write p))) ∧
        Wired protocol key (s.onClient ({ · with tcp })) ps gs' rawS rawC := by
  have hphase : s.client.phase ≠ .forwarding := by
    rw [hlogin]
    decide
  have hraw {q : Prop} (hforwarding : s.client.phase = .forwarding) : q :=
    absurd hforwarding hphase
  obtain ⟨tcp, ⟨hnext, hcarries', hreads, hwrites⟩ | ⟨p, gs', rfl, hfits, hnext, hcarries', hreads,
    hwrites⟩⟩ := next_written (h.toClient hlogin) hopens hmore
  · refine ⟨tcp, .inl ⟨hnext, h.toServer, fun _ => hcarries', ?_, ?_, h.serverRaw, hraw, h.framed,
      h.app, h.target, h.silent⟩⟩
    · intro _ hserver
      exact (h.clientInStep hlogin hserver).of_writes hwrites hcarries'.pending.raw
    · intro _ hserver
      exact (h.serverInStep hlogin hserver).of_reads hreads
  · refine ⟨tcp, .inr ⟨p, gs', rfl, hfits, hnext, h.toServer, fun _ => hcarries', ?_, ?_,
      h.serverRaw, hraw, h.framed, h.app, h.target, h.silent⟩⟩
    · intro _ hserver
      exact (h.clientInStep hlogin hserver).of_writes hwrites hcarries'.pending.raw
    · intro _ hserver
      exact (h.serverInStep hlogin hserver).of_next hreads

/-- What the server keeps beside the stream does not matter here. -/
theorem of_server (h : Wired protocol key s ps gs rawS rawC) {server : Server Key}
    (htcp : server.tcp = s.server.tcp) (hphase : server.phase = s.server.phase) :
    Wired protocol key (s.onServer fun _ => server) ps gs rawS rawC := by
  obtain ⟨tcp, phase, host, lastTestDelay, read⟩ := server
  dsimp only at htcp hphase
  subst htcp hphase
  exact ⟨h.toServer, h.toClient, h.clientInStep, h.serverInStep, h.serverRaw, h.clientRaw, h.framed,
    h.app, h.target, h.silent⟩

theorem serverSends (h : Wired protocol key s ps gs rawS rawC) (hserver : s.server.phase = .login)
    (sends : List Packet) (hclient : sends ≠ [] → s.client.phase ≠ .forwarding)
    (hfits : ∀ p ∈ sends, Fits protocol.box key (protocol.write p)) :
    Wired protocol key (sends.foldl (·.serverSend protocol ·) s) ps (gs ++ sends) rawS rawC := by
  induction sends generalizing s gs with
  | nil =>
    rw [List.append_nil]
    exact h
  | cons p sends ih =>
    rw [List.forall_mem_cons] at hfits
    have hclient' := hclient (List.cons_ne_nil _ _)
    rw [List.append_cons]
    exact ih (h.serverSend hserver hclient' hfits.1) hserver (fun _ => hclient') hfits.2

theorem serverEnd (h : Wired protocol key s ps gs rawS rawC) :
    Wired protocol key s.serverEnd ps gs rawS rawC := by
  refine ⟨?_, h.toClient, ?_, ?_, ?_, h.clientRaw, h.framed, h.app, h.target, ?_⟩
  · intro hphase
    cases hphase
  · intro _ hphase
    cases hphase
  · intro _ hphase
    cases hphase
  · intro hphase
    cases hphase
  · intro hphase
    cases hphase

/-- The server leaves its loop with nothing unread. -/
theorem leave (h : Wired protocol key s ps gs rawS rawC) (hserver : s.server.phase = .login)
    (hsettled : s.server.socket = true → ps = []) :
    Wired protocol key (s.onServer (·.leave)) ps gs rawS rawC := by
  cases hsocket : s.server.socket with
  | false =>
    have hleave : s.onServer (·.leave) = s.serverEnd :=
      congrArg (fun server => { s with server }) (Server.leave_closed hsocket)
    rw [hleave]
    exact h.serverEnd
  | true =>
    have hleave : s.onServer (·.leave) =
        s.onServer fun server => { server with tcp := server.tcp.setRaw, phase := .forwarding } :=
      congrArg (fun server => { s with server }) (Server.leave_connected hsocket)
    have hcarries := h.toServer hserver
    rw [hsettled hsocket] at hcarries
    rw [hleave]
    refine ⟨?_, h.toClient, ?_, ?_, ?_, h.clientRaw, h.framed, h.app, h.target, ?_⟩
    · intro hphase
      cases hphase
    · intro _ hphase
      cases hphase
    · intro _ hphase
      cases hphase
    · exact fun _ => ⟨.of_setRaw hcarries.unpeeked, hcarries.eq_rest⟩
    · intro hphase
      cases hphase

/-- The login of the client is through: there was nothing behind the response. -/
theorem clientForward (h : Wired protocol key s ps [] rawS rawC)
    (hclient : s.client.phase = .login) :
    Wired protocol key s.clientForward ps [] s.client.buffer rawC := by
  have hcarries := h.toClient hclient
  have hraw : Raw s.client.tcp.setRaw := .of_setRaw hcarries.unpeeked
  have hrawS := h.framed hclient
  have hbytes : s.client.tcp.setRaw.sendBytes s.client.buffer = s.client.buffer :=
    hraw.sendBytes _
  unfold Tunnel.clientForward
  dsimp only
  rw [hbytes]
  refine ⟨?_, ?_, ?_, ?_, ?_, fun _ => ⟨hraw, hcarries.eq_rest, rfl⟩, ?_, ?_, h.target, h.silent⟩
  · intro hserver
    have hserver' := (h.toServer hserver).append_rest s.client.buffer
    rw [hrawS] at hserver'
    exact hserver'
  · intro hphase
    cases hphase
  · intro hphase
    cases hphase
  · intro hphase
    cases hphase
  · intro hserver
    obtain ⟨hraw', hrest⟩ := h.serverRaw hserver
    refine ⟨hraw', ?_⟩
    dsimp only
    rw [← List.append_assoc, hrest, hrawS]
    rfl
  · intro hphase
    cases hphase
  · have happ := h.app
    rw [hrawS] at happ
    rw [List.append_nil]
    exact happ

/-- An end that is gone reads and sends nothing more. -/
theorem clientEnd (h : Wired protocol key s ps gs rawS rawC) :
    Wired protocol key s.clientEnd ps gs rawS rawC := by
  refine ⟨h.toServer, ?_, ?_, ?_, h.serverRaw, ?_, ?_, h.app, h.target, h.silent⟩
  all_goals
    intro hphase
    cases hphase

/-- Bytes arrive. -/
theorem toServerArrives (h : Wired protocol key s ps gs rawS rawC) (n : Nat) :
    Wired protocol key (s.toServerArrives n) ps gs rawS rawC := by
  refine ⟨?_, h.toClient, ?_, ?_, ?_, h.clientRaw, h.framed, h.app, h.target, h.silent⟩
  · intro hserver
    exact (h.toServer hserver).receive n
  · intro hclient hserver
    exact (h.clientInStep hclient hserver).of_reads rfl
  · intro hclient hserver
    exact (h.serverInStep hclient hserver).of_writes rfl (h.serverInStep hclient hserver).framed
  · intro hserver
    obtain ⟨hraw, hrest⟩ := h.serverRaw hserver
    refine ⟨⟨hraw.raw, hraw.plain, hraw.unpeeked⟩, ?_⟩
    rw [← hrest, Tunnel.toServerArrives, Tcp.receive, List.append_assoc, List.take_append_drop]

theorem toClientArrives (h : Wired protocol key s ps gs rawS rawC) (n : Nat) :
    Wired protocol key (s.toClientArrives n) ps gs rawS rawC := by
  refine ⟨h.toServer, ?_, ?_, ?_, h.serverRaw, ?_, h.framed, h.app, h.target, h.silent⟩
  · intro hclient
    exact (h.toClient hclient).receive n
  · intro hclient hserver
    exact (h.clientInStep hclient hserver).of_writes rfl (h.clientInStep hclient hserver).framed
  · intro hclient hserver
    exact (h.serverInStep hclient hserver).of_reads rfl
  · intro hclient
    obtain ⟨hraw, hrest, hbuffer⟩ := h.clientRaw hclient
    refine ⟨⟨hraw.raw, hraw.plain, hraw.unpeeked⟩, ?_, hbuffer⟩
    rw [← hrest, Tunnel.toClientArrives, Tcp.receive, List.append_assoc, List.take_append_drop]

/-- What the application writes goes behind what it has written. -/
theorem appData (h : Wired protocol key s ps gs rawS rawC) (data : Bytes) :
    ∃ rawS', Wired protocol key (s.appData data) ps gs rawS' rawC ∧
      (s.client.phase ≠ .forwarding → rawS' = rawS) := by
  unfold Tunnel.appData
  cases hclient : s.client.phase with
  | login =>
    refine ⟨rawS, ⟨h.toServer, h.toClient, h.clientInStep, h.serverInStep, h.serverRaw, ?_,
      h.framed, ?_, h.target, h.silent⟩, fun _ => rfl⟩
    · intro hphase
      exact absurd (hclient.symm.trans hphase) (by decide)
    · rw [← h.app]
      simp only [List.append_assoc]
  | forwarding =>
    obtain ⟨hraw, hrest, hbuffer⟩ := h.clientRaw hclient
    refine ⟨rawS ++ data, ⟨?_, h.toClient, ?_, h.serverInStep, ?_, h.clientRaw, ?_, ?_, h.target,
      h.silent⟩, fun hphase => absurd rfl hphase⟩
    · intro hserver
      rw [hraw.sendBytes]
      exact (h.toServer hserver).append_rest data
    · intro hphase
      exact absurd (hclient.symm.trans hphase) (by decide)
    · intro hserver
      obtain ⟨hraw', hrest'⟩ := h.serverRaw hserver
      refine ⟨hraw', ?_⟩
      rw [hraw.sendBytes, ← hrest', List.append_assoc]
    · intro hphase
      exact absurd (hclient.symm.trans hphase) (by decide)
    · rw [← h.app, hbuffer]
      simp only [List.append_assoc, List.append_nil]
  | ended => exact ⟨rawS, h, fun _ => rfl⟩

/-- What the target writes goes behind what it has written. -/
theorem targetData (h : Wired protocol key s ps gs rawS rawC) (data : Bytes) :
    ∃ rawC', Wired protocol key (s.targetData data) ps gs rawS rawC' ∧
      (s.server.phase ≠ .forwarding → rawC' = rawC) := by
  unfold Tunnel.targetData
  cases hserver : s.server.phase with
  | forwarding =>
    obtain ⟨hraw, hrest⟩ := h.serverRaw hserver
    refine ⟨rawC ++ data, ⟨h.toServer, ?_, h.clientInStep, ?_, h.serverRaw, ?_, h.framed, h.app, ?_,
      ?_⟩, fun hphase => absurd rfl hphase⟩
    · intro hclient
      rw [hraw.sendBytes]
      exact (h.toClient hclient).append_rest data
    · intro _ hphase
      exact absurd (hserver.symm.trans hphase) (by decide)
    · intro hclient
      obtain ⟨hraw', hrest', hbuffer⟩ := h.clientRaw hclient
      refine ⟨hraw', ?_, hbuffer⟩
      rw [hraw.sendBytes, ← hrest', List.append_assoc]
    · rw [← h.target, List.append_assoc]
    · intro hphase
      exact absurd (hserver.symm.trans hphase) (by decide)
  | login => exact ⟨rawC, h, fun _ => rfl⟩
  | ended => exact ⟨rawC, h, fun _ => rfl⟩

/-- The server hands on what has arrived. -/
theorem serverForwards (h : Wired protocol key s ps gs rawS rawC)
    (hserver : s.server.phase = .forwarding) (out : Host.Outside) :
    ∃ tcp rawS', (s.serverNext protocol out).client = s.client ∧
      (s.serverNext protocol out).server = { s.server with tcp } ∧
      Wired protocol key (s.serverNext protocol out) ps gs rawS' rawC ∧
      (rawS' ≠ [] → rawS ≠ []) := by
  obtain ⟨hraw, hrest⟩ := h.serverRaw hserver
  have hphase {q : Prop} (hlogin : s.server.phase = .login) : q :=
    absurd (hserver.symm.trans hlogin) (by decide)
  obtain ⟨-, hnext⟩ | ⟨-, hnext⟩ := hraw.next protocol.box
  · rw [Tunnel.serverNext_waits out hnext (by rw [hserver]; decide)]
    exact ⟨_, rawS, rfl, rfl, h.of_server rfl rfl, id⟩
  · rw [Tunnel.serverNext_raw out hserver hnext]
    refine ⟨_, s.toServer, rfl, rfl, ⟨hphase, h.toClient, fun _ => hphase, fun _ => hphase, ?_,
      h.clientRaw, ?_, ?_, h.target, hphase⟩, ?_⟩
    · exact fun _ => ⟨⟨hraw.raw, hraw.plain, hraw.unpeeked⟩, rfl⟩
    · intro hclient
      have hnil := h.framed hclient
      rw [← hrest, List.append_eq_nil_iff] at hnil
      exact hnil.2
    · rw [Tunnel.onServer, ← h.app, ← hrest]
      simp only [List.append_assoc]
    · intro hne heq
      rw [← hrest, List.append_eq_nil_iff] at heq
      exact hne heq.2

/-- The client hands on what has arrived. -/
theorem clientForwards (h : Wired protocol key s ps gs rawS rawC)
    (hclient : s.client.phase = .forwarding) (lr : Host.LoginRequest) :
    ∃ tcp rawC', (s.clientNext protocol lr).server = s.server ∧
      (s.clientNext protocol lr).client = { s.client with tcp } ∧
      Wired protocol key (s.clientNext protocol lr) ps gs rawS rawC' := by
  obtain ⟨hraw, hrest, hbuffer⟩ := h.clientRaw hclient
  have hphase {q : Prop} (hlogin : s.client.phase = .login) : q :=
    absurd (hclient.symm.trans hlogin) (by decide)
  obtain ⟨-, hnext⟩ | ⟨-, hnext⟩ := hraw.next protocol.box
  · rw [Tunnel.clientNext_waits lr hnext (by rw [hclient]; decide)]
    exact ⟨_, rawC, rfl, rfl, h⟩
  · rw [Tunnel.clientNext_raw lr hclient hnext]
    refine ⟨_, s.toClient, rfl, rfl, ⟨h.toServer, hphase, hphase, hphase, h.serverRaw, ?_, hphase,
      h.app, ?_, h.silent⟩⟩
    · exact fun _ => ⟨⟨hraw.raw, hraw.plain, hraw.unpeeked⟩, rfl, hbuffer⟩
    · rw [Tunnel.onClient, ← h.target, ← hrest]
      simp only [List.append_assoc]

end Wired

end HopToDesk.Forward
