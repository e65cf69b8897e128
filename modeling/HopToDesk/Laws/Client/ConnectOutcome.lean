import HopToDesk.Laws.Client.Connect

/-!
# What the race for a connection returns

What is returned is true (`Told`): it is told from the events of the race and from what it sent. And
the relay attempt does not ask too often: for each list of servers it asks the peer at most five
times to connect, over another server each time, and there are two lists at most.
-/

set_option autoImplicit false

namespace HopToDesk.Client.Connect

open Kit HopToDesk.Wire

/-! ## What it returns -/

/-- Each address there was to try has refused. -/
def AllRefused (as : List Event) (peer : Peer) (publicIp : Option SocketAddr) : Prop :=
  ∀ addr ∈ peer.addrsToTry publicIp, ∃ err, .refused addr err ∈ as

/-- How the direct attempt came to be where it is. -/
inductive Direct.Since (as : List Event) (peer : Peer) : Direct → Prop
  | resolving : Since as peer .resolving
  | trying (publicIp : Option SocketAddr) (pending : List SocketAddr)
      (hresolved : .resolved publicIp ∈ as)
      (hpending : ∀ addr ∈ pending, addr ∈ peer.addrsToTry publicIp)
      (hrefused : ∀ addr ∈ peer.addrsToTry publicIp,
        addr ∈ pending ∨ ∃ err, .refused addr err ∈ as) :
      Since as peer (.trying pending)
  | connected (publicIp : Option SocketAddr) (addr : SocketAddr)
      (hresolved : .resolved publicIp ∈ as) (haddr : addr ∈ peer.addrsToTry publicIp)
      (hconnected : .connected addr ∈ as) : Since as peer (.connected addr)
  | failed (publicIp : Option SocketAddr) (err : String) (hresolved : .resolved publicIp ∈ as)
      (hrefused : AllRefused as peer publicIp) : Since as peer (.failed err)

/-- What the relay attempt has sent for the server it is at. -/
def Turn.Said (signals : List Signal) : Turn → Prop
  | .establishing _ _ server .connection | .establishing _ _ server .waiting =>
    ∃ before, signals = before ++ [.relayConnection server]
  | .establishing _ _ server .ready =>
    ∃ before, signals = before ++ [.relayConnection server, .relayReady server]
  | .establishing _ _ server .closing | .connected server =>
    ∃ before, signals = before ++ [.relayConnection server, .relayReady server, .close]
  | _ => True

/-- The server the relay attempt is at. -/
def Turn.server : Turn → Option String
  | .establishing _ _ server _ | .connected server => some server
  | _ => none

/-- What a race returns, told from its events and from what it sent. -/
inductive Told (as : List Event) (s : Race) : Except String Outcome → Prop
  | direct (publicIp : Option SocketAddr) (addr : SocketAddr) (hresolved : .resolved publicIp ∈ as)
      (haddr : addr ∈ s.peer.addrsToTry publicIp) (hconnected : .connected addr ∈ as) :
      Told as s (.ok ⟨.direct addr, none, true⟩)
  | relay (server : String) (before : List Signal) (hallocated : .allocated server ∈ as)
      (hsignals : s.signals =
        before ++ [.relayConnection server, .relayReady server, .close]) :
      Told as s (.ok ⟨.relay server, some server, false⟩)
  | directFailed (publicIp : Option SocketAddr) (err : String) (hresolved : .resolved publicIp ∈ as)
      (hrefused : AllRefused as s.peer publicIp) : Told as s (.error err)
  | relayFailed (err : String) (hd : s.direct = .resolving) (ht : s.turn = .failed err) :
      Told as s (.error err)
  | bothFailed (publicIp : Option SocketAddr) (err : String) (hresolved : .resolved publicIp ∈ as)
      (hrefused : AllRefused as s.peer publicIp) (ht : s.turn = .failed err) :
      Told as s (.error
        s!"Both connections failed. Direct: direct connection failed, Relay: {err}")

/-- What is known of a race that has not returned. -/
structure Known (as : List Event) (s : Race) : Prop where
  direct : s.direct.Since as s.peer
  said : s.turn.Said s.signals
  allocated : ∀ server, s.turn.server = some server → .allocated server ∈ as

theorem Direct.Since.mono {as : List Event} {peer : Peer} {d : Direct} (h : d.Since as peer)
    (e : Event) : d.Since (as ++ [e]) peer := by
  have hold {x : Event} (hx : x ∈ as) : x ∈ as ++ [e] := List.mem_append_left _ hx
  cases h with
  | resolving => exact .resolving
  | trying publicIp pending hresolved hpending hrefused =>
    refine .trying publicIp pending (hold hresolved) hpending ?_
    intro addr haddr
    obtain h | ⟨err, h⟩ := hrefused addr haddr
    · exact .inl h
    · exact .inr ⟨err, hold h⟩
  | connected publicIp addr hresolved haddr hconnected =>
    exact .connected publicIp addr (hold hresolved) haddr (hold hconnected)
  | failed publicIp err hresolved hrefused =>
    refine .failed publicIp err (hold hresolved) ?_
    intro addr haddr
    obtain ⟨err', h⟩ := hrefused addr haddr
    exact ⟨err', hold h⟩

theorem DirectStep.since {as : List Event} {s : Race} {e : Event} {d : Direct}
    (hstep : DirectStep s e d) (h : s.direct.Since as s.peer) : d.Since (as ++ [e]) s.peer := by
  have hnew : e ∈ as ++ [e] := List.mem_append_right _ List.mem_cons_self
  cases hstep with
  | resolved publicIp => exact .trying publicIp _ hnew (fun _ => id) fun _ => .inl
  | noAddress publicIp err hd haddrs =>
    refine .failed publicIp err hnew ?_
    rw [AllRefused, haddrs]
    intro addr haddr
    cases haddr
  | connected addr hd haddr =>
    rw [hd] at h
    cases h with
    | trying publicIp pending hresolved hpending hrefused =>
      exact .connected publicIp addr (List.mem_append_left _ hresolved) (hpending addr haddr) hnew
  | @refused pending addr err hd haddr =>
    rw [hd] at h
    cases h with
    | trying publicIp _ hresolved hpending hrefused =>
      refine .trying publicIp _ (List.mem_append_left _ hresolved)
        (fun a ha => hpending a (List.mem_of_mem_erase ha)) ?_
      intro a ha
      by_cases haddr' : a = addr
      · subst haddr'
        exact .inr ⟨err, hnew⟩
      · obtain h | ⟨err', h⟩ := hrefused a ha
        · exact .inl ((List.mem_erase_of_ne haddr').mpr h)
        · exact .inr ⟨err', List.mem_append_left _ h⟩
  | @failed pending addr err hd haddr hrest =>
    rw [hd] at h
    cases h with
    | trying publicIp _ hresolved hpending hrefused =>
      refine .failed publicIp err (List.mem_append_left _ hresolved) ?_
      intro a ha
      by_cases haddr' : a = addr
      · subst haddr'
        exact ⟨err, hnew⟩
      · obtain h | ⟨err', h⟩ := hrefused a ha
        · have hmem := (List.mem_erase_of_ne haddr').mpr h
          rw [hrest] at hmem
          cases hmem
        · exact ⟨err', List.mem_append_left _ h⟩

theorem Turn.nextAttempt_said (refreshed : Bool) (pass : Pass) (signals : List Signal) :
    (Turn.nextAttempt refreshed pass).Said signals ∧
      (Turn.nextAttempt refreshed pass).server = none := by
  unfold Turn.nextAttempt Turn.afterPass
  split
  · exact ⟨trivial, rfl⟩
  · split
    · exact ⟨trivial, rfl⟩
    · exact ⟨trivial, rfl⟩

theorem TurnStep.known {as : List Event} {s t : Race} {e : Event} (hstep : TurnStep s e t)
    (h : Known as s) : Known (as ++ [e]) t := by
  have hnew : e ∈ as ++ [e] := List.mem_append_right _ List.mem_cons_self
  have hdirect := h.direct.mono e
  have hnone {turn : Turn} {signals : List Signal} (cache : Option (List TurnConfig))
      (hsaid : turn.Said signals ∧ turn.server = none) : Known (as ++ [e])
        { s with turn := turn, signals := signals, cache := cache } := by
    refine ⟨hdirect, hsaid.1, ?_⟩
    intro server hserver
    cases hsaid.2.symm.trans hserver
  cases hstep with
  | fetched old answers ht =>
    apply hnone
    unfold Turn.beginPass
    split
    · exact ⟨trivial, rfl⟩
    · exact ⟨trivial, rfl⟩
    · exact Turn.nextAttempt_said _ _ _
  | allocated config ht hconfig =>
    refine ⟨hdirect, ⟨s.signals, rfl⟩, ?_⟩
    intro server hserver
    cases hserver
    exact hnew
  | unallocated config ht hconfig =>
    apply hnone
    unfold Turn.drop Turn.afterPass
    split
    · split
      · exact ⟨trivial, rfl⟩
      · exact ⟨trivial, rfl⟩
    · exact ⟨trivial, rfl⟩
  | @advanced refreshed pass server stage ht =>
    have hsaid := h.said
    have hserver : .allocated server ∈ as ++ [Event.advanced] :=
      List.mem_append_left _ (h.allocated server (by rw [ht]; rfl))
    rw [ht] at hsaid
    refine ⟨hdirect, ?_, ?_⟩
    · cases stage with
      | connection =>
        obtain ⟨before, hbefore⟩ := hsaid
        exact ⟨before, by simp only [Race.setTurn, Turn.advance, hbefore, List.append_nil]⟩
      | waiting =>
        obtain ⟨before, hbefore⟩ := hsaid
        refine ⟨before, ?_⟩
        simp only [Race.setTurn, Turn.advance, hbefore, List.append_assoc]
        rfl
      | ready =>
        obtain ⟨before, hbefore⟩ := hsaid
        refine ⟨before, ?_⟩
        simp only [Race.setTurn, Turn.advance, hbefore, List.append_assoc]
        rfl
      | closing =>
        obtain ⟨before, hbefore⟩ := hsaid
        exact ⟨before, by simp only [Race.setTurn, Turn.advance, hbefore, List.append_nil]⟩
    · intro server' hserver'
      cases stage <;> cases hserver' <;> exact hserver
  | excluded e err he ht => exact hnone _ (Turn.nextAttempt_said _ _ _)
  | refreshed ht => exact hnone _ ⟨trivial, rfl⟩
  | givenUp ht => exact hnone _ ⟨trivial, rfl⟩

/-- What `settle` returns is told from what is known. -/
theorem Known.settle {as : List Event} {s : Race} (h : Known as s)
    (hrelay : s.phase = .relayOnly → s.direct = .resolving) (hgoes : ∀ r, s.phase ≠ .returned r) :
    Known as s.settle ∧ ∀ r, s.settle.phase = .returned r → Told as s.settle r := by
  have hsettles := settles s
  generalize s.settle = u at hsettles
  have hdirect := h.direct
  have hsaid := h.said
  cases hsettles with
  | stays => exact ⟨h, fun r hr => absurd hr (hgoes r)⟩
  | directOnly addr hp hd =>
    rw [hd] at hdirect
    refine ⟨⟨h.direct, h.said, h.allocated⟩, ?_⟩
    intro r hr
    cases hr
    cases hdirect with
    | connected publicIp _ hresolved haddr hconnected =>
      exact .direct publicIp addr hresolved haddr hconnected
  | directOnlyFailed err hp hd =>
    rw [hd] at hdirect
    refine ⟨⟨h.direct, h.said, h.allocated⟩, ?_⟩
    intro r hr
    cases hr
    cases hdirect with
    | failed publicIp _ hresolved hrefused => exact .directFailed publicIp err hresolved hrefused
  | relay server hp ht =>
    rw [ht] at hsaid
    refine ⟨⟨h.direct, h.said, h.allocated⟩, ?_⟩
    intro r hr
    cases hr
    obtain ⟨before, hbefore⟩ := hsaid
    exact .relay server before (h.allocated server (by rw [ht]; rfl)) hbefore
  | relayOnlyFailed err hp ht =>
    refine ⟨⟨h.direct, h.said, h.allocated⟩, ?_⟩
    intro r hr
    cases hr
    exact .relayFailed err (hrelay hp) ht
  | handover addr => exact ⟨⟨h.direct, h.said, h.allocated⟩, fun r hr => by cases hr⟩
  | relayAfter err =>
    refine ⟨⟨h.direct, trivial, ?_⟩, fun r hr => by cases hr⟩
    intro server hserver
    cases hserver
  | bothFailed derr err hp hd ht =>
    rw [hd] at hdirect
    refine ⟨⟨h.direct, h.said, h.allocated⟩, ?_⟩
    intro r hr
    cases hr
    cases hdirect with
    | failed publicIp _ hresolved hrefused => exact .bothFailed publicIp err hresolved hrefused ht

theorem Known.next {as : List Event} {s s' : Race} {e : Event} (hfits : s.Fits) (h : Known as s)
    (hgoes : ∀ r, s.phase ≠ .returned r) (hs : s.next e = some s') :
    ((∀ r, s'.phase ≠ .returned r) → Known (as ++ [e]) s') ∧
      ∀ r, s'.phase = .returned r → Told (as ++ [e]) s' r := by
  have hallocated : ∀ server, s.turn.server = some server → .allocated server ∈ as ++ [e] :=
    fun server hserver => List.mem_append_left _ (h.allocated server hserver)
  cases Step.of_next hs with
  | delay hp =>
    refine ⟨fun _ => ⟨h.direct.mono _, trivial, ?_⟩, fun r hr => by cases hr⟩
    intro server hserver
    cases hserver
  | closed addr hp =>
    refine ⟨fun hnot => absurd rfl (hnot _), ?_⟩
    intro r hr
    cases hr
    have hdirect := h.direct.mono .closed
    cases hfits with
    | handover addr' hp' hd =>
      cases hp.symm.trans hp'
      rw [hd] at hdirect
      cases hdirect with
      | connected publicIp _ hresolved haddr hconnected =>
        exact .direct publicIp addr hresolved haddr hconnected
    | directOnly hp' => cases hp.symm.trans hp'
    | relayOnly hp' => cases hp.symm.trans hp'
    | early hp' => cases hp.symm.trans hp'
    | both hp' => cases hp.symm.trans hp'
    | returned r hp' => cases hp.symm.trans hp'
  | @direct e d hpolls hd =>
    have hknown : Known (as ++ [e]) { s with direct := d } :=
      ⟨hd.since h.direct, h.said, hallocated⟩
    have hsettle := hknown.settle (fun hp => ?_) hgoes
    · exact ⟨fun _ => hsettle.1, hsettle.2⟩
    · have hp' : s.phase = .relayOnly := hp
      simp only [Race.pollsDirect, hp', Bool.false_eq_true] at hpolls
  | @turn e t hpolls hstep =>
    obtain ⟨-, hdirect, hphase⟩ := hstep.rank_lt
    have hsettle := (hstep.known h).settle (fun hp => ?_) (fun r hr => hgoes r (hphase ▸ hr))
    · exact ⟨fun _ => hsettle.1, hsettle.2⟩
    · rw [hdirect]
      rw [hphase] at hp
      cases hfits with
      | relayOnly _ hd => exact hd
      | directOnly hp' => cases hp.symm.trans hp'
      | early hp' => cases hp.symm.trans hp'
      | both hp' => cases hp.symm.trans hp'
      | handover addr hp' => cases hp.symm.trans hp'
      | returned r hp' => cases hp.symm.trans hp'

theorem known_or_told {o : Start} {as : List Event} {s : Race} (h : o.system.Run as s) :
    ((∀ r, s.phase ≠ .returned r) → Known as s) ∧ ∀ r, s.phase = .returned r → Told as s r := by
  induction h with
  | start h =>
    obtain ⟨peer, rfl | ⟨rfl, -⟩ | ⟨rfl, -⟩⟩ := o.begin_cases h
    all_goals
      refine ⟨fun _ => ⟨.resolving, trivial, ?_⟩, fun r hr => by cases hr⟩
      intro server hserver
      cases hserver
  | @snoc as s e s' hrun hs ih =>
    have hgoes : ∀ r, s.phase ≠ .returned r := by
      intro r hp
      have hnone := next_of_returned hp e
      cases hnone.symm.trans hs
    exact (ih.1 hgoes).next (Start.fits hrun) hgoes hs

/-- **What the race returns is true**: the flag `direct` tells which attempt the stream is from, a
relayed connection comes of a handshake that went to its end, and an error says that each attempt
there was has failed. -/
theorem told_of_returned {o : Start} {as : List Event} {s : Race} (h : o.system.Run as s)
    {r : Except String Outcome} (hr : s.phase = .returned r) : Told as s r :=
  (known_or_told h).2 r hr

/-- A race that comes to a relayed connection, the peer having refused to be reached directly. -/
def Race.relayed : Race where
  peer := .plain
  phase := .returned (.ok ⟨.relay "192.0.2.1:3478", some "192.0.2.1:3478", false⟩)
  direct := .failed "refused"
  turn := .connected "192.0.2.1:3478"
  cache := some [.plain]
  signals := [.relayConnection "192.0.2.1:3478", .relayReady "192.0.2.1:3478", .close]

theorem Race.exists_run_relayed : ∃ as, Start.plain.system.Run as .relayed := by
  obtain ⟨tr, htr, -⟩ := Start.trace_plain
    [.resolved none, .refused Peer.plain.peerAddr "refused", .fetched false [],
      .allocated "192.0.2.1:3478", .advanced, .advanced, .advanced, .advanced] (s := .relayed) rfl
  exact htr.reachable

theorem told_relayed : ∃ as, Told as .relayed
    (.ok ⟨.relay "192.0.2.1:3478", some "192.0.2.1:3478", false⟩) := by
  obtain ⟨as, hrun⟩ := Race.exists_run_relayed
  exact ⟨as, told_of_returned hrun rfl⟩

/-! ## How often the peer is asked -/

/-- The servers the peer was asked to connect over. -/
def asked (signals : List Signal) : List String :=
  signals.filterMap fun
    | .relayConnection server => some server
    | _ => none

/-- The servers of one list that were asked over. -/
structure Batch (servers : List String) : Prop where
  nodup : servers.Nodup
  length : servers.length ≤ 5

theorem Batch.nil : Batch [] := ⟨List.nodup_nil, Nat.zero_le _⟩

/-- A pass before an attempt: each attempt before it took a server out. -/
structure Pass.Counts (pass : Pass) : Prop where
  nodup : pass.excluded.Nodup
  attempt : pass.attempt = pass.excluded.length
  le : pass.attempt ≤ pass.maxAttempts

theorem Pass.Counts.batch {pass : Pass} (h : pass.Counts) : Batch pass.excluded := by
  refine ⟨h.nodup, ?_⟩
  rw [← h.attempt]
  exact h.le.trans (Nat.min_le_right _ _)

/-- What was asked before this list. -/
def Earlier (refreshed : Bool) (first : List String) : Prop :=
  Batch first ∧ (refreshed = false → first = [])

/-- What the relay attempt has asked. -/
def Turn.Asked (servers : List String) : Turn → Prop
  | .idle | .fetching false => servers = []
  | .fetching true => Batch servers
  | .allocating refreshed pass pending =>
    ∃ first, Earlier refreshed first ∧ servers = first ++ pass.excluded ∧ pass.Counts ∧
      pass.attempt < pass.maxAttempts ∧ ∀ config ∈ pending, config.addr ∉ pass.excluded
  | .establishing refreshed pass server _ =>
    ∃ first, Earlier refreshed first ∧ servers = first ++ (pass.excluded ++ [server]) ∧
      pass.Counts ∧ pass.attempt < pass.maxAttempts ∧ server ∉ pass.excluded
  | .refreshing pass => servers = pass.excluded ∧ Batch pass.excluded
  | .connected _ | .failed _ =>
    ∃ first second, servers = first ++ second ∧ Batch first ∧ Batch second

/-- Two lists at most have been asked over. -/
theorem Turn.Asked.two {servers : List String} {turn : Turn} (h : turn.Asked servers) :
    ∃ first second, servers = first ++ second ∧ Batch first ∧ Batch second := by
  cases turn with
  | idle => exact ⟨[], [], h, .nil, .nil⟩
  | fetching refreshed =>
    cases refreshed with
    | false => exact ⟨[], [], h, .nil, .nil⟩
    | true => exact ⟨servers, [], (List.append_nil _).symm, h, .nil⟩
  | allocating refreshed pass pending =>
    obtain ⟨first, hfirst, rfl, hcounts, -⟩ := h
    exact ⟨first, pass.excluded, rfl, hfirst.1, hcounts.batch⟩
  | establishing refreshed pass server stage =>
    obtain ⟨first, hfirst, rfl, hcounts, hlt, hserver⟩ := h
    refine ⟨first, pass.excluded ++ [server], rfl, hfirst.1, ?_, ?_⟩
    · exact List.nodup_append_comm.mp (List.nodup_cons.mpr ⟨hserver, hcounts.nodup⟩)
    · rw [List.length_append, ← hcounts.attempt]
      exact hlt.trans_le (Nat.min_le_right _ _)
  | refreshing pass => exact ⟨[], servers, rfl, .nil, h.1 ▸ h.2⟩
  | connected server => exact h
  | failed err => exact h

theorem asked_append (signals more : List Signal) :
    asked (signals ++ more) = asked signals ++ asked more := List.filterMap_append

theorem Turn.Asked.afterPass {refreshed : Bool} {pass : Pass} {first servers : List String}
    (hcounts : pass.Counts) (hfirst : Earlier refreshed first)
    (hservers : servers = first ++ pass.excluded) :
    (Turn.afterPass refreshed pass).Asked servers := by
  cases refreshed with
  | true => exact ⟨first, pass.excluded, hservers, hfirst.1, hcounts.batch⟩
  | false =>
    rw [hfirst.2 rfl, List.nil_append] at hservers
    exact ⟨hservers, hcounts.batch⟩

theorem Turn.Asked.nextAttempt {refreshed : Bool} {pass : Pass} {first servers : List String}
    (hcounts : pass.Counts) (hfirst : Earlier refreshed first)
    (hservers : servers = first ++ pass.excluded) :
    (Turn.nextAttempt refreshed pass).Asked servers := by
  unfold Turn.nextAttempt
  split
  next hgo =>
    refine ⟨first, hfirst, hservers, hcounts, hgo.1, ?_⟩
    intro config hconfig
    simpa only [decide_eq_true_eq] using List.of_mem_filter hconfig
  next => exact .afterPass hcounts hfirst hservers

/-- A server that failed is taken out of the list, so it is not asked over again. -/
theorem Pass.Counts.exclude {pass : Pass} (h : pass.Counts) (hlt : pass.attempt < pass.maxAttempts)
    {server : String} (hserver : server ∉ pass.excluded) (err : String) :
    (pass.exclude server err).Counts where
  nodup := List.nodup_append_comm.mp (List.nodup_cons.mpr ⟨hserver, h.nodup⟩)
  attempt := by
    simp only [Pass.exclude, List.length_append, List.length_singleton, h.attempt]
  le := hlt

theorem Pass.counts_new (servers : List TurnConfig) : (Pass.new servers).Counts :=
  ⟨List.nodup_nil, rfl, Nat.zero_le _⟩

theorem TurnStep.asked {s t : Race} {e : Event} (hstep : TurnStep s e t)
    (h : s.turn.Asked (Connect.asked s.signals)) : t.turn.Asked (Connect.asked t.signals) := by
  cases hstep with
  | @fetched refreshed old answers ht =>
    rw [ht] at h
    obtain ⟨first, hfirst, hservers⟩ :
        ∃ first, Earlier refreshed first ∧ Connect.asked s.signals = first ++ [] := by
      cases refreshed with
      | true => exact ⟨_, ⟨h, by simp⟩, (List.append_nil _).symm⟩
      | false => exact ⟨[], ⟨.nil, fun _ => rfl⟩, h⟩
    have hfailed : ∃ first second, Connect.asked s.signals = first ++ second ∧ Batch first ∧
        Batch second := ⟨first, [], hservers, hfirst.1, .nil⟩
    dsimp only
    unfold Turn.beginPass
    split
    · exact hfailed
    · exact hfailed
    · exact .nextAttempt (Pass.counts_new _) hfirst hservers
  | @allocated refreshed pass pending config ht hconfig =>
    rw [ht] at h
    obtain ⟨first, hfirst, hservers, hcounts, hlt, hpending⟩ := h
    refine ⟨first, hfirst, ?_, hcounts, hlt, hpending config hconfig⟩
    rw [Race.setTurn, asked_append, hservers, List.append_assoc]
    rfl
  | @unallocated refreshed pass pending config ht hconfig =>
    rw [ht] at h
    obtain ⟨first, hfirst, hservers, hcounts, hlt, hpending⟩ := h
    simp only [Race.setTurn, List.append_nil]
    unfold Turn.drop
    split
    next => exact .afterPass ⟨hcounts.nodup, hcounts.attempt, hcounts.le⟩ hfirst hservers
    next =>
      refine ⟨first, hfirst, hservers, hcounts, hlt, ?_⟩
      intro c hc
      exact hpending c (List.mem_of_mem_filter hc)
  | @advanced refreshed pass server stage ht =>
    rw [ht] at h
    have hsame : Connect.asked (s.signals ++ (Turn.advance refreshed pass server stage).2) =
        Connect.asked s.signals := by
      rw [asked_append]
      cases stage <;> exact List.append_nil _
    rw [Race.setTurn, hsame]
    cases stage with
    | closing =>
      have h' : (Turn.establishing refreshed pass server .closing).Asked _ := h
      exact h'.two
    | _ => exact h
  | @excluded refreshed pass server stage e err he ht =>
    rw [ht] at h
    obtain ⟨first, hfirst, hservers, hcounts, hlt, hserver⟩ := h
    simp only [Race.setTurn, List.append_nil]
    exact .nextAttempt (hcounts.exclude hlt hserver err) hfirst hservers
  | refreshed ht =>
    rw [ht] at h
    change Batch (Connect.asked s.signals)
    rw [h.1]
    exact h.2
  | givenUp ht =>
    rw [ht] at h
    simp only [Race.setTurn, List.append_nil]
    exact ⟨[], _, h.1, .nil, h.2⟩

theorem asked_of_run {o : Start} {as : List Event} {s : Race} (h : o.system.Run as s) :
    s.turn.Asked (asked s.signals) := by
  have hidle {s : Race} (hfits : s.Fits) (hp : s.phase = .early) : s.turn = .idle := by
    cases hfits with
    | early _ _ ht => exact ht
    | directOnly hp' => cases hp.symm.trans hp'
    | relayOnly hp' => cases hp.symm.trans hp'
    | both hp' => cases hp.symm.trans hp'
    | handover addr hp' => cases hp.symm.trans hp'
    | returned r hp' => cases hp.symm.trans hp'
  have hsettle {s : Race} (h : s.turn.Asked (asked s.signals))
      (hearly : s.phase = .early → s.turn = .idle) :
      s.settle.turn.Asked (asked s.settle.signals) := by
    have hsettles := settles s
    generalize s.settle = u at hsettles
    cases hsettles with
    | relayAfter err hp =>
      rw [hearly hp] at h
      exact h
    | _ => exact h
  induction h with
  | start h => obtain ⟨peer, rfl | ⟨rfl, -⟩ | ⟨rfl, -⟩⟩ := o.begin_cases h <;> rfl
  | @snoc as s e s' hrun hs ih =>
    have hfits := Start.fits hrun
    cases Step.of_next hs with
    | delay hp =>
      rw [hidle hfits hp] at ih
      exact ih
    | closed addr hp =>
      rw [asked_append]
      exact (List.append_nil (asked s.signals)).symm ▸ ih
    | direct hpolls hd => exact hsettle ih fun hp => hidle (s := s) hfits hp
    | @turn e t hpolls hstep =>
      obtain ⟨-, -, hphase⟩ := hstep.rank_lt
      refine hsettle (hstep.asked ih) fun hp => ?_
      rw [hphase] at hp
      simp only [Race.pollsTurn, hp, Bool.false_eq_true] at hpolls

/-- **The peer is asked ten times at most**: five times for each of two lists of servers, and over
no server twice for one list. -/
theorem asked_eq {o : Start} {as : List Event} {s : Race} (h : o.system.Run as s) :
    ∃ first second, asked s.signals = first ++ second ∧ Batch first ∧ Batch second :=
  (asked_of_run h).two

theorem asked_relayed : ∃ first second, asked Race.relayed.signals = first ++ second ∧
    Batch first ∧ Batch second := by
  obtain ⟨as, hrun⟩ := Race.exists_run_relayed
  exact asked_eq hrun

end HopToDesk.Client.Connect
