import HopToDesk.Host.TerminalSession

/-!
# The last answer about a shell

A `TerminalClosed` should be the last answer about its shell. A session whose closed message has
been sent has nothing left to say: its reader has ended, its child is taken, and, unless nobody has
it open, its channel is empty (`SessionOk`). It stays in a persistent service, though, and there an
action that names its terminal is answered once more. That is the only way to go wrong
(`protocol_iff_inTime`).
-/

set_option autoImplicit false

namespace HopToDesk.Host

open Kit TerminalServices

namespace TerminalResponse

def isClosed : TerminalResponse → Bool
  | .closed .. => true
  | _ => false

def isData : TerminalResponse → Bool
  | .data .. => true
  | _ => false

/-- It says that a terminal was opened. -/
def isSuccess : TerminalResponse → Bool
  | .opened _ success .. => success
  | _ => false

end TerminalResponse

/-- After a `TerminalClosed`, there is no other of its shell, no data, and no success. -/
def Quiet (x y : ShellResponse) : Prop :=
  x.2.isClosed = true → y.1 = x.1 →
    y.2.isClosed = false ∧ y.2.isData = false ∧ y.2.isSuccess = false

def Protocol (sent : List ShellResponse) : Prop := sent.Pairwise Quiet

theorem Protocol.append {sent new : List ShellResponse} (h : Protocol sent) (hnew : Protocol new)
    (hcross : ∀ x ∈ sent, x.2.isClosed = true → ∀ y ∈ new, y.1 ≠ x.1) : Protocol (sent ++ new) := by
  refine List.pairwise_append.mpr ⟨h, hnew, ?_⟩
  intro x hx y hy hclosed hshell
  exact absurd hshell (hcross x hx hclosed y hy)

theorem Protocol.last {sent : List ShellResponse} {y : ShellResponse}
    (h : Protocol (sent ++ [y])) {x : ShellResponse} (hx : x ∈ sent) (hclosed : x.2.isClosed = true)
    (hshell : y.1 = x.1) :
    y.2.isClosed = false ∧ y.2.isData = false ∧ y.2.isSuccess = false := by
  obtain ⟨-, -, hcross⟩ := List.pairwise_append.mp h
  exact hcross x hx y List.mem_cons_self hclosed hshell

/-! ## Sessions -/

/-- What holds of a session. Once its closed message is sent there is nothing to read or to kill. -/
structure SessionOk (started : Nat) (sent : List ShellResponse) (session : ShellSession) : Prop where
  shell : session.shell < started
  open_ : session.closedMessageSent = false →
    ∀ x ∈ sent, x.2.isClosed = true → x.1 ≠ session.shell
  closed : session.closedMessageSent = true → ∃ x ∈ sent, x.2.isClosed = true ∧ x.1 = session.shell
  dead : session.closedMessageSent = true → session.readerFinished = true ∧ session.child = false ∧
    (session.isOpened = true → session.output = [])

structure SessionsOk (started : Nat) (sent : List ShellResponse) (sessions : ShellSessions) :
    Prop where
  each : ∀ {id session}, sessions.lookup id = some session → SessionOk started sent session
  distinct : ∀ {id id' session session'}, sessions.lookup id = some session →
    sessions.lookup id' = some session' → session.shell = session'.shell → id = id'

namespace SessionsOk

variable {started : Nat} {sent : List ShellResponse} {sessions : ShellSessions}

theorem mapValues (h : SessionsOk started sent sessions)
    {f : Int → ShellSession → ShellSession} (hshell : ∀ id session, (f id session).shell = session.shell)
    (hf : ∀ id session, sessions.lookup id = some session → SessionOk started sent session →
      SessionOk started sent (f id session)) :
    SessionsOk started sent (Kit.mapValues f sessions) := by
  constructor
  · intro id session hid
    rw [lookup_mapValues] at hid
    obtain ⟨session₀, hid₀, rfl⟩ := Option.map_eq_some_iff.mp hid
    exact hf id session₀ hid₀ (h.each hid₀)
  · intro id id' session session' hid hid' hsame
    rw [lookup_mapValues] at hid hid'
    obtain ⟨session₀, hid₀, rfl⟩ := Option.map_eq_some_iff.mp hid
    obtain ⟨session₁, hid₁, rfl⟩ := Option.map_eq_some_iff.mp hid'
    rw [hshell, hshell] at hsame
    exact h.distinct hid₀ hid₁ hsame

theorem modify (h : SessionsOk started sent sessions) (terminalId : Int)
    {f : ShellSession → ShellSession} (hshell : ∀ session, (f session).shell = session.shell)
    (hf : ∀ session, sessions.lookup terminalId = some session →
      SessionOk started sent session → SessionOk started sent (f session)) :
    SessionsOk started sent (ShellSessions.modify sessions terminalId f) := by
  apply h.mapValues
  · intro id session
    split
    · exact hshell session
    · rfl
  · intro id session hid hok
    split
    next heq =>
      subst heq
      exact hf session hid hok
    next => exact hok

theorem erase (h : SessionsOk started sent sessions) (terminalId : Int) :
    SessionsOk started sent (sessions.erase terminalId) := by
  have hkept : ∀ {id session}, (sessions.erase terminalId).lookup id = some session →
      sessions.lookup id = some session := fun hid => (lookup_erase_eq_some hid).2
  exact ⟨fun hid => h.each (hkept hid), fun hid hid' => h.distinct (hkept hid) (hkept hid')⟩

/-- Answers that are not closed messages, or are about other shells. -/
theorem sends (h : SessionsOk started sent sessions) {started' : Nat} {new : List ShellResponse}
    (hstarted : started ≤ started')
    (hnew : ∀ y ∈ new, y.2.isClosed = true → ∀ id session, sessions.lookup id = some session →
      y.1 ≠ session.shell) : SessionsOk started' (sent ++ new) sessions := by
  refine ⟨?_, h.distinct⟩
  intro id session hid
  have hok := h.each hid
  refine ⟨hok.shell.trans_le hstarted, ?_, ?_, hok.dead⟩
  · intro hopen x hx hclosed
    rcases List.mem_append.mp hx with hx | hx
    · exact hok.open_ hopen x hx hclosed
    · exact hnew x hx hclosed id session hid
  · intro hclosed
    obtain ⟨x, hx, hxclosed, hxshell⟩ := hok.closed hclosed
    exact ⟨x, List.mem_append_left _ hx, hxclosed, hxshell⟩

/-- A new session with the next shell. -/
theorem insert (h : SessionsOk started sent sessions) {terminalId : Int} {session : ShellSession}
    (hstarted : ∀ x ∈ sent, x.1 < started) (hshell : session.shell = started)
    (hopen : session.closedMessageSent = false) :
    SessionsOk (started + 1) sent (sessions.insert terminalId session) := by
  have hnew : SessionOk (started + 1) sent session := by
    refine ⟨by omega, ?_, by simp [hopen], by simp [hopen]⟩
    intro _ x hx _ heq
    have hlt := hstarted x hx
    omega
  constructor
  · intro id session' hid
    rcases lookup_insert_eq_some hid with ⟨-, rfl⟩ | ⟨-, hold⟩
    · exact hnew
    · have hok := h.each hold
      exact ⟨hok.shell.trans (Nat.lt_succ_self _), hok.open_, hok.closed, hok.dead⟩
  · intro id id' session₁ session₂ hid hid' hsame
    rcases lookup_insert_eq_some hid with ⟨rfl, rfl⟩ | ⟨-, hold⟩
    · rcases lookup_insert_eq_some hid' with ⟨rfl, -⟩ | ⟨-, hold'⟩
      · rfl
      · have hlt := (h.each hold').shell
        omega
    · rcases lookup_insert_eq_some hid' with ⟨rfl, rfl⟩ | ⟨-, hold'⟩
      · have hlt := (h.each hold).shell
        omega
      · exact h.distinct hold hold' hsame

end SessionsOk

/-! ## Reading the outputs -/

namespace ShellService

variable {started : Nat} {sent : List ShellResponse} {service : ShellService} {io : OutputIo}

theorem lookup_modify (sessions : ShellSessions) (terminalId id : Int)
    (f : ShellSession → ShellSession) :
    (ShellSessions.modify sessions terminalId f).lookup id =
      (sessions.lookup id).map fun session => if id = terminalId then f session else session :=
  lookup_mapValues _ _ _

/-- What cleaning up these terminals leaves of each session. -/
theorem lookup_foldl_cleanUp (isPersistent : Bool) (sessions : ShellSessions) (closed : List Int)
    (id : Int) :
    (closed.foldl (cleanUp isPersistent) sessions).lookup id =
      if id ∈ closed then
        if isPersistent then
          (sessions.lookup id).map fun session => { session with child := false }
        else none
      else sessions.lookup id := by
  induction closed generalizing sessions with
  | nil => simp
  | cons terminalId closed ih =>
    rw [List.foldl_cons, ih]
    cases isPersistent with
    | true =>
      simp only [cleanUp, if_true, lookup_modify]
      by_cases heq : id = terminalId
      · subst heq
        cases sessions.lookup id with
        | none => simp
        | some session => simp
      · simp [heq]
    | false =>
      simp only [cleanUp, Bool.false_eq_true, if_false]
      by_cases heq : id = terminalId
      · subst heq
        simp
      · simp [heq]

theorem mem_closed_iff {id : Int} :
    id ∈ (service.sessions.entries.filter fun x => closes io x.1 x.2).map Sigma.fst ↔
      ∃ session, service.sessions.lookup id = some session ∧ closes io id session = true := by
  constructor
  · intro hid
    obtain ⟨x, hx, rfl⟩ := List.mem_map.mp hid
    obtain ⟨hx, hcloses⟩ := List.mem_filter.mp hx
    exact ⟨x.2, AList.mem_lookup_iff.mpr hx, hcloses⟩
  · rintro ⟨session, hlookup, hcloses⟩
    exact List.mem_map.mpr ⟨⟨id, session⟩,
      List.mem_filter.mpr ⟨AList.mem_lookup_iff.mp hlookup, hcloses⟩, rfl⟩

/-- What `read_outputs` leaves of a session. -/
theorem lookup_readOutputs {id : Int} {session' : ShellSession}
    (h : (service.readOutputs io).2.sessions.lookup id = some session') :
    ∃ session, service.sessions.lookup id = some session ∧
      session' = { readSession io id session with
        child := session.child && !closes io id session } := by
  simp only [readOutputs] at h
  rw [lookup_foldl_cleanUp, lookup_mapValues] at h
  split at h
  next hclosed =>
    obtain ⟨session, hlookup, hcloses⟩ := mem_closed_iff.mp hclosed
    rw [hlookup] at h
    split at h
    · refine ⟨session, hlookup, ?_⟩
      simp only [Option.map_some, Option.some.injEq] at h
      simp [← h, hcloses]
    · cases h
  next hopen =>
    obtain ⟨session, hlookup, rfl⟩ := Option.map_eq_some_iff.mp h
    refine ⟨session, hlookup, ?_⟩
    have hcloses : closes io id session = false := by
      rw [← Bool.not_eq_true]
      intro hcloses
      exact hopen (mem_closed_iff.mpr ⟨session, hlookup, hcloses⟩)
    rw [hcloses]
    simp [readSession]

theorem isClosed_terminalData (compress : List UInt8 → List UInt8) (terminalId : Int)
    (data : List UInt8) : (terminalData compress terminalId data).isClosed = false := by
  unfold terminalData
  split
  · rfl
  · rfl

theorem isClosed_sessionData {id : Int} {session : ShellSession} {y : ShellResponse}
    (h : y ∈ sessionData io id session) :
    y.2.isClosed = false ∧ y.1 = session.shell ∧ reads io id session = true ∧
      session.output ≠ [] := by
  unfold sessionData at h
  split at h
  next hreads =>
    obtain ⟨data, hdata, rfl⟩ := List.mem_map.mp h
    exact ⟨isClosed_terminalData _ _ _, rfl, hreads, List.ne_nil_of_mem hdata⟩
  next => cases h

/-- An answer is data that was read, or a closed message that was due. -/
theorem mem_readOutputs {y : ShellResponse} (h : y ∈ (service.readOutputs io).1) :
    ∃ id session, service.sessions.lookup id = some session ∧ y.1 = session.shell ∧
      (y.2.isClosed = false ∧ reads io id session = true ∧ session.output ≠ [] ∨
        y.2.isClosed = true ∧ closes io id session = true) := by
  rcases List.mem_append.mp h with h | h
  · obtain ⟨x, hx, hy⟩ := List.mem_flatMap.mp h
    obtain ⟨hclosed, hshell, hreads, houtput⟩ := isClosed_sessionData hy
    exact ⟨x.1, x.2, AList.mem_lookup_iff.mpr hx, hshell, .inl ⟨hclosed, hreads, houtput⟩⟩
  · obtain ⟨x, hx, rfl⟩ := List.mem_map.mp h
    obtain ⟨hx, hcloses⟩ := List.mem_filter.mp hx
    exact ⟨x.1, x.2, AList.mem_lookup_iff.mpr hx, rfl, .inr ⟨rfl, hcloses⟩⟩

/-- A closed message that is due is sent. -/
theorem closed_readOutputs {id : Int} {session : ShellSession}
    (hlookup : service.sessions.lookup id = some session) (hcloses : closes io id session = true) :
    sessionClosed io id session ∈ (service.readOutputs io).1 := by
  apply List.mem_append_right
  exact List.mem_map.mpr ⟨⟨id, session⟩,
    List.mem_filter.mpr ⟨AList.mem_lookup_iff.mp hlookup, hcloses⟩, rfl⟩

/-- The data come first, and the closed messages are about different shells. -/
theorem protocol_readOutputs (h : SessionsOk started sent service.sessions) :
    Protocol (service.readOutputs io).1 := by
  have hdata : ∀ x ∈ service.sessions.entries.flatMap (fun x => sessionData io x.1 x.2),
      ∀ y : ShellResponse, Quiet x y := by
    intro x hx y hclosed
    obtain ⟨z, -, hx⟩ := List.mem_flatMap.mp hx
    cases hclosed.symm.trans (isClosed_sessionData hx).1
  refine List.pairwise_append.mpr ⟨?_, ?_, fun x hx y _ => hdata x hx y⟩
  · exact List.Pairwise.imp_of_mem (fun hx _ _ => hdata _ hx _) (List.pairwise_of_forall fun _ _ => trivial)
  · rw [List.pairwise_map]
    refine List.Pairwise.imp_of_mem ?_
      ((List.nodupKeys_iff_pairwise.mp service.sessions.nodupKeys).filter _)
    intro x y hx hy hne _ hshell
    have hlookup : ∀ {z}, z ∈ service.sessions.entries.filter (fun x => closes io x.1 x.2) →
        service.sessions.lookup z.1 = some z.2 :=
      fun hz => AList.mem_lookup_iff.mpr (List.mem_filter.mp hz).1
    exact absurd (h.distinct (hlookup hy) (hlookup hx) hshell).symm hne

/-- A session that is read is as it should be with the answers. -/
theorem sessionOk_readOutputs (h : SessionsOk started sent service.sessions) {id : Int}
    {session : ShellSession} (hlookup : service.sessions.lookup id = some session) :
    SessionOk started (sent ++ (service.readOutputs io).1)
      { readSession io id session with child := session.child && !closes io id session } := by
  have hok := h.each hlookup
  refine ⟨hok.shell, ?_, ?_, ?_⟩
  · intro hopen x hx hclosed
    simp only [readSession, Bool.or_eq_false_iff] at hopen
    rcases List.mem_append.mp hx with hx | hx
    · exact hok.open_ hopen.1 x hx hclosed
    · obtain ⟨id', session', hlookup', hshell, ⟨hnot, -⟩ | ⟨-, hcloses⟩⟩ := mem_readOutputs hx
      · cases hclosed.symm.trans hnot
      · rintro heq
        obtain rfl := h.distinct hlookup' hlookup (hshell.symm.trans heq)
        cases hlookup'.symm.trans hlookup
        cases hcloses.symm.trans hopen.2
  · intro hclosed
    simp only [readSession, Bool.or_eq_true] at hclosed
    rcases hclosed with hclosed | hcloses
    · obtain ⟨x, hx, hxclosed, hxshell⟩ := hok.closed hclosed
      exact ⟨x, List.mem_append_left _ hx, hxclosed, hxshell⟩
    · exact ⟨_, List.mem_append_right _ (closed_readOutputs hlookup hcloses), rfl, rfl⟩
  · intro hclosed
    simp only [readSession, Bool.or_eq_true] at hclosed ⊢
    rcases hclosed with hclosed | hcloses
    · obtain ⟨hfinished, hchild, houtput⟩ := hok.dead hclosed
      refine ⟨hfinished, by simp [hchild], ?_⟩
      intro hopened
      split
      · rfl
      · exact houtput hopened
    · have hcloses' := hcloses
      simp only [closes, Bool.and_eq_true, Bool.not_eq_true'] at hcloses'
      refine ⟨hcloses'.2, by simp [hcloses], ?_⟩
      intro hopened
      rw [if_pos (by simp [reads, hcloses'.1.1, hopened])]

theorem sessionsOk_readOutputs (h : SessionsOk started sent service.sessions) :
    SessionsOk started (sent ++ (service.readOutputs io).1) (service.readOutputs io).2.sessions := by
  constructor
  · intro id session' hid
    obtain ⟨session, hlookup, rfl⟩ := lookup_readOutputs hid
    exact sessionOk_readOutputs h hlookup
  · intro id id' session₁ session₂ hid hid' hsame
    obtain ⟨session, hlookup, rfl⟩ := lookup_readOutputs hid
    obtain ⟨session', hlookup', rfl⟩ := lookup_readOutputs hid'
    exact h.distinct hlookup hlookup' hsame

/-- Nothing is answered about a shell whose closed message has been sent. -/
theorem readOutputs_closed (h : SessionsOk started sent service.sessions) {x y : ShellResponse}
    (hx : x ∈ sent) (hclosed : x.2.isClosed = true) (hy : y ∈ (service.readOutputs io).1) :
    y.1 ≠ x.1 := by
  intro heq
  obtain ⟨id, session, hlookup, hshell, hwhy⟩ := mem_readOutputs hy
  have hok := h.each hlookup
  cases hsent : session.closedMessageSent with
  | false => exact hok.open_ hsent x hx hclosed (heq.symm.trans hshell)
  | true =>
    obtain ⟨-, -, houtput⟩ := hok.dead hsent
    rcases hwhy with ⟨-, hreads, hne⟩ | ⟨-, hcloses⟩
    · simp only [reads, Bool.and_eq_true] at hreads
      exact hne (houtput hreads.2)
    · simp [closes, hsent] at hcloses

end ShellService

/-! ## Answers to actions -/

/-- What an action answers, and the sessions it leaves. -/
structure Answered (started : Nat) (sent new : List ShellResponse) (sessions : ShellSessions) :
    Prop where
  sessions : SessionsOk (started + 1) (sent ++ new) sessions
  shells : ∀ y ∈ new, y.1 < started + 1
  protocol : Protocol new
  fresh : ∀ x ∈ sent, x.2.isClosed = true → ∀ y ∈ new, y.1 ≠ x.1

namespace ShellService

variable {started : Nat} {sent : List ShellResponse} {service : ShellService}

theorem answered_nothing {sessions : ShellSessions} (h : SessionsOk started sent sessions) :
    Answered started sent [] sessions where
  sessions := h.sends (Nat.le_succ _) (by simp)
  shells := by simp
  protocol := .nil
  fresh := by simp

theorem answered_handleOpen (h : SessionsOk started sent service.sessions)
    (hstarted : ∀ x ∈ sent, x.1 < started) (io : ActionIo) (terminalId : Int) (rows cols : Nat)
    (hintime : ∀ session, service.sessions.lookup terminalId = some session →
      session.closedMessageSent = false) :
    Answered started sent (service.handleOpen io started terminalId rows cols).1.toOption.toList
      (service.handleOpen io started terminalId rows cols).2.sessions := by
  unfold handleOpen
  cases hlookup : service.sessions.lookup terminalId with
  | some session =>
    have hopen := hintime session hlookup
    have hok := h.each hlookup
    dsimp only
    refine ⟨?_, ?_, List.pairwise_singleton _ _, ?_⟩
    · refine SessionsOk.sends ?_ (Nat.le_succ _) ?_
      · apply h.modify
        · intro session
          rfl
        · intro session' hlookup' hok'
          cases hlookup.symm.trans hlookup'
          exact ⟨hok.shell, hok.open_, hok.closed, by simp [hopen]⟩
      · intro y hy hclosed
        rw [List.mem_singleton.mp hy] at hclosed
        cases hclosed
    · intro y hy
      rw [List.mem_singleton.mp hy]
      exact hok.shell.trans (Nat.lt_succ_self _)
    · intro x hx hclosed y hy
      rw [List.mem_singleton.mp hy]
      exact (hok.open_ hopen x hx hclosed).symm
  | none =>
    cases io.spawn with
    | error e => exact answered_nothing h
    | ok pid =>
      refine ⟨?_, ?_, List.pairwise_singleton _ _, ?_⟩
      · refine SessionsOk.sends (h.insert hstarted rfl rfl) le_rfl ?_
        intro y hy hclosed
        rw [List.mem_singleton.mp hy] at hclosed
        cases hclosed
      · intro y hy
        rw [List.mem_singleton.mp hy]
        exact Nat.lt_succ_self _
      · intro x hx hclosed y hy
        rw [List.mem_singleton.mp hy]
        exact (hstarted x hx).ne'

theorem answered_closed (h : SessionsOk started sent service.sessions) {terminalId exitCode : Int}
    {session : ShellSession} (hlookup : service.sessions.lookup terminalId = some session)
    (hopen : session.closedMessageSent = false) :
    Answered started sent [(session.shell, .closed terminalId exitCode)]
      (service.sessions.erase terminalId) := by
  have hok := h.each hlookup
  refine ⟨?_, ?_, List.pairwise_singleton _ _, ?_⟩
  · refine (h.erase terminalId).sends (Nat.le_succ _) ?_
    intro y hy _ id session' hid heq
    rw [List.mem_singleton.mp hy] at heq
    obtain ⟨hne, hold⟩ := lookup_erase_eq_some hid
    exact hne (h.distinct hold hlookup heq.symm)
  · intro y hy
    rw [List.mem_singleton.mp hy]
    exact hok.shell.trans (Nat.lt_succ_self _)
  · intro x hx hclosed y hy
    rw [List.mem_singleton.mp hy]
    exact (hok.open_ hopen x hx hclosed).symm

theorem answered_handleClose (h : SessionsOk started sent service.sessions) (io : ActionIo)
    (terminalId : Int) (hintime : ∀ session, service.sessions.lookup terminalId = some session →
      session.closedMessageSent = false) :
    Answered started sent ((service.handleClose io terminalId).1.toOption.bind id).toList
      (service.handleClose io terminalId).2.sessions := by
  unfold handleClose
  cases hlookup : service.sessions.lookup terminalId with
  | none => exact answered_nothing h
  | some session =>
    have hopen := hintime session hlookup
    dsimp only
    cases session.child with
    | false => exact answered_closed h hlookup hopen
    | true =>
      cases io.kill with
      | error e => exact answered_nothing (h.erase terminalId)
      | ok _ => exact answered_closed h hlookup hopen

theorem sessionsOk_handleResize (h : SessionsOk started sent service.sessions) (io : ActionIo)
    (terminalId : Int) (rows cols : Nat) :
    SessionsOk started sent (service.handleResize io terminalId rows cols).2.sessions := by
  unfold handleResize
  dsimp only
  apply h.modify
  · intro session
    rfl
  · intro session _ hok
    exact ⟨hok.shell, hok.open_, hok.closed, hok.dead⟩

theorem sessionsOk_handleData (h : SessionsOk started sent service.sessions) (terminalId : Int)
    (data : List UInt8) : SessionsOk started sent (service.handleData terminalId data).sessions := by
  unfold handleData
  dsimp only
  apply h.modify
  · intro session
    rfl
  · intro session _ hok
    exact ⟨hok.shell, hok.open_, hok.closed, hok.dead⟩

theorem sessionsOk_resetStatus (h : SessionsOk started sent service.sessions) (isPersistent : Bool) :
    SessionsOk started sent (service.resetStatus isPersistent).sessions := by
  unfold resetStatus
  dsimp only
  apply h.mapValues
  · intro id session
    rfl
  · intro id session _ hok
    refine ⟨hok.shell, hok.open_, hok.closed, ?_⟩
    intro hclosed
    obtain ⟨hfinished, hchild, -⟩ := hok.dead hclosed
    exact ⟨hfinished, hchild, by simp⟩

/-- A reader that has ended puts nothing into the channel. -/
theorem sessionsOk_shellWrites (h : SessionsOk started sent service.sessions) (terminalId : Int)
    (data : List UInt8) : SessionsOk started sent (service.shellWrites terminalId data).sessions := by
  unfold shellWrites
  dsimp only
  apply h.modify
  · intro session
    split
    · rfl
    · rfl
  · intro session _ hok
    split
    next hwrites =>
      refine ⟨hok.shell, hok.open_, hok.closed, ?_⟩
      intro hclosed
      cases hwrites.1.symm.trans (hok.dead hclosed).1
    next => exact hok

theorem sessionsOk_readerEnds (h : SessionsOk started sent service.sessions) (terminalId : Int) :
    SessionsOk started sent (service.readerEnds terminalId).sessions := by
  unfold readerEnds
  dsimp only
  apply h.modify
  · intro session
    rfl
  · intro session _ hok
    refine ⟨hok.shell, hok.open_, hok.closed, ?_⟩
    intro hclosed
    exact ⟨rfl, (hok.dead hclosed).2⟩

end ShellService

/-! ## Runs -/

namespace TerminalHost

open ShellService

variable {s s' : TerminalHost} {a : Event}

structure Inv (s : TerminalHost) : Prop where
  protocol : Protocol s.sent
  started : ∀ x ∈ s.sent, x.1 < s.started
  sessions : ∀ {service}, s.service = some service → SessionsOk s.started s.sent service.sessions

/-- An action does not open or close a terminal whose closed message has been sent. -/
def InTime (s : TerminalHost) : Event → Prop
  | .action (.opened terminalId _ _) _ | .action (.close terminalId) _ =>
    ∀ service session, s.service = some service → service.sessions.lookup terminalId = some session →
      session.closedMessageSent = false
  | _ => True

theorem Inv.withService (h : Inv s) {service : ShellService}
    (hok : SessionsOk s.started s.sent service.sessions) :
    Inv { s with service := some service } where
  protocol := h.protocol
  started := h.started
  sessions hservice := by
    cases hservice
    exact hok

theorem Inv.withoutService (h : Inv s) : Inv { s with service := none } where
  protocol := h.protocol
  started := h.started
  sessions hservice := by cases hservice

theorem Inv.answered (h : Inv s) {service : ShellService} {new : List ShellResponse}
    (hnew : Answered s.started s.sent new service.sessions) :
    Inv ⟨some service, s.started + 1, s.sent ++ new⟩ where
  protocol := h.protocol.append hnew.protocol hnew.fresh
  started x hx := by
    rcases List.mem_append.mp hx with hx | hx
    · exact (h.started x hx).trans (Nat.lt_succ_self _)
    · exact hnew.shells x hx
  sessions hservice := by
    cases hservice
    exact hnew.sessions

theorem Inv.handleAction (h : Inv s) {io : ActionIo} {action : TerminalAction}
    (hintime : InTime s (.action action io)) : Inv (s.handleAction io action) := by
  unfold TerminalHost.handleAction
  cases hservice : s.service with
  | none => exact h
  | some service =>
  have hok := h.sessions hservice
  apply h.answered
  cases action with
  | opened terminalId rows cols =>
    have hopened := answered_handleOpen hok h.started io terminalId rows cols
      fun session => hintime service session hservice
    simp only
    generalize service.handleOpen io s.started terminalId rows cols = answer at hopened ⊢
    rcases answer with ⟨e | answer, service'⟩
    · exact hopened
    · exact hopened
  | resize terminalId rows cols =>
    have hresized := answered_nothing (sessionsOk_handleResize hok io terminalId rows cols)
    simp only
    generalize service.handleResize io terminalId rows cols = answer at hresized ⊢
    rcases answer with ⟨e | answer, service'⟩
    · exact hresized
    · exact hresized
  | data terminalId data => exact answered_nothing (sessionsOk_handleData hok terminalId data)
  | close terminalId =>
    exact answered_handleClose hok io terminalId fun session => hintime service session hservice
  | other => exact answered_nothing hok

theorem Inv.readOutputs (h : Inv s) (io : OutputIo) : Inv (s.readOutputs io) := by
  unfold TerminalHost.readOutputs
  cases hservice : s.service with
  | none => exact h
  | some service =>
  have hok := h.sessions hservice
  refine ⟨?_, ?_, ?_⟩
  · apply h.protocol.append (protocol_readOutputs hok)
    intro x hx hclosed y hy
    exact readOutputs_closed hok hx hclosed hy
  · intro x hx
    rcases List.mem_append.mp hx with hx | hx
    · exact h.started x hx
    · obtain ⟨id, session, hlookup, hshell, -⟩ := mem_readOutputs hx
      rw [hshell]
      exact (hok.each hlookup).shell
  · intro service' hservice'
    cases hservice'
    exact sessionsOk_readOutputs hok

theorem Inv.next (h : Inv s) (hintime : InTime s a) : Inv (s.next a) := by
  cases a with
  | connect serviceId isPersistent others =>
    simp only [TerminalHost.next, TerminalHost.connect]
    cases hservice : s.service with
    | some service => exact h.withService (sessionsOk_resetStatus (h.sessions hservice) isPersistent)
    | none =>
      simp only
      split
      · exact h
      · exact h.withService ⟨by simp [ShellService.new, resetStatus], by simp [ShellService.new, resetStatus]⟩
  | disconnect =>
    simp only [TerminalHost.next, TerminalHost.disconnect]
    split
    · split
      · exact h
      · exact h.withoutService
    · exact h
  | cleanup =>
    simp only [TerminalHost.next, TerminalHost.cleanup]
    split
    · split
      · exact h
      · exact h.withoutService
    · exact h
  | setPersistent isPersistent =>
    simp only [TerminalHost.next]
    cases hservice : s.service with
    | none => exact h.withoutService
    | some service =>
      have hold := h.sessions hservice
      have hok : SessionsOk s.started s.sent
          ({ service with isPersistent := isPersistent } : ShellService).sessions := hold
      exact h.withService hok
  | action action io => exact h.handleAction hintime
  | readOutputs io => exact h.readOutputs io
  | shellWrites terminalId data =>
    simp only [TerminalHost.next]
    cases hservice : s.service with
    | none => exact h.withoutService
    | some service =>
      exact h.withService (sessionsOk_shellWrites (h.sessions hservice) terminalId data)
  | readerEnds terminalId =>
    simp only [TerminalHost.next]
    cases hservice : s.service with
    | none => exact h.withoutService
    | some service => exact h.withService (sessionsOk_readerEnds (h.sessions hservice) terminalId)

/-- An answer about a shell whose closed message has been sent breaks the protocol. -/
theorem Inv.inTime_of_answer (h : Inv s) {service : ShellService} {session : ShellSession}
    {terminalId : Int} (hservice : s.service = some service)
    (hlookup : service.sessions.lookup terminalId = some session) {y : ShellResponse}
    (hshell : y.1 = session.shell) (hy : y.2.isClosed = true ∨ y.2.isSuccess = true)
    (hprotocol : Protocol (s.sent ++ [y])) : session.closedMessageSent = false := by
  rw [← Bool.not_eq_true]
  intro hsent
  obtain ⟨x, hx, hclosed, hxshell⟩ := ((h.sessions hservice).each hlookup).closed hsent
  obtain ⟨hnot, -, hno⟩ := hprotocol.last hx hclosed (hshell.trans hxshell.symm)
  rcases hy with hy | hy
  · cases hy.symm.trans hnot
  · cases hy.symm.trans hno

theorem Inv.inTime (h : Inv s) (hprotocol : Protocol (s.next a).sent) : InTime s a := by
  cases a with
  | action action io =>
    cases action with
    | opened terminalId rows cols =>
      intro service session hservice hlookup
      apply h.inTime_of_answer hservice hlookup (y := (session.shell, .opened terminalId true
        "Reconnected to existing terminal" session.pid service.serviceId
        (service.otherSessions terminalId))) rfl (.inr rfl)
      simp only [TerminalHost.next, TerminalHost.handleAction, hservice,
        ShellService.handleAction, ShellService.handleOpen, hlookup] at hprotocol
      exact hprotocol
    | close terminalId =>
      intro service session hservice hlookup
      -- A child that is still there has not been taken, as it is with the closed message.
      cases hchild : session.child with
      | true =>
        rw [← Bool.not_eq_true]
        intro hsent
        have hdead := ((h.sessions hservice).each hlookup).dead hsent
        cases hchild.symm.trans hdead.2.1
      | false =>
        apply h.inTime_of_answer hservice hlookup (y := (session.shell, .closed terminalId 0)) rfl
          (.inl rfl)
        simp only [TerminalHost.next, TerminalHost.handleAction, hservice,
          ShellService.handleAction, ShellService.handleClose, hlookup, hchild] at hprotocol
        exact hprotocol
    | resize | data | other => trivial
  | connect | disconnect | cleanup | setPersistent | readOutputs | shellWrites | readerEnds =>
    trivial

/-- **Along a trace a `TerminalClosed` is the last answer about its shell exactly when no action
opens or closes a terminal whose closed message has been sent.** -/
theorem protocol_iff_inTime {tr : List (TerminalHost × Event)} (h : system.Trace tr s) :
    System.Always (fun s => Protocol s.sent) tr s ↔ ∀ x ∈ tr, InTime x.1 x.2 := by
  refine h.always_iff (I := Inv) ?_ ?_ ?_ ?_
  · rintro s rfl
    exact ⟨.nil, by simp, by simp⟩
  · intro s hs
    exact hs.protocol
  · intro s a s' hs hstep hintime
    cases hstep
    exact hs.next hintime
  · intro s a s' hs hstep hprotocol
    cases hstep
    exact hs.inTime hprotocol

/-! A persistent service whose only shell exits. -/

def connects : Event := .connect "ts" true 0

def obliging : ActionIo := ⟨.ok 7, .ok (), .ok ()⟩

def opensOne : Event := .action (.opened 1 24 80) obliging

def readsAll : Event := .readOutputs ⟨fun _ => false, fun _ => some 0, id⟩

def exited : TerminalHost :=
  [connects, opensOne, .readerEnds 1, readsAll].foldl next ⟨none, 0, []⟩

theorem run_exited : system.Run [connects, opensOne, .readerEnds 1, readsAll] exited := by
  have hopened : system.Run [connects, opensOne] (next (next ⟨none, 0, []⟩ connects) opensOne) :=
    ((System.Run.start (S := system) rfl).snoc (a := connects) rfl).snoc (a := opensOne) rfl
  have hended := hopened.snoc (a := Event.readerEnds 1) rfl
  exact hended.snoc (a := readsAll) rfl

theorem protocol_iff_inTime_opened :
    System.Always (fun s => Protocol s.sent)
      [(⟨none, 0, []⟩, connects), (next ⟨none, 0, []⟩ connects, opensOne)]
      (next (next ⟨none, 0, []⟩ connects) opensOne) := by
  have htrace := ((System.Trace.start (S := system) (s := ⟨none, 0, []⟩) rfl).snoc
    (a := connects) rfl).snoc (a := opensOne) rfl
  refine (protocol_iff_inTime htrace).mpr ?_
  intro x hx
  rcases List.mem_cons.mp hx with rfl | hx
  · trivial
  · rw [List.mem_singleton.mp hx]
    intro service session hservice hlookup
    cases hservice
    cases hlookup

/-- The terminal is opened once more after its closed message. -/
theorem not_protocol : ¬ ∀ s, system.Reachable s → Protocol s.sent := by
  intro hall
  have hprotocol : Protocol ([(0, .opened 1 true "Terminal opened" 7 "ts" []), (0, .closed 1 0)] ++
      [(0, .opened 1 true "Reconnected to existing terminal" 7 "ts" [])]) :=
    hall (exited.next opensOne) ⟨_, run_exited.snoc rfl⟩
  obtain ⟨-, -, hno⟩ := hprotocol.last (x := (0, .closed 1 0)) (by simp) rfl rfl
  cases hno

/-- And closed once more. -/
example : (exited.next (.action (.close 1) obliging)).sent =
    [(0, .opened 1 true "Terminal opened" 7 "ts" []), (0, .closed 1 0), (0, .closed 1 0)] := rfl

end TerminalHost

end HopToDesk.Host
