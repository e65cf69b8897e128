import HopToDesk.Host.TerminalSession
import HopToDesk.Laws.Host.TerminalSession

/-!
# What the cleanup of terminal services removes

A terminal is in use when it is opened and its shell is alive. Only an action that opens a terminal
brings one into use (`live_of_next`), and a persistent service with a session is not noted for
removal, so what the cleanup removes while in use was not persistent and idle, or a terminal was
opened since it was noted. In the other direction, only actions and new services set the time of a
service, and what is noted goes before the cleanup is done.
-/

set_option autoImplicit false

namespace HopToDesk.Host

open Kit TerminalServices

/-! ## Services that come from others -/

/-- Every opened session is an opened one of the others, with its shell. -/
def OpenedIn (sessions' sessions : ShellSessions) : Prop :=
  ∀ (id : Int) (session' : ShellSession), sessions'.lookup id = some session' →
    session'.isOpened = true →
      ∃ session, sessions.lookup id = some session ∧ session.isOpened = true ∧
        session.shell = session'.shell

theorem openedIn_mapValues {sessions : ShellSessions} {f : Int → ShellSession → ShellSession}
    (hopen : ∀ id session, (f id session).isOpened = true → session.isOpened = true)
    (hshell : ∀ id session, (f id session).shell = session.shell) :
    OpenedIn (mapValues f sessions) sessions := by
  intro id session' hid hopened
  rw [lookup_mapValues] at hid
  obtain ⟨session, hsession, rfl⟩ := Option.map_eq_some_iff.mp hid
  exact ⟨session, hsession, hopen id session hopened, (hshell id session).symm⟩

theorem openedIn_modify {sessions : ShellSessions} (terminalId : Int)
    {f : ShellSession → ShellSession}
    (hopen : ∀ session, (f session).isOpened = true → session.isOpened = true)
    (hshell : ∀ session, (f session).shell = session.shell) :
    OpenedIn (ShellSessions.modify sessions terminalId f) sessions := by
  apply openedIn_mapValues
  · intro id session
    split
    · exact hopen session
    · exact fun hopened => hopened
  · intro id session
    split
    · exact hshell session
    · rfl

theorem openedIn_erase (sessions : ShellSessions) (terminalId : Int) :
    OpenedIn (sessions.erase terminalId) sessions := by
  intro id session' hid hopened
  exact ⟨session', (lookup_erase_eq_some hid).2, hopened, rfl⟩

theorem openedIn_refl (sessions : ShellSessions) : OpenedIn sessions sessions :=
  fun _ session hid hopened => ⟨session, hid, hopened, rfl⟩

namespace ShellService

variable {service : ShellService}

/-- Reading the outputs opens nothing. -/
theorem openedIn_readOutputs (io : OutputIo) :
    OpenedIn (service.readOutputs io).2.sessions service.sessions := by
  intro id session' hid hopened
  obtain ⟨session, hsession, rfl⟩ := lookup_readOutputs hid
  exact ⟨session, hsession, hopened, rfl⟩

end ShellService

/-- The action opens a terminal. -/
def TerminalServices.TerminalAction.isOpen : TerminalAction → Bool
  | .opened .. => true
  | _ => false

/-- No other action opens a terminal. -/
theorem ShellService.openedIn_handleAction {service : ShellService} {action : TerminalAction}
    (h : action.isOpen = false) (io : ActionIo) (shell : Nat) :
    OpenedIn (service.handleAction io shell action).2.sessions service.sessions := by
  cases action with
  | opened => cases h
  | resize terminalId | data terminalId =>
    apply openedIn_modify terminalId
    · exact fun session hopened => hopened
    · exact fun session => rfl
  | close terminalId =>
    simp only [ShellService.handleAction, ShellService.handleClose]
    split
    · exact openedIn_erase _ _
    · exact openedIn_refl _
  | other => exact openedIn_refl _

namespace TimedServices

variable {services : TimedServices} {serviceId id : String}

theorem lookup_modify (f : TimedService → TimedService) :
    (services.modify serviceId f).lookup id =
      (services.lookup id).map fun service => if id = serviceId then f service else service :=
  lookup_mapValues _ _ _

/-- A service that is changed in place comes from the one that was there. -/
theorem of_lookup_modify {f : TimedService → TimedService} {R : TimedService → TimedService → Prop}
    (hrefl : ∀ service, R service service) (hf : id = serviceId → ∀ service, R service (f service))
    {service' : TimedService} (h : (services.modify serviceId f).lookup id = some service') :
    ∃ service, services.lookup id = some service ∧ R service service' := by
  rw [lookup_modify] at h
  obtain ⟨service, hservice, rfl⟩ := Option.map_eq_some_iff.mp h
  refine ⟨service, hservice, ?_⟩
  split
  next hsame => exact hf hsame service
  next => exact hrefl service

theorem mem_inactive {now : Nat} :
    id ∈ services.inactive now ↔
      ∃ service, services.lookup id = some service ∧ service.isInactive now = true := by
  constructor
  · intro h
    obtain ⟨x, hx, rfl⟩ := List.mem_map.mp h
    obtain ⟨hx, hinactive⟩ := List.mem_filter.mp hx
    exact ⟨x.2, AList.mem_lookup_iff.mpr hx, hinactive⟩
  · rintro ⟨service, hlookup, hinactive⟩
    exact List.mem_map.mpr
      ⟨⟨id, service⟩, List.mem_filter.mpr ⟨AList.mem_lookup_iff.mp hlookup, hinactive⟩, rfl⟩

end TimedServices

namespace TerminalCleanup

namespace Event

/-- It opens a terminal of the service. -/
def opens (serviceId : String) : Event → Prop
  | .action id done _ => id = serviceId ∧ done.isOpen = true
  | _ => False

/-- It is a connection to the service. -/
def connects (serviceId : String) : Event → Prop
  | .connect id _ => id = serviceId
  | _ => False

/-- It is a connection to the service, or an action on it. -/
def touches (serviceId : String) : Event → Prop
  | .connect id _ => id = serviceId
  | .action id .. => id = serviceId
  | _ => False

end Event

/-- The service has an opened terminal whose shell is alive. -/
def Live (s : TerminalCleanup) (serviceId : String) : Prop :=
  ∃ service, s.services.lookup serviceId = some service ∧
    ∃ terminalId session, service.sessions.lookup terminalId = some session ∧
      session.isOpened = true ∧ session.shell ∉ s.exited

/-- The service is not persistent, and has handled no action for longer than the timeout. -/
def Idle (s : TerminalCleanup) (serviceId : String) : Prop :=
  ∃ service, s.services.lookup serviceId = some service ∧ service.isPersistent = false ∧
    serviceIdleTimeout < s.now - service.lastActivity

variable {s s' : TerminalCleanup} {a : Event} {id : String}

/-- What a step leaves of a service: it is one that was there, with its time or that of the step,
or a new one. -/
structure ComesFrom (s : TerminalCleanup) (a : Event) (id : String)
    (service service' : TimedService) : Prop where
  time : service'.lastActivity = service.lastActivity ∨
    a.touches id ∧ service'.lastActivity = s.now
  opened : ¬ a.opens id → OpenedIn service'.sessions service.sessions

theorem ComesFrom.refl (service : TimedService) : ComesFrom s a id service service :=
  ⟨.inl rfl, fun _ => openedIn_refl _⟩

theorem ComesFrom.onShells {f : ShellService → ShellService} {service : TimedService}
    (hf : OpenedIn (f service.toShellService).sessions service.sessions) :
    ComesFrom s a id service (service.onShells f) :=
  ⟨.inl rfl, fun _ => hf⟩

/-- **Where a service comes from.** -/
theorem lookup_next (h : s.next a = some s') {service' : TimedService}
    (hid : s'.services.lookup id = some service') :
    (∃ service, s.services.lookup id = some service ∧ ComesFrom s a id service service') ∨
      a.connects id ∧ service'.lastActivity = s.now ∧ service'.sessions = ∅ := by
  -- a step that changes one service in place
  have hmodify : ∀ (serviceId : String) (f : TimedService → TimedService),
      (id = serviceId → ∀ service, ComesFrom s a id service (f service)) →
      (s.services.modify serviceId f).lookup id = some service' →
      ∃ service, s.services.lookup id = some service ∧ ComesFrom s a id service service' :=
    fun serviceId f hf hlookup => TimedServices.of_lookup_modify ComesFrom.refl hf hlookup
  -- a step that removes one
  have herase : ∀ serviceId : String, (s.services.erase serviceId).lookup id = some service' →
      ∃ service, s.services.lookup id = some service ∧ ComesFrom s a id service service' := by
    intro serviceId hlookup
    exact ⟨service', (lookup_erase_eq_some hlookup).2, .refl service'⟩
  cases a with
  | tick elapsed =>
    obtain rfl := Option.some.inj h
    exact .inl ⟨service', hid, .refl service'⟩
  | connect serviceId isPersistent =>
    obtain rfl := Option.some.inj h
    simp only [TimedServices.getOrCreateService] at hid
    split at hid
    · refine .inl (hmodify serviceId _ (fun _ service => .onShells ?_) hid)
      exact openedIn_mapValues (fun _ _ hopened => absurd hopened Bool.false_ne_true) fun _ _ => rfl
    · split at hid
      · exact .inl ⟨service', hid, .refl service'⟩
      · rcases lookup_insert_eq_some hid with ⟨rfl, rfl⟩ | ⟨-, hold⟩
        · exact .inr ⟨rfl, rfl, rfl⟩
        · exact .inl ⟨service', hold, .refl service'⟩
  | setPersistent serviceId isPersistent =>
    obtain rfl := Option.some.inj h
    exact .inl (hmodify serviceId _ (fun _ service => .onShells (openedIn_refl _)) hid)
  | disconnect serviceId =>
    obtain rfl := Option.some.inj h
    simp only [TimedServices.onDisconnect] at hid
    split at hid
    · split at hid
      · exact .inl ⟨service', hid, .refl service'⟩
      · exact .inl (herase serviceId hid)
    · exact .inl ⟨service', hid, .refl service'⟩
  | action serviceId action io =>
    obtain rfl := Option.some.inj h
    refine .inl (hmodify serviceId _ (fun hsame service => ⟨.inr ⟨hsame.symm, rfl⟩, ?_⟩) hid)
    intro hopens
    apply ShellService.openedIn_handleAction
    rw [← Bool.not_eq_true]
    exact fun hopen => hopens ⟨hsame.symm, hopen⟩
  | readOutputs serviceId io =>
    obtain rfl := Option.some.inj h
    refine .inl (hmodify serviceId _ (fun _ service => .onShells ?_) hid)
    exact ShellService.openedIn_readOutputs io
  | shellWrites serviceId terminalId data =>
    obtain rfl := Option.some.inj h
    refine .inl (hmodify serviceId _ (fun _ service => .onShells ?_) hid)
    apply openedIn_modify terminalId
    · intro session
      split
      · exact fun hopened => hopened
      · exact fun hopened => hopened
    · intro session
      split
      · rfl
      · rfl
  | shellExits shell =>
    obtain rfl := Option.some.inj h
    exact .inl ⟨service', hid, .refl service'⟩
  | readerEnds serviceId terminalId =>
    obtain rfl := Option.some.inj h
    refine .inl (hmodify serviceId _ (fun _ service => .onShells ?_) hid)
    exact openedIn_modify terminalId (fun _ hopened => hopened) fun _ => rfl
  | cleanup =>
    simp only [next] at h
    split at h
    · obtain rfl := Option.some.inj h
      exact .inl ⟨service', hid, .refl service'⟩
    · cases h
  | removeService serviceId =>
    simp only [next] at h
    split at h
    · obtain rfl := Option.some.inj h
      exact .inl (herase serviceId hid)
    · cases h

/-- What else a step does: time goes on, shells that have exited stay so, and only a cleanup notes
services for removal. -/
theorem next_rest (h : s.next a = some s') :
    s.now ≤ s'.now ∧ s.exited ⊆ s'.exited ∧ (a ≠ .cleanup → s'.toRemove ⊆ s.toRemove) := by
  cases a with
  | tick elapsed =>
    obtain rfl := Option.some.inj h
    exact ⟨Nat.le_add_right _ _, List.Subset.refl _, fun _ => List.Subset.refl _⟩
  | shellExits shell =>
    obtain rfl := Option.some.inj h
    exact ⟨Nat.le_refl _, List.subset_cons_self _ _, fun _ => List.Subset.refl _⟩
  | connect | setPersistent | disconnect | action | readOutputs | shellWrites | readerEnds =>
    obtain rfl := Option.some.inj h
    exact ⟨Nat.le_refl _, List.Subset.refl _, fun _ => List.Subset.refl _⟩
  | cleanup =>
    simp only [next] at h
    split at h
    · obtain rfl := Option.some.inj h
      exact ⟨Nat.le_refl _, List.Subset.refl _, fun hne => absurd rfl hne⟩
    · cases h
  | removeService serviceId =>
    simp only [next] at h
    split at h
    · obtain rfl := Option.some.inj h
      exact ⟨Nat.le_refl _, List.Subset.refl _, fun _ => List.erase_subset⟩
    · cases h

/-! ## Services in use -/

/-- **Only an action that opens a terminal brings one into use.** -/
theorem live_of_next (hopens : ¬ a.opens id) (hlive : s'.Live id) (h : s.next a = some s') :
    s.Live id := by
  obtain ⟨service', hid, terminalId, session', hsession', hopened, halive⟩ := hlive
  rcases lookup_next h hid with ⟨service, hservice, hfrom⟩ | ⟨-, -, hnone⟩
  · obtain ⟨session, hsession, hopened₀, hshell⟩ :=
      hfrom.opened hopens terminalId session' hsession' hopened
    refine ⟨service, hservice, terminalId, session, hsession, hopened₀, ?_⟩
    rw [hshell]
    exact fun hexited => halive ((next_rest h).2.1 hexited)
  · rw [hnone, AList.lookup_empty] at hsession'
    cases hsession'

theorem next_cleanup (h : s.next .cleanup = some s') :
    s.toRemove = [] ∧ s' = { s with toRemove := s.services.inactive s.now } := by
  simp only [next] at h
  split at h
  next hdone => exact ⟨hdone, (Option.some.inj h).symm⟩
  next => cases h

/-- A service in use that is noted for removal was not persistent. -/
theorem idle_of_live (hlive : s.Live id) (hnoted : id ∈ s.services.inactive s.now) :
    s.Idle id := by
  obtain ⟨service, hid, terminalId, session, hsession, -⟩ := hlive
  obtain ⟨service', hid', hinactive⟩ := TimedServices.mem_inactive.mp hnoted
  obtain rfl : service = service' := Option.some.inj (hid.symm.trans hid')
  unfold TimedService.isInactive at hinactive
  split at hinactive
  next hidle =>
    rw [Bool.and_eq_true, Bool.not_eq_true', decide_eq_true_eq] at hidle
    exact ⟨service, hid, hidle.1, hidle.2⟩
  next =>
    -- it has a session, so it is not empty
    simp only [Bool.and_eq_true, List.isEmpty_iff] at hinactive
    have hmem := AList.mem_lookup_iff.mp hsession
    rw [hinactive.1.2] at hmem
    cases hmem

/-- What is to be removed was noted by the last cleanup. -/
theorem exists_cleanup {labels : List Event} (h : system.Run labels s) (hnoted : id ∈ s.toRemove) :
    ∃ done since s₀ s₁, labels = done ++ .cleanup :: since ∧ system.Run done s₀ ∧
      system.step s₀ .cleanup s₁ ∧ system.Steps s₁ since s ∧ (∀ a ∈ since, a ≠ .cleanup) := by
  induction h with
  | start h =>
    subst h
    cases hnoted
  | @snoc as s a s' hrun hstep ih =>
    by_cases hcleanup : a = .cleanup
    · subst hcleanup
      exact ⟨as, [], s, s', rfl, hrun, hstep, .refl, by simp⟩
    · obtain ⟨done, since, s₀, s₁, rfl, hdone, hcl, hsteps, hsince⟩ :=
        ih ((next_rest hstep).2.2 hcleanup hnoted)
      refine ⟨done, since ++ [a], s₀, s₁, ?_, hdone, hcl, .snoc hsteps hstep, ?_⟩
      · rw [List.append_assoc, List.cons_append]
      · intro b hb
        rcases List.mem_append.mp hb with hb | hb
        · exact hsince b hb
        · rw [List.mem_singleton.mp hb]
          exact hcleanup

/-! ## Services nothing touches -/

/-- No service has a time to come. -/
theorem lastActivity_le_now (h : system.Reachable s) {service : TimedService}
    (hid : s.services.lookup id = some service) : service.lastActivity ≤ s.now := by
  refine h.invariant
    (I := fun s => ∀ id service, s.services.lookup id = some service → service.lastActivity ≤ s.now)
    ?_ ?_ id service hid
  · rintro s rfl id service hid
    cases hid
  · intro s a s' hI hstep id service' hid
    refine le_trans ?_ (next_rest hstep).1
    rcases lookup_next hstep hid with ⟨service, hservice, hfrom⟩ | ⟨-, hnew, -⟩
    · rcases hfrom.time with hold | ⟨-, hnew⟩
      · rw [hold]
        exact hI id service hservice
      · rw [hnew]
    · rw [hnew]

theorem touches_of_connects (h : a.connects id) : a.touches id := by
  cases a with
  | connect => exact h
  | _ => cases h

/-- Where nothing touches a service, its time stays. -/
theorem lastActivity_le_of_steps {as : List Event} {s₀ : TerminalCleanup}
    (h₀ : system.Reachable s₀) (h : system.Steps s₀ as s) (has : ∀ a ∈ as, ¬ a.touches id)
    {service : TimedService} (hid : s.services.lookup id = some service) :
    service.lastActivity ≤ s₀.now := by
  refine h.invariant (P := fun a => ¬ a.touches id)
    (I := fun s => ∀ service, s.services.lookup id = some service → service.lastActivity ≤ s₀.now)
    ?_ has ?_ service hid
  · intro s a s' ha hI hstep service' hid
    rcases lookup_next hstep hid with ⟨service, hservice, hfrom⟩ | ⟨hconnects, -⟩
    · rcases hfrom.time with hold | ⟨htouches, -⟩
      · rw [hold]
        exact hI service hservice
      · exact absurd htouches ha
    · exact absurd (touches_of_connects hconnects) ha
  · exact fun service hid => lastActivity_le_now h₀ hid

theorem isInactive_of_idle {service : TimedService} {now : Nat}
    (hidle : serviceIdleTimeout * 2 < now - service.lastActivity)
    (hempty : service.isPersistent = true → service.sessions = ∅) :
    service.isInactive now = true := by
  unfold TimedService.isInactive
  cases hpersistent : service.isPersistent with
  | true =>
    rw [hempty hpersistent]
    simp only [Bool.not_true, Bool.false_and, Bool.false_eq_true, if_false, Bool.true_and]
    rw [Bool.and_eq_true, decide_eq_true_eq]
    exact ⟨rfl, hidle⟩
  | false =>
    have hlong : now - service.lastActivity > serviceIdleTimeout := by omega
    simp [hlong]

/-- A service that is noted for removal is there no longer when the cleanup is done, unless somebody
connects to it again. -/
theorem removed_of_noted {since : List Event} (h : system.Steps s since s')
    (hnoted : id ∈ s.toRemove) (hsince : ∀ a ∈ since, ¬ a.connects id) (hdone : s'.toRemove = []) :
    id ∉ s'.services := by
  have hkept := h.invariant (P := fun a => ¬ a.connects id)
    (I := fun s => id ∈ s.toRemove ∨ id ∉ s.services) ?_ hsince (.inl hnoted)
  · rcases hkept with hnoted' | hgone
    · rw [hdone] at hnoted'
      cases hnoted'
    · exact hgone
  intro s a s' ha hI hstep
  by_cases hgone : id ∈ s.services
  · have hmem := hI.resolve_right (not_not_intro hgone)
    cases a with
    | cleanup =>
      -- none begins before this one is done
      rw [(next_cleanup hstep).1] at hmem
      cases hmem
    | removeService serviceId =>
      simp only [system, System.stepping, next] at hstep
      split at hstep
      · obtain rfl := Option.some.inj hstep
        by_cases hsame : id = serviceId
        · subst hsame
          exact .inr fun hin => (AList.mem_erase.mp hin).1 rfl
        · exact .inl ((List.mem_erase_of_ne hsame).mpr hmem)
      · cases hstep
    | _ =>
      obtain rfl := Option.some.inj hstep
      exact .inl hmem
  · right
    intro hin
    obtain ⟨service', hid⟩ := Option.isSome_iff_exists.mp (AList.lookup_isSome.mpr hin)
    rcases lookup_next hstep hid with ⟨service, hservice, -⟩ | ⟨hconnects, -⟩
    · exact hgone (AList.lookup_isSome.mp (Option.isSome_iff_exists.mpr ⟨service, hservice⟩))
    · exact ha hconnects

/-! ## What a cleanup removes -/

/-- **What the cleanup removes.** In every run, a service that is removed while it has an opened
terminal with a live shell was not persistent and idle when the cleanup looked, or has had a
terminal opened since. And when nothing has touched a service for more than twice the timeout, the
next cleanup removes it, unless it is persistent and has a session. -/
theorem cleanup_removes :
    (∀ {labels : List Event} {s s' : TerminalCleanup} {id : String}, system.Run labels s →
      system.step s (.removeService id) s' → s.Live id →
        ∃ done since s₀ s₁, labels = done ++ .cleanup :: since ∧ system.Run done s₀ ∧
          system.step s₀ .cleanup s₁ ∧ system.Steps s₁ since s ∧ (∀ a ∈ since, a ≠ .cleanup) ∧
          ((∃ a ∈ since, a.opens id) ∨ s₀.Idle id)) ∧
    (∀ {as since : List Event} {s₀ s s₁ s' : TerminalCleanup} {id : String}
      {service : TimedService}, system.Reachable s₀ → system.Steps s₀ as s →
      (∀ a ∈ as, ¬ a.touches id) → serviceIdleTimeout * 2 < s.now - s₀.now →
      s.services.lookup id = some service →
      (service.isPersistent = true → service.sessions = ∅) → system.step s .cleanup s₁ →
      system.Steps s₁ since s' → (∀ a ∈ since, ¬ a.connects id) → s'.toRemove = [] →
        id ∉ s'.services) := by
  constructor
  · intro labels s s' id hrun hremove hlive
    have hnoted : id ∈ s.toRemove := by
      simp only [system, System.stepping, next] at hremove
      split at hremove
      next hnoted => exact hnoted
      next => cases hremove
    obtain ⟨done, since, s₀, s₁, hlabels, hdone, hcleanup, hsteps, hsince⟩ :=
      exists_cleanup hrun hnoted
    refine ⟨done, since, s₀, s₁, hlabels, hdone, hcleanup, hsteps, hsince, ?_⟩
    rw [or_iff_not_imp_left]
    intro hopens
    obtain ⟨-, rfl⟩ := next_cleanup hcleanup
    -- back to the cleanup, step by step: it was in use there, and it was noted
    have hback := hsteps.invariant (P := fun a => a ≠ .cleanup ∧ ¬ a.opens id)
      (I := fun s => (s.Live id → s₀.Live id) ∧
        (id ∈ s.toRemove → id ∈ s₀.services.inactive s₀.now))
      ?_ (fun a ha => ⟨hsince a ha, fun hopen => hopens ⟨a, ha, hopen⟩⟩)
      ⟨fun hlive => hlive, fun hnoted => hnoted⟩
    · exact idle_of_live (hback.1 hlive) (hback.2 hnoted)
    rintro s a s' ⟨hne, hopen⟩ ⟨hlive, hnoted⟩ hstep
    exact ⟨fun hlive' => hlive (live_of_next hopen hlive' hstep),
      fun hmem => hnoted ((next_rest hstep).2.2 hne hmem)⟩
  · intro as since s₀ s s₁ s' id service h₀ hsteps has hlong hid hempty hcleanup hsince hquiet hdone
    refine removed_of_noted hsince ?_ hquiet hdone
    obtain ⟨-, rfl⟩ := next_cleanup hcleanup
    have htime := lastActivity_le_of_steps h₀ hsteps has hid
    refine TimedServices.mem_inactive.mpr ⟨service, hid, isInactive_of_idle ?_ hempty⟩
    omega

/-- A terminal is opened, and nothing is typed for more than two hours. -/
def openedAndLeft : List Event :=
  [.connect "ts" false, .action "ts" (.opened 1 24 80) ⟨.ok 100, .ok (), .ok ()⟩]

def elapses : List Event := [.tick (serviceIdleTimeout * 2 + 1)]

/-- The service is not persistent: it is noted for removal with its terminal in use. -/
theorem exists_openedAndLeft :
    ∃ s₀ s s₁ s', system.Run openedAndLeft s₀ ∧ system.Steps s₀ elapses s ∧
      system.step s .cleanup s₁ ∧ system.step s₁ (.removeService "ts") s' ∧
      s.now - s₀.now = serviceIdleTimeout * 2 + 1 ∧
      (∃ service, s.services.lookup "ts" = some service ∧ service.isPersistent = false) ∧
      s₁.Live "ts" ∧ s'.toRemove = [] := by
  obtain ⟨s₀, h₀⟩ : ∃ s, openedAndLeft.foldlM next start = some s := ⟨_, rfl⟩
  obtain ⟨s, h⟩ : ∃ s, elapses.foldlM next s₀ = some s := ⟨_, rfl⟩
  have hrun := (System.Run.start rfl : system.Run [] start).of_foldlM (fun hnext => hnext) h₀
  have hsteps : system.Steps s₀ elapses s := System.Steps.of_foldlM (fun hnext => hnext) h
  obtain rfl := Option.some.inj h₀
  obtain rfl := Option.some.inj h
  exact ⟨_, _, _, _, hrun, hsteps, rfl, rfl, rfl, ⟨_, rfl, rfl⟩,
    ⟨_, rfl, 1, _, rfl, rfl, by decide⟩, rfl⟩

/-- A terminal that is only watched goes with its service. -/
theorem not_cleanup_keeps_live :
    ¬ ∀ {labels : List Event} {s s' : TerminalCleanup} {id : String}, system.Run labels s →
      system.step s (.removeService id) s' → ¬ s.Live id := by
  intro h
  obtain ⟨s₀, s, s₁, s', hrun, hsteps, hcleanup, hremove, -, -, hlive, -⟩ := exists_openedAndLeft
  exact h ((hrun.steps hsteps).snoc hcleanup) hremove hlive

theorem cleanup_removes_openedAndLeft :
    ∃ s₀ s s₁ s', system.Run openedAndLeft s₀ ∧ system.Steps s₀ elapses s ∧
      system.step s .cleanup s₁ ∧ system.step s₁ (.removeService "ts") s' ∧
      (∃ done since s₀' s₁', openedAndLeft ++ elapses ++ [.cleanup] = done ++ .cleanup :: since ∧
        system.Run done s₀' ∧ system.step s₀' .cleanup s₁' ∧ system.Steps s₁' since s₁ ∧
        (∀ a ∈ since, a ≠ .cleanup) ∧ ((∃ a ∈ since, a.opens "ts") ∨ s₀'.Idle "ts")) ∧
      "ts" ∉ s'.services := by
  obtain ⟨s₀, s, s₁, s', hrun, hsteps, hcleanup, hremove, hlong, ⟨service, hid, hpersistent⟩, hlive,
    hdone⟩ := exists_openedAndLeft
  refine ⟨s₀, s, s₁, s', hrun, hsteps, hcleanup, hremove,
    cleanup_removes.1 ((hrun.steps hsteps).snoc hcleanup) hremove hlive,
    cleanup_removes.2 ⟨_, hrun⟩ hsteps ?_ ?_ hid ?_ hcleanup (.snoc .refl hremove) ?_ hdone⟩
  · exact fun a ha => by
      rw [List.mem_singleton.mp ha]
      exact id
  · rw [hlong]
    exact Nat.lt_succ_self _
  · rw [hpersistent]
    exact fun hf => absurd hf Bool.false_ne_true
  · intro a ha
    rw [List.nil_append, List.mem_singleton] at ha
    rw [ha]
    exact id

end TerminalCleanup

end HopToDesk.Host
