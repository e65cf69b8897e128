import HopToDesk.Host.Mediator

/-!
# When a restart is lost

A round clears `SHOULD_EXIT` after it has read the option. A restart that comes between the two is
forgotten: the tasks of the round serve, from what was read before. Where no restart comes there,
the flag is false only as long as nothing has been restarted since (`Inv`).
-/

set_option autoImplicit false

namespace HopToDesk.Host

open Kit

/-- The values that the round has read, by the restarts that had returned. -/
def StartAll.readAt : StartAll → List Nat
  | .looping => []
  | .stopServiceRead stopService => [stopService.restarts]
  | .serversFetched stopService servers => [stopService.restarts, servers.restarts]
  | .exitCleared stopService servers => [stopService.restarts, servers.restarts]
  | .joining stopService servers _ => [stopService.restarts, servers.restarts]
  | .joined => []

namespace Mediator

variable {s s' : Mediator}

/-- A round has read the option and not seen a restart: it is about to clear the flag, or the flag
is still false. -/
def Going (s : Mediator) : Prop :=
  s.startAll.readAt ≠ [] ∧ (s.startAll.deciding = false → s.shouldExit = false)

/-- While a round goes, nothing has been restarted since it read, and the service is stopped only by
callers that have yet to restart. -/
structure Fresh (s : Mediator) : Prop where
  restarting : s.restarting = ∅
  readAt : ∀ n ∈ s.startAll.readAt, n = s.restarts
  stopService : s.stopService = [] ∨ s.wrote.Nonempty

def Inv (s : Mediator) : Prop := s.Going → s.Fresh

/-- A step of `start_all` or a task that starts no round: a round that goes after it went before. -/
theorem Inv.keep (h : s.Inv) (hgoing : s'.Going → s.Going) (hread : s'.startAll.readAt ⊆
    s.startAll.readAt ++ [s.restarts]) (hrestarting : s'.restarting = s.restarting)
    (hrestarts : s'.restarts = s.restarts) (hwrote : s'.wrote = s.wrote)
    (hstop : s'.stopService = s.stopService) : s'.Inv := by
  intro hgoing'
  have hfresh := h (hgoing hgoing')
  constructor
  · rw [hrestarting]
    exact hfresh.restarting
  · intro n hn
    rw [hrestarts]
    rcases List.mem_append.mp (hread hn) with hn | hn
    · exact hfresh.readAt n hn
    · exact List.mem_singleton.mp hn
  · rw [hstop, hwrote]
    exact hfresh.stopService

/-- A task goes on only while the others are waited for. -/
theorem setTask_cases {task : Nat} {before after : StartTask}
    (hstep : s.setTask task before after = some s') :
    ∃ stopService servers tasks, s.startAll = .joining stopService servers tasks ∧
      s' = { s with startAll := .joining stopService servers (tasks.set task after) } := by
  cases hat : s.startAll
  case joining stopService servers tasks =>
    simp only [Mediator.setTask, hat] at hstep
    split at hstep
    case isFalse => cases hstep
    case isTrue => exact ⟨_, _, _, rfl, (Option.some.inj hstep).symm⟩
  all_goals simp only [Mediator.setTask, hat, reduceCtorEq] at hstep

theorem Inv.setTask {task : Nat} {before after : StartTask} (h : s.Inv)
    (hstep : s.setTask task before after = some s') : s'.Inv := by
  obtain ⟨stopService, servers, tasks, hat, rfl⟩ := setTask_cases hstep
  refine h.keep ?_ ?_ rfl rfl rfl rfl
  · rintro ⟨-, hexit⟩
    refine ⟨by rw [hat]; exact List.cons_ne_nil _ _, fun _ => hexit rfl⟩
  · rw [hat]
    exact List.subset_append_left _ _

theorem setTask_shape {task : Nat} {before after : StartTask}
    (hstep : s.setTask task before after = some s') :
    s'.startAll.deciding = false := by
  obtain ⟨stopService, servers, tasks, -, rfl⟩ := setTask_cases hstep
  rfl

/-- One step, where restarts keep apart. -/
theorem Inv.next {step : MediatorStep} (h : s.Inv) (hapart : s.Apart step)
    (hstep : s.next step = some s') : s'.Inv := by
  cases step with
  | setOption caller value =>
    simp only [Mediator.next] at hstep
    split at hstep
    case isTrue => cases hstep
    case isFalse =>
      cases hstep
      intro hgoing
      have hfresh := h hgoing
      exact ⟨hfresh.restarting, hfresh.readAt, .inr (Finset.insert_nonempty _ _)⟩
  | storeShouldExit caller =>
    simp only [Mediator.next] at hstep
    split at hstep
    case isFalse => cases hstep
    case isTrue =>
      cases hstep
      rintro ⟨-, hexit⟩
      cases hexit hapart
  | storeManualRestarted caller =>
    simp only [Mediator.next] at hstep
    split at hstep
    case isFalse => cases hstep
    case isTrue hmem =>
      cases hstep
      intro hgoing
      have hfresh := h hgoing
      rw [hfresh.restarting] at hmem
      cases hmem
  | readStopService =>
    cases hat : s.startAll
    case looping =>
      simp only [Mediator.next, hat] at hstep
      split at hstep
      case isFalse =>
        cases hstep
        exact h
      case isTrue hempty =>
        cases hstep
        intro _
        refine ⟨hapart, ?_, .inl hempty⟩
        intro n hn
        exact List.mem_singleton.mp hn
    all_goals simp only [Mediator.next, hat, reduceCtorEq] at hstep
  | fetchServers servers =>
    cases hat : s.startAll
    case stopServiceRead stopService =>
      cases servers with
      | some servers =>
        simp only [Mediator.next, hat, Option.some.injEq] at hstep
        subst hstep
        refine h.keep ?_ ?_ rfl rfl rfl rfl
        · intro _
          rw [Going, hat]
          exact ⟨List.cons_ne_nil _ _, fun hd => by cases hd⟩
        · rw [hat]
          exact List.Subset.refl _
      | none =>
        simp only [Mediator.next, hat, Option.some.injEq] at hstep
        subst hstep
        rintro ⟨hread, -⟩
        exact absurd rfl hread
    all_goals simp only [Mediator.next, hat, reduceCtorEq] at hstep
  | clearShouldExit =>
    cases hat : s.startAll
    case serversFetched stopService servers =>
      simp only [Mediator.next, hat, Option.some.injEq] at hstep
      subst hstep
      refine h.keep ?_ ?_ rfl rfl rfl rfl
      · intro _
        rw [Going, hat]
        exact ⟨List.cons_ne_nil _ _, fun hd => by cases hd⟩
      · rw [hat]
        exact List.subset_append_left _ _
    all_goals simp only [Mediator.next, hat, reduceCtorEq] at hstep
  | clearManualRestarted =>
    cases hat : s.startAll
    case exitCleared stopService servers =>
      simp only [Mediator.next, hat, Option.some.injEq] at hstep
      subst hstep
      refine h.keep ?_ ?_ rfl rfl rfl rfl
      · rintro ⟨-, hexit⟩
        rw [Going, hat]
        exact ⟨List.cons_ne_nil _ _, fun _ => hexit rfl⟩
      · rw [hat]
        exact List.subset_append_left _ _
    all_goals simp only [Mediator.next, hat, reduceCtorEq] at hstep
  | connect task ok => exact h.setTask hstep
  | tick task => exact h.setTask hstep
  | leave task => exact h.setTask hstep
  | endTask task =>
    simp only [Mediator.next, Option.map_eq_some_iff] at hstep
    obtain ⟨s₁, hs₁, rfl⟩ := hstep
    rintro ⟨-, hexit⟩
    have hshape := setTask_shape hs₁
    cases hexit hshape
  | join =>
    cases hat : s.startAll
    case joining stopService servers tasks =>
      simp only [Mediator.next, hat] at hstep
      split at hstep
      case isFalse => cases hstep
      case isTrue =>
        cases hstep
        rintro ⟨hread, -⟩
        exact absurd rfl hread
    all_goals simp only [Mediator.next, hat, reduceCtorEq] at hstep
  | loadManualRestarted =>
    cases hat : s.startAll
    case joined =>
      simp only [Mediator.next, hat, Option.some.injEq] at hstep
      subst hstep
      rintro ⟨hread, -⟩
      exact absurd rfl hread
    all_goals simp only [Mediator.next, hat, reduceCtorEq] at hstep

theorem inv_of_run {steps : List MediatorStep}
    (h : (system.restrict Apart).Run steps s) : s.Inv := by
  refine h.invariant (I := Inv) ?_ ?_
  · rintro s ⟨stopService, rfl⟩ ⟨hread, -⟩
    exact absurd rfl hread
  · intro s step s' hs hstep
    exact hs.next hstep.1 hstep.2

/-- **No restart is lost**, in a run in which restarts keep apart from the rounds' decisions. -/
theorem startedAfterRestart_of_apart {steps : List MediatorStep}
    (h : (system.restrict Apart).Run steps s) : s.StartedAfterRestart := by
  intro stopService servers tasks hat _ hexit
  have hfresh := inv_of_run h ⟨by rw [hat]; exact List.cons_ne_nil _ _, fun _ => hexit⟩
  have hread := hfresh.readAt
  rw [hat] at hread
  exact ⟨hread _ (by simp [StartAll.readAt]), hread _ (by simp [StartAll.readAt])⟩

/-- In such a run a task serves with the flag false only while the service is not stopped, or a
caller that has stopped it has yet to restart. -/
theorem stopService_of_apart {steps : List MediatorStep} {stopService : ReadAt Text}
    {servers : ReadAt (List Text)} {tasks : List StartTask}
    (h : (system.restrict Apart).Run steps s)
    (hat : s.startAll = .joining stopService servers tasks) (hexit : s.shouldExit = false) :
    s.stopService = [] ∨ s.wrote.Nonempty :=
  (inv_of_run h ⟨by rw [hat]; exact List.cons_ne_nil _ _, fun _ => hexit⟩).stopService

/-! ## Runs -/

/-- The service is stopped and started again, and a round serves. -/
def steady : List MediatorStep :=
  [.setOption 0 ['Y'], .storeShouldExit 0, .storeManualRestarted 0, .readStopService,
    .setOption 0 [], .storeShouldExit 0, .storeManualRestarted 0, .readStopService,
    .fetchServers (some [['w']]), .clearShouldExit, .clearManualRestarted, .connect 0 true, .tick 0]

theorem startedAfterRestart_of_apart_steady : ∃ s, (system.restrict Apart).Run steady s ∧
    s.startAll = .joining ⟨[], 2⟩ ⟨[['w']], 2⟩ [.serving] ∧ s.shouldExit = false ∧
    s.StartedAfterRestart := by
  have hrun : (system.restrict Apart).Run steady _ := .of_follow ⟨[], rfl⟩ rfl
  exact ⟨_, hrun, rfl, rfl, startedAfterRestart_of_apart hrun⟩

/-- The service is stopped while the servers are fetched. -/
def forgotten : List MediatorStep :=
  [.readStopService, .setOption 0 ['Y'], .storeShouldExit 0, .storeManualRestarted 0,
    .fetchServers (some [['w']]), .clearShouldExit, .clearManualRestarted, .connect 0 true, .tick 0]

/-- The task serves on, and the option says that it should not. -/
theorem not_startedAfterRestart : ¬ ∀ s, system.Reachable s → s.StartedAfterRestart := by
  intro hall
  have hrun : (system.restrict fun _ _ => True).Run forgotten _ := .of_follow ⟨[], rfl⟩ rfl
  have hstarted := hall _ ⟨_, hrun.of_restrict⟩ _ _ _ rfl List.mem_cons_self rfl
  exact absurd hstarted.1 (by decide)

end Mediator

end HopToDesk.Host
