import HopToDesk.Host.Whiteboard

/-!
# The task runs while there are connections

A thread acts on what another has seen before: the one that ends the task on connections that were
none, and the one that finds a task already on a sender that is about to go. Runs in which these do
not go wrong are those of `InOrder`. In them whoever wants the task has it or has a thread that is
to start it, and a task that nobody wants has a thread that is to end it (`Tended`), which leaves
nothing else once all threads are done.
-/

set_option autoImplicit false

namespace HopToDesk.Host.Whiteboard

open Kit

/-- In its loop, and not told to leave it. -/
def Task.Working (task : Task) : Prop := task.stage = .running ∧ ∀ m ∈ task.queue, m.2 ≠ .exit

namespace Lifecycle

/-- There is a connection, or one on its way. -/
def Wanted (s : Lifecycle) : Prop := s.conns ≠ [] ∨ s.registering ≠ []

/-- A thread is to end the task, or a removal is to spawn one. -/
def Unwinding (s : Lifecycle) : Prop := 0 < s.exits ∨ s.unregistering.any Prod.snd = true

/-- The task is not started for nobody, not ended for somebody who has no thread that starts it
again, and what a task takes out when it returns is not the sender of a later one. -/
def InOrder (s : Lifecycle) : LifecycleStep → Prop
  | .startDone => s.Wanted ∨ s.Unwinding
  | .exitLock => s.tx ≠ none → s.Wanted → 0 < s.starts
  | .finish _ => s.tx = none
  | _ => True

instance (s : Lifecycle) : Decidable s.Wanted :=
  inferInstanceAs (Decidable (s.conns ≠ [] ∨ s.registering ≠ []))

instance (s : Lifecycle) : Decidable s.Unwinding :=
  inferInstanceAs (Decidable (0 < s.exits ∨ s.unregistering.any Prod.snd = true))

instance (s : Lifecycle) (a : LifecycleStep) : Decidable (InOrder s a) := by
  cases a <;> unfold InOrder <;> infer_instance

/-- No registration or removal is going on, no thread is to start the task or to end it, and no task
is told to exit or on its way out. -/
structure Settled (s : Lifecycle) : Prop where
  lock : s.lock = none
  starts : s.starts = 0
  exits : s.exits = 0
  registering : s.registering = []
  unregistering : s.unregistering = []
  tasks : ∀ task ∈ s.tasks, task.stage ≠ .leaving ∧
    (task.stage = .running → ∀ m ∈ task.queue, m.2 ≠ .exit)

/-- There are connections exactly while a task runs whose sender is there. -/
def Coherent (s : Lifecycle) : Prop :=
  s.conns ≠ [] ↔ ∃ t task, s.tx = some t ∧ s.tasks[t]? = some task ∧ task.stage = .running

/-- What holds between the steps of the threads. -/
structure Tended (s : Lifecycle) : Prop where
  sender : ∀ t, s.tx = some t → s.lock ≠ some .exiting → ∃ task, s.tasks[t]? = some task ∧
    task.Working
  served : s.Wanted → (s.tx ≠ none ∧ s.lock ≠ some .exiting) ∨ 0 < s.starts ∨
    s.lock = some .starting
  wanted : s.tx ≠ none → s.lock ≠ some .exiting → s.Wanted ∨ s.Unwinding
  starting : s.lock = some .starting → s.tx = none

theorem tended_new : new.Tended where
  sender := by
    rintro t ⟨⟩
  served := by
    rintro (h | h) <;> exact absurd rfl h
  wanted := fun h => absurd rfl h
  starting := fun _ => rfl

variable {s s' : Lifecycle} {k : Text} {t : Nat} {task : Task}

/-- **With nothing going on, what is wanted is what is there.** -/
theorem Tended.coherent (h : s.Tended) (hsettled : s.Settled) : s.Coherent := by
  have hlock : s.lock ≠ some .exiting := by
    rw [hsettled.lock]
    exact Option.some_ne_none _ |>.symm
  constructor
  · intro hconns
    rcases h.served (.inl hconns) with ⟨htx, -⟩ | hstarts | hstarting
    · obtain ⟨t, ht⟩ := Option.ne_none_iff_exists'.mp htx
      obtain ⟨task, htask, hworking⟩ := h.sender t ht hlock
      exact ⟨t, task, ht, htask, hworking.1⟩
    · rw [hsettled.starts] at hstarts
      exact absurd hstarts (lt_irrefl 0)
    · rw [hsettled.lock] at hstarting
      cases hstarting
  · rintro ⟨t, task, ht, -, -⟩
    have htx : s.tx ≠ none := by
      rw [ht]
      exact Option.some_ne_none t
    rcases h.wanted htx hlock with (hconns | hregistering) | (hexits | hunregistering)
    · exact hconns
    · exact absurd hsettled.registering hregistering
    · rw [hsettled.exits] at hexits
      exact absurd hexits (lt_irrefl 0)
    · rw [hsettled.unregistering] at hunregistering
      cases hunregistering

/-! ## The steps -/

/-- Sending changes the queue of a task. -/
theorem send_eq (s : Lifecycle) (k : Text) (event : CustomEvent) :
    ∃ tasks, s.send k event = { s with tasks } ∧ ∀ t task, s.tx = some t →
      s.tasks[t]? = some task →
        tasks[t]? = some { task with queue := task.queue ++ [(k, event)] } := by
  unfold send
  split
  next hnone =>
    refine ⟨s.tasks, rfl, ?_⟩
    intro t task ht
    rw [hnone] at ht
    cases ht
  next t ht =>
    refine ⟨_, rfl, ?_⟩
    intro t' task ht' htask
    cases ht.symm.trans ht'
    rw [List.getElem?_modify_eq, htask]
    rfl

theorem Tended.register (h : s.Tended) (k : Text) :
    Tended { s with starts := s.starts + 1, registering := k :: s.registering } where
  sender := h.sender
  served := fun _ => .inr (.inl (Nat.succ_pos _))
  wanted := fun _ _ => .inl (.inr (List.cons_ne_nil _ _))
  starting := h.starting

/-- A registration that gets to the connections was wanted before. -/
theorem Tended.insert (h : s.Tended) (hk : k ∈ s.registering) :
    Tended { s with
      conns := if k ∈ s.conns then s.conns else k :: s.conns
      registering := s.registering.erase k } where
  sender := h.sender
  served := fun _ => h.served (.inr (List.ne_nil_of_mem hk))
  wanted := by
    refine fun _ _ => .inl (.inl ?_)
    dsimp only
    split
    next hmem => exact List.ne_nil_of_mem hmem
    next => exact List.cons_ne_nil _ _
  starting := h.starting

/-- A removal that leaves no connection is to spawn a thread. -/
theorem Tended.unregister (h : s.Tended) (k : Text) : (s.unregister k).Tended where
  sender := h.sender
  served := by
    rintro (hconns | hregistering)
    · refine h.served (.inl ?_)
      rintro hnone
      dsimp only [Lifecycle.unregister] at hconns
      rw [hnone] at hconns
      exact hconns rfl
    · exact h.served (.inr hregistering)
  wanted := by
    intro htx hlock
    unfold Wanted Unwinding Lifecycle.unregister
    dsimp only
    rw [List.any_cons]
    cases hempty : (s.conns.filter (· ≠ k)).isEmpty with
    | true => exact .inr (.inr rfl)
    | false =>
      have hne := List.isEmpty_eq_false_iff.mp hempty
      exact .inl (.inl hne)
  starting := h.starting

/-- A removal that goes on to the sender is as good as the thread it spawns. -/
theorem Unwinding.clear {isConnsEmpty : Bool} (h : s.Unwinding) :
    0 < (if isConnsEmpty then s.exits + 1 else s.exits) ∨
      (s.unregistering.erase (k, isConnsEmpty)).any Prod.snd = true := by
  cases isConnsEmpty with
  | true => exact .inl (Nat.succ_pos _)
  | false =>
    rcases h with hexits | hany
    · exact .inl hexits
    · obtain ⟨x, hx, hflag⟩ := List.any_eq_true.mp hany
      refine .inr (List.any_eq_true.mpr ⟨x, ?_, hflag⟩)
      refine (List.mem_erase_of_ne ?_).mpr hx
      rintro rfl
      cases hflag

theorem Working.snoc {event : CustomEvent} (h : task.Working) (hevent : event ≠ .exit) :
    Task.Working { task with queue := task.queue ++ [(k, event)] } := by
  refine ⟨h.1, ?_⟩
  rw [List.forall_mem_append, List.forall_mem_singleton]
  exact ⟨h.2, hevent⟩

theorem Tended.clear (h : s.Tended) (k : Text) (isConnsEmpty : Bool) :
    (s.clear k isConnsEmpty).Tended := by
  obtain ⟨tasks, hsend, htasks⟩ :=
    send_eq { s with unregistering := s.unregistering.erase (k, isConnsEmpty) } k .clear
  have heq : s.clear k isConnsEmpty = { s with
      unregistering := s.unregistering.erase (k, isConnsEmpty)
      tasks
      exits := if isConnsEmpty then s.exits + 1 else s.exits } := by
    unfold Lifecycle.clear
    rw [hsend]
    cases isConnsEmpty <;> rfl
  rw [heq]
  refine ⟨?_, h.served, ?_, h.starting⟩
  · intro t ht hlock
    obtain ⟨task, htask, hworking⟩ := h.sender t ht hlock
    refine ⟨_, htasks t task ht htask, Working.snoc hworking ?_⟩
    rintro ⟨⟩
  · intro htx hlock
    exact (h.wanted htx hlock).imp_right Unwinding.clear

theorem Tended.startLock (h : s.Tended) (hlock : s.lock = none) : s.startLock.Tended where
  sender := by
    intro t ht hexiting
    refine h.sender t ht ?_
    rw [hlock]
    exact (Option.some_ne_none _).symm
  served := by
    intro hwanted
    unfold Lifecycle.startLock
    cases htx : s.tx with
    | none => exact .inr (.inr rfl)
    | some t => exact .inl ⟨Option.some_ne_none t, (Option.some_ne_none _).symm⟩
  wanted := by
    intro htx hexiting
    refine h.wanted htx ?_
    rw [hlock]
    exact (Option.some_ne_none _).symm
  starting := by
    unfold Lifecycle.startLock
    dsimp only
    split
    next => 
      intro hnone
      cases hnone
    next htx => exact fun _ => Option.not_isSome_iff_eq_none.mp htx

/-- The task is new, and whoever wants it has it. -/
theorem tended_startDone (hneeded : s.Wanted ∨ s.Unwinding) : s.startDone.Tended where
  sender := by
    rintro t ⟨⟩ -
    refine ⟨⟨.running, []⟩, ?_, rfl, List.forall_mem_nil _⟩
    exact List.getElem?_concat_length
  served := fun _ => .inl ⟨Option.some_ne_none _, (Option.some_ne_none _).symm⟩
  wanted := fun _ _ => hneeded
  starting := by
    rintro ⟨⟩

theorem Tended.exitLock (h : s.Tended) (hlock : s.lock = none)
    (hstarts : s.tx ≠ none → s.Wanted → 0 < s.starts) : s.exitLock.Tended := by
  unfold Lifecycle.exitLock
  obtain ⟨tasks, heq, -⟩ := send_eq { s with exits := s.exits - 1, lock := some .exiting } [] .exit
  rw [heq]
  refine ⟨?_, ?_, ?_, ?_⟩
  · exact fun _ _ hlock => absurd rfl hlock
  · intro hwanted
    rcases h.served hwanted with ⟨htx, -⟩ | hserved | hstarting
    · exact .inr (.inl (hstarts htx hwanted))
    · exact .inr (.inl hserved)
    · rw [hlock] at hstarting
      cases hstarting
  · exact fun _ hlock => absurd rfl hlock
  · rintro ⟨⟩

theorem Tended.exitDone (h : s.Tended) (hlock : s.lock = some .exiting) :
    Tended { s with tx := none, lock := none } where
  sender := by
    rintro t ⟨⟩
  served := by
    intro hwanted
    rcases h.served hwanted with ⟨-, hexiting⟩ | hstarts | hstarting
    · exact absurd hlock hexiting
    · exact .inr (.inl hstarts)
    · rw [hlock] at hstarting
      cases hstarting
  wanted := fun htx => absurd rfl htx
  starting := fun _ => rfl

/-- The task whose sender there is goes on working; what becomes of the others is their own. -/
theorem Tended.set_task (h : s.Tended) {task' : Task} (htask : s.tasks[t]? = some task)
    (hworking : s.tx = some t → task.Working → task'.Working) :
    Tended { s with tasks := s.tasks.set t task' } where
  sender := by
    intro t' ht' hlock
    obtain ⟨task₁, htask₁, hworking₁⟩ := h.sender t' ht' hlock
    by_cases hsame : t = t'
    · subst hsame
      cases htask.symm.trans htask₁
      refine ⟨task', ?_, hworking ht' hworking₁⟩
      rw [List.getElem?_set_self (List.getElem?_eq_some_iff.mp htask).1]
    · refine ⟨task₁, ?_, hworking₁⟩
      rw [List.getElem?_set_ne hsame]
      exact htask₁
  served := h.served
  wanted := h.wanted
  starting := h.starting

theorem Tended.receive (h : s.Tended) (htask : s.tasks[t]? = some task)
    (hs : s.receive t task = some s') : s'.Tended := by
  unfold Lifecycle.receive at hs
  split at hs
  next k queue hqueue =>
    cases hs
    refine h.set_task htask fun _ hworking => ?_
    exact absurd rfl (hworking.2 (k, .exit) (hqueue ▸ List.mem_cons_self))
  next m queue hne hqueue =>
    cases hs
    refine h.set_task htask fun _ hworking => ⟨rfl, fun m hm => ?_⟩
    exact hworking.2 m (hqueue ▸ List.mem_cons_of_mem _ hm)
  next hqueue =>
    split at hs
    next => cases hs
    next hgone =>
      cases hs
      exact h.set_task htask fun htx => absurd htx hgone

theorem Tended.finish (h : s.Tended) (htx : s.tx = none)
    {tasks : List Task} : Tended { s with tx := none, tasks } where
  sender := by
    rintro t ⟨⟩
  served := by
    intro hwanted
    rcases h.served hwanted with ⟨hsome, -⟩ | hserved
    · exact absurd htx hsome
    · exact .inr hserved
  wanted := fun hne => absurd rfl hne
  starting := fun _ => rfl

/-! ## Every step -/

theorem next_receive (s : Lifecycle) (t : Nat) :
    s.next (.receive t) = (s.tasks[t]?).bind fun task =>
      if task.stage = .running then s.receive t task else none := by
  dsimp only [Lifecycle.next]
  cases s.tasks[t]? <;> rfl

theorem next_finish (s : Lifecycle) (t : Nat) :
    s.next (.finish t) = (s.tasks[t]?).bind fun task =>
      if task.stage = .leaving ∧ s.lock = none then
        some { s with tx := none, tasks := s.tasks.set t { task with stage := .returned } }
      else none := by
  dsimp only [Lifecycle.next]
  cases s.tasks[t]? <;> rfl

/-- **One step.** -/
theorem Tended.next (h : s.Tended) {a : LifecycleStep} (horder : InOrder s a)
    (hs : s.next a = some s') : s'.Tended := by
  cases a with
  | register k =>
    cases hs
    exact h.register k
  | insert k =>
    simp only [Lifecycle.next, Option.ite_none_right_eq_some] at hs
    obtain ⟨hk, hs⟩ := hs
    cases hs
    exact h.insert hk
  | unregister k =>
    cases hs
    exact h.unregister k
  | clear k isConnsEmpty =>
    simp only [Lifecycle.next, Option.ite_none_right_eq_some] at hs
    cases hs.2
    exact h.clear k isConnsEmpty
  | startLock =>
    simp only [Lifecycle.next, Option.ite_none_right_eq_some] at hs
    cases hs.2
    exact h.startLock hs.1.2
  | startDone =>
    simp only [Lifecycle.next, Option.ite_none_right_eq_some] at hs
    cases hs.2
    exact tended_startDone horder
  | exitLock =>
    simp only [Lifecycle.next, Option.ite_none_right_eq_some] at hs
    cases hs.2
    exact h.exitLock hs.1.2 horder
  | exitDone =>
    simp only [Lifecycle.next, Option.ite_none_right_eq_some] at hs
    cases hs.2
    exact h.exitDone hs.1
  | receive t =>
    rw [next_receive, Option.bind_eq_some_iff] at hs
    obtain ⟨task, htask, hs⟩ := hs
    rw [Option.ite_none_right_eq_some] at hs
    exact h.receive htask hs.2
  | finish t =>
    rw [next_finish, Option.bind_eq_some_iff] at hs
    obtain ⟨task, -, hs⟩ := hs
    rw [Option.ite_none_right_eq_some] at hs
    cases hs.2
    exact h.finish horder

theorem tended_of_reachable (h : (lifecycle.restrict InOrder).Reachable s) : s.Tended := by
  refine h.invariant (I := Tended) ?_ ?_
  · rintro s rfl
    exact tended_new
  · rintro s a s' htended ⟨horder, hs⟩
    exact htended.next horder hs

/-- While no start or exit is going on there are connections exactly when a task runs whose sender
is there, as long as no task is started that nobody wants, none is told to exit that somebody wants
who has no thread to start it, and none clears the sender of a later one. -/
theorem task_while_connected (h : (lifecycle.restrict InOrder).Reachable s)
    (hsettled : s.Settled) : s.Coherent :=
  (tended_of_reachable h).coherent hsettled

end Lifecycle

open Lifecycle

/-- A viewer comes and goes, and another one comes when all is over. -/
def oneAfterTheOther : List LifecycleStep :=
  [.register ['1'], .insert ['1'], .startLock, .startDone, .unregister ['1'], .clear ['1'] true,
    .exitLock, .exitDone, .receive 0, .receive 0, .finish 0, .register ['2'], .startLock,
    .insert ['2'], .startDone]

theorem task_while_connected_again : ∃ s : Lifecycle, s.conns = [['2']] ∧ s.Settled ∧
    s.Coherent := by
  obtain ⟨s, hrun, hconns, hsettled⟩ : ∃ s, (lifecycle.restrict InOrder).Run oneAfterTheOther s ∧
      s.conns = [['2']] ∧ s.Settled := by
    refine ⟨_, .of_follow rfl rfl, rfl, rfl, rfl, rfl, rfl, rfl, ?_⟩
    decide
  exact ⟨s, hconns, hsettled, task_while_connected ⟨_, hrun⟩ hsettled⟩

/-- The second viewer comes before the thread that is to end the task for the first. -/
def quickReconnect : List LifecycleStep :=
  [.register ['1'], .insert ['1'], .startLock, .startDone, .unregister ['1'], .clear ['1'] true,
    .register ['2'], .insert ['2'], .startLock, .exitLock, .exitDone, .receive 0, .receive 0,
    .finish 0]

/-- It finds the task started, and then the task ends. -/
theorem reconnect_loses_task : ¬ ∀ s : Lifecycle, lifecycle.Reachable s → s.Settled →
    s.Coherent := by
  intro hall
  obtain ⟨s, hrun, hconns, htx, hsettled⟩ : ∃ s, lifecycle.Run quickReconnect s ∧
      s.conns ≠ [] ∧ s.tx = none ∧ s.Settled := by
    refine ⟨_, .of_foldlM (fun hs => hs) (.start rfl) rfl, List.cons_ne_nil _ _, rfl, rfl, rfl, rfl,
      rfl, rfl, ?_⟩
    decide
  obtain ⟨t, task, ht, -, -⟩ := (hall s ⟨_, hrun⟩ hsettled).mp hconns
  cases htx.symm.trans ht

end HopToDesk.Host.Whiteboard
