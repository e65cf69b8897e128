import Mathlib.Tactic
import Mathlib.Order.WellFounded

/-!
# Systems that take steps

A system is a set of first states and a relation that says which state a step with a given label
can lead to. A run is the list of labels it took; a state is reachable when some run ends in it.

Three rules. What holds at the start and is kept by every step holds in every reachable state
(`Reachable.invariant`). `restrict` keeps only the steps that satisfy a condition on the state
before and the label, which is how one says "in every run in which this is never done"; what holds
in every run holds in those (`Reachable.of_restrict`). Two common cases have a step that is a
function: `guarded`, allowed where a guard says so, and `stepping`, allowed where the function gives
a state.

A trace is a run that remembers the states it went through. Where a condition on the steps is not
only enough for a property but also what it takes, the property holds all along a trace exactly when
the condition does (`Trace.always_iff`).
-/

set_option autoImplicit false

namespace Kit

/-- The first states, and the steps. -/
structure System (σ α : Type) where
  init : σ → Prop
  step : σ → α → σ → Prop

namespace System

variable {σ α : Type}

/-- A run: the labels it took, oldest first, and the state it is in. -/
inductive Run (S : System σ α) : List α → σ → Prop
  | start {s : σ} (h : S.init s) : S.Run [] s
  | snoc {as : List α} {s : σ} {a : α} {s' : σ} (h : S.Run as s) (hs : S.step s a s') :
      S.Run (as ++ [a]) s'

def Reachable (S : System σ α) (s : σ) : Prop := ∃ as, S.Run as s

/-- The same system, taking only the steps that satisfy `P`. -/
def restrict (S : System σ α) (P : σ → α → Prop) : System σ α where
  init := S.init
  step s a s' := P s a ∧ S.step s a s'

/-- A system that steps by a function, where the guard allows it. -/
def guarded (start : σ) (guard : σ → α → Prop) (next : σ → α → σ) : System σ α where
  init s := s = start
  step s a s' := guard s a ∧ s' = next s a

variable {S : System σ α}

/-- **The invariant rule.** -/
theorem Run.invariant {I : σ → Prop} (hinit : ∀ {s}, S.init s → I s)
    (hstep : ∀ {s a s'}, I s → S.step s a s' → I s') {as : List α} {s : σ} (h : S.Run as s) :
    I s := by
  induction h with
  | start h => exact hinit h
  | snoc _ hs ih => exact hstep ih hs

/-- The invariant rule, for reachable states. -/
theorem Reachable.invariant {I : σ → Prop} (hinit : ∀ {s}, S.init s → I s)
    (hstep : ∀ {s a s'}, I s → S.step s a s' → I s') {s : σ} (h : S.Reachable s) : I s := by
  obtain ⟨as, hrun⟩ := h
  exact hrun.invariant hinit hstep

theorem Run.of_restrict {P : σ → α → Prop} {as : List α} {s : σ}
    (h : (S.restrict P).Run as s) : S.Run as s := by
  induction h with
  | start h => exact .start h
  | snoc _ hs ih => exact .snoc ih hs.2

theorem Reachable.of_restrict {P : σ → α → Prop} {s : σ} (h : (S.restrict P).Reachable s) :
    S.Reachable s := by
  obtain ⟨as, hrun⟩ := h
  exact ⟨as, hrun.of_restrict⟩

/-- A run whose labels all satisfy `P` is one of the restricted system. -/
theorem Run.restrict {P : α → Prop} {as : List α} {s : σ} (h : S.Run as s)
    (hP : ∀ a ∈ as, P a) : (S.restrict fun _ a => P a).Run as s := by
  induction h with
  | start h => exact .start h
  | snoc _ hs ih =>
    refine .snoc (ih fun a ha => hP a (List.mem_append_left _ ha)) ⟨hP _ ?_, hs⟩
    exact List.mem_append_right _ List.mem_cons_self

/-! ## Steps from any state -/

/-- Steps one after the other, with these labels, oldest first. -/
inductive Steps (S : System σ α) (s : σ) : List α → σ → Prop
  | refl : S.Steps s [] s
  | snoc {as : List α} {s' : σ} {a : α} {s'' : σ} (h : S.Steps s as s') (hs : S.step s' a s'') :
      S.Steps s (as ++ [a]) s''

/-- What the steps of a kind keep. -/
theorem Steps.invariant {I : σ → Prop} {P : α → Prop}
    (hstep : ∀ {s a s'}, P a → I s → S.step s a s' → I s') {as : List α} {s s' : σ}
    (h : S.Steps s as s') (hP : ∀ a ∈ as, P a) (hI : I s) : I s' := by
  induction h with
  | refl => exact hI
  | snoc _ hs ih =>
    rw [List.forall_mem_append, List.forall_mem_singleton] at hP
    exact hstep hP.2 (ih hP.1) hs

/-- Steps after a first one. -/
theorem Steps.cons {s s' s'' : σ} {a : α} {as : List α} (hs : S.step s a s')
    (h : S.Steps s' as s'') : S.Steps s (a :: as) s'' := by
  induction h with
  | refl => exact .snoc .refl hs
  | snoc _ hs' ih =>
    rw [← List.cons_append]
    exact .snoc ih hs'

/-- Steps continue a run. -/
theorem Run.steps {done as : List α} {s s' : σ} (h : S.Run done s) (hs : S.Steps s as s') :
    S.Run (done ++ as) s' := by
  induction hs with
  | refl => rwa [List.append_nil]
  | snoc _ hs ih =>
    rw [← List.append_assoc]
    exact .snoc ih hs

/-- Labels that a partial step function follows one after the other. -/
theorem Steps.of_foldlM {next : σ → α → Option σ}
    (hnext : ∀ {s a s'}, next s a = some s' → S.step s a s') {as : List α} {s s' : σ}
    (has : as.foldlM next s = some s') : S.Steps s as s' := by
  induction as using List.reverseRecOn generalizing s' with
  | nil =>
    cases has
    exact .refl
  | append_singleton as a ih =>
    rw [List.foldlM_append, Option.bind_eq_bind, Option.bind_eq_some_iff] at has
    obtain ⟨s₁, hs₁, hlast⟩ := has
    rw [List.foldlM_cons, Option.bind_eq_bind, Option.bind_eq_some_iff] at hlast
    obtain ⟨s₂, hs₂, heq⟩ := hlast
    cases heq
    exact .snoc (ih hs₁) (hnext hs₂)

/-- Labels that a partial step function follows one after the other continue a run. -/
theorem Run.of_foldlM {next : σ → α → Option σ}
    (hnext : ∀ {s a s'}, next s a = some s' → S.step s a s') {done as : List α} {s s' : σ}
    (h : S.Run done s) (has : as.foldlM next s = some s') : S.Run (done ++ as) s' :=
  h.steps (Steps.of_foldlM hnext has)

/-! ## Traces -/

/-- A run with the steps it took, oldest first: the state before, and the label. -/
inductive Trace (S : System σ α) : List (σ × α) → σ → Prop
  | start {s : σ} (h : S.init s) : S.Trace [] s
  | snoc {tr : List (σ × α)} {s : σ} {a : α} {s' : σ} (h : S.Trace tr s) (hs : S.step s a s') :
      S.Trace (tr ++ [(s, a)]) s'

theorem Trace.step_last {tr : List (σ × α)} {s s' : σ} {a : α} (h : S.Trace (tr ++ [(s, a)]) s') :
    S.step s a s' := by
  generalize htr : tr ++ [(s, a)] = tr' at h
  cases h with
  | start => exact absurd htr (List.append_ne_nil_of_right_ne_nil _ (List.cons_ne_nil _ _))
  | snoc _ hs =>
    obtain ⟨-, hlast⟩ := List.append_inj' htr rfl
    cases hlast
    exact hs

/-- The property holds in the states of a trace. -/
def Always (G : σ → Prop) (tr : List (σ × α)) (s : σ) : Prop := (∀ x ∈ tr, G x.1) ∧ G s

theorem always_snoc {G : σ → Prop} {tr : List (σ × α)} {s : σ} {a : α} {s' : σ} :
    Always G (tr ++ [(s, a)]) s' ↔ Always G tr s ∧ G s' := by
  simp only [Always, List.forall_mem_append, List.forall_mem_singleton]

theorem Trace.reachable {tr : List (σ × α)} {s : σ} (h : S.Trace tr s) : S.Reachable s := by
  induction h with
  | start h => exact ⟨[], .start h⟩
  | snoc _ hs ih =>
    obtain ⟨as, hrun⟩ := ih
    exact ⟨_, hrun.snoc hs⟩

/-- The steps that a step function takes. -/
def path (next : σ → α → σ) : σ → List α → List (σ × α)
  | _, [] => []
  | s, a :: as => (s, a) :: path next (next s a) as

theorem Trace.foldl {next : σ → α → σ} (hnext : ∀ s a, S.step s a (next s a))
    {tr : List (σ × α)} {s : σ} (h : S.Trace tr s) (as : List α) :
    S.Trace (tr ++ path next s as) (as.foldl next s) := by
  induction as generalizing tr s with
  | nil =>
    rw [path, List.append_nil]
    exact h
  | cons a as ih =>
    rw [path, List.append_cons]
    exact ih (h.snoc (hnext s a))

theorem Trace.of_foldl {next : σ → α → σ} (hnext : ∀ s a, S.step s a (next s a)) {s : σ}
    (hs : S.init s) (as : List α) : S.Trace (path next s as) (as.foldl next s) :=
  (Trace.start hs).foldl hnext as

/-- Labels that a partial step function follows one after the other continue a trace. -/
theorem Trace.of_foldlM {next : σ → α → Option σ}
    (hnext : ∀ {s a s'}, next s a = some s' → S.step s a s') {tr : List (σ × α)} {as : List α}
    {s s' : σ} (h : S.Trace tr s) (has : as.foldlM next s = some s') :
    ∃ tr', S.Trace tr' s' ∧ tr'.map Prod.snd = tr.map Prod.snd ++ as := by
  induction as generalizing tr s with
  | nil =>
    cases has
    exact ⟨tr, h, (List.append_nil _).symm⟩
  | cons a as ih =>
    rw [List.foldlM_cons, Option.bind_eq_bind, Option.bind_eq_some_iff] at has
    obtain ⟨s₁, hs₁, hrest⟩ := has
    obtain ⟨tr', htr', hlabels⟩ := ih (h.snoc (hnext hs₁)) hrest
    refine ⟨tr', htr', ?_⟩
    rw [hlabels, List.map_append, List.append_assoc]
    rfl

/-- A trace of the restricted system is one whose steps satisfy `P`. -/
theorem Trace.of_restrict {P : σ → α → Prop} {tr : List (σ × α)} {s : σ}
    (h : (S.restrict P).Trace tr s) : S.Trace tr s ∧ ∀ x ∈ tr, P x.1 x.2 := by
  induction h with
  | start h => exact ⟨.start h, nofun⟩
  | snoc _ hs ih =>
    simp only [List.forall_mem_append, List.forall_mem_singleton]
    exact ⟨ih.1.snoc hs.2, ih.2, hs.1⟩

/-- The invariant rule along a trace whose steps satisfy `P`. -/
theorem Trace.always {I : σ → Prop} {P : σ → α → Prop} (hinit : ∀ {s}, S.init s → I s)
    (hstep : ∀ {s a s'}, I s → S.step s a s' → P s a → I s') {tr : List (σ × α)} {s : σ}
    (h : S.Trace tr s) (hP : ∀ x ∈ tr, P x.1 x.2) : Always I tr s := by
  induction h with
  | start h =>
    refine ⟨?_, hinit h⟩
    intro x hx
    cases hx
  | snoc _ hs ih =>
    simp only [List.forall_mem_append, List.forall_mem_singleton] at hP
    have hpre := ih hP.1
    exact always_snoc.mpr ⟨hpre, hstep hpre.2 hs hP.2⟩

/-- The property `G` holds all along a trace exactly when its steps satisfy `P`, where `I` is what
carries the induction: it holds as long as the steps satisfy `P`, and then `P` is what it takes. -/
theorem Trace.always_iff {G I : σ → Prop} {P : σ → α → Prop} (hinit : ∀ {s}, S.init s → I s)
    (hG : ∀ {s}, I s → G s) (hstep : ∀ {s a s'}, I s → S.step s a s' → P s a → I s')
    (hP : ∀ {s a s'}, I s → S.step s a s' → G s' → P s a) {tr : List (σ × α)} {s : σ}
    (h : S.Trace tr s) : Always G tr s ↔ ∀ x ∈ tr, P x.1 x.2 := by
  constructor
  · intro hall
    induction h with
    | start h =>
      intro x hx
      cases hx
    | snoc htr hs ih =>
      rw [always_snoc] at hall
      have hpre := ih hall.1
      simp only [List.forall_mem_append, List.forall_mem_singleton]
      exact ⟨hpre, hP (htr.always hinit hstep hpre).2 hs hall.2⟩
  · intro hall
    have hI := h.always hinit hstep hall
    exact ⟨fun x hx => hG (hI.1 x hx), hG hI.2⟩

/-- The same system, with the trace so far as part of its state: for properties that look back. -/
def recorded (S : System σ α) : System (List (σ × α) × σ) α where
  init x := x.1 = [] ∧ S.init x.2
  step x a x' := x'.1 = x.1 ++ [(x.2, a)] ∧ S.step x.2 a x'.2

/-! ## Guarded systems -/

variable {start : σ} {guard : σ → α → Prop} {next : σ → α → σ}

theorem guarded_start : (guarded start guard next).Run [] start := .start rfl

theorem Run.guarded_snoc {as : List α} {s : σ} (h : (guarded start guard next).Run as s) (a : α)
    (ha : guard s a) : (guarded start guard next).Run (as ++ [a]) (next s a) :=
  .snoc h ⟨ha, rfl⟩

theorem Trace.guarded_snoc {tr : List (σ × α)} {s : σ}
    (h : (guarded start guard next).Trace tr s) (a : α) (ha : guard s a) :
    (guarded start guard next).Trace (tr ++ [(s, a)]) (next s a) :=
  .snoc h ⟨ha, rfl⟩

theorem Run.restrict_snoc {P : σ → α → Prop} {as : List α} {s : σ}
    (h : ((guarded start guard next).restrict P).Run as s) (a : α) (hP : P s a) (ha : guard s a) :
    ((guarded start guard next).restrict P).Run (as ++ [a]) (next s a) :=
  .snoc h ⟨hP, ha, rfl⟩

/-- A guarded system is where its labels take it. -/
theorem Run.guarded_eq {as : List α} {s : σ} (h : (guarded start guard next).Run as s) :
    s = as.foldl next start := by
  induction h with
  | start h => exact h
  | snoc _ hs ih =>
    obtain ⟨-, rfl⟩ := hs
    rw [List.foldl_append, ← ih]
    rfl

/-! ## Systems that step by a partial function -/

/-- A system that steps by a function, where it gives a state. -/
def stepping (init : σ → Prop) (next : σ → α → Option σ) : System σ α where
  init := init
  step s a s' := next s a = some s'

section

variable {init : σ → Prop} {next : σ → α → Option σ} {P : σ → α → Prop}

theorem Run.stepping_snoc {as : List α} {s s' : σ}
    (h : ((stepping init next).restrict P).Run as s) (a : α) (hP : P s a)
    (ha : next s a = some s') : ((stepping init next).restrict P).Run (as ++ [a]) s' :=
  .snoc h ⟨hP, ha⟩

theorem Trace.stepping_snoc {tr : List (σ × α)} {s s' : σ}
    (h : ((stepping init next).restrict P).Trace tr s) (a : α) (hP : P s a)
    (ha : next s a = some s') : ((stepping init next).restrict P).Trace (tr ++ [(s, a)]) s' :=
  .snoc h ⟨hP, ha⟩

/-- Labels one after the other, while they satisfy a condition. -/
def follow (P : σ → α → Prop) [∀ s a, Decidable (P s a)] (next : σ → α → Option σ) (s : σ)
    (as : List α) : Option σ :=
  as.foldlM (fun s a => if P s a then next s a else none) s

/-- A run that is computed. -/
theorem Run.of_follow [∀ s a, Decidable (P s a)] {s s' : σ} {as : List α} (hs : init s)
    (h : follow P next s as = some s') : ((stepping init next).restrict P).Run as s' := by
  refine (Run.start hs).of_foldlM ?_ h
  intro s a s' hs'
  split at hs'
  next hP => exact ⟨hP, hs'⟩
  next => cases hs'

end

end System

end Kit

/-!
## What comes about in the end

An infinite run gets to a state that is done, when a rank that never grows falls again and again
until it is.
-/

namespace Kit

variable {σ W : Type} [Preorder W] {run : Nat → σ} {done : σ → Prop} {rank : σ → W}

theorem rank_le_of_le (hstay : ∀ n, rank (run (n + 1)) ≤ rank (run n)) {n m : Nat} (h : n ≤ m) :
    rank (run m) ≤ rank (run n) := by
  induction m, h using Nat.le_induction with
  | base => exact le_refl _
  | succ m _ ih => exact (hstay m).trans ih

/-- **The rule of progress.** -/
theorem exists_done [WellFoundedLT W] (run : Nat → σ) (done : σ → Prop) (rank : σ → W)
    (hstay : ∀ n, ¬ done (run n) → rank (run (n + 1)) ≤ rank (run n))
    (hfall : ∀ n, ¬ done (run n) → ∃ m ≥ n, done (run m) ∨ rank (run (m + 1)) < rank (run m)) :
    ∃ n, done (run n) := by
  by_contra hnever
  rw [not_exists] at hnever
  have hle : ∀ n, rank (run (n + 1)) ≤ rank (run n) := fun n => hstay n (hnever n)
  have hnone : ∀ w n, rank (run n) ≤ w → False := by
    intro w
    induction w using WellFoundedLT.induction with
    | ind w ih =>
      intro n hn
      obtain ⟨m, hm, hdone | hless⟩ := hfall n (hnever n)
      · exact hnever m hdone
      · have hw : rank (run (m + 1)) < w := hless.trans_le ((rank_le_of_le hle hm).trans hn)
        exact ih _ hw (m + 1) (le_refl _)
  exact hnone _ 0 (le_refl _)

end Kit
