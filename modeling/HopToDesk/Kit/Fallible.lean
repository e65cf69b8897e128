import Mathlib.Tactic

/-!
# Computations that may fail

A computation over a state gives a value or an error, and in either case the state it leaves
behind: a failure undoes nothing. `do` blocks sequence them, stopping at the first error;
`attempt` runs one and gives its outcome as a value.

`wp m Q E s` says that `m`, run from `s`, ends in a value and a state that satisfy `Q`, or in an
error and a state that satisfy `E`. Its rules push it through a program, construct by construct,
and are tagged for `simp`. `Keeps I m` is the invariant that survives errors too: `I` holds after
`m` if it held before, however `m` ends.
-/

set_option autoImplicit false

namespace Kit

/-- A state, and a value or an error. -/
def Fallible (σ ε α : Type) : Type := σ → Except ε α × σ

namespace Fallible

variable {σ ε α β : Type}

protected def pure (a : α) : Fallible σ ε α := fun s => (.ok a, s)

protected def bind (m : Fallible σ ε α) (f : α → Fallible σ ε β) : Fallible σ ε β := fun s =>
  match m s with
  | (.ok a, s) => f a s
  | (.error e, s) => (.error e, s)

instance : Monad (Fallible σ ε) where
  pure := Fallible.pure
  bind := Fallible.bind

def fail (e : ε) : Fallible σ ε α := fun s => (.error e, s)

def get : Fallible σ ε σ := fun s => (.ok s, s)

def modify (f : σ → σ) : Fallible σ ε Unit := fun s => (.ok (), f s)

/-- The value or the error, as a value. -/
def attempt (m : Fallible σ ε α) : Fallible σ ε (Except ε α) := fun s =>
  match m s with
  | (r, s) => (.ok r, s)

/-- An outcome computed without the state. -/
def ofExcept (r : Except ε α) : Fallible σ ε α := fun s => (r, s)

/-! ## Where a computation ends -/

/-- From `s`, either a value with `Q`, or an error with `E`. -/
def wp (m : Fallible σ ε α) (Q : α → σ → Prop) (E : ε → σ → Prop) (s : σ) : Prop :=
  match m s with
  | (.ok a, s) => Q a s
  | (.error e, s) => E e s

variable {Q : α → σ → Prop} {E : ε → σ → Prop} {s : σ}

@[simp]
theorem wp_pure (a : α) : wp (pure a : Fallible σ ε α) Q E s ↔ Q a s := Iff.rfl

@[simp]
theorem wp_fail (e : ε) : wp (fail e : Fallible σ ε α) Q E s ↔ E e s := Iff.rfl

@[simp]
theorem wp_get {Q : σ → σ → Prop} : wp (get : Fallible σ ε σ) Q E s ↔ Q s s := Iff.rfl

@[simp]
theorem wp_modify {Q : Unit → σ → Prop} (f : σ → σ) :
    wp (modify f : Fallible σ ε Unit) Q E s ↔ Q () (f s) := Iff.rfl

@[simp]
theorem wp_ofExcept (r : Except ε α) :
    wp (ofExcept r : Fallible σ ε α) Q E s ↔
      match r with
      | .ok a => Q a s
      | .error e => E e s := by
  cases r <;> rfl

/-- **The rule of sequencing.** -/
@[simp]
theorem wp_bind (m : Fallible σ ε α) (f : α → Fallible σ ε β) {Q : β → σ → Prop} :
    wp (m >>= f) Q E s ↔ wp m (fun a => wp (f a) Q E) E s := by
  show wp (Fallible.bind m f) Q E s ↔ _
  unfold wp Fallible.bind
  rcases m s with ⟨_ | a, s'⟩
  · rfl
  · rfl

@[simp]
theorem wp_attempt (m : Fallible σ ε α) {Q : Except ε α → σ → Prop} :
    wp m.attempt Q E s ↔ wp m (fun a => Q (.ok a)) (fun e => Q (.error e)) s := by
  unfold wp attempt
  rcases m s with ⟨_ | a, s'⟩
  · rfl
  · rfl

/-- A computation whose outcome is known. -/
theorem wp_of_eq {m : Fallible σ ε α} {a : α} {s' : σ} (h : m s = (.ok a, s')) (hQ : Q a s') :
    wp m Q E s := by
  unfold wp
  rw [h]
  exact hQ

/-- A known outcome, and what comes after it. -/
theorem bind_of_eq {m : Fallible σ ε α} {a : α} {s' : σ} (h : m s = (.ok a, s'))
    (f : α → Fallible σ ε β) : (m >>= f) s = f a s' := by
  show Fallible.bind m f s = f a s'
  unfold Fallible.bind
  rw [h]

/-- A computation that does not touch the state is one without it. -/
theorem bind_ofExcept {r : Except ε α} {f : α → Fallible σ ε β} {g : α → Except ε β}
    (h : ∀ a, f a s = (g a, s)) : (ofExcept r >>= f) s = (r >>= g, s) := by
  show Fallible.bind (ofExcept r) f s = _
  cases r with
  | error e => rfl
  | ok a => exact h a

/-- The rule of consequence. -/
theorem wp_mono {m : Fallible σ ε α} {Q' : α → σ → Prop} {E' : ε → σ → Prop}
    (h : wp m Q E s) (hQ : ∀ a s, Q a s → Q' a s) (hE : ∀ e s, E e s → E' e s) :
    wp m Q' E' s := by
  unfold wp at h ⊢
  rcases hm : m s with ⟨e | a, s'⟩ <;> rw [hm] at h
  · exact hE _ _ h
  · exact hQ _ _ h

/-- A condition on the state alone, however the computation ends. -/
theorem wp_state {m : Fallible σ ε α} {P : σ → Prop} :
    wp m (fun _ => P) (fun _ => P) s ↔ P (m s).2 := by
  unfold wp
  rcases m s with ⟨e | a, s'⟩ <;> rfl

/-! ## Invariants -/

/-- `I` survives `m`, however `m` ends. -/
def Keeps (I : σ → Prop) (m : Fallible σ ε α) : Prop :=
  ∀ s, I s → I (m s).2

variable {I : σ → Prop}

theorem keeps_pure (a : α) : Keeps I (pure a : Fallible σ ε α) := fun _ hs => hs

theorem keeps_fail (e : ε) : Keeps I (fail e : Fallible σ ε α) := fun _ hs => hs

theorem keeps_get : Keeps I (get : Fallible σ ε σ) := fun _ hs => hs

theorem keeps_ofExcept (r : Except ε α) : Keeps I (ofExcept r : Fallible σ ε α) := fun _ hs => hs

theorem Keeps.bind {m : Fallible σ ε α} {f : α → Fallible σ ε β} (hm : Keeps I m)
    (hf : ∀ a, Keeps I (f a)) : Keeps I (m >>= f) := by
  intro s hs
  show I (Fallible.bind m f s).2
  have hs' := hm s hs
  unfold Fallible.bind
  rcases hr : m s with ⟨e | a, s'⟩ <;> rw [hr] at hs'
  · exact hs'
  · exact hf a s' hs'

end Fallible

/-! ## Lists of outcomes -/

section Lists

variable {σ ε α β : Type}

/-- Elements that have values are a list that has them. -/
theorem mapM_eq_ok {f : α → Except ε β} {as : List α} {bs : List β}
    (h : List.Forall₂ (fun a b => f a = .ok b) as bs) : as.mapM f = .ok bs := by
  induction h with
  | nil => rfl
  | cons ha has ih =>
    rw [List.mapM_cons, ha, ih]
    rfl

/-- A list has values where every element has one. -/
theorem mapM_eq_some_iff {f : α → Option β} {as : List α} {bs : List β} :
    as.mapM f = some bs ↔ List.Forall₂ (fun a b => f a = some b) as bs := by
  induction as generalizing bs with
  | nil =>
    rw [List.forall₂_nil_left_iff]
    exact ⟨fun h => (Option.some.inj h).symm, fun h => congrArg some h.symm⟩
  | cons a as ih =>
    rw [List.mapM_cons, List.forall₂_cons_left_iff]
    simp only [Option.bind_eq_bind, Option.bind_eq_some_iff, Option.pure_def, Option.some.injEq]
    constructor
    · rintro ⟨b, hb, bs', hbs, rfl⟩
      exact ⟨b, bs', hb, ih.mp hbs, rfl⟩
    · rintro ⟨b, bs', hb, hbs, rfl⟩
      exact ⟨b, hb, bs', ih.mpr hbs, rfl⟩

theorem exists_mapM_iff {f : α → Option β} {as : List α} :
    (∃ bs, as.mapM f = some bs) ↔ ∀ a ∈ as, ∃ b, f a = some b := by
  simp only [mapM_eq_some_iff]
  induction as with
  | nil => exact iff_of_true ⟨[], .nil⟩ (List.forall_mem_nil _)
  | cons a as ih =>
    rw [List.forall_mem_cons, ← ih]
    constructor
    · rintro ⟨_, hall⟩
      obtain ⟨b, bs, hb, hbs, rfl⟩ := List.forall₂_cons_left_iff.mp hall
      exact ⟨⟨b, hb⟩, bs, hbs⟩
    · rintro ⟨⟨b, hb⟩, bs, hbs⟩
      exact ⟨b :: bs, hbs.cons hb⟩

/-- An invariant of each step that succeeds is one of the whole walk. -/
theorem foldlM_keeps {I : σ → Prop} {f : σ → α → Except ε σ} {as : List α} {s s' : σ}
    (hstep : ∀ {a s s'}, f s a = .ok s' → I s → I s') (h : as.foldlM f s = .ok s') (hs : I s) :
    I s' := by
  induction as generalizing s with
  | nil =>
    cases h
    exact hs
  | cons a as ih =>
    rw [List.foldlM_cons] at h
    cases hfirst : f s a with
    | error e =>
      rw [hfirst] at h
      cases h
    | ok s₁ =>
      rw [hfirst] at h
      exact ih h (hstep hfirst hs)

end Lists

end Kit
