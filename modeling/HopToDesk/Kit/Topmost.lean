import Mathlib.Tactic

/-!
# The topmost of what was named

Things have parents, and are named one after the other. Naming one drops its children that stand,
and it stands itself unless its parent does (`stands`, over the names so far, newest first).

A thing and its parent never both stand (`not_stands_parent`), and from everything that was named a
chain of named things leads up to one that stands (`chain_of_mem`): where it does not stand, its
parent was named, before or after it.
-/

set_option autoImplicit false

namespace Kit.Topmost

variable {α : Type}

section

variable [DecidableEq α] (parent : α → Option α)

/-- Of it and its parent it was named last, and its parent did not stand then. -/
def stands : List α → α → Bool
  | [], _ => false
  | d :: older, x =>
    if d = x then !(parent x).any (stands older)
    else if parent x = some d then false
    else stands older x

end

/-- A chain of named things from `x` up to one at the top. -/
inductive Chain (parent : α → Option α) (named top : α → Prop) : α → Prop
  | top {x : α} (h : top x) : Chain parent named top x
  | up {x y : α} (hx : named x) (hp : parent x = some y) (h : Chain parent named top y) :
      Chain parent named top x

variable {parent : α → Option α}

theorem Chain.named {named top : α → Prop} (htop : ∀ x, top x → named x) {x : α}
    (h : Chain parent named top x) : named x := by
  cases h with
  | top h => exact htop x h
  | up hx _ _ => exact hx

theorem Chain.imp {named top named' top' : α → Prop} (hnamed : ∀ x, named x → named' x)
    (htop : ∀ x, top x → top' x) {x : α} (h : Chain parent named top x) :
    Chain parent named' top' x := by
  induction h with
  | top h => exact .top (htop _ h)
  | up hx hp _ ih => exact .up (hnamed _ hx) hp ih

variable [DecidableEq α]

theorem mem_of_stands {ds : List α} {x : α} (h : stands parent ds x = true) : x ∈ ds := by
  induction ds with
  | nil => cases h
  | cons d older ih =>
    unfold stands at h
    split_ifs at h with hd
    · exact hd ▸ List.mem_cons_self
    · exact List.mem_cons_of_mem _ (ih h)

/-- What was named and does not stand has a parent that was named. -/
theorem parent_mem_of_not_stands {ds : List α} {x : α} (hx : x ∈ ds)
    (h : stands parent ds x = false) : ∃ y, parent x = some y ∧ y ∈ ds := by
  induction ds with
  | nil => cases hx
  | cons d older ih =>
    unfold stands at h
    split_ifs at h with hd hp
    · -- its parent stood when it was named
      have hany : (parent x).any (stands parent older) = true := by simpa using h
      rw [Option.any_eq_true] at hany
      obtain ⟨y, hy, hstands⟩ := hany
      exact ⟨y, hy, List.mem_cons_of_mem _ (mem_of_stands hstands)⟩
    · exact ⟨d, hp, List.mem_cons_self⟩
    · have hmem : x ∈ older := (List.mem_cons.mp hx).resolve_left fun he => hd he.symm
      obtain ⟨y, hy, hy'⟩ := ih hmem h
      exact ⟨y, hy, List.mem_cons_of_mem _ hy'⟩

section

variable {rank : α → Nat} (hrank : ∀ x y, parent x = some y → rank y < rank x)

include hrank

/-- A thing and its parent never both stand. -/
theorem not_stands_parent {ds : List α} {x y : α} (h : stands parent ds x = true)
    (hp : parent x = some y) : stands parent ds y = false := by
  have hlt := hrank x y hp
  have hne : x ≠ y := fun he => by
    rw [he] at hlt
    exact absurd hlt (Nat.lt_irrefl _)
  induction ds with
  | nil => rfl
  | cons d older ih =>
    unfold stands at h ⊢
    split_ifs at h with hd hpd
    · -- `x` has just been named, and its parent did not stand
      subst hd
      have hback : parent y ≠ some d := fun he => by
        have := hrank y d he
        omega
      rw [if_neg hne, if_neg hback]
      simpa [hp] using h
    · have hdy : d ≠ y := fun he => hpd (he ▸ hp)
      rw [if_neg hdy]
      split_ifs
      · rfl
      · exact ih h

/-- A chain leads up from everything that was named. -/
theorem chain_of_mem {ds : List α} {x : α} (h : x ∈ ds) :
    Chain parent (· ∈ ds) (stands parent ds · = true) x := by
  induction hn : rank x using Nat.strongRecOn generalizing x with
  | ind n ih =>
    cases hs : stands parent ds x with
    | true => exact .top hs
    | false =>
      obtain ⟨y, hp, hy⟩ := parent_mem_of_not_stands h hs
      exact .up h hp (ih (rank y) (hn ▸ hrank x y hp) hy rfl)

end

end Kit.Topmost
