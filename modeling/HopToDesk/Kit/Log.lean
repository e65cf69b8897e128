import Mathlib.Tactic

/-!
# Logs

A log is a list of what has happened, oldest first. `Each` says that whenever something of a kind
happened, the log before it was so and so; `Since` says what has happened since something of a kind
happened last. Both are kept entry by entry.
-/

set_option autoImplicit false

namespace Kit

variable {α : Type}

/-- Each entry that is `P` found a log that was `Q`. -/
def Each (log : List α) (P : α → Prop) (Q : List α → α → Prop) : Prop :=
  ∀ before a after, log = before ++ a :: after → P a → Q before a

/-- What has come after the last entry that is `P` is `φ`. -/
def Since (log : List α) (P : α → Prop) (φ : List α → Prop) : Prop :=
  ∃ before a after, log = before ++ a :: after ∧ P a ∧ (∀ b ∈ after, ¬ P b) ∧ φ after

variable {log : List α} {P : α → Prop} {Q : List α → α → Prop} {φ ψ : List α → Prop} {a : α}

/-- An entry of a log that has grown is the new one or was there before. -/
theorem snoc_eq_append_cons {before after : List α} {b : α}
    (h : log ++ [a] = before ++ b :: after) :
    (before = log ∧ b = a ∧ after = []) ∨ ∃ rest, log = before ++ b :: rest ∧
      after = rest ++ [a] := by
  rcases List.eq_nil_or_concat' after with rfl | ⟨rest, c, rfl⟩
  · obtain ⟨rfl, hlast⟩ := List.append_inj' h rfl
    exact .inl ⟨rfl, (List.singleton_inj.mp hlast).symm, rfl⟩
  · rw [← List.cons_append, ← List.append_assoc] at h
    obtain ⟨hlog, hlast⟩ := List.append_inj' h rfl
    exact .inr ⟨rest, hlog, by rw [hlast]⟩

theorem each_nil : Each [] P Q := by
  intro before a after heq
  exact absurd heq.symm (List.append_ne_nil_of_right_ne_nil _ (List.cons_ne_nil _ _))

theorem each_snoc : Each (log ++ [a]) P Q ↔ Each log P Q ∧ (P a → Q log a) := by
  constructor
  · intro h
    refine ⟨?_, h log a [] rfl⟩
    intro before b after heq
    exact h before b (after ++ [a]) (by rw [heq, List.append_assoc, List.cons_append])
  · intro h before b after heq
    obtain ⟨hlog, ha⟩ := h
    rcases snoc_eq_append_cons heq with ⟨rfl, rfl, -⟩ | ⟨rest, hbefore, -⟩
    · exact ha
    · exact hlog before b rest hbefore

/-- An entry of another kind adds nothing to what `Each` asks. -/
theorem Each.snoc (h : Each log P Q) (ha : ¬ P a) : Each (log ++ [a]) P Q :=
  each_snoc.mpr ⟨h, fun hP => absurd hP ha⟩

theorem Since.start (ha : P a) (hφ : φ []) : Since (log ++ [a]) P φ :=
  ⟨log, a, [], rfl, ha, List.forall_mem_nil _, hφ⟩

theorem Since.snoc (h : Since log P φ) (ha : ¬ P a) (hφ : ∀ after, φ after → ψ (after ++ [a])) :
    Since (log ++ [a]) P ψ := by
  obtain ⟨before, b, after, rfl, hb, hafter, h⟩ := h
  refine ⟨before, b, after ++ [a], by simp, hb, ?_, hφ after h⟩
  intro c hc
  rcases List.mem_append.mp hc with hc | hc
  · exact hafter c hc
  · rwa [List.mem_singleton.mp hc]

/-- Something of the kind happened just now, or it happened before and this came after it. -/
theorem since_snoc : Since (log ++ [a]) P φ ↔
    (P a ∧ φ []) ∨ (¬ P a ∧ Since log P fun after => φ (after ++ [a])) := by
  constructor
  · intro h
    obtain ⟨before, b, after, heq, hb, hafter, hφ⟩ := h
    rcases snoc_eq_append_cons heq with ⟨-, rfl, rfl⟩ | ⟨rest, hlog, rfl⟩
    · exact .inl ⟨hb, hφ⟩
    · obtain ⟨hall, ha⟩ := List.forall_mem_append.mp hafter
      exact .inr ⟨ha a List.mem_cons_self, before, b, rest, hlog, hb, hall, hφ⟩
  · rintro (⟨ha, hφ⟩ | ⟨ha, h⟩)
    · exact Since.start ha hφ
    · exact h.snoc ha fun _ => id

theorem Since.imp (h : Since log P φ) (hφ : ∀ after, φ after → ψ after) : Since log P ψ := by
  obtain ⟨before, b, after, hlog, hb, hafter, h⟩ := h
  exact ⟨before, b, after, hlog, hb, hafter, hφ after h⟩

end Kit
