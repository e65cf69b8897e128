import Mathlib.Data.List.Count
import Mathlib.Data.List.Perm.Basic
import Mathlib.Tactic

/-!
# Counting votes

A tally is the list of the choices met so far with how often each was met, in the order in which
they were met first. The winner is the first of its entries with the greatest count.

What the winner is depends on the votes alone when one choice is ahead of all others. Where several
are level, it is the one met first: of the votes in another order, any of them can be the winner
(`winner_of_front`).
-/

set_option autoImplicit false

namespace Kit

variable {α : Type} [DecidableEq α]

/-- One more vote: for a choice met before, or for a new one. -/
def countVote : List (α × Nat) → α → List (α × Nat)
  | [], a => [(a, 1)]
  | (b, n) :: counts, a => if b = a then (b, n + 1) :: counts else (b, n) :: countVote counts a

def tally (votes : List α) : List (α × Nat) := votes.foldl countVote []

/-- The greatest count, zero where nothing was counted. -/
def maxCount (counts : List (α × Nat)) : Nat := ((counts.map Prod.snd).max?).getD 0

/-- The first choice with the greatest count. -/
def winner (votes : List α) : Option α :=
  ((tally votes).find? fun p => p.2 = maxCount (tally votes)).map Prod.fst

/-! ## What the tally counts -/

section

variable {counts : List (α × Nat)} {a b : α} {n : Nat}

/-- One more vote raises one count by one and leaves the others. -/
theorem mem_countVote (hnodup : (counts.map Prod.fst).Nodup) :
    (b, n) ∈ countVote counts a ↔
      (b ≠ a ∧ (b, n) ∈ counts) ∨
        (b = a ∧ ((∃ m, n = m + 1 ∧ (a, m) ∈ counts) ∨ n = 1 ∧ a ∉ counts.map Prod.fst)) := by
  induction counts with
  | nil => simp [countVote, and_comm]
  | cons p counts ih =>
    obtain ⟨c, k⟩ := p
    rw [List.map_cons, List.nodup_cons] at hnodup
    obtain ⟨hc, hrest⟩ := hnodup
    by_cases hca : c = a
    · subst hca
      have hgone : ∀ m, (c, m) ∉ counts := fun m hm => hc (List.mem_map.mpr ⟨_, hm, rfl⟩)
      simp only [countVote, if_true, List.mem_cons, Prod.mk.injEq, List.map_cons]
      grind
    · simp only [countVote, if_neg hca, List.mem_cons, Prod.mk.injEq, List.map_cons, ih hrest]
      grind

theorem fst_countVote :
    (countVote counts a).map Prod.fst =
      if a ∈ counts.map Prod.fst then counts.map Prod.fst else counts.map Prod.fst ++ [a] := by
  induction counts with
  | nil => simp [countVote]
  | cons p counts ih =>
    obtain ⟨c, k⟩ := p
    by_cases hca : c = a
    · simp [countVote, hca]
    · simp only [countVote, if_neg hca, List.map_cons, ih, List.mem_cons, Ne.symm hca, false_or]
      split <;> rfl

theorem nodup_countVote (hnodup : (counts.map Prod.fst).Nodup) :
    ((countVote counts a).map Prod.fst).Nodup := by
  rw [fst_countVote]
  split
  case isTrue => exact hnodup
  case isFalse ha => exact hnodup.append (List.nodup_singleton a) (by simpa using ha)

end

section

variable (votes : List α)

theorem tally_append_singleton (a : α) : tally (votes ++ [a]) = countVote (tally votes) a := by
  rw [tally, List.foldl_append]
  rfl

theorem nodup_tally : ((tally votes).map Prod.fst).Nodup := by
  induction votes using List.reverseRecOn with
  | nil => exact List.nodup_nil
  | append_singleton votes a ih =>
    rw [tally_append_singleton]
    exact nodup_countVote ih

theorem mem_fst_tally (b : α) : b ∈ (tally votes).map Prod.fst ↔ b ∈ votes := by
  induction votes using List.reverseRecOn with
  | nil => rfl
  | append_singleton votes a ih =>
    rw [tally_append_singleton, fst_countVote, List.mem_append, List.mem_singleton, ← ih]
    split
    case isTrue ha => exact ⟨Or.inl, fun h => h.elim id fun hb => hb ▸ ha⟩
    case isFalse => rw [List.mem_append, List.mem_singleton]

/-- The tally says of every choice how often it was met. -/
theorem mem_tally (b : α) (n : Nat) : (b, n) ∈ tally votes ↔ b ∈ votes ∧ n = votes.count b := by
  induction votes using List.reverseRecOn generalizing n with
  | nil => simp [tally]
  | append_singleton votes a ih =>
    rw [tally_append_singleton, mem_countVote (nodup_tally votes), mem_fst_tally, List.mem_append,
      List.mem_singleton, List.count_append, ih]
    by_cases hba : b = a
    · subst hba
      simp only [ne_eq, not_true_eq_false, false_and, false_or, true_and, or_true,
        List.count_singleton_self, ih]
      constructor
      · rintro (⟨m, rfl, -, rfl⟩ | ⟨rfl, hb⟩)
        · rfl
        · rw [List.count_eq_zero_of_not_mem hb]
      · rintro rfl
        by_cases hb : b ∈ votes
        · exact .inl ⟨_, rfl, hb, rfl⟩
        · exact .inr ⟨by rw [List.count_eq_zero_of_not_mem hb], hb⟩
    · simp [hba, Ne.symm hba]

/-- The choice of the first vote is the first of the tally. -/
theorem head_tally (a : α) (votes : List α) :
    ∃ rest, tally (a :: votes) = (a, (a :: votes).count a) :: rest := by
  have hkey : ∃ n rest, tally (a :: votes) = (a, n) :: rest := by
    induction votes using List.reverseRecOn with
    | nil => exact ⟨1, [], rfl⟩
    | append_singleton votes b ih =>
      obtain ⟨n, rest, h⟩ := ih
      rw [← List.cons_append, tally_append_singleton, h, countVote]
      split
      · exact ⟨_, _, rfl⟩
      · exact ⟨_, _, rfl⟩
  obtain ⟨n, rest, h⟩ := hkey
  have hmem : (a, n) ∈ tally (a :: votes) := h ▸ List.mem_cons_self
  exact ⟨rest, ((mem_tally _ _ _).mp hmem).2 ▸ h⟩

end

/-! ## The winner -/

section

variable {votes : List α} {a : α}

omit [DecidableEq α] in
/-- The greatest count is no smaller than any, and some choice has it. -/
theorem maxCount_spec {counts : List (α × Nat)} (hne : counts ≠ []) :
    (∀ p ∈ counts, p.2 ≤ maxCount counts) ∧ ∃ p ∈ counts, p.2 = maxCount counts := by
  obtain ⟨m, hm⟩ : ∃ m, (counts.map Prod.snd).max? = some m := by
    rw [← Option.isSome_iff_exists, List.isSome_max?_iff]
    simpa using hne
  have hmax : maxCount counts = m := by rw [maxCount, hm, Option.getD_some]
  rw [hmax]
  rw [List.max?_eq_some_iff] at hm
  obtain ⟨hmem, hle⟩ := hm
  obtain ⟨p, hp, rfl⟩ := List.mem_map.mp hmem
  exact ⟨fun q hq => hle _ (List.mem_map.mpr ⟨q, hq, rfl⟩), p, hp, rfl⟩

theorem tally_ne_nil (hne : votes ≠ []) : tally votes ≠ [] := by
  obtain ⟨a, rest, rfl⟩ := List.exists_cons_of_ne_nil hne
  obtain ⟨counts, h⟩ := head_tally a rest
  rw [h]
  exact List.cons_ne_nil _ _

/-- The winner is a choice with the greatest count. -/
theorem winner_spec (hwin : winner votes = some a) :
    a ∈ votes ∧ ∀ b, votes.count b ≤ votes.count a := by
  obtain ⟨⟨a', n⟩, hfind, rfl⟩ := Option.map_eq_some_iff.mp hwin
  have hmem := List.mem_of_find?_eq_some hfind
  have hn : n = maxCount (tally votes) := by simpa using List.find?_some hfind
  obtain ⟨ha, rfl⟩ := (mem_tally _ _ _).mp hmem
  refine ⟨ha, fun b => ?_⟩
  by_cases hb : b ∈ votes
  · rw [hn]
    exact (maxCount_spec (List.ne_nil_of_mem hmem)).1 (b, _) ((mem_tally _ _ _).mpr ⟨hb, rfl⟩)
  · rw [List.count_eq_zero_of_not_mem hb]
    exact Nat.zero_le _

theorem exists_winner (hne : votes ≠ []) : ∃ a, winner votes = some a := by
  obtain ⟨p, hp, hmax⟩ := (maxCount_spec (tally_ne_nil hne)).2
  rw [← Option.isSome_iff_exists, winner, Option.isSome_map, List.find?_isSome]
  exact ⟨p, hp, by simpa using hmax⟩

/-- Of the choices with the greatest count the one met first wins. -/
theorem winner_of_front (hmax : ∀ b, (a :: votes).count b ≤ (a :: votes).count a) :
    winner (a :: votes) = some a := by
  obtain ⟨rest, h⟩ := head_tally a votes
  have hcount : (a :: votes).count a = maxCount (tally (a :: votes)) := by
    have hspec := maxCount_spec (tally_ne_nil (List.cons_ne_nil a votes))
    obtain ⟨⟨b, n⟩, hb, hn⟩ := hspec.2
    apply Nat.le_antisymm
    · exact hspec.1 (a, _) (h ▸ List.mem_cons_self)
    · rw [← hn, ((mem_tally _ _ _).mp hb).2]
      exact hmax b
  rw [winner, h, List.find?_cons_of_pos]
  · rfl
  · rw [← h]
    simpa using hcount

end

example : tally [2, 1, 2] = [(2, 2), (1, 1)] ∧ winner [1, 2] = some 1 ∧ winner [2, 1] = some 2 := by
  decide

end Kit
