import Mathlib.Tactic

/-!
# Binary search

`slice::binary_search` of Rust: the place of a value in a sorted list, or the place where it could
be put. What it finds is there in any list; in a sorted list it finds what is there.
-/

set_option autoImplicit false

namespace Kit

variable {α : Type} [LinearOrder α]

/-- The loop, from `left` to before `right`. -/
def searchBetween (xs : List α) (x : α) : Nat → Nat → Nat → Except Nat Nat
  | 0, left, _ => .error left
  | turns + 1, left, right =>
    if left < right then
      let mid := left + (right - left) / 2
      match xs[mid]? with
      | none => .error left
      | some y =>
        if y < x then searchBetween xs x turns (mid + 1) right
        else if x < y then searchBetween xs x turns left mid
        else .ok mid
    else .error left

def binarySearch (xs : List α) (x : α) : Except Nat Nat :=
  searchBetween xs x xs.length 0 xs.length

variable {xs : List α} {x : α}

theorem searchBetween_ok {turns left right i : Nat}
    (h : searchBetween xs x turns left right = .ok i) : xs[i]? = some x := by
  induction turns generalizing left right with
  | zero => cases h
  | succ turns ih =>
    rw [searchBetween] at h
    split at h
    · dsimp only at h
      split at h
      next => cases h
      next y hy =>
        split at h
        · exact ih h
        next hge =>
          split at h
          · exact ih h
          next hle =>
            cases h
            rw [hy, le_antisymm (not_lt.mp hle) (not_lt.mp hge)]
    · cases h

/-- What is found is there. -/
theorem binarySearch_ok {i : Nat} (h : binarySearch xs x = .ok i) : xs[i]? = some x :=
  searchBetween_ok h

theorem getElem_le (hxs : xs.Pairwise (· < ·)) {i j : Nat} (hij : i ≤ j) {y z : α}
    (hy : xs[i]? = some y) (hz : xs[j]? = some z) : y ≤ z := by
  obtain ⟨hi, rfl⟩ := List.getElem?_eq_some_iff.mp hy
  obtain ⟨hj, rfl⟩ := List.getElem?_eq_some_iff.mp hz
  rcases Nat.lt_or_eq_of_le hij with hlt | rfl
  · exact (List.pairwise_iff_getElem.mp hxs i j hi hj hlt).le
  · exact le_refl _

theorem searchBetween_complete (hxs : xs.Pairwise (· < ·)) {turns left right k : Nat}
    (hturns : right - left ≤ turns) (hright : right ≤ xs.length) (hk : xs[k]? = some x)
    (hleft : left ≤ k) (hlt : k < right) : ∃ i, searchBetween xs x turns left right = .ok i := by
  induction turns generalizing left right with
  | zero => omega
  | succ turns ih =>
    rw [searchBetween, if_pos (by omega)]
    dsimp only
    have hmid : left + (right - left) / 2 < xs.length := by omega
    rw [List.getElem?_eq_getElem hmid]
    have hy := List.getElem?_eq_getElem hmid
    dsimp only
    split
    next hless =>
      -- The value is to the right of the middle.
      have hafter : left + (right - left) / 2 < k := by
        by_contra hle
        exact absurd (getElem_le hxs (Nat.not_lt.mp hle) hk hy) (not_le.mpr hless)
      exact ih (by omega) hright (by omega) hlt
    next =>
      split
      next hmore =>
        have hbefore : k < left + (right - left) / 2 := by
          by_contra hle
          exact absurd (getElem_le hxs (Nat.not_lt.mp hle) hy hk) (not_le.mpr hmore)
        exact ih (by omega) (by omega) hleft hbefore
      next => exact ⟨_, rfl⟩

/-- In a sorted list, what is there is found. -/
theorem binarySearch_of_mem (hxs : xs.Pairwise (· < ·)) (hx : x ∈ xs) :
    ∃ i, binarySearch xs x = .ok i := by
  obtain ⟨k, hk⟩ := List.mem_iff_getElem?.mp hx
  have hlt : k < xs.length := (List.getElem?_eq_some_iff.mp hk).1
  exact searchBetween_complete hxs (Nat.sub_le _ _) (le_refl _) hk (Nat.zero_le k) hlt

theorem isOk_binarySearch (hxs : xs.Pairwise (· < ·)) :
    (binarySearch xs x).isOk = true ↔ x ∈ xs := by
  constructor
  · intro h
    cases hfound : binarySearch xs x with
    | error i =>
      rw [hfound] at h
      cases h
    | ok i => exact List.mem_of_getElem? (binarySearch_ok hfound)
  · intro hx
    obtain ⟨i, hfound⟩ := binarySearch_of_mem hxs hx
    rw [hfound]
    rfl

/-- What is found can be taken out. -/
theorem mem_eraseIdx_binarySearch (hxs : xs.Pairwise (· < ·)) {i : Nat} {y : α}
    (h : binarySearch xs x = .ok i) : y ∈ xs.eraseIdx i ↔ y ∈ xs ∧ y ≠ x := by
  have hx := binarySearch_ok h
  rw [List.mem_eraseIdx_iff_getElem?]
  constructor
  · rintro ⟨j, hne, hy⟩
    refine ⟨List.mem_of_getElem? hy, ?_⟩
    rintro rfl
    obtain ⟨hi, hxi⟩ := List.getElem?_eq_some_iff.mp hx
    obtain ⟨hj, hyj⟩ := List.getElem?_eq_some_iff.mp hy
    have hnodup : xs.Nodup := hxs.imp ne_of_lt
    exact hne ((hnodup.getElem_inj_iff).mp (hyj.trans hxi.symm))
  · rintro ⟨hy, hne⟩
    obtain ⟨j, hj⟩ := List.mem_iff_getElem?.mp hy
    refine ⟨j, ?_, hj⟩
    rintro rfl
    exact hne (Option.some.inj (hj.symm.trans hx))

end Kit
