import Mathlib.Tactic

/-!
# Arithmetic that may overflow

Machine arithmetic as a debug build does it: an operation gives its exact result, or none where that
does not fit. A natural number has a width, and an integer one of two halves; a difference has to be
one, and a divisor not zero.

A sum of many numbers overflows somewhere exactly where it does at the end (`checkedSum_eq`), since
none of them is negative.
-/

set_option autoImplicit false

namespace Kit

/-- A natural number of so many bits. -/
def unsigned (bits n : Nat) : Option Nat := if n < 2 ^ bits then some n else none

/-- An integer in 64 bits. -/
def signed64 (z : Int) : Option Int := if -2 ^ 63 ≤ z ∧ z < 2 ^ 63 then some z else none

def checkedSub (a b : Nat) : Option Nat := if b ≤ a then some (a - b) else none

def checkedDiv (a b : Nat) : Option Nat := if b = 0 then none else some (a / b)

/-- One number after the other is added. -/
def checkedSum (bits : Nat) (ns : List Nat) : Option Nat :=
  ns.foldlM (fun sum n => unsigned bits (sum + n)) 0

variable {bits n m : Nat}

theorem unsigned_of_lt (h : n < 2 ^ bits) : unsigned bits n = some n := if_pos h

theorem unsigned_eq_some_iff : unsigned bits n = some m ↔ n < 2 ^ bits ∧ n = m := by
  unfold unsigned
  split
  next h => simp only [Option.some.injEq, h, true_and]
  next h => simp only [reduceCtorEq, h, false_and]

theorem signed64_eq_some_iff {z z' : Int} :
    signed64 z = some z' ↔ (-2 ^ 63 ≤ z ∧ z < 2 ^ 63) ∧ z = z' := by
  unfold signed64
  split
  next h => simp only [Option.some.injEq, h, and_self, true_and]
  next h => simp only [reduceCtorEq, h, false_and]

theorem checkedSub_of_le {a b : Nat} (h : b ≤ a) : checkedSub a b = some (a - b) := if_pos h

theorem checkedDiv_of_pos {a b : Nat} (h : 0 < b) : checkedDiv a b = some (a / b) :=
  if_neg (Nat.pos_iff_ne_zero.mp h)

theorem foldlM_unsigned (ns : List Nat) :
    ∀ start < 2 ^ bits, ns.foldlM (fun sum n => unsigned bits (sum + n)) start =
      unsigned bits (start + ns.sum) := by
  induction ns with
  | nil =>
    intro start hstart
    exact (unsigned_of_lt hstart).symm
  | cons n ns ih =>
    intro start hstart
    rw [List.foldlM_cons, List.sum_cons, ← Nat.add_assoc]
    by_cases hfits : start + n < 2 ^ bits
    · rw [unsigned_of_lt hfits]
      exact ih _ hfits
    · have hall : ¬ start + n + ns.sum < 2 ^ bits := by omega
      rw [unsigned, unsigned, if_neg hfits, if_neg hall]
      rfl

/-- A sum overflows on the way exactly where it does at the end. -/
theorem checkedSum_eq (ns : List Nat) : checkedSum bits ns = unsigned bits ns.sum := by
  have hsum := foldlM_unsigned ns 0 (Nat.two_pow_pos bits)
  rwa [Nat.zero_add] at hsum

end Kit
