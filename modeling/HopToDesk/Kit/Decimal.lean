import HopToDesk.Kit.Checked
import HopToDesk.Kit.Text

/-!
# Decimal numbers

Text as an integer in 64 bits, as Rust's `i64::from_str` reads it: digits, at least one, with a sign
or without one, of a number that fits. The digits are those of ASCII, and zeros may come first.
-/

set_option autoImplicit false

namespace Kit

namespace Decimal

/-- Digits, at least one. -/
def IsNumeral (t : Text) : Prop := t ≠ [] ∧ t.all Char.isDigit = true

instance (t : Text) : Decidable (IsNumeral t) := inferInstanceAs (Decidable (_ ∧ _))

/-- The number that digits spell. -/
def value (t : Text) : Nat := t.foldl (fun n c => 10 * n + (c.toNat - '0'.toNat)) 0

/-- A number, with the sign it has. -/
def signedValue (negative : Bool) (t : Text) : Option Int :=
  if IsNumeral t then signed64 (if negative then -(value t : Int) else value t) else none

/-- `i64::from_str`. -/
def parseI64 : Text → Option Int
  | [] => none
  | c :: t =>
    if c = '-' then signedValue true t
    else if c = '+' then signedValue false t
    else signedValue false (c :: t)

example : parseI64 "-0042".toList = some (-42) ∧ parseI64 "10-1".toList = none := by
  decide

theorem IsNumeral.isDigit {t : Text} (h : IsNumeral t) {c : Char} (hc : c ∈ t) :
    c.isDigit = true :=
  List.all_eq_true.mp h.2 c hc

/-- A digit is no sign. -/
theorem parseI64_of_isDigit {c : Char} (hc : c.isDigit = true) (t : Text) :
    parseI64 (c :: t) = signedValue false (c :: t) := by
  have hminus : c ≠ '-' := by
    rintro rfl
    exact absurd hc (by decide)
  have hplus : c ≠ '+' := by
    rintro rfl
    exact absurd hc (by decide)
  exact (if_neg hminus).trans (if_neg hplus)

/-- Digits that spell a small number. -/
theorem parseI64_of_isNumeral {t : Text} (ht : IsNumeral t) (hsmall : value t < 2 ^ 63) :
    parseI64 t = some (value t : Int) := by
  cases t with
  | nil => exact absurd rfl ht.1
  | cons c t =>
    rw [parseI64_of_isDigit (ht.isDigit List.mem_cons_self), signedValue, if_pos ht,
      if_neg Bool.false_ne_true]
    exact signed64_eq_some_iff.mpr ⟨by omega, rfl⟩

/-- A digit, and something else than digits, are no number. -/
theorem parseI64_of_not_isNumeral {c : Char} {t : Text} (hc : c.isDigit = true)
    (hnot : ¬ IsNumeral (c :: t)) : parseI64 (c :: t) = none := by
  rw [parseI64_of_isDigit hc, signedValue, if_neg hnot]

end Decimal

end Kit
