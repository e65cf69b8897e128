import HopToDesk.Kit.Fallible

/-!
# Little-endian records

Numbers as bytes, the least one first, and a cursor that reads them off a list of bytes as
`bytes::Buf` does: what is not there cannot be read.
-/

set_option autoImplicit false

namespace Kit

/-- A number as so many bytes; what does not fit is dropped. -/
def toLe : Nat → Nat → List UInt8
  | 0, _ => []
  | width + 1, n => UInt8.ofNat n :: toLe width (n / 256)

def ofLe : List UInt8 → Nat
  | [] => 0
  | b :: bs => b.toNat + 256 * ofLe bs

@[simp]
theorem length_toLe (width n : Nat) : (toLe width n).length = width := by
  induction width generalizing n with
  | zero => rfl
  | succ width ih => rw [toLe, List.length_cons, ih]

theorem ofLe_toLe (width n : Nat) : ofLe (toLe width n) = n % 256 ^ width := by
  induction width generalizing n with
  | zero => rw [pow_zero, Nat.mod_one]; rfl
  | succ width ih =>
    rw [toLe, ofLe, ih, UInt8.toNat_ofNat', pow_succ' 256 width]
    exact Nat.mod_mul.symm

/-- A number that fits is read back. -/
theorem ofLe_toLe_of_lt {width n : Nat} (h : n < 256 ^ width) : ofLe (toLe width n) = n := by
  rw [ofLe_toLe, Nat.mod_eq_of_lt h]

theorem ofLe_lt (bs : List UInt8) : ofLe bs < 256 ^ bs.length := by
  induction bs with
  | nil => exact Nat.one_pos
  | cons b bs ih =>
    have hb := b.toNat_lt
    rw [ofLe, List.length_cons, pow_succ]
    omega

/-- Bytes that are read as a number are written again. -/
theorem toLe_ofLe (bs : List UInt8) : toLe bs.length (ofLe bs) = bs := by
  induction bs with
  | nil => rfl
  | cons b bs ih =>
    have hb := b.toNat_lt
    have hlow : UInt8.ofNat (b.toNat + 256 * ofLe bs) = b := by
      apply UInt8.toNat_inj.mp
      rw [UInt8.toNat_ofNat']
      omega
    have hhigh : (b.toNat + 256 * ofLe bs) / 256 = ofLe bs := by omega
    rw [ofLe, List.length_cons, toLe, hlow, hhigh, ih]

theorem ofLe_zeros (n : Nat) : ofLe (List.replicate n 0) = 0 := by
  induction n with
  | zero => rfl
  | succ n ih =>
    rw [List.replicate_succ, ofLe, ih]
    rfl

/-- Zeros at the end are not seen. -/
theorem ofLe_append_zeros (bs : List UInt8) (n : Nat) :
    ofLe (bs ++ List.replicate n 0) = ofLe bs := by
  induction bs with
  | nil => exact ofLe_zeros n
  | cons b bs ih => rw [List.cons_append, ofLe, ih, ofLe]

namespace Cursor

variable {ε : Type} (short : ε)

/-- The next bytes. -/
def take (n : Nat) : Fallible (List UInt8) ε (List UInt8) := fun s =>
  if n ≤ s.length then (.ok (s.take n), s.drop n) else (.error short, s)

/-- The next number, of so many bytes. -/
def getLe (width : Nat) : Fallible (List UInt8) ε Nat := do
  let bytes ← take short width
  pure (ofLe bytes)

/-- `Buf::advance`. -/
def advance (n : Nat) : Fallible (List UInt8) ε Unit := do
  let _ ← take short n
  pure ()

variable {short} {s : List UInt8} {n : Nat}

theorem take_eq (h : n ≤ s.length) : take short n s = (.ok (s.take n), s.drop n) := if_pos h

theorem getLe_eq (h : n ≤ s.length) : getLe short n s = (.ok (ofLe (s.take n)), s.drop n) :=
  Fallible.bind_of_eq (take_eq h) _

theorem advance_eq (h : n ≤ s.length) : advance short n s = (.ok (), s.drop n) :=
  Fallible.bind_of_eq (take_eq h) _

/-- The cursor only moves on: however a read ends, what is left is at the end of what there was. -/
theorem keeps_take (short : ε) (n : Nat) (bytes : List UInt8) :
    Fallible.Keeps (· <:+ bytes) (take short n) := by
  intro s hs
  unfold take
  split
  · exact (List.drop_suffix n s).trans hs
  · exact hs

theorem keeps_getLe (short : ε) (width : Nat) (bytes : List UInt8) :
    Fallible.Keeps (· <:+ bytes) (getLe short width) :=
  (keeps_take short width bytes).bind fun _ => Fallible.keeps_pure _

theorem keeps_advance (short : ε) (n : Nat) (bytes : List UInt8) :
    Fallible.Keeps (· <:+ bytes) (advance short n) :=
  (keeps_take short n bytes).bind fun _ => Fallible.keeps_pure _

end Cursor

end Kit
