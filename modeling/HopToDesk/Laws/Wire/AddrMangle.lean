import HopToDesk.Wire.AddrMangle
import Mathlib.Data.List.TakeWhile
import Mathlib.Data.Prod.Lex

/-!
# What is read from a mangled address

The three fields of the number a mangled IPv4 address is (`packed`) do not touch: the time is below
`2 ^ 32`, and the port moved by the time below `2 ^ 17`. Of the port, `decode` reads seven bits of
the time too, which `as u16` drops again (`decode_encode`).

On bytes that were not encoded the fields have nothing to do with each other, and a difference may
not be there (`isSome_decode_iff`).
-/

set_option autoImplicit false

namespace HopToDesk.Wire

open Kit

namespace AddrMangle

/-! ## Padding -/

/-- How many zeros some bytes end with. -/
abbrev paddingLen (bytes : Bytes) : Nat := (bytes.reverse.takeWhile (· == 0)).length

/-- The zeros that were taken off the end of some bytes, put back. -/
theorem take_append_padding (bytes : Bytes) :
    bytes.take (bytes.length - paddingLen bytes) ++ List.replicate (paddingLen bytes) 0 =
      bytes := by
  have hzeros : bytes.reverse.takeWhile (· == 0) = List.replicate (paddingLen bytes) 0 :=
    List.eq_replicate_iff.mpr
      ⟨rfl, fun b hb => eq_of_beq (List.mem_takeWhile_imp (p := (· == 0)) hb)⟩
  have hsplit : bytes =
      (bytes.reverse.dropWhile (· == 0)).reverse ++ List.replicate (paddingLen bytes) 0 := by
    calc bytes =
          (bytes.reverse.takeWhile (· == 0) ++ bytes.reverse.dropWhile (· == 0)).reverse := by
          rw [List.takeWhile_append_dropWhile, List.reverse_reverse]
      _ = (bytes.reverse.dropWhile (· == 0)).reverse ++
            (bytes.reverse.takeWhile (· == 0)).reverse := List.reverse_append
      _ = (bytes.reverse.dropWhile (· == 0)).reverse ++ List.replicate (paddingLen bytes) 0 := by
          conv_lhs => rw [hzeros, List.reverse_replicate]
  obtain ⟨n, hn⟩ : ∃ n, n = paddingLen bytes := ⟨_, rfl⟩
  obtain ⟨front, hfront⟩ : ∃ front, front = (bytes.reverse.dropWhile (· == 0)).reverse := ⟨_, rfl⟩
  rw [← hn, ← hfront] at hsplit
  rw [← hn]
  conv_lhs => rw [hsplit]
  rw [List.length_append, List.length_replicate, Nat.add_sub_cancel_right, List.take_left]
  exact hsplit.symm

/-- The bytes of a number, without the zeros at the end, are padded to the same number. -/
theorem ofLe_padded {v : Nat} (hv : v < 2 ^ 128) :
    (copyFromSlice (List.replicate 16 0)
      ((toLe 16 v).take (16 - paddingLen (toLe 16 v)))).map ofLe = some v := by
  have hpadding := take_append_padding (toLe 16 v)
  have hle : paddingLen (toLe 16 v) ≤ 16 := by
    have htake := (List.takeWhile_sublist (· == 0) (l := (toLe 16 v).reverse)).length_le
    rwa [List.length_reverse, length_toLe] at htake
  rw [length_toLe] at hpadding
  have hlength : ((toLe 16 v).take (16 - paddingLen (toLe 16 v))).length =
      16 - paddingLen (toLe 16 v) := by
    rw [List.length_take, length_toLe]
    omega
  unfold copyFromSlice
  rw [hlength, List.length_replicate, if_pos (Nat.sub_le _ _), List.drop_replicate,
    Nat.sub_sub_self hle, hpadding, Option.map_some, ofLe_toLe_of_lt]
  exact hv

/-! ## Fields -/

/-- A number of three fields: the lowest has 17 bits, and the next one 32. -/
def packed (ip tm port : Nat) : Nat := 2 ^ 49 * ip + 2 ^ 17 * tm + port

theorem packed_eq_or {ip tm port : Nat} (htm : tm < 2 ^ 32) (hport : port < 2 ^ 17) :
    (ip <<< 49) ||| (tm <<< 17) ||| port = packed ip tm port := by
  have hlow : tm <<< 17 ||| port = tm <<< 17 + port :=
    (Nat.shiftLeft_add_eq_or_of_lt hport tm).symm
  have hshift : tm <<< 17 + port < 2 ^ 49 := by
    rw [Nat.shiftLeft_eq]
    omega
  rw [Nat.or_assoc, hlow, ← Nat.shiftLeft_add_eq_or_of_lt hshift ip, Nat.shiftLeft_eq,
    Nat.shiftLeft_eq, packed]
  omega

section Fields

variable {ip tm port : Nat} (hport : port < 2 ^ 17)
include hport

/-- With the port, seven bits of the time are read. -/
theorem port_packed : packed ip tm port &&& 0xFFFFFF = port + 2 ^ 17 * (tm % 2 ^ 7) := by
  rw [packed, Nat.and_two_pow_sub_one_eq_mod _ 24]
  omega

variable (htm : tm < 2 ^ 32)
include htm

theorem ip_packed : packed ip tm port >>> 49 = ip := by
  rw [packed, Nat.shiftRight_eq_div_pow]
  omega

theorem tm_packed : (packed ip tm port >>> 17) &&& 0xFFFFFFFF = tm := by
  rw [packed, Nat.shiftRight_eq_div_pow, Nat.and_two_pow_sub_one_eq_mod _ 32]
  omega

end Fields

/-! ## Decoding what was encoded -/

theorem decode_of_length_le {bytes : Bytes} (h : bytes.length ≤ 16) {number : Nat}
    (hnumber : (copyFromSlice (List.replicate 16 0) bytes).map ofLe = some number) :
    decode bytes = decodeNumber number := by
  obtain ⟨padded, hpadded, rfl⟩ := Option.map_eq_some_iff.mp hnumber
  unfold decode
  rw [if_neg (Nat.not_lt.mpr h), hpadded]
  rfl

/-- A number whose address and port are moved by its time. -/
theorem decode_packed {bytes : Bytes} {ip : Ipv4Addr} {port : UInt16} {tm : Nat}
    (htm : tm < 2 ^ 32) (h : bytes.length ≤ 16)
    (hnumber : (copyFromSlice (List.replicate 16 0) bytes).map ofLe =
      some (packed (ofLe ip.octets + tm) tm (port.toNat + tm % 2 ^ 16))) :
    decode bytes = some (.v4 ip port) := by
  have hport := port.toNat_lt
  have hlow : port.toNat + tm % 2 ^ 16 < 2 ^ 17 := by omega
  have hip : toLe 4 (ofLe ip.octets) = ip.octets := by
    rw [← ip.length_octets, toLe_ofLe]
  have hmoved : port.toNat + tm % 2 ^ 16 + 2 ^ 17 * (tm % 2 ^ 7) - tm % 2 ^ 16 =
      port.toNat + 2 ^ 17 * (tm % 2 ^ 7) := by omega
  have hread : UInt16.ofNat (port.toNat + 2 ^ 17 * (tm % 2 ^ 7)) = port := by
    apply UInt16.toNat_inj.mp
    rw [UInt16.toNat_ofNat']
    omega
  rw [decode_of_length_le h hnumber]
  unfold decodeNumber
  simp only [ip_packed hlow htm, tm_packed hlow htm, port_packed hlow,
    Nat.and_two_pow_sub_one_eq_mod _ 16]
  rw [checkedSub_of_le (Nat.le_add_left _ _), checkedSub_of_le (by omega), Nat.add_sub_cancel_right,
    hmoved]
  simp only [Option.bind_eq_bind, Option.bind_some, hip, hread]

/-- What is encoded is decoded to the same address, as IPv4 where it has one, whatever the clock
says. -/
theorem decode_encode (addr : SocketAddr) (micros : Nat) :
    decode (encode micros addr) = some addr.tryIntoV4.unscoped := by
  unfold encode
  cases addr.tryIntoV4 with
  | v4 ip port =>
    have htm : micros % 2 ^ 32 < 2 ^ 32 := Nat.mod_lt _ (Nat.two_pow_pos _)
    have hport := port.toNat_lt
    have hip := ofLe_lt ip.octets
    rw [ip.length_octets] at hip
    simp only [Nat.and_two_pow_sub_one_eq_mod _ 16]
    rw [packed_eq_or htm (by omega)]
    refine decode_packed htm ((List.length_take_le _ _).trans (Nat.sub_le _ _)) (ofLe_padded ?_)
    unfold packed
    omega
  | v6 ip port flowinfo scopeId =>
    have hlength : (ip.octets ++ toLe 2 port.toNat).length = 18 := by
      rw [List.length_append, ip.length_octets, length_toLe]
    have hport : ofLe (toLe 2 port.toNat) = port.toNat := ofLe_toLe_of_lt port.toNat_lt
    dsimp only
    unfold decode
    rw [if_pos (by omega), dif_pos hlength]
    simp only [List.take_left' ip.length_octets, List.drop_left' ip.length_octets, hport,
      UInt16.ofNat_toNat, SocketAddr.unscoped]

/-! ## Decoding anything -/

/-- The fields of a number are those of one that was encoded, as far as `decode` subtracts them:
the time is at most the number above it, and where the seven bits that are read with the port are
zero, the rest of what the port is moved by is at most what is there. -/
def Moved (number : Nat) : Prop :=
  number / 2 ^ 17 % 2 ^ 32 ≤ number / 2 ^ 49 ∧
    (number / 2 ^ 17 % 2 ^ 7 = 0 → number / 2 ^ 17 % 2 ^ 16 ≤ number % 2 ^ 17)

instance (number : Nat) : Decidable (Moved number) := inferInstanceAs (Decidable (_ ∧ _))

theorem copyFromSlice_zeros {bytes : Bytes} (h : bytes.length ≤ 16) :
    (copyFromSlice (List.replicate 16 0) bytes).map ofLe = some (ofLe bytes) := by
  unfold copyFromSlice
  rw [List.length_replicate, if_pos h, List.drop_replicate, Option.map_some, ofLe_append_zeros]

theorem isSome_decodeNumber_iff (number : Nat) : (decodeNumber number).isSome ↔ Moved number := by
  have hshift : number >>> 17 = number / 2 ^ 17 := Nat.shiftRight_eq_div_pow number 17
  have hshift' : number >>> 49 = number / 2 ^ 49 := Nat.shiftRight_eq_div_pow number 49
  unfold decodeNumber Moved checkedSub
  simp only [hshift, hshift', Nat.and_two_pow_sub_one_eq_mod _ 32,
    Nat.and_two_pow_sub_one_eq_mod _ 24, Nat.and_two_pow_sub_one_eq_mod _ 16]
  by_cases hip : number / 2 ^ 17 % 2 ^ 32 ≤ number / 2 ^ 49
  · rw [if_pos hip, Option.bind_eq_bind, Option.bind_some]
    by_cases hport : number / 2 ^ 17 % 2 ^ 32 % 2 ^ 16 ≤ number % 2 ^ 24
    · rw [if_pos hport]
      refine iff_of_true rfl ⟨hip, fun hzero => ?_⟩
      omega
    · rw [if_neg hport]
      refine iff_of_false Bool.false_ne_true fun hmoved => hport ?_
      have hlow := hmoved.2
      omega
  · rw [if_neg hip]
    exact iff_of_false Bool.false_ne_true fun hmoved => hip hmoved.1

/-- Neither the copy nor a subtraction goes wrong exactly for more bytes than there is room for,
which are no IPv4 address, and for those whose fields are moved. -/
theorem isSome_decode_iff (bytes : Bytes) :
    (decode bytes).isSome ↔ 16 < bytes.length ∨ Moved (ofLe bytes) := by
  by_cases hlong : 16 < bytes.length
  · refine iff_of_true ?_ (.inl hlong)
    unfold decode
    rw [if_pos hlong]
    split <;> rfl
  rw [decode_of_length_le (Nat.not_lt.mp hlong) (copyFromSlice_zeros (Nat.not_lt.mp hlong))]
  obtain ⟨number, hnumber⟩ : ∃ number, number = ofLe bytes := ⟨_, rfl⟩
  rw [← hnumber, or_iff_right hlong, isSome_decodeNumber_iff]

/-- Three bytes whose time is one, with nothing above it. -/
theorem not_isSome_decode_timeOnly : ¬ ∀ bytes : Bytes, (decode bytes).isSome := by
  intro hall
  exact absurd (hall [0, 0, 2]) (by decide)

end AddrMangle

end HopToDesk.Wire

/-!
## The order of versions

A version has three components and may have a suffix. Its number should order it as the four do, one
after the other. It does for versions without a suffix; a suffix makes the last component one that
is no number, so that it counts for nothing (`sameOrder_iff`).

The components of any text are the digits of its number, and the number is there as far as it fits
(`isSome_getVersionNumber_iff`).
-/

namespace HopToDesk.Wire

open Kit Decimal

/-- Digits of a number that is not too large. -/
structure Numeral (bound : Nat) where
  text : Text
  isNumeral : IsNumeral text
  value_lt : Decimal.value text < bound

namespace Numeral

variable {bound : Nat}

def value (n : Numeral bound) : Nat := Decimal.value n.text

end Numeral

/-- A version `a.b.c`, or `a.b.c-p`. -/
structure Version where
  major : Numeral 100
  minor : Numeral 100
  patch : Numeral 100
  suffix : Option (Numeral 10)

namespace Version

/-- The last component with its suffix. -/
def last (v : Version) : Text :=
  v.patch.text ++ ((v.suffix.map fun p => '-' :: p.text).getD [])

def text (v : Version) : Text := List.intercalate ['.'] [v.major.text, v.minor.text, v.last]

/-- No suffix is zero. -/
def suffixValue (v : Version) : Nat := (v.suffix.map Numeral.value).getD 0

/-- What a version is ordered by. -/
def key (v : Version) : ℕ ×ₗ ℕ ×ₗ ℕ ×ₗ ℕ :=
  toLex (v.major.value, toLex (v.minor.value, toLex (v.patch.value, v.suffixValue)))

/-- What the number has of the last component. -/
def lastValue (v : Version) : Nat := if v.suffix = none then v.patch.value else 0

/-! ### The number of a version -/

theorem dot_not_mem_numeral {t : Text} (ht : IsNumeral t) : '.' ∉ t := fun h =>
  absurd (ht.isDigit h) (by decide)

theorem component_numeral {bound : Nat} (n : Numeral bound) (hbound : bound ≤ 2 ^ 63) :
    component n.text = n.value := by
  unfold component
  rw [parseI64_of_isNumeral n.isNumeral (n.value_lt.trans_le hbound)]
  rfl

/-- A suffix makes the last component no number. -/
theorem component_last (v : Version) : component v.last = v.lastValue := by
  unfold last lastValue
  cases v.suffix with
  | none =>
    rw [if_pos rfl, Option.map_none, Option.getD_none, List.append_nil]
    exact component_numeral v.patch (by norm_num)
  | some p =>
    obtain ⟨c, digits, htext⟩ := List.exists_cons_of_ne_nil v.patch.isNumeral.1
    have hdigit : c.isDigit = true :=
      v.patch.isNumeral.isDigit (by rw [htext]; exact List.mem_cons_self)
    have hnot : ¬ IsNumeral (c :: (digits ++ '-' :: p.text)) := fun h =>
      absurd (h.isDigit (c := '-') (by simp)) (by decide)
    rw [if_neg (by simp), Option.map_some, Option.getD_some, htext, List.cons_append, component,
      parseI64_of_not_isNumeral hdigit hnot]
    rfl

theorem splitOn_text (v : Version) :
    v.text.splitOn '.' = [v.major.text, v.minor.text, v.last] := by
  refine List.splitOn_intercalate '.' ?_ (List.cons_ne_nil _ _)
  intro t ht
  simp only [List.mem_cons, List.not_mem_nil, or_false] at ht
  rcases ht with rfl | rfl | rfl
  · exact dot_not_mem_numeral v.major.isNumeral
  · exact dot_not_mem_numeral v.minor.isNumeral
  · unfold last
    rw [List.mem_append]
    rintro (hpatch | hsuffix)
    · exact dot_not_mem_numeral v.patch.isNumeral hpatch
    · cases hs : v.suffix with
      | none =>
        rw [hs] at hsuffix
        cases hsuffix
      | some p =>
        rw [hs, Option.map_some, Option.getD_some, List.mem_cons] at hsuffix
        rcases hsuffix with hdash | hmem
        · exact absurd hdash (by decide)
        · exact dot_not_mem_numeral p.isNumeral hmem

/-- An integer that 64 bits hold. -/
def InI64 (z : Int) : Prop := -2 ^ 63 ≤ z ∧ z < 2 ^ 63

instance (z : Int) : Decidable (InI64 z) := inferInstanceAs (Decidable (_ ∧ _))

theorem inI64_of_bounds {z : Int} (hnonneg : 0 ≤ z) (hlt : z < 10 ^ 9) : InI64 z :=
  ⟨le_trans (by norm_num) hnonneg, hlt.trans (by norm_num)⟩

theorem nextNumber_eq_some_iff {n x m : Int} :
    nextNumber n x = some m ↔ InI64 (1000 * n) ∧ InI64 (1000 * n + x) ∧ m = 1000 * n + x := by
  unfold nextNumber InI64
  rw [Int.mul_comm n, Option.bind_eq_bind, Option.bind_eq_some_iff]
  constructor
  · rintro ⟨scaled, hscaled, hsum⟩
    obtain ⟨hfits, rfl⟩ := signed64_eq_some_iff.mp hscaled
    obtain ⟨hfits', rfl⟩ := signed64_eq_some_iff.mp hsum
    exact ⟨hfits, hfits', rfl⟩
  · rintro ⟨hfits, hfits', rfl⟩
    exact ⟨1000 * n, signed64_eq_some_iff.mpr ⟨hfits, rfl⟩, signed64_eq_some_iff.mpr ⟨hfits', rfl⟩⟩

theorem nextNumber_of_lt {n x : Nat} (h : 1000 * n + x < 10 ^ 9) :
    nextNumber n x = some ((1000 * n + x : Nat) : Int) :=
  nextNumber_eq_some_iff.mpr ⟨inI64_of_bounds (by omega) (by omega),
    inI64_of_bounds (by omega) (by omega), by omega⟩

/-- The number of three components. -/
theorem foldlM_three {x y z n m k : Int} (hx : nextNumber 0 x = some n)
    (hy : nextNumber n y = some m) (hz : nextNumber m z = some k) :
    [x, y, z].foldlM nextNumber 0 = some k := by
  simp only [List.foldlM_cons, List.foldlM_nil, hx, hy, hz, Option.bind_eq_bind, Option.bind_some]
  rfl

/-- The number of a version, without its suffix and what the suffix is put to. -/
theorem getVersionNumber_text (v : Version) :
    getVersionNumber v.text =
      some ((1000 * (1000 * v.major.value + v.minor.value) + v.lastValue : Nat) : Int) := by
  have hmajor : v.major.value < 100 := v.major.value_lt
  have hminor : v.minor.value < 100 := v.minor.value_lt
  have hlast : v.lastValue < 100 := by
    unfold lastValue
    split
    · exact v.patch.value_lt
    · exact Nat.zero_lt_succ _
  have hfirst := nextNumber_of_lt (n := 0) (x := v.major.value) (by omega)
  rw [Nat.mul_zero, Nat.zero_add] at hfirst
  unfold getVersionNumber
  rw [splitOn_text, ← List.foldlM_map]
  simp only [List.map_cons, List.map_nil, component_last]
  rw [component_numeral v.major (by norm_num), component_numeral v.minor (by norm_num)]
  exact foldlM_three hfirst (nextNumber_of_lt (by omega)) (nextNumber_of_lt (by omega))

/-! ### Order -/

theorem key_lt_iff (v w : Version) :
    v.key < w.key ↔ v.major.value < w.major.value ∨ v.major.value = w.major.value ∧
      (v.minor.value < w.minor.value ∨ v.minor.value = w.minor.value ∧
        (v.patch.value < w.patch.value ∨ v.patch.value = w.patch.value ∧
          v.suffixValue < w.suffixValue)) := by
  unfold key
  rw [Prod.Lex.toLex_lt_toLex, Prod.Lex.toLex_lt_toLex, Prod.Lex.toLex_lt_toLex]

/-- The numbers order two versions as they are ordered. -/
def SameOrder (v w : Version) : Prop :=
  ∃ n m, getVersionNumber v.text = some n ∧ getVersionNumber w.text = some m ∧
    (n < m ↔ v.key < w.key) ∧ (m < n ↔ w.key < v.key)

/-- The first has a suffix and the second has none, and the second is later than the first even
without it, or there is nothing to tell them apart. -/
def BelowPlain (v w : Version) : Prop :=
  v.suffix ≠ none ∧ w.suffix = none ∧
    (v.patch.value < w.patch.value ∨
      v.patch.value = 0 ∧ w.patch.value = 0 ∧ v.suffixValue = 0)

/-- What is left when the last components with a suffix are not looked at tells two versions apart
as all of them do. -/
def Comparable (v w : Version) : Prop :=
  v.major.value ≠ w.major.value ∨ v.minor.value ≠ w.minor.value ∨
    (v.suffix = none ∧ w.suffix = none) ∨
    (v.suffix ≠ none ∧ w.suffix ≠ none ∧ v.patch.value = w.patch.value ∧
      v.suffixValue = w.suffixValue) ∨
    v.BelowPlain w ∨ w.BelowPlain v

theorem suffixValue_of_none {v : Version} (h : v.suffix = none) : v.suffixValue = 0 := by
  rw [suffixValue, h]
  rfl

theorem sameOrder_iff (v w : Version) : v.SameOrder w ↔ v.Comparable w := by
  unfold SameOrder Comparable BelowPlain
  simp only [getVersionNumber_text, key_lt_iff, Option.some.injEq, exists_eq_left', exists_and_left]
  have hminor : v.minor.value < 100 := v.minor.value_lt
  have hminor' : w.minor.value < 100 := w.minor.value_lt
  have hpatch : v.patch.value < 100 := v.patch.value_lt
  have hpatch' : w.patch.value < 100 := w.patch.value_lt
  by_cases hv : v.suffix = none
  · have hzero := suffixValue_of_none hv
    have hlast : v.lastValue = v.patch.value := if_pos hv
    by_cases hw : w.suffix = none
    · have hzero' := suffixValue_of_none hw
      have hlast' : w.lastValue = w.patch.value := if_pos hw
      refine iff_of_true ?_ (.inr (.inr (.inl ⟨hv, hw⟩)))
      rw [hlast, hlast', hzero, hzero']
      omega
    · have hlast' : w.lastValue = 0 := if_neg hw
      simp only [hv, hw, ne_eq, not_true_eq_false, not_false_eq_true, true_and, false_and,
        and_false, false_or]
      rw [hlast, hlast', hzero]
      omega
  · have hlast : v.lastValue = 0 := if_neg hv
    by_cases hw : w.suffix = none
    · have hzero' := suffixValue_of_none hw
      have hlast' : w.lastValue = w.patch.value := if_pos hw
      simp only [hv, hw, ne_eq, not_true_eq_false, not_false_eq_true, true_and, false_and,
        and_false, or_false, false_or]
      rw [hlast, hlast', hzero']
      omega
    · have hlast' : w.lastValue = 0 := if_neg hw
      simp only [hv, hw, ne_eq, not_false_eq_true, true_and, false_and, or_false, false_or]
      rw [hlast, hlast']
      omega

/-! ### Range -/

/-- The number that components spell in base 1000. -/
def positional : List Int → Int
  | [] => 0
  | x :: xs => x * 1000 ^ xs.length + positional xs

theorem positional_append (xs : List Int) (x : Int) :
    positional (xs ++ [x]) = 1000 * positional xs + x := by
  induction xs with
  | nil =>
    simp only [List.nil_append, positional, List.length_nil]
    ring
  | cons y xs ih =>
    rw [List.cons_append, positional, positional, ih, List.length_append, List.length_singleton]
    ring

/-- Every number on the way to the last one fits, with and without the component that comes to
it. -/
def Fits (xs : List Int) : Prop :=
  ∀ front x, front ++ [x] <+: xs →
    InI64 (1000 * positional front) ∧ InI64 (positional (front ++ [x]))

theorem fits_append {xs : List Int} {x : Int} :
    Fits (xs ++ [x]) ↔
      Fits xs ∧ InI64 (1000 * positional xs) ∧ InI64 (positional (xs ++ [x])) := by
  constructor
  · intro h
    exact ⟨fun front y hfront => h front y (hfront.trans (List.prefix_append xs [x])),
      h xs x (List.prefix_refl _)⟩
  · rintro ⟨h, hlast⟩ front y hfront
    rcases List.prefix_concat_iff.mp hfront with heq | hfront'
    · obtain ⟨rfl, hxy⟩ := List.append_inj' heq rfl
      cases hxy
      exact hlast
    · exact h front y hfront'

theorem foldlM_nextNumber_eq_some_iff {xs : List Int} {n : Int} :
    xs.foldlM nextNumber 0 = some n ↔ Fits xs ∧ n = positional xs := by
  induction xs using List.reverseRecOn generalizing n with
  | nil =>
    have hfits : Fits [] := fun front x hfront => by simp at hfront
    rw [List.foldlM_nil, positional]
    exact ⟨fun h => ⟨hfits, (Option.some.inj h).symm⟩, fun h => congrArg some h.2.symm⟩
  | append_singleton xs x ih =>
    rw [List.foldlM_append, fits_append, positional_append]
    constructor
    · intro h
      obtain ⟨m, hm, hlast⟩ := Option.bind_eq_some_iff.mp h
      obtain ⟨hfits, rfl⟩ := ih.mp hm
      rw [List.foldlM_cons] at hlast
      obtain ⟨m', hnext, hm'⟩ := Option.bind_eq_some_iff.mp hlast
      cases hm'
      obtain ⟨hscaled, hsum, rfl⟩ := nextNumber_eq_some_iff.mp hnext
      exact ⟨⟨hfits, hscaled, hsum⟩, rfl⟩
    · rintro ⟨⟨hfits, hscaled, hsum⟩, rfl⟩
      refine Option.bind_eq_some_iff.mpr ⟨positional xs, ih.mpr ⟨hfits, rfl⟩, ?_⟩
      rw [List.foldlM_cons]
      exact Option.bind_eq_some_iff.mpr
        ⟨_, nextNumber_eq_some_iff.mpr ⟨hscaled, hsum, rfl⟩, rfl⟩

/-- No operation overflows exactly where every number on the way fits. -/
theorem isSome_getVersionNumber_iff (v : Text) :
    (getVersionNumber v).isSome ↔ Fits ((v.splitOn '.').map component) := by
  unfold getVersionNumber
  rw [← List.foldlM_map, Option.isSome_iff_exists]
  constructor
  · rintro ⟨n, hn⟩
    exact (foldlM_nextNumber_eq_some_iff.mp hn).1
  · intro hfits
    exact ⟨_, foldlM_nextNumber_eq_some_iff.mpr ⟨hfits, rfl⟩⟩

/-- Versions are ordered as they should be exactly where what is left of them is comparable, and
there is a number exactly where it fits. -/
theorem order_and_range_iff (v w : Version) (t : Text) :
    (v.SameOrder w ↔ v.Comparable w) ∧
      ((getVersionNumber t).isSome ↔ Fits ((t.splitOn '.').map component)) :=
  ⟨sameOrder_iff v w, isSome_getVersionNumber_iff t⟩

/-- `1.1.10`. -/
def released : Version where
  major := ⟨['1'], by decide, by decide⟩
  minor := ⟨['1'], by decide, by decide⟩
  patch := ⟨['1', '0'], by decide, by decide⟩
  suffix := none

/-- `1.1.10-1`. -/
def patched : Version := { released with suffix := some ⟨['1'], by decide, by decide⟩ }

/-- A patched version comes before the one it patches, and a component may take all there is. -/
theorem not_order_and_range :
    ¬ (∀ v w : Version, v.SameOrder w) ∧ ¬ ∀ t : Text, (getVersionNumber t).isSome := by
  constructor
  · intro hall
    obtain ⟨n, m, hn, hm, -, hlater⟩ := hall released patched
    have hn' : getVersionNumber released.text = some 1001010 := by decide
    have hm' : getVersionNumber patched.text = some 1001000 := by decide
    cases hn.symm.trans hn'
    cases hm.symm.trans hm'
    have hbefore := (key_lt_iff _ _).mp (hlater.mp (by decide))
    revert hbefore
    decide
  · intro hall
    exact absurd (hall "9223372036854775807.0".toList) (by decide)

end Version

end HopToDesk.Wire
