import HopToDesk.Kit.Text

/-!
# Base64

Bytes as text in base 64, with padding: a decoder takes exactly what the encoder makes, and nothing
has a shorter text than bytes. `Base64.original` is the alphabet of letters, digits, `+` and `/`.
-/

set_option autoImplicit false

namespace Kit

/-- An encoding of bytes as text. -/
structure Base64 where
  encode : List UInt8 → Text
  decode : Text → Option (List UInt8)
  decode_eq_some_iff : ∀ t bytes, decode t = some bytes ↔ t = encode bytes
  length_le : ∀ bytes, bytes.length ≤ (encode bytes).length

namespace Base64

variable (b64 : Base64)

theorem decode_of_encode (bytes : List UInt8) : b64.decode (b64.encode bytes) = some bytes :=
  (b64.decode_eq_some_iff _ bytes).mpr rfl

theorem encode_injective : Function.Injective b64.encode := fun bytes bytes' h => by
  have hdecode := b64.decode_of_encode bytes
  rw [h, b64.decode_of_encode] at hdecode
  exact (Option.some.inj hdecode).symm

/-! ## The original alphabet -/

/-- The character of six bits. -/
def charOf (n : Nat) : Char :=
  if n < 26 then Char.ofNat ('A'.toNat + n)
  else if n < 52 then Char.ofNat ('a'.toNat + (n - 26))
  else if n < 62 then Char.ofNat ('0'.toNat + (n - 52))
  else if n = 62 then '+'
  else '/'

/-- The six bits of a character. -/
def sixBits (c : Char) : Nat :=
  if c.isUpper then c.toNat - 'A'.toNat
  else if c.isLower then c.toNat - 'a'.toNat + 26
  else if c.isDigit then c.toNat - '0'.toNat + 52
  else if c = '+' then 62
  else 63

theorem sixBits_charOf : ∀ n < 64, sixBits (charOf n) = n := by decide

def encodeOriginal : List UInt8 → Text
  | [] => []
  | [a] => [charOf (a.toNat / 4), charOf (a.toNat % 4 * 16), '=', '=']
  | [a, b] =>
    [charOf (a.toNat / 4), charOf (a.toNat % 4 * 16 + b.toNat / 16), charOf (b.toNat % 16 * 4), '=']
  | a :: b :: c :: bytes =>
    charOf (a.toNat / 4) :: charOf (a.toNat % 4 * 16 + b.toNat / 16) ::
      charOf (b.toNat % 16 * 4 + c.toNat / 64) :: charOf (c.toNat % 64) :: encodeOriginal bytes

/-- What text is made of, if it is made of bytes. -/
def bytesOf : Text → List UInt8
  | w :: x :: y :: z :: t =>
    let first := UInt8.ofNat (sixBits w * 4 + sixBits x / 16)
    let second := UInt8.ofNat (sixBits x % 16 * 16 + sixBits y / 4)
    let third := UInt8.ofNat (sixBits y % 4 * 64 + sixBits z)
    if y = '=' then [first]
    else if z = '=' then [first, second]
    else first :: second :: third :: bytesOf t
  | _ => []

theorem charOf_ne_padding : ∀ n < 64, charOf n ≠ '=' := by decide

theorem bytesOf_encodeOriginal (bytes : List UInt8) : bytesOf (encodeOriginal bytes) = bytes := by
  have hbyte {n : Nat} {b : UInt8} (h : n = b.toNat) : UInt8.ofNat n = b := by
    rw [h]
    exact UInt8.ofNat_toNat
  induction bytes using encodeOriginal.induct with
  | case1 => rfl
  | case2 a =>
    have ha := a.toNat_lt
    simp only [encodeOriginal, bytesOf, if_true]
    rw [sixBits_charOf _ (by omega), sixBits_charOf _ (by omega), hbyte (b := a) (by omega)]
  | case3 a b =>
    have ha := a.toNat_lt
    have hb := b.toNat_lt
    simp only [encodeOriginal, bytesOf, if_true]
    rw [if_neg (charOf_ne_padding _ (by omega)), sixBits_charOf _ (by omega),
      sixBits_charOf _ (by omega), sixBits_charOf _ (by omega), hbyte (b := a) (by omega),
      hbyte (b := b) (by omega)]
  | case4 a b c bytes ih =>
    have ha := a.toNat_lt
    have hb := b.toNat_lt
    have hc := c.toNat_lt
    simp only [encodeOriginal, bytesOf]
    rw [if_neg (charOf_ne_padding _ (by omega)), if_neg (charOf_ne_padding _ (by omega)),
      sixBits_charOf _ (by omega), sixBits_charOf _ (by omega), sixBits_charOf _ (by omega),
      sixBits_charOf _ (by omega), hbyte (b := a) (by omega), hbyte (b := b) (by omega),
      hbyte (b := c) (by omega), ih]

theorem length_encodeOriginal (bytes : List UInt8) :
    bytes.length ≤ (encodeOriginal bytes).length := by
  induction bytes using encodeOriginal.induct with
  | case1 => exact le_refl _
  | case2 a => exact Nat.succ_le_succ (Nat.zero_le _)
  | case3 a b => exact Nat.succ_le_succ (Nat.succ_le_succ (Nat.zero_le _))
  | case4 a b c bytes ih =>
    simp only [encodeOriginal, List.length_cons]
    omega

/-- What is not the text of the bytes it is made of is refused. -/
def decodeOriginal (t : Text) : Option (List UInt8) :=
  if encodeOriginal (bytesOf t) = t then some (bytesOf t) else none

def original : Base64 where
  encode := encodeOriginal
  decode := decodeOriginal
  decode_eq_some_iff t bytes := by
    unfold decodeOriginal
    rw [Option.ite_none_right_eq_some, Option.some.injEq]
    constructor
    · rintro ⟨h, rfl⟩
      exact h.symm
    · rintro rfl
      rw [bytesOf_encodeOriginal]
      exact ⟨rfl, rfl⟩
  length_le := length_encodeOriginal

/-- Base 64 that encodes as the original does. -/
structure Standard extends Base64 where
  encode_eq : ∀ bytes, encode bytes = encodeOriginal bytes

def standard : Standard := { original with encode_eq := fun _ => rfl }

example : original.encode [0x61, 0x62, 0x3F, 0x63] = "YWI/Yw==".toList := by decide

/-! ## The text of bytes -/

theorem four_dvd_length (bytes : List UInt8) : 4 ∣ (encodeOriginal bytes).length := by
  induction bytes using encodeOriginal.induct with
  | case1 => exact Nat.dvd_zero 4
  | case2 a => exact Nat.dvd_refl 4
  | case3 a b => exact Nat.dvd_refl 4
  | case4 a b c bytes ih =>
    simp only [encodeOriginal, List.length_cons]
    omega

theorem charOf_ne_dot : ∀ n < 64, charOf n ≠ '.' := by decide

theorem dot_not_mem_encodeOriginal (bytes : List UInt8) : '.' ∉ encodeOriginal bytes := by
  have hchar {n : Nat} (hn : n < 64) : '.' ≠ charOf n := (charOf_ne_dot n hn).symm
  induction bytes using encodeOriginal.induct with
  | case1 => exact List.not_mem_nil
  | case2 a =>
    have ha := a.toNat_lt
    simp only [encodeOriginal, List.mem_cons, List.not_mem_nil, or_false, not_or]
    exact ⟨hchar (by omega), hchar (by omega), by decide, by decide⟩
  | case3 a b =>
    have ha := a.toNat_lt
    have hb := b.toNat_lt
    simp only [encodeOriginal, List.mem_cons, List.not_mem_nil, or_false, not_or]
    exact ⟨hchar (by omega), hchar (by omega), hchar (by omega), by decide⟩
  | case4 a b c bytes ih =>
    have ha := a.toNat_lt
    have hb := b.toNat_lt
    have hc := c.toNat_lt
    simp only [encodeOriginal, List.mem_cons, not_or]
    exact ⟨hchar (by omega), hchar (by omega), hchar (by omega), hchar (by omega), ih⟩

theorem charOf_ne_slash : ∀ n < 63, charOf n ≠ '/' := by decide

/-- No slash comes first, and none behind another, in the text of bytes as those of UTF-8 are: none
has six ones in front. -/
theorem isChain_encodeOriginal {bytes : List UInt8} (hbytes : ∀ b ∈ bytes, b.toNat < 252)
    (x : Char) :
    List.IsChain (fun c d => c ≠ '/' ∨ d ≠ '/') (x :: encodeOriginal bytes) := by
  have hleft {n : Nat} {d : Char} (hn : n < 63) : charOf n ≠ '/' ∨ d ≠ '/' :=
    .inl (charOf_ne_slash n hn)
  have hright {n : Nat} {c : Char} (hn : n < 63) : c ≠ '/' ∨ charOf n ≠ '/' :=
    .inr (charOf_ne_slash n hn)
  have hpadding {c : Char} : c ≠ '/' ∨ '=' ≠ '/' := .inr (by decide)
  induction bytes using encodeOriginal.induct generalizing x with
  | case1 => exact List.isChain_singleton x
  | case2 a =>
    have ha := hbytes a (by simp)
    refine .cons_cons (hright (by omega)) (.cons_cons (hleft (by omega)) ?_)
    exact .cons_cons hpadding (.cons_cons hpadding (.singleton _))
  | case3 a b =>
    have ha := hbytes a (by simp)
    have hb := hbytes b (by simp)
    refine .cons_cons (hright (by omega)) (.cons_cons (hleft (by omega)) ?_)
    exact .cons_cons (hright (by omega)) (.cons_cons hpadding (.singleton _))
  | case4 a b c bytes ih =>
    have ha := hbytes a (by simp)
    have hb := hbytes b (by simp)
    have hc := hbytes c (by simp)
    have hrest := ih (fun d hd => hbytes d (by simp [hd])) (charOf (c.toNat % 64))
    -- twelve ones in a row would take a byte of ones
    have hmiddle : charOf (a.toNat % 4 * 16 + b.toNat / 16) ≠ '/' ∨
        charOf (b.toNat % 16 * 4 + c.toNat / 64) ≠ '/' := by
      rcases Nat.lt_or_ge (a.toNat % 4 * 16 + b.toNat / 16) 63 with h | h
      · exact hleft h
      · exact hright (by omega)
    have hlast : charOf (b.toNat % 16 * 4 + c.toNat / 64) ≠ '/' ∨
        charOf (c.toNat % 64) ≠ '/' := by
      rcases Nat.lt_or_ge (b.toNat % 16 * 4 + c.toNat / 64) 63 with h | h
      · exact hleft h
      · exact hright (by omega)
    refine .cons_cons (hright (by omega)) (.cons_cons (hleft (by omega)) ?_)
    exact .cons_cons hmiddle (.cons_cons hlast hrest)

end Base64

end Kit
