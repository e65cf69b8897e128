import HopToDesk.Kit.EcmaScript
import HopToDesk.Kit.LittleEndian

/-!
# Text as bytes

`utf8` and `utf16le` write text as bytes. `fromUtf8Lossy` reads bytes as
`String::from_utf8_lossy` does, with a replacement character for each longest beginning of a
character that does not go on as one. `fromUtf16le` reads bytes that are UTF-16, and nothing else.
-/

set_option autoImplicit false

namespace Kit.Text

open EcmaScript

/-! ## UTF-8 -/

def utf8 (t : Text) : List UInt8 := t.flatMap String.utf8EncodeChar

/-- A byte that goes on a character. -/
def isContinuation (b : Nat) : Bool := 0x80 ≤ b && b ≤ 0xBF

/-- What may follow the first byte of a character of three bytes or four. -/
def secondOf (b c : Nat) : Bool :=
  if b = 0xE0 then 0xA0 ≤ c && c ≤ 0xBF
  else if b = 0xED then 0x80 ≤ c && c ≤ 0x9F
  else if b = 0xF0 then 0x90 ≤ c && c ≤ 0xBF
  else if b = 0xF4 then 0x80 ≤ c && c ≤ 0x8F
  else isContinuation c

/-- What is read of bytes that are not a character, and how many of them. -/
def bad (n : Nat) : Char × Nat := ('\uFFFD', n)

/-- What is read of bytes: a character, and how many of them. -/
def nextChar (b : Nat) (bs : List Nat) : Char × Nat :=
  if b < 0x80 then (Char.ofNat b, 1)
  else if 0xC2 ≤ b ∧ b ≤ 0xDF then
    match bs with
    | c :: _ => if isContinuation c then (Char.ofNat (b % 32 * 64 + c % 64), 2) else bad 1
    | [] => bad 1
  else if 0xE0 ≤ b ∧ b ≤ 0xEF then
    match bs with
    | c :: bs =>
      if secondOf b c then
        match bs with
        | d :: _ =>
          if isContinuation d then (Char.ofNat (b % 16 * 4096 + c % 64 * 64 + d % 64), 3)
          else bad 2
        | [] => bad 2
      else bad 1
    | [] => bad 1
  else if 0xF0 ≤ b ∧ b ≤ 0xF4 then
    match bs with
    | c :: bs =>
      if secondOf b c then
        match bs with
        | d :: bs =>
          if isContinuation d then
            match bs with
            | e :: _ =>
              if isContinuation e then
                (Char.ofNat (b % 8 * 262144 + c % 64 * 4096 + d % 64 * 64 + e % 64), 4)
              else bad 3
            | [] => bad 3
          else bad 2
        | [] => bad 2
      else bad 1
    | [] => bad 1
  else bad 1

/-- The characters of at most so many bytes. -/
def lossyFrom : Nat → List Nat → Text
  | 0, _ => []
  | _, [] => []
  | n + 1, b :: bs => (nextChar b bs).1 :: lossyFrom n (bs.drop ((nextChar b bs).2 - 1))

def fromUtf8Lossy (bytes : List UInt8) : Text := lossyFrom bytes.length (bytes.map UInt8.toNat)

example : fromUtf8Lossy [0x61, 0xC3, 0xA9, 0xE2, 0x82, 0x62] = ['a', 'é', '\uFFFD', 'b'] := by
  decide

theorem toNat_utf8EncodeChar (c : Char) : (String.utf8EncodeChar c).map UInt8.toNat =
    if c.toNat ≤ 0x7F then [c.toNat]
    else if c.toNat ≤ 0x7FF then [c.toNat / 64 % 32 + 0xC0, c.toNat % 64 + 0x80]
    else if c.toNat ≤ 0xFFFF then
      [c.toNat / 4096 % 16 + 0xE0, c.toNat / 64 % 64 + 0x80, c.toNat % 64 + 0x80]
    else
      [c.toNat / 262144 % 8 + 0xF0, c.toNat / 4096 % 64 + 0x80, c.toNat / 64 % 64 + 0x80,
        c.toNat % 64 + 0x80] := by
  have hbyte {n : Nat} (h : n < 256) : (UInt8.ofNat n).toNat = n := by
    rw [UInt8.toNat_ofNat', Nat.mod_eq_of_lt h]
  have hdef : String.utf8EncodeChar c =
      if c.toNat ≤ 0x7F then [UInt8.ofNat c.toNat]
      else if c.toNat ≤ 0x7FF then
        [UInt8.ofNat (c.toNat / 64 % 32 + 0xC0), UInt8.ofNat (c.toNat % 64 + 0x80)]
      else if c.toNat ≤ 0xFFFF then
        [UInt8.ofNat (c.toNat / 4096 % 16 + 0xE0), UInt8.ofNat (c.toNat / 64 % 64 + 0x80),
          UInt8.ofNat (c.toNat % 64 + 0x80)]
      else
        [UInt8.ofNat (c.toNat / 262144 % 8 + 0xF0), UInt8.ofNat (c.toNat / 4096 % 64 + 0x80),
          UInt8.ofNat (c.toNat / 64 % 64 + 0x80), UInt8.ofNat (c.toNat % 64 + 0x80)] := rfl
  rw [hdef]
  split_ifs with h₁ h₂ h₃
  · rw [List.map_singleton, hbyte (by omega)]
  · rw [List.map_cons, List.map_singleton, hbyte (by omega), hbyte (by omega)]
  · rw [List.map_cons, List.map_cons, List.map_singleton, hbyte (by omega), hbyte (by omega),
      hbyte (by omega)]
  · rw [List.map_cons, List.map_cons, List.map_cons, List.map_singleton, hbyte (by omega),
      hbyte (by omega), hbyte (by omega), hbyte (by omega)]

/-- A character is no surrogate and not too large. -/
theorem toNat_cases (c : Char) : c.toNat < 0xD800 ∨ (0xDFFF < c.toNat ∧ c.toNat < 0x110000) :=
  c.valid

/-- A character is read back from its bytes. -/
theorem nextChar_utf8 (c : Char) (rest : List Nat) : ∃ b bs,
    (String.utf8EncodeChar c).map UInt8.toNat = b :: bs ∧
      nextChar b (bs ++ rest) = (c, bs.length + 1) := by
  have hvalid := toNat_cases c
  have hchar {n : Nat} (h : n = c.toNat) : Char.ofNat n = c := by
    rw [h]
    exact Char.ofNat_toNat c
  rw [toNat_utf8EncodeChar]
  split_ifs with h₁ h₂ h₃
  · refine ⟨_, _, rfl, ?_⟩
    unfold nextChar
    rw [if_pos (by omega), hchar rfl]
    rfl
  · refine ⟨_, _, rfl, ?_⟩
    have hlow : ¬ c.toNat / 64 % 32 + 0xC0 < 0x80 := by omega
    have hlead : 0xC2 ≤ c.toNat / 64 % 32 + 0xC0 ∧ c.toNat / 64 % 32 + 0xC0 ≤ 0xDF := by omega
    have hnext : isContinuation (c.toNat % 64 + 0x80) = true := by
      simp [isContinuation]
      omega
    unfold nextChar
    rw [if_neg hlow, if_pos hlead]
    simp only [List.cons_append, hnext, if_true]
    rw [hchar (by omega)]
    rfl
  · refine ⟨_, _, rfl, ?_⟩
    have hlow : ¬ c.toNat / 4096 % 16 + 0xE0 < 0x80 := by omega
    have htwo : ¬ (0xC2 ≤ c.toNat / 4096 % 16 + 0xE0 ∧ c.toNat / 4096 % 16 + 0xE0 ≤ 0xDF) := by
      omega
    have hlead : 0xE0 ≤ c.toNat / 4096 % 16 + 0xE0 ∧ c.toNat / 4096 % 16 + 0xE0 ≤ 0xEF := by
      omega
    have hsecond : secondOf (c.toNat / 4096 % 16 + 0xE0) (c.toNat / 64 % 64 + 0x80) = true := by
      unfold secondOf isContinuation
      split_ifs <;> simp only [Bool.and_eq_true, decide_eq_true_eq] <;> omega
    have hthird : isContinuation (c.toNat % 64 + 0x80) = true := by
      simp [isContinuation]
      omega
    unfold nextChar
    rw [if_neg hlow, if_neg htwo, if_pos hlead]
    simp only [List.cons_append, hsecond, hthird, if_true]
    rw [hchar (by omega)]
    rfl
  · refine ⟨_, _, rfl, ?_⟩
    have hlow : ¬ c.toNat / 262144 % 8 + 0xF0 < 0x80 := by omega
    have htwo : ¬ (0xC2 ≤ c.toNat / 262144 % 8 + 0xF0 ∧ c.toNat / 262144 % 8 + 0xF0 ≤ 0xDF) := by
      omega
    have hthree : ¬ (0xE0 ≤ c.toNat / 262144 % 8 + 0xF0 ∧ c.toNat / 262144 % 8 + 0xF0 ≤ 0xEF) := by
      omega
    have hlead : 0xF0 ≤ c.toNat / 262144 % 8 + 0xF0 ∧ c.toNat / 262144 % 8 + 0xF0 ≤ 0xF4 := by
      omega
    have hsecond : secondOf (c.toNat / 262144 % 8 + 0xF0) (c.toNat / 4096 % 64 + 0x80) = true := by
      unfold secondOf isContinuation
      split_ifs <;> simp only [Bool.and_eq_true, decide_eq_true_eq] <;> omega
    have hthird : isContinuation (c.toNat / 64 % 64 + 0x80) = true := by
      simp [isContinuation]
      omega
    have hfourth : isContinuation (c.toNat % 64 + 0x80) = true := by
      simp [isContinuation]
      omega
    unfold nextChar
    rw [if_neg hlow, if_neg htwo, if_neg hthree, if_pos hlead]
    simp only [List.cons_append, hsecond, hthird, hfourth, if_true]
    rw [hchar (by omega)]
    rfl

theorem lossyFrom_utf8 (t : Text) {n : Nat} (hn : (utf8 t).length ≤ n) :
    lossyFrom n ((utf8 t).map UInt8.toNat) = t := by
  induction t generalizing n with
  | nil =>
    cases n with
    | zero => rfl
    | succ n => rfl
  | cons c t ih =>
    obtain ⟨b, bs, hbytes, hnext⟩ := nextChar_utf8 c ((utf8 t).map UInt8.toNat)
    have hmap : (utf8 (c :: t)).map UInt8.toNat = b :: (bs ++ (utf8 t).map UInt8.toNat) := by
      rw [utf8, List.flatMap_cons, List.map_append, hbytes, List.cons_append]
      rfl
    have hlength := congrArg List.length hmap
    simp only [List.length_map, List.length_cons, List.length_append] at hlength
    obtain ⟨n, rfl⟩ := Nat.exists_eq_succ_of_ne_zero (n := n) (by omega)
    rw [hmap, lossyFrom, hnext]
    dsimp only
    rw [Nat.add_sub_cancel, List.drop_left, ih (by omega)]

/-- **Valid bytes are read as they are.** -/
theorem fromUtf8Lossy_utf8 (t : Text) : fromUtf8Lossy (utf8 t) = t :=
  lossyFrom_utf8 t (le_refl _)

/-- No byte has six ones in front. -/
theorem toNat_lt_of_mem_utf8 {t : Text} {b : UInt8} (h : b ∈ utf8 t) : b.toNat < 252 := by
  obtain ⟨c, -, hb⟩ := List.mem_flatMap.mp h
  have hmem := List.mem_map_of_mem (f := UInt8.toNat) hb
  rw [toNat_utf8EncodeChar] at hmem
  split_ifs at hmem <;> simp only [List.mem_cons, List.not_mem_nil, or_false] at hmem <;> omega

theorem length_utf8EncodeChar (c : Char) :
    1 ≤ (String.utf8EncodeChar c).length ∧ (String.utf8EncodeChar c).length ≤ 4 := by
  have hbytes := congrArg List.length (toNat_utf8EncodeChar c)
  rw [List.length_map] at hbytes
  rw [hbytes]
  split_ifs <;> simp only [List.length_cons, List.length_nil] <;> omega

theorem length_le_utf8 (t : Text) : t.length ≤ (utf8 t).length := by
  induction t with
  | nil => exact le_refl _
  | cons c t ih =>
    have hc := (length_utf8EncodeChar c).1
    unfold utf8 at ih ⊢
    rw [List.flatMap_cons, List.length_append, List.length_cons]
    omega

theorem utf8_length_le (t : Text) : (utf8 t).length ≤ 4 * t.length := by
  induction t with
  | nil => exact le_refl _
  | cons c t ih =>
    have hc := (length_utf8EncodeChar c).2
    unfold utf8 at ih ⊢
    rw [List.flatMap_cons, List.length_append, List.length_cons]
    omega

theorem length_lossyFrom_le (n : Nat) (bs : List Nat) : (lossyFrom n bs).length ≤ n := by
  induction n generalizing bs with
  | zero =>
    unfold lossyFrom
    exact le_refl _
  | succ n ih =>
    cases bs with
    | nil => exact Nat.zero_le _
    | cons b bs =>
      unfold lossyFrom
      exact Nat.succ_le_succ (ih _)

/-- Bytes are no more characters than bytes. -/
theorem length_fromUtf8Lossy_le (bytes : List UInt8) :
    (fromUtf8Lossy bytes).length ≤ bytes.length :=
  length_lossyFrom_le _ _

/-! ## UTF-16 -/

def utf16le (t : Text) : List UInt8 := (utf16 t).flatMap (toLe 2)

/-- The code units of bytes; half a unit is none. -/
def units : List UInt8 → Option (List Nat)
  | [] => some []
  | [_] => none
  | b :: c :: bs => (units bs).map (ofLe [b, c] :: ·)

/-- The text of code units: surrogates come in pairs. -/
def fromUtf16 : List Nat → Option Text
  | [] => some []
  | u :: us =>
    if 0xD800 ≤ u ∧ u < 0xDC00 then
      match us with
      | v :: us =>
        if 0xDC00 ≤ v ∧ v < 0xE000 then
          (fromUtf16 us).map (Char.ofNat (0x10000 + (u - 0xD800) * 0x400 + (v - 0xDC00)) :: ·)
        else none
      | [] => none
    else if 0xDC00 ≤ u ∧ u < 0xE000 then none
    else (fromUtf16 us).map (Char.ofNat u :: ·)

def fromUtf16le (bytes : List UInt8) : Option Text := (units bytes).bind fromUtf16

@[simp]
theorem utf16le_append (t t' : Text) : utf16le (t ++ t') = utf16le t ++ utf16le t' := by
  rw [utf16le, utf16_append, List.flatMap_append]
  rfl

theorem length_utf16le (t : Text) : (utf16le t).length = 2 * (utf16 t).length := by
  rw [utf16le, List.length_flatMap]
  simp [Nat.mul_comm]

theorem utf16le_replicate_nul (n : Nat) :
    utf16le (List.replicate n '\x00') = List.replicate (2 * n) 0 := by
  induction n with
  | zero => rfl
  | succ n ih =>
    have hnul : utf16le ['\x00'] = [0, 0] := by decide
    rw [List.replicate_succ, ← List.singleton_append, utf16le_append, ih, hnul, Nat.mul_succ,
      Nat.add_comm, List.replicate_add]
    rfl

theorem codeUnits_lt {u : Nat} (c : Char) (hu : u ∈ codeUnits c.toNat) : u < 0x10000 := by
  have hvalid := toNat_cases c
  unfold codeUnits at hu
  split_ifs at hu with h
  · rw [List.mem_singleton.mp hu]
    exact h
  · simp only [List.mem_cons, List.not_mem_nil, or_false] at hu
    omega

theorem units_toLe {us : List Nat} (h : ∀ u ∈ us, u < 0x10000) :
    units (us.flatMap (toLe 2)) = some us := by
  induction us with
  | nil => rfl
  | cons u us ih =>
    obtain ⟨hu, hus⟩ := List.forall_mem_cons.mp h
    have hunit : ofLe (toLe 2 u) = u := ofLe_toLe_of_lt hu
    show (units (us.flatMap (toLe 2))).map (ofLe (toLe 2 u) :: ·) = _
    rw [ih hus, hunit]
    rfl

/-- A unit that is no surrogate is a character. -/
theorem fromUtf16_cons {u : Nat} (hhigh : ¬ (0xD800 ≤ u ∧ u < 0xDC00))
    (hlow : ¬ (0xDC00 ≤ u ∧ u < 0xE000)) (us : List Nat) :
    fromUtf16 (u :: us) = (fromUtf16 us).map (Char.ofNat u :: ·) := by
  rw [fromUtf16.eq_def]
  dsimp only
  rw [if_neg hhigh, if_neg hlow]

/-- Two surrogates are one. -/
theorem fromUtf16_pair {u v : Nat} (hhigh : 0xD800 ≤ u ∧ u < 0xDC00)
    (hlow : 0xDC00 ≤ v ∧ v < 0xE000) (us : List Nat) : fromUtf16 (u :: v :: us) =
      (fromUtf16 us).map (Char.ofNat (0x10000 + (u - 0xD800) * 0x400 + (v - 0xDC00)) :: ·) := by
  rw [fromUtf16.eq_def]
  dsimp only
  rw [if_pos hhigh, if_pos hlow]

theorem fromUtf16_codeUnits (c : Char) (us : List Nat) :
    fromUtf16 (codeUnits c.toNat ++ us) = (fromUtf16 us).map (c :: ·) := by
  have hvalid := toNat_cases c
  unfold codeUnits
  split_ifs with h
  · rw [List.singleton_append, fromUtf16_cons (by omega) (by omega), Char.ofNat_toNat]
  · have hhigh : 0xD800 ≤ 0xD800 + (c.toNat - 0x10000) / 0x400 ∧
        0xD800 + (c.toNat - 0x10000) / 0x400 < 0xDC00 := by omega
    have hlow : 0xDC00 ≤ 0xDC00 + (c.toNat - 0x10000) % 0x400 ∧
        0xDC00 + (c.toNat - 0x10000) % 0x400 < 0xE000 := by omega
    have hvalue : 0x10000 + (0xD800 + (c.toNat - 0x10000) / 0x400 - 0xD800) * 0x400 +
        (0xDC00 + (c.toNat - 0x10000) % 0x400 - 0xDC00) = c.toNat := by omega
    rw [List.cons_append, List.singleton_append, fromUtf16_pair hhigh hlow, hvalue,
      Char.ofNat_toNat]

theorem units_utf16le (t : Text) : units (utf16le t) = some (utf16 t) := by
  refine units_toLe fun u hu => ?_
  obtain ⟨c, -, hu⟩ := List.mem_flatMap.mp hu
  exact codeUnits_lt c hu

theorem fromUtf16_utf16 (t : Text) : fromUtf16 (utf16 t) = some t := by
  induction t with
  | nil => rfl
  | cons c t ih =>
    rw [utf16_cons, fromUtf16_codeUnits, ih]
    rfl

/-- **Text is read back from its code units.** -/
theorem fromUtf16le_utf16le (t : Text) : fromUtf16le (utf16le t) = some t := by
  rw [fromUtf16le, units_utf16le, Option.bind_some, fromUtf16_utf16]

end Kit.Text

/-!
## Slices at byte positions

`&t[..n]` counts bytes: it is the text before byte `n`, and a panic where a character lies across
that byte or the text ends before it.
-/

namespace Kit.Text

/-- `len`. -/
def byteLen (t : Text) : Nat := (utf8 t).length

/-- `&t[..n]`; a panic is none. -/
def sliceTo : Nat → Text → Option Text
  | 0, _ => some []
  | _ + 1, [] => none
  | n + 1, c :: t =>
    if c.utf8Size ≤ n + 1 then (sliceTo (n + 1 - c.utf8Size) t).map (c :: ·) else none

/-- A character begins before byte `n` and ends behind it. -/
def Across (n : Nat) (t : Text) : Prop :=
  ∃ p c q, t = p ++ c :: q ∧ byteLen p < n ∧ n < byteLen p + c.utf8Size

example : sliceTo 3 ['a', 'é', 'b'] = some ['a', 'é'] := by decide

variable {n : Nat} {t p q : Text} {c : Char}

@[simp] theorem byteLen_nil : byteLen [] = 0 := rfl

@[simp] theorem byteLen_append : byteLen (p ++ q) = byteLen p + byteLen q := by
  unfold byteLen utf8
  rw [List.flatMap_append, List.length_append]

@[simp] theorem byteLen_cons : byteLen (c :: t) = c.utf8Size + byteLen t := by
  unfold byteLen utf8
  rw [List.flatMap_cons, List.length_append, String.length_utf8EncodeChar]

theorem byteLen_replicate : byteLen (List.replicate n c) = n * c.utf8Size := by
  induction n with
  | zero => simp
  | succ n ih =>
    rw [List.replicate_succ, byteLen_cons, ih]
    ring

/-- **The slice is the beginning that has so many bytes.** -/
theorem sliceTo_eq_some_iff : sliceTo n t = some p ↔ p <+: t ∧ byteLen p = n := by
  fun_induction sliceTo n t generalizing p with
  | case1 t =>
    constructor
    · rintro ⟨⟩
      exact ⟨List.nil_prefix, rfl⟩
    · rintro ⟨-, hlen⟩
      cases p with
      | nil => rfl
      | cons c p =>
        have hpos := c.utf8Size_pos
        rw [byteLen_cons] at hlen
        omega
  | case2 n =>
    constructor
    · intro h
      cases h
    · rintro ⟨hpre, hlen⟩
      rw [List.prefix_nil.mp hpre] at hlen
      cases hlen
  | case3 n c t hfits ih =>
    rw [Option.map_eq_some_iff]
    constructor
    · rintro ⟨p, hp, rfl⟩
      obtain ⟨hpre, hlen⟩ := ih.mp hp
      refine ⟨List.cons_prefix_cons.mpr ⟨rfl, hpre⟩, ?_⟩
      rw [byteLen_cons]
      omega
    · rintro ⟨hpre, hlen⟩
      cases p with
      | nil => cases hlen
      | cons d p =>
        obtain ⟨rfl, hrest⟩ := List.cons_prefix_cons.mp hpre
        rw [byteLen_cons] at hlen
        exact ⟨p, ih.mpr ⟨hrest, by omega⟩, rfl⟩
  | case4 n c t hlong =>
    constructor
    · intro h
      cases h
    · rintro ⟨hpre, hlen⟩
      cases p with
      | nil => cases hlen
      | cons d p =>
        obtain ⟨rfl, -⟩ := List.cons_prefix_cons.mp hpre
        rw [byteLen_cons] at hlen
        omega

/-- A text that is long enough has a slice unless a character lies across its end. -/
theorem exists_sliceTo_iff (h : n ≤ byteLen t) : (∃ p, sliceTo n t = some p) ↔ ¬ Across n t := by
  constructor
  · rintro ⟨p, hp⟩ ⟨p', c, q, rfl, hbefore, hbehind⟩
    obtain ⟨hpre, hlen⟩ := sliceTo_eq_some_iff.mp hp
    rcases List.prefix_or_prefix_of_prefix hpre (List.prefix_append p' (c :: q)) with hle | hle
    · obtain ⟨r, rfl⟩ := hle
      rw [byteLen_append] at hbefore
      omega
    · obtain ⟨r, rfl⟩ := hle
      rw [List.prefix_append_right_inj] at hpre
      cases r with
      | nil =>
        rw [List.append_nil] at hlen
        omega
      | cons d r =>
        obtain ⟨rfl, -⟩ := List.cons_prefix_cons.mp hpre
        rw [byteLen_append, byteLen_cons] at hlen
        omega
  · intro hacross
    fun_induction sliceTo n t with
    | case1 t => exact ⟨[], rfl⟩
    | case2 n => exact absurd h (by simp)
    | case3 n c t hfits ih =>
      rw [byteLen_cons] at h
      have hrest : ¬ Across (n + 1 - c.utf8Size) t := by
        rintro ⟨p, d, q, rfl, hbefore, hbehind⟩
        refine hacross ⟨c :: p, d, q, rfl, ?_, ?_⟩ <;> rw [byteLen_cons] <;> omega
      obtain ⟨p, hp⟩ := ih (by omega) hrest
      exact ⟨c :: p, by rw [hp]; rfl⟩
    | case4 n c t hlong =>
      refine absurd ⟨[], c, t, rfl, ?_, ?_⟩ hacross <;> rw [byteLen_nil] <;> omega

end Kit.Text
