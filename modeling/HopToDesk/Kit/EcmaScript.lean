import HopToDesk.Kit.Text

/-!
# Literals of ECMAScript

The value of a string literal is a list of UTF-16 code units. `scan` reads such a literal behind its
opening quote, with the escape sequences scripts have outside strict mode, line continuations and
octal ones included. A literal is a string, a word (a number or a keyword), or an object of these.
`guardedCall` reads a script that is one call.

An escape sequence never stands for more code units than it has characters (`taken_escape`).
-/

set_option autoImplicit false

namespace Kit.EcmaScript

open Text

/-- The code units of a code point. -/
def codeUnits (n : Nat) : List Nat :=
  if n < 0x10000 then [n]
  else [0xD800 + (n - 0x10000) / 0x400, 0xDC00 + (n - 0x10000) % 0x400]

def utf16 (t : Text) : List Nat := t.flatMap fun c => codeUnits c.toNat

/-! ## Escape sequences -/

def hexValue (c : Char) : Option Nat :=
  if '0' ≤ c ∧ c ≤ '9' then some (c.toNat - 48)
  else if 'a' ≤ c ∧ c ≤ 'f' then some (c.toNat - 87)
  else if 'A' ≤ c ∧ c ≤ 'F' then some (c.toNat - 55)
  else none

def hexNumber (digits : Text) : Option Nat :=
  digits.foldlM (fun n c => (hexValue c).map (16 * n + ·)) 0

/-- A fixed number of hexadecimal digits. -/
def fixedEscape (count : Nat) (t : Text) : Option (List Nat × Nat) :=
  if count ≤ t.length then (hexNumber (t.take count)).map fun n => ([n], count + 1) else none

/-- Hexadecimal digits up to a closing brace. -/
def bracedEscape (t : Text) : Option (List Nat × Nat) :=
  let digits := t.takeWhile fun c => (hexValue c).isSome
  if digits ≠ [] ∧ t[digits.length]? = some '}' then
    (hexNumber digits).bind fun n =>
      if n ≤ 0x10FFFF then some (codeUnits n, digits.length + 3) else none
  else none

def isOctal (c : Char) : Bool := '0' ≤ c && c ≤ '7'

/-- Up to three octal digits, of a value below 256. -/
def octalEscape (c : Char) (t : Text) : List Nat × Nat :=
  let digits := c :: (t.take (if c ≤ '3' then 2 else 1)).takeWhile isOctal
  ([digits.foldl (fun n c => 8 * n + (c.toNat - 48)) 0], digits.length)

def singleEscape (c : Char) : List Nat :=
  if c = 'b' then [8]
  else if c = 't' then [9]
  else if c = 'n' then [10]
  else if c = 'v' then [11]
  else if c = 'f' then [12]
  else if c = 'r' then [13]
  else codeUnits c.toNat

/-- The escape sequence behind a backslash: what it stands for, and how many characters it has. -/
def escape : Text → Option (List Nat × Nat)
  | [] => none
  | c :: t =>
    if c = 'x' then fixedEscape 2 t
    else if c = 'u' then if t.head? = some '{' then bracedEscape t.tail else fixedEscape 4 t
    else if isOctal c then some (octalEscape c t)
    else if c = '\r' then some ([], if t.head? = some '\n' then 2 else 1)
    else if c = '\n' ∨ c = '\u2028' ∨ c = '\u2029' then some ([], 1)
    else some (singleEscape c, 1)

/-! ## Literals -/

/-- A string literal from behind its opening quote, when so many characters have been read already:
the value, and the text behind it. -/
def scan (quote : Char) : Nat → Text → Option (List Nat × Text)
  | _, [] => none
  | n + 1, _ :: t => scan quote n t
  | 0, c :: t =>
    if c = quote then some ([], t)
    else if c = '\\' then
      (escape t).bind fun x => (scan quote x.2 t).map fun y => (x.1 ++ y.1, y.2)
    else if c = '\n' ∨ c = '\r' then none
    else (scan quote 0 t).map fun y => (codeUnits c.toNat ++ y.1, y.2)

def string : Text → Option (List Nat × Text)
  | [] => none
  | c :: t => if c = '"' ∨ c = '\'' then scan c 0 t else none

inductive Scalar
  | word (t : Text)
  | string (value : List Nat)
deriving DecidableEq

inductive Literal
  | scalar (x : Scalar)
  | object (fields : List (List Nat × Scalar))
deriving DecidableEq

def isWordChar (c : Char) : Bool := c.isAlphanum || c == '-'

def scalar (t : Text) : Option (Scalar × Text) :=
  match string t with
  | some (value, rest) => some (.string value, rest)
  | none =>
    let word := t.takeWhile isWordChar
    if word = [] then none else some (.word word, t.dropWhile isWordChar)

/-- A field of an object, with its key in quotes. -/
def field (t : Text) : Option ((List Nat × Scalar) × Text) := do
  let (key, t) ← string t
  let t ← stripPrefix [':'] t
  let (value, t) ← scalar t
  return ((key, value), t)

/-- At most so many fields, up to the closing brace. -/
def fields : Nat → Text → Option (List (List Nat × Scalar) × Text)
  | 0, _ => none
  | n + 1, t => do
    let (x, t) ← field t
    match t with
    | [] => none
    | c :: t =>
      if c = ',' then (fields n t).map fun y => (x :: y.1, y.2)
      else if c = '}' then some ([x], t)
      else none

def literal : Text → Option (Literal × Text)
  | [] => none
  | c :: t =>
    if c = '{' then (fields t.length t).map fun y => (.object y.1, y.2)
    else (scalar (c :: t)).map fun y => (.scalar y.1, y.2)

/-- A script that is one call of a function, made when there is such a function, with a string
literal and a literal. -/
def guardedCall (function : Text) (script : Text) : Option (List Nat × Literal) := do
  let t ← stripPrefix (function ++ [' ', '&', '&', ' '] ++ function ++ ['(']) script
  let (method, t) ← string t
  let t ← stripPrefix [',', ' '] t
  let (data, t) ← literal t
  if t = [')'] then some (method, data) else none

/-! ## Lengths -/

@[simp]
theorem utf16_cons (c : Char) (t : Text) : utf16 (c :: t) = codeUnits c.toNat ++ utf16 t :=
  List.flatMap_cons

theorem utf16_append (t t' : Text) : utf16 (t ++ t') = utf16 t ++ utf16 t' := List.flatMap_append

theorem length_codeUnits (n : Nat) : 1 ≤ (codeUnits n).length ∧ (codeUnits n).length ≤ 2 := by
  unfold codeUnits
  split_ifs <;> simp

theorem length_le_utf16 (t : Text) : t.length ≤ (utf16 t).length := by
  induction t with
  | nil => exact le_rfl
  | cons c t ih =>
    have := (length_codeUnits c.toNat).1
    rw [utf16_cons, List.length_append, List.length_cons]
    omega

theorem length_singleEscape (c : Char) : (singleEscape c).length ≤ (codeUnits c.toNat).length := by
  have := (length_codeUnits c.toNat).1
  unfold singleEscape
  split_ifs <;> simp <;> omega

/-! ## What an escape sequence takes -/

/-- A character that no quoting touches. -/
def Plain (c : Char) : Prop := c ≠ '\\' ∧ c ≠ '"' ∧ c ≠ '\''

theorem plain_of_hexValue {c : Char} (h : (hexValue c).isSome = true) : Plain c := by
  refine ⟨?_, ?_, ?_⟩ <;> rintro rfl <;> revert h <;> decide

theorem plain_of_isOctal {c : Char} (h : isOctal c = true) : Plain c := by
  refine ⟨?_, ?_, ?_⟩ <;> rintro rfl <;> revert h <;> decide

theorem plain_of_hexNumber {digits : Text} {n : Nat} (h : hexNumber digits = some n) :
    ∀ c ∈ digits, Plain c := by
  unfold hexNumber at h
  generalize 0 = m at h
  induction digits generalizing m with
  | nil => simp
  | cons d digits ih =>
    rw [List.foldlM_cons, Option.bind_eq_bind, Option.bind_eq_some_iff] at h
    obtain ⟨k, hk, hrest⟩ := h
    rw [List.forall_mem_cons]
    refine ⟨plain_of_hexValue ?_, ih _ hrest⟩
    cases hd : hexValue d with
    | none => rw [hd] at hk; cases hk
    | some v => rfl

/-- An escape sequence is its first character and others that no quoting touches, unless it is a
quote or a backslash alone. It does not stand for more code units than it has characters. -/
structure Taken (t : Text) (us : List Nat) (n : Nat) (c : Char) (more rest : Text) : Prop where
  text : t = c :: (more ++ rest)
  count : n = more.length + 1
  plain : ∀ x ∈ more, Plain x
  units : us.length ≤ (utf16 (c :: more)).length
  alone : ¬ Plain c → more = []

theorem taken_fixed {c : Char} (hc : Plain c) {count : Nat} {t : Text} {us : List Nat} {n : Nat}
    (h : fixedEscape count t = some (us, n)) : ∃ more rest, Taken (c :: t) us n c more rest := by
  unfold fixedEscape at h
  split_ifs at h with hcount
  rw [Option.map_eq_some_iff] at h
  obtain ⟨v, hv, heq⟩ := h
  cases heq
  refine ⟨t.take count, t.drop count, ?_, ?_, plain_of_hexNumber hv, ?_, fun hn => absurd hc hn⟩
  · rw [List.take_append_drop]
  · rw [List.length_take_of_le hcount]
  · have := (length_codeUnits c.toNat).1
    rw [utf16_cons, List.length_append, List.length_singleton]
    omega

theorem taken_braced {c : Char} (hc : Plain c) {t : Text} {us : List Nat} {n : Nat}
    (h : bracedEscape t = some (us, n)) : ∃ more rest, Taken (c :: '{' :: t) us n c more rest := by
  unfold bracedEscape at h
  dsimp only at h
  generalize hdigits : t.takeWhile (fun c => (hexValue c).isSome) = digits at h
  split_ifs at h with hbrace
  rw [Option.bind_eq_some_iff] at h
  obtain ⟨v, hv, heq⟩ := h
  split_ifs at heq
  cases heq
  have hprefix : digits <+: t := hdigits ▸ List.takeWhile_prefix _
  obtain ⟨behind, rfl⟩ := hprefix
  rw [List.getElem?_append_right le_rfl, Nat.sub_self] at hbrace
  obtain ⟨rest, rfl⟩ : ∃ rest, behind = '}' :: rest := by
    cases behind with
    | nil => exact absurd hbrace.2 (by simp)
    | cons x rest => exact ⟨rest, by simpa using hbrace.2⟩
  refine ⟨'{' :: (digits ++ ['}']), rest, ?_, ?_, ?_, ?_, fun hn => absurd hc hn⟩
  · simp
  · simp
  · intro x hx
    rcases List.mem_cons.mp hx with rfl | hx
    · exact ⟨by decide, by decide, by decide⟩
    · rcases List.mem_append.mp hx with hx | hx
      · exact plain_of_hexNumber hv x hx
      · rw [List.mem_singleton.mp hx]
        exact ⟨by decide, by decide, by decide⟩
  · have hlong := length_le_utf16 (c :: '{' :: (digits ++ ['}']))
    have hshort := (length_codeUnits v).2
    simp only [List.length_cons, List.length_append] at hlong
    omega

theorem taken_octal {c : Char} (hc : isOctal c = true) (t : Text) :
    ∃ more rest, Taken (c :: t) (octalEscape c t).1 (octalEscape c t).2 c more rest := by
  unfold octalEscape
  dsimp only
  generalize hcount : (if c ≤ '3' then 2 else 1) = count
  have hprefix : (t.take count).takeWhile isOctal <+: t :=
    (List.takeWhile_prefix _).trans (List.take_prefix _ _)
  obtain ⟨rest, hrest⟩ := hprefix
  refine ⟨(t.take count).takeWhile isOctal, rest, ?_, List.length_cons, ?_, ?_,
    fun hn => absurd (plain_of_isOctal hc) hn⟩
  · rw [hrest]
  · intro x hx
    exact plain_of_isOctal (List.mem_takeWhile_imp hx)
  · have := (length_codeUnits c.toNat).1
    rw [utf16_cons, List.length_append, List.length_singleton]
    omega

theorem taken_escape {t : Text} {us : List Nat} {n : Nat} (h : escape t = some (us, n)) :
    ∃ c more rest, Taken t us n c more rest := by
  cases t with
  | nil => cases h
  | cons c t =>
    refine ⟨c, ?_⟩
    rw [escape] at h
    split_ifs at h with hx hu hbrace hoctal hcr hlf hline
    · subst hx
      exact taken_fixed ⟨by decide, by decide, by decide⟩ h
    · subst hu
      cases t with
      | nil => cases hbrace
      | cons d t =>
        cases hbrace
        exact taken_braced ⟨by decide, by decide, by decide⟩ h
    · subst hu
      exact taken_fixed ⟨by decide, by decide, by decide⟩ h
    · cases h
      exact taken_octal hoctal t
    · cases h
      cases t with
      | nil => cases hlf
      | cons d t =>
        cases hlf
        refine ⟨['\n'], t, rfl, rfl, ?_, Nat.zero_le _, fun hn => absurd ?_ hn⟩
        · intro x hx
          rw [List.mem_singleton.mp hx]
          exact ⟨by decide, by decide, by decide⟩
        · subst hcr
          exact ⟨by decide, by decide, by decide⟩
    · cases h
      exact ⟨[], t, rfl, rfl, by simp, Nat.zero_le _, fun _ => rfl⟩
    · cases h
      exact ⟨[], t, rfl, rfl, by simp, Nat.zero_le _, fun _ => rfl⟩
    · cases h
      refine ⟨[], t, rfl, rfl, by simp, ?_, fun _ => rfl⟩
      rw [utf16_cons, List.length_append]
      have := length_singleEscape c
      omega

end Kit.EcmaScript
