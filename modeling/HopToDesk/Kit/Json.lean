import HopToDesk.Kit.Text

/-!
# JSON as it is written

A value, and the text `serde_json` writes for it: without white space, the fields of an object in
their order, and in a string an escape for each quote, backslash and control character.

Of such a text one wants to know where it can have a quote, a backslash or a line terminator in it.
It has none but those its strings bring along (`Json.mem_write`).
-/

set_option autoImplicit false

namespace Kit

inductive Json
  | null
  | bool (b : Bool)
  | num (n : Int)
  | str (t : Text)
  | arr (items : List Json)
  | obj (fields : List (Text × Json))

namespace Json

def hexDigits : Text :=
  ['0', '1', '2', '3', '4', '5', '6', '7', '8', '9', 'a', 'b', 'c', 'd', 'e', 'f']

def hexDigit (n : Nat) : Char := hexDigits.getD n '0'

def escapeChar (c : Char) : Text :=
  if c = '"' then ['\\', '"']
  else if c = '\\' then ['\\', '\\']
  else if c = '\x08' then ['\\', 'b']
  else if c = '\x0c' then ['\\', 'f']
  else if c = '\n' then ['\\', 'n']
  else if c = '\r' then ['\\', 'r']
  else if c = '\t' then ['\\', 't']
  else if c < ' ' then ['\\', 'u', '0', '0', hexDigit (c.toNat / 16), hexDigit (c.toNat % 16)]
  else [c]

def writeString (t : Text) : Text := '"' :: (t.flatMap escapeChar ++ ['"'])

/-- The decimal digits of a number, with its sign. -/
def writeInt : Int → Text
  | .ofNat n => Nat.toDigits 10 n
  | .negSucc n => '-' :: Nat.toDigits 10 (n + 1)

def writeBool : Bool → Text
  | true => ['t', 'r', 'u', 'e']
  | false => ['f', 'a', 'l', 's', 'e']

mutual

def write : Json → Text
  | null => ['n', 'u', 'l', 'l']
  | bool b => writeBool b
  | num n => writeInt n
  | str t => writeString t
  | arr items => '[' :: (writeItems items ++ [']'])
  | obj fields => '{' :: (writeFields fields ++ ['}'])

def writeItems : List Json → Text
  | [] => []
  | x :: xs => write x ++ if xs.isEmpty then [] else ',' :: writeItems xs

def writeFields : List (Text × Json) → Text
  | [] => []
  | (key, x) :: xs =>
    writeString key ++ ':' :: (write x ++ if xs.isEmpty then [] else ',' :: writeFields xs)

end

mutual

/-- The strings in a value, the keys of its objects included. -/
def strings : Json → List Text
  | str t => [t]
  | arr items => itemStrings items
  | obj fields => fieldStrings fields
  | _ => []

def itemStrings : List Json → List Text
  | [] => []
  | x :: xs => strings x ++ itemStrings xs

def fieldStrings : List (Text × Json) → List Text
  | [] => []
  | (key, x) :: xs => key :: (strings x ++ fieldStrings xs)

end

theorem mem_itemStrings {t : Text} {xs : List Json} :
    t ∈ itemStrings xs ↔ ∃ x ∈ xs, t ∈ strings x := by
  induction xs with
  | nil => simp [itemStrings]
  | cons x xs ih => simp [itemStrings, ih]

theorem mem_fieldStrings {t : Text} {xs : List (Text × Json)} :
    t ∈ fieldStrings xs ↔ ∃ x ∈ xs, t = x.1 ∨ t ∈ strings x.2 := by
  induction xs with
  | nil => simp [fieldStrings]
  | cons x xs ih =>
    obtain ⟨key, x⟩ := x
    simp [fieldStrings, ih, or_assoc]

/-! ## What is in the text -/

/-- A character that JSON does not write by itself. -/
def Foreign (c : Char) : Prop := c ∈ ['\'', '\\', '\n', '\r']

theorem not_foreign_of_isDigit {c : Char} (h : c.isDigit = true) : ¬ Foreign c := by
  intro hc
  simp only [Foreign, List.mem_cons, List.not_mem_nil, or_false] at hc
  rcases hc with rfl | rfl | rfl | rfl <;> revert h <;> decide

theorem isDigit_of_mem {n : Nat} {c : Char} (h : c ∈ Nat.toDigits 10 n) : c.isDigit = true :=
  Nat.isDigit_of_mem_toDigits (by decide) (by decide) h

theorem not_mem_writeInt {c : Char} (hc : Foreign c) (n : Int) : c ∉ writeInt n := by
  have hdigits : ∀ m : Nat, c ∉ Nat.toDigits 10 m := fun m hm =>
    not_foreign_of_isDigit (isDigit_of_mem hm) hc
  cases n with
  | ofNat n => exact hdigits n
  | negSucc n =>
    refine List.not_mem_cons_of_ne_of_not_mem ?_ (hdigits _)
    rintro rfl
    revert hc
    simp [Foreign]

theorem not_mem_writeBool {c : Char} (hc : Foreign c) (b : Bool) : c ∉ writeBool b := by
  simp only [Foreign, List.mem_cons, List.not_mem_nil, or_false] at hc
  rcases hc with rfl | rfl | rfl | rfl <;> cases b <;> decide

variable {c : Char}

mutual

/-- **Nothing foreign is in the text but in its strings.** -/
theorem mem_write (hc : Foreign c) : (x : Json) →
    (c ∈ write x ↔ ∃ t ∈ strings x, c ∈ writeString t)
  | null => by
    simp only [Foreign, List.mem_cons, List.not_mem_nil, or_false] at hc
    rcases hc with rfl | rfl | rfl | rfl <;> simp [write, strings]
  | bool b => by simp [write, strings, not_mem_writeBool hc b]
  | num n => by simp [write, strings, not_mem_writeInt hc n]
  | str t => by simp [write, strings]
  | arr items => by
    have hne : c ≠ '[' ∧ c ≠ ']' := by
      constructor <;> rintro rfl <;> revert hc <;> simp [Foreign]
    simp [write, strings, hne, mem_writeItems hc items]
  | obj fields => by
    have hne : c ≠ '{' ∧ c ≠ '}' := by
      constructor <;> rintro rfl <;> revert hc <;> simp [Foreign]
    simp [write, strings, hne, mem_writeFields hc fields]

theorem mem_writeItems (hc : Foreign c) : (xs : List Json) →
    (c ∈ writeItems xs ↔ ∃ t ∈ itemStrings xs, c ∈ writeString t)
  | [] => by simp [writeItems, itemStrings]
  | x :: xs => by
    have hne : c ≠ ',' := by
      rintro rfl
      revert hc
      simp [Foreign]
    have hx := mem_write hc x
    have hxs := mem_writeItems hc xs
    cases xs with
    | nil => simp [writeItems, itemStrings, hx]
    | cons y ys =>
      rw [writeItems, itemStrings, List.isEmpty_cons, if_neg Bool.false_ne_true]
      simp [hne, hx, hxs, or_and_right, exists_or]

theorem mem_writeFields (hc : Foreign c) : (xs : List (Text × Json)) →
    (c ∈ writeFields xs ↔ ∃ t ∈ fieldStrings xs, c ∈ writeString t)
  | [] => by simp [writeFields, fieldStrings]
  | (key, x) :: xs => by
    have hne : c ≠ ',' ∧ c ≠ ':' := by
      constructor <;> rintro rfl <;> revert hc <;> simp [Foreign]
    have hx := mem_write hc x
    have hxs := mem_writeFields hc xs
    cases xs with
    | nil => simp [writeFields, fieldStrings, hx, hne]
    | cons y ys =>
      rw [writeFields, fieldStrings, List.isEmpty_cons, if_neg Bool.false_ne_true]
      simp [hne, hx, hxs, or_and_right, exists_or]

end

/-! ## What is in the strings -/

theorem not_foreign_hexDigit (n : Nat) : ¬ Foreign (hexDigit n) := by
  have hall : ∀ x ∈ hexDigits, x ∉ ['\'', '\\', '\n', '\r'] := by
    rw [← List.forall_iff_forall_mem]
    decide
  unfold hexDigit
  rw [List.getD_eq_getElem?_getD]
  cases h : hexDigits[n]? with
  | none => exact hall '0' (by decide)
  | some x => exact hall x (List.mem_of_getElem? h)

/-- The characters that JSON escapes. -/
def Escaped (x : Char) : Prop := x = '"' ∨ x = '\\' ∨ x < ' '

instance (x : Char) : Decidable (Escaped x) := inferInstanceAs (Decidable (_ ∨ _ ∨ _))

theorem escapeChar_of_not {x : Char} (h : ¬ Escaped x) : escapeChar x = [x] := by
  obtain ⟨hquote, hrest⟩ := not_or.mp h
  obtain ⟨hbackslash, hcontrol⟩ := not_or.mp hrest
  have hne : ∀ {y : Char}, y < ' ' → x ≠ y := by
    rintro y hy rfl
    exact hcontrol hy
  unfold escapeChar
  rw [if_neg hquote, if_neg hbackslash, if_neg (hne (by decide)), if_neg (hne (by decide)),
    if_neg (hne (by decide)), if_neg (hne (by decide)), if_neg (hne (by decide)), if_neg hcontrol]

/-- Of these an escape has the backslash only. -/
theorem mem_escapeChar_of {x : Char} (hc : Foreign c) (h : Escaped x) :
    c ∈ escapeChar x ↔ c = '\\' := by
  have hdigit : ∀ n, c ≠ hexDigit n := by
    rintro n rfl
    exact not_foreign_hexDigit n hc
  have hletter : c ≠ '"' ∧ c ≠ 'b' ∧ c ≠ 'f' ∧ c ≠ 'n' ∧ c ≠ 'r' ∧ c ≠ 't' ∧ c ≠ 'u' ∧ c ≠ '0' := by
    refine ⟨?_, ?_, ?_, ?_, ?_, ?_, ?_, ?_⟩ <;> rintro rfl <;> revert hc <;> simp [Foreign]
  obtain ⟨hquote, hb, hf, hn, hr, ht, hu, hzero⟩ := hletter
  unfold escapeChar
  split_ifs with h1 h2 h3 h4 h5 h6 h7 h8
  · simp [hquote]
  · simp
  · simp [hb]
  · simp [hf]
  · simp [hn]
  · simp [hr]
  · simp [ht]
  · simp [hu, hzero, hdigit]
  · rcases h with h | h | h
    · exact absurd h h1
    · exact absurd h h2
    · exact absurd h h8

theorem mem_writeString (hc : Foreign c) (t : Text) : c ∈ writeString t ↔
    c = '\\' ∧ (∃ x ∈ t, Escaped x) ∨ c = '\'' ∧ '\'' ∈ t := by
  have hquote : c ≠ '"' := by
    rintro rfl
    revert hc
    simp [Foreign]
  have hmem : c ∈ writeString t ↔ ∃ x ∈ t, c ∈ escapeChar x := by
    simp [writeString, hquote, List.mem_flatMap]
  rw [hmem]
  constructor
  · rintro ⟨x, hx, hcx⟩
    by_cases h : Escaped x
    · exact .inl ⟨(mem_escapeChar_of hc h).mp hcx, x, hx, h⟩
    · rw [escapeChar_of_not h, List.mem_singleton] at hcx
      subst hcx
      simp only [Foreign, List.mem_cons, List.not_mem_nil, or_false] at hc
      rcases hc with rfl | rfl | rfl | rfl
      · exact .inr ⟨rfl, hx⟩
      all_goals exact absurd (by decide) h
  · rintro (⟨rfl, x, hx, h⟩ | ⟨rfl, hx⟩)
    · exact ⟨x, hx, (mem_escapeChar_of hc h).mpr rfl⟩
    · refine ⟨_, hx, ?_⟩
      rw [escapeChar_of_not (by decide)]
      exact List.mem_singleton_self _

/-- **Where a backslash is in the text of a value**: one of its strings has something escaped. -/
theorem backslash_mem_write (x : Json) :
    '\\' ∈ write x ↔ ∃ t ∈ strings x, ∃ y ∈ t, Escaped y := by
  rw [mem_write (by simp [Foreign])]
  refine exists_congr fun t => and_congr_right fun _ => ?_
  rw [mem_writeString (by simp [Foreign])]
  simp

/-- And where a single quote is. -/
theorem quote_mem_write (x : Json) : '\'' ∈ write x ↔ ∃ t ∈ strings x, '\'' ∈ t := by
  rw [mem_write (by simp [Foreign])]
  refine exists_congr fun t => and_congr_right fun _ => ?_
  rw [mem_writeString (by simp [Foreign])]
  simp

/-- There are no line terminators. -/
theorem line_not_mem_write (x : Json) : '\n' ∉ write x ∧ '\r' ∉ write x := by
  constructor <;> rw [mem_write (by simp [Foreign])] <;> rintro ⟨t, -, ht⟩ <;>
    rw [mem_writeString (by simp [Foreign])] at ht <;> revert ht <;> simp

end Json

end Kit
