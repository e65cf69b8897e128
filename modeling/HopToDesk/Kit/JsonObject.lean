import HopToDesk.Kit.Json

/-!
# Objects of strings

Reading back an object whose values are strings, as `serde_json` does when the fields are to be
borrowed from the text: a string is the characters between its quotes as they stand there, and one
with an escape in it is not to be had that way.

What is written is read back with the escapes in it (`readObject_write`), so a string can be
borrowed exactly when nothing in it is escaped (`borrowed_escape`).
-/

set_option autoImplicit false

namespace Kit.Json

def isHexDigit (c : Char) : Bool :=
  ('0' ≤ c && c ≤ '9') || ('a' ≤ c && c ≤ 'f') || ('A' ≤ c && c ≤ 'F')

/-- What may follow a backslash. -/
def validEscape : Text → Bool
  | [] => false
  | c :: t =>
    c ∈ ['"', '\\', '/', 'b', 'f', 'n', 'r', 't'] ||
      c = 'u' && 4 ≤ t.length && (t.take 4).all isHexDigit

/-- A string from behind its opening quote, when so many characters are escaped: the characters up
to the closing one, and the text behind it. -/
def scanString : Nat → Text → Option (Text × Text)
  | _, [] => none
  | n + 1, c :: t => (scanString n t).map fun y => (c :: y.1, y.2)
  | 0, c :: t =>
    if c = '"' then some ([], t)
    else if c = '\\' then
      if validEscape t then (scanString 1 t).map fun y => (c :: y.1, y.2) else none
    else if c < ' ' then none
    else (scanString 0 t).map fun y => (c :: y.1, y.2)

def readString : Text → Option (Text × Text)
  | [] => none
  | c :: t => if c = '"' then scanString 0 t else none

def readField (t : Text) : Option ((Text × Text) × Text) := do
  let (key, t) ← readString t
  let t ← Text.stripPrefix [':'] t
  let (value, t) ← readString t
  return ((key, value), t)

/-- At most so many fields, up to the closing brace. -/
def readFields : Nat → Text → Option (List (Text × Text) × Text)
  | 0, _ => none
  | n + 1, t => do
    let (x, t) ← readField t
    match t with
    | [] => none
    | c :: t =>
      if c = ',' then (readFields n t).map fun y => (x :: y.1, y.2)
      else if c = '}' then some ([x], t)
      else none

/-- The fields of an object that is the whole text. -/
def readObject : Text → Option (List (Text × Text))
  | [] => none
  | c :: t =>
    if c = '{' then
      if t = ['}'] then some []
      else (readFields t.length t).bind fun y => if y.2 = [] then some y.1 else none
    else none

/-- The value of a field, when the object has one such field and the value can be borrowed. -/
def borrowed (key : Text) (fields : List (Text × Text)) : Option Text :=
  match fields.filter (·.1 = key) with
  | [x] => if '\\' ∈ x.2 then none else some x.2
  | _ => none

/-! ## What is written -/

def escape (t : Text) : Text := t.flatMap escapeChar

/-- There is nothing to escape. -/
def Plain (t : Text) : Prop := ∀ c ∈ t, ¬ Escaped c

instance (t : Text) : Decidable (Plain t) := List.decidableBAll _ t

theorem escape_of_plain {t : Text} (h : Plain t) : escape t = t := by
  induction t with
  | nil => rfl
  | cons c t ih =>
    obtain ⟨hc, ht⟩ := List.forall_mem_cons.mp h
    rw [escape, List.flatMap_cons, escapeChar_of_not hc, ← escape, ih ht, List.singleton_append]

theorem backslash_mem_escape (t : Text) : '\\' ∈ escape t ↔ ¬ Plain t := by
  have h := mem_writeString (c := '\\') (by simp [Foreign]) t
  simp only [writeString, List.mem_cons, List.mem_append, List.not_mem_nil, or_false] at h
  simp only [escape, Plain, not_forall, not_not, exists_prop]
  simpa using h

def writeObject (fields : List (Text × Text)) : Text :=
  write (.obj (fields.map fun x => (x.1, .str x.2)))

theorem isHexDigit_hexDigit (n : Nat) : isHexDigit (hexDigit n) = true := by
  have hall : ∀ x ∈ hexDigits, isHexDigit x = true := by
    rw [← List.forall_iff_forall_mem]
    decide
  unfold hexDigit
  rw [List.getD_eq_getElem?_getD]
  cases h : hexDigits[n]? with
  | none => rfl
  | some x => exact hall x (List.mem_of_getElem? h)

theorem scanString_of_not {c : Char} (h : ¬ Escaped c) (t : Text) :
    scanString 0 (c :: t) = (scanString 0 t).map fun y => (c :: y.1, y.2) := by
  obtain ⟨hquote, hrest⟩ := not_or.mp h
  obtain ⟨hbackslash, hcontrol⟩ := not_or.mp hrest
  rw [scanString, if_neg hquote, if_neg hbackslash, if_neg hcontrol]

theorem scanString_backslash {e : Char} {t : Text} (h : validEscape (e :: t) = true) :
    scanString 0 ('\\' :: e :: t) = (scanString 0 t).map fun y => ('\\' :: e :: y.1, y.2) := by
  rw [scanString, if_neg (by decide), if_pos rfl, if_pos h, scanString, Option.map_map]
  rfl

theorem not_escaped_of_isHexDigit {c : Char} (h : isHexDigit c = true) : ¬ Escaped c := by
  simp only [isHexDigit, Bool.or_eq_true, Bool.and_eq_true, decide_eq_true_eq] at h
  rintro (rfl | rfl | hc)
  · revert h
    decide
  · revert h
    decide
  · rcases h with (⟨h, -⟩ | ⟨h, -⟩) | ⟨h, -⟩
    · exact Char.not_lt.mpr (Char.le_trans (by decide : ' ' ≤ '0') h) hc
    · exact Char.not_lt.mpr (Char.le_trans (by decide : ' ' ≤ 'a') h) hc
    · exact Char.not_lt.mpr (Char.le_trans (by decide : ' ' ≤ 'A') h) hc

/-- The escape of a character is read as it is. -/
theorem scanString_escapeChar (c : Char) (t : Text) :
    scanString 0 (escapeChar c ++ t) =
      (scanString 0 t).map fun y => (escapeChar c ++ y.1, y.2) := by
  by_cases hc : Escaped c
  · unfold escapeChar
    split_ifs with h1 h2 h3 h4 h5 h6 h7 h8
    iterate 7 exact scanString_backslash rfl
    · have hhex (n : Nat) := not_escaped_of_isHexDigit (isHexDigit_hexDigit n)
      have hvalid : validEscape ('u' :: '0' :: '0' :: hexDigit (c.toNat / 16) ::
          hexDigit (c.toNat % 16) :: t) = true := by
        simp [validEscape, isHexDigit_hexDigit, show isHexDigit '0' = true from rfl]
      simp only [List.cons_append, List.nil_append]
      rw [scanString_backslash hvalid, scanString_of_not (by decide), scanString_of_not (by decide),
        scanString_of_not (hhex _), scanString_of_not (hhex _)]
      simp only [Option.map_map]
      rfl
    · exact scanString_of_not (fun h => by rcases h with h | h | h <;> contradiction) t
  · rw [escapeChar_of_not hc]
    exact scanString_of_not hc t

theorem scanString_escape (t rest : Text) :
    scanString 0 (escape t ++ '"' :: rest) = some (escape t, rest) := by
  induction t with
  | nil => rfl
  | cons c t ih =>
    rw [escape, List.flatMap_cons, ← escape, List.append_assoc, scanString_escapeChar, ih]
    rfl

theorem readString_writeString (t rest : Text) :
    readString (writeString t ++ rest) = some (escape t, rest) := by
  rw [writeString, List.cons_append, readString, if_pos rfl, List.append_assoc,
    List.singleton_append]
  exact scanString_escape t rest

theorem readField_write (x : Text × Text) (rest : Text) :
    readField (writeString x.1 ++ ':' :: (writeString x.2 ++ rest)) =
      some ((escape x.1, escape x.2), rest) := by
  have hcolon : Text.stripPrefix [':'] (':' :: (writeString x.2 ++ rest)) =
      some (writeString x.2 ++ rest) := rfl
  unfold readField
  simp only [readString_writeString, hcolon, Option.bind_eq_bind, Option.bind_some]
  rfl

theorem readFields_write {fields : List (Text × Text)} (hne : fields ≠ []) {n : Nat}
    (hn : fields.length ≤ n) :
    readFields n (writeFields (fields.map fun x => (x.1, .str x.2)) ++ ['}']) =
      some (fields.map fun x => (escape x.1, escape x.2), []) := by
  induction fields generalizing n with
  | nil => exact absurd rfl hne
  | cons x fields ih =>
    cases n with
    | zero => cases hn
    | succ n =>
      have hfield (rest : Text) := readField_write x rest
      cases fields with
      | nil =>
        have htext : writeFields ([x].map fun x => (x.1, .str x.2)) ++ ['}'] =
            writeString x.1 ++ ':' :: (writeString x.2 ++ ['}']) := by
          simp [writeFields, write]
        rw [htext, readFields, hfield]
        rfl
      | cons y ys =>
        have htext : writeFields ((x :: y :: ys).map fun x => (x.1, .str x.2)) ++ ['}'] =
            writeString x.1 ++ ':' :: (writeString x.2 ++
              (',' :: (writeFields ((y :: ys).map fun x => (x.1, .str x.2)) ++ ['}']))) := by
          simp [writeFields, write]
        rw [htext, readFields, hfield]
        simp only [Option.bind_eq_bind, Option.bind_some, if_true]
        rw [ih (List.cons_ne_nil _ _) (Nat.le_of_succ_le_succ hn)]
        rfl

theorem length_le_writeFields (fields : List (Text × Json)) :
    fields.length ≤ (writeFields fields).length := by
  induction fields with
  | nil => exact Nat.zero_le _
  | cons x fields ih =>
    obtain ⟨key, value⟩ := x
    cases fields with
    | nil =>
      simp only [writeFields, List.length_append, List.length_cons, List.length_nil]
      omega
    | cons y fields =>
      rw [writeFields]
      simp only [List.isEmpty_cons, Bool.false_eq_true, if_false, List.length_append,
        List.length_cons] at ih ⊢
      omega

/-- **What is written is read back**, with its escapes. -/
theorem readObject_write (fields : List (Text × Text)) :
    readObject (writeObject fields) = some (fields.map fun x => (escape x.1, escape x.2)) := by
  rw [writeObject, write, readObject, if_pos rfl]
  cases fields with
  | nil => rfl
  | cons x fields =>
    have hlength : (x :: fields).length ≤
        (writeFields ((x :: fields).map fun x => (x.1, .str x.2)) ++ ['}']).length := by
      have hle := length_le_writeFields ((x :: fields).map fun x => (x.1, .str x.2))
      rw [List.length_map] at hle
      rw [List.length_append]
      exact hle.trans (Nat.le_add_right _ _)
    rw [if_neg, readFields_write (List.cons_ne_nil _ _) hlength]
    · rfl
    · simp [writeFields, writeString]

/-! ## What is borrowed -/

/-- The value of a field, when there is one such field. -/
def single (key : Text) (fields : List (Text × Text)) : Option Text :=
  match fields.filter (·.1 = key) with
  | [x] => some x.2
  | _ => none

/-- **A string can be borrowed exactly when nothing in it is escaped.** -/
theorem borrowed_escape {fields : List (Text × Text)} (h : ∀ x ∈ fields, Plain x.1) (key : Text) :
    borrowed key (fields.map fun x => (escape x.1, escape x.2)) =
      (single key fields).filter fun value => Plain value := by
  have hkeys : (fields.map fun x => (escape x.1, escape x.2)).filter (·.1 = key) =
      (fields.filter (·.1 = key)).map fun x => (escape x.1, escape x.2) := by
    rw [List.filter_map]
    congr 1
    refine List.filter_congr fun x hx => ?_
    rw [Function.comp_apply, escape_of_plain (h x hx)]
  unfold borrowed single
  rw [hkeys]
  generalize fields.filter (·.1 = key) = found
  rcases found with - | ⟨x, - | ⟨y, ys⟩⟩
  · rfl
  · by_cases hplain : Plain x.2
    · have hmem : '\\' ∉ escape x.2 := fun hmem => (backslash_mem_escape x.2).mp hmem hplain
      rw [escape_of_plain hplain] at hmem
      simp only [List.map_cons, List.map_nil, if_neg hmem, escape_of_plain hplain, Option.filter,
        hplain, decide_true, if_true]
    · simp only [List.map_cons, List.map_nil, if_pos ((backslash_mem_escape x.2).mpr hplain),
        Option.filter, hplain, decide_false, Bool.false_eq_true, if_false]
  · rfl

end Kit.Json
