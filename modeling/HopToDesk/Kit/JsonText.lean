import HopToDesk.Kit.Json
import HopToDesk.Kit.Unicode

/-!
# JSON as it is read

A reader of JSON texts. White space may stand between the tokens, a string is decoded to its code
units and has to be one of characters, and a number is a whole one: a fraction or an exponent is
not read.

The rules are for a text that is put together from others. `Reads n t x` says that the text `t`
reads as the value `x`, nested less than `n` deep, whatever follows that ends a number. A string of
characters that are escaped one by one is read (`reads_string`) if the escape of each is
(`Unescapes`), and a list and an object are if their parts are (`reads_array`, `reads_object`). So
every value is what its text reads as (`parse_write`).
-/

set_option autoImplicit false

namespace Kit.JsonText

open EcmaScript (utf16 codeUnits hexNumber)

/-! ## The tokens -/

def isSpace (c : Char) : Bool := c = ' ' || c = '\n' || c = '\r' || c = '\t'

def skipSpace (t : Text) : Text := t.dropWhile isSpace

/-- The code unit of an escape of one letter. -/
def simpleEscape (c : Char) : Option Nat :=
  if c = '"' then some 0x22
  else if c = '\\' then some 0x5C
  else if c = '/' then some 0x2F
  else if c = 'b' then some 0x08
  else if c = 'f' then some 0x0C
  else if c = 'n' then some 0x0A
  else if c = 'r' then some 0x0D
  else if c = 't' then some 0x09
  else none

/-- The code units of a string from behind its opening quote, and the text behind the closing one.
-/
def readUnits : Text → Option (List Nat × Text)
  | [] => none
  | '\\' :: 'u' :: a :: b :: c :: d :: t =>
    (hexNumber [a, b, c, d]).bind fun u => (readUnits t).map fun y => (u :: y.1, y.2)
  | '\\' :: e :: t =>
    (simpleEscape e).bind fun u => (readUnits t).map fun y => (u :: y.1, y.2)
  | c :: t =>
    if c = '"' then some ([], t)
    else if c < ' ' then none
    else (readUnits t).map fun y => (codeUnits c.toNat ++ y.1, y.2)

/-- A string from behind its opening quote. -/
def readString (t : Text) : Option (Text × Text) :=
  (readUnits t).bind fun y => (Text.fromUtf16 y.1).map fun s => (s, y.2)

/-- Digits, of which a zero is the only one where it comes first. -/
def readNat (t : Text) : Option (Nat × Text) :=
  let digits := t.takeWhile Char.isDigit
  if digits = [] ∨ (digits.head? = some '0' ∧ digits ≠ ['0']) then none
  else some (Nat.ofDigitChars 10 digits 0, t.drop digits.length)

def readInt (t : Text) : Option (Int × Text) :=
  if t.head? = some '-' then (readNat t.tail).map fun y => (-(y.1 : Int), y.2)
  else (readNat t).map fun y => ((y.1 : Int), y.2)

def words : List (Text × Json) :=
  [("null".toList, .null), ("true".toList, .bool true), ("false".toList, .bool false)]

/-- A word or a number. -/
def readScalar (t : Text) : Option (Json × Text) :=
  match words.findSome? fun x => (Text.stripPrefix x.1 t).map fun rest => (x.2, rest) with
  | some y => some y
  | none => (readInt t).map fun y => (.num y.1, y.2)

/-! ## The values -/

/-- Parts with commas between them, up to a closing bracket: one at least, and so many at most. -/
def sequence {α : Type} (read : Text → Option (α × Text)) (close : Char) :
    Nat → Text → Option (List α × Text)
  | 0, _ => none
  | n + 1, t =>
    (read t).bind fun x =>
      match skipSpace x.2 with
      | [] => none
      | c :: t =>
        if c = ',' then (sequence read close n t).map fun y => (x.1 :: y.1, y.2)
        else if c = close then some ([x.1], t)
        else none

/-- A field of an object, the value of which is read by `value`. -/
def readField (value : Text → Option (Json × Text)) (t : Text) : Option ((Text × Json) × Text) :=
  (Text.stripPrefix ['"'] (skipSpace t)).bind fun t =>
    (readString t).bind fun key =>
      (Text.stripPrefix [':'] (skipSpace key.2)).bind fun t =>
        (value t).map fun x => ((key.1, x.1), x.2)

/-- A value whose lists and objects are nested less than so deep. -/
def readValue : Nat → Text → Option (Json × Text)
  | 0, _ => none
  | n + 1, t =>
    match skipSpace t with
    | [] => none
    | c :: t =>
      if c = '"' then (readString t).map fun y => (.str y.1, y.2)
      else if c = '[' then
        if (skipSpace t).head? = some ']' then some (.arr [], (skipSpace t).tail)
        else (sequence (readValue n) ']' t.length t).map fun y => (.arr y.1, y.2)
      else if c = '{' then
        if (skipSpace t).head? = some '}' then some (.obj [], (skipSpace t).tail)
        else (sequence (readField (readValue n)) '}' t.length t).map fun y => (.obj y.1, y.2)
      else readScalar (c :: t)

/-- The value that the whole text is. -/
def parse (t : Text) : Option Json :=
  (readValue t.length t).bind fun y => if skipSpace y.2 = [] then some y.1 else none

/-! ## Tokens that are written -/

/-- What does not go on with a number, nor is white space. -/
def Ends (rest : Text) : Prop := ∀ c ∈ rest.head?, c.isDigit = false ∧ isSpace c = false

instance : (rest : Text) → Decidable (Ends rest)
  | [] => isTrue nofun
  | c :: rest =>
    decidable_of_iff (c.isDigit = false ∧ isSpace c = false)
      (by simp [Ends])

theorem skipSpace_of_ends {rest : Text} (h : Ends rest) : skipSpace rest = rest := by
  cases rest with
  | nil => rfl
  | cons c rest => exact List.dropWhile_cons_of_neg (by simp [(h c rfl).2])

/-- An escape for each character, which is read as the character. -/
def Unescapes (escape : Char → Text) : Prop :=
  ∀ c rest, readUnits (escape c ++ rest) =
    (readUnits rest).map fun y => (codeUnits c.toNat ++ y.1, y.2)

theorem readUnits_quote (rest : Text) : readUnits ('"' :: rest) = some ([], rest) := by
  unfold readUnits
  rfl

theorem readUnits_escaped {escape : Char → Text} (h : Unescapes escape) (t rest : Text) :
    readUnits (t.flatMap escape ++ '"' :: rest) = some (utf16 t, rest) := by
  induction t with
  | nil => exact readUnits_quote rest
  | cons c t ih =>
    rw [List.flatMap_cons, List.append_assoc, h, ih]
    rfl

theorem readString_escaped {escape : Char → Text} (h : Unescapes escape) (t rest : Text) :
    readString (t.flatMap escape ++ '"' :: rest) = some (t, rest) := by
  simp only [readString, readUnits_escaped h, Option.bind_some, Text.fromUtf16_utf16]
  rfl

theorem takeWhile_digits (n : Nat) {rest : Text} (h : Ends rest) :
    (Nat.toDigits 10 n ++ rest).takeWhile Char.isDigit = Nat.toDigits 10 n := by
  rw [List.takeWhile_append_of_pos fun c hc => Json.isDigit_of_mem hc]
  cases rest with
  | nil => simp
  | cons c rest => simp [(h c rfl).1]

theorem head_toDigits (n : Nat) : (Nat.toDigits 10 n).head? = some '0' → n = 0 := by
  induction n using Nat.strongRecOn with
  | _ n ih =>
    intro h
    by_cases hn : n < 10
    · rw [Nat.toDigits_of_lt_base hn, List.head?_cons, Option.some_inj] at h
      exact Nat.digitChar_eq_zero.mp h
    · have hle : 10 ≤ n := Nat.not_lt.mp hn
      rw [Nat.toDigits_of_base_le (by decide) hle,
        List.head?_append_of_ne_nil _ Nat.toDigits_ne_nil] at h
      have hzero := ih (n / 10) (by omega) h
      omega

theorem readNat_digits (n : Nat) {rest : Text} (h : Ends rest) :
    readNat (Nat.toDigits 10 n ++ rest) = some (n, rest) := by
  unfold readNat
  rw [takeWhile_digits n h]
  dsimp only
  rw [if_neg, Nat.ofDigitChars_toDigits (by decide) (by decide), List.drop_left]
  rintro (hnil | ⟨hzero, hne⟩)
  · exact Nat.toDigits_ne_nil hnil
  · obtain rfl := head_toDigits n hzero
    exact hne (Nat.toDigits_zero 10)

/-! ## Texts that are put together -/

/-- The text is read as the value, whatever follows. -/
def ReadBy {α : Type} (read : Text → Option (α × Text)) (t : Text) (x : α) : Prop :=
  (∃ c s, t = c :: s ∧ isSpace c = false ∧ c ≠ ']' ∧ c ≠ '}') ∧
    ∀ rest, Ends rest → read (t ++ rest) = some (x, rest)

/-- The text is read as the value, which is nested less than `n` deep. -/
def Reads (n : Nat) (t : Text) (x : Json) : Prop := ∀ m, n ≤ m → ReadBy (readValue m) t x

theorem reads_string {escape : Char → Text} (h : Unescapes escape) (t : Text) :
    Reads 1 ('"' :: (t.flatMap escape ++ ['"'])) (.str t) := by
  intro m hm
  obtain ⟨m, rfl⟩ := Nat.exists_eq_add_of_le' hm
  refine ⟨⟨_, _, rfl, by decide⟩, fun rest _ => ?_⟩
  have hskip (t : Text) : skipSpace ('"' :: t) = '"' :: t := rfl
  rw [List.cons_append, List.append_assoc, List.singleton_append, readValue, hskip]
  dsimp only
  rw [if_pos rfl, readString_escaped h]
  rfl

theorem reads_nat (n : Nat) : Reads 1 (Nat.toDigits 10 n) (.num n) := by
  intro m hm
  obtain ⟨m, rfl⟩ := Nat.exists_eq_add_of_le' hm
  obtain ⟨d, ds, hdigits⟩ := List.exists_cons_of_ne_nil (Nat.toDigits_ne_nil (n := n) (b := 10))
  have hd : d.isDigit = true := Json.isDigit_of_mem (n := n) (hdigits ▸ List.mem_cons_self)
  have hnot : ∀ {c : Char}, c.isDigit = false → d ≠ c := by
    rintro c hc rfl
    exact absurd hd (by rw [hc]; exact Bool.false_ne_true)
  have hspace : isSpace d = false := by
    simp [isSpace, hnot (c := ' ') rfl, hnot (c := '\n') rfl, hnot (c := '\r') rfl,
      hnot (c := '\t') rfl]
  refine ⟨⟨d, ds, hdigits, hspace, hnot rfl, hnot rfl⟩, fun rest hrest => ?_⟩
  have hskip : skipSpace (d :: (ds ++ rest)) = d :: (ds ++ rest) :=
    List.dropWhile_cons_of_neg (by simp [hspace])
  have hword : (words.findSome? fun x =>
      (Text.stripPrefix x.1 (d :: (ds ++ rest))).map fun rest => (x.2, rest)) = none := by
    have hne : ('n' == d) = false ∧ ('t' == d) = false ∧ ('f' == d) = false := by
      simp [Ne.symm (hnot (c := 'n') rfl), Ne.symm (hnot (c := 't') rfl),
        Ne.symm (hnot (c := 'f') rfl)]
    simp [words, Text.stripPrefix, List.isPrefixOf?, hne]
  have hread := readNat_digits n hrest
  rw [hdigits, List.cons_append] at hread ⊢
  rw [readValue, hskip]
  dsimp only
  rw [if_neg (hnot rfl), if_neg (hnot rfl), if_neg (hnot rfl), readScalar, hword]
  dsimp only
  rw [readInt, if_neg (by simp [hnot (c := '-') rfl]), hread]
  rfl

section

variable {α β : Type} {read : Text → Option (β × Text)} {text : α → Text} {value : α → β}

theorem sequence_intercalate {close : Char} (hcomma : close ≠ ',') (hends : Ends [close])
    {xs : List α} (hne : xs ≠ []) (h : ∀ x ∈ xs, ReadBy read (text x) (value x)) {n : Nat}
    (hn : xs.length ≤ n) (rest : Text) :
    sequence read close n ([','].intercalate (xs.map text) ++ close :: rest) =
      some (xs.map value, rest) := by
  have hclose (t : Text) : Ends (close :: t) := hends
  induction xs generalizing n with
  | nil => exact absurd rfl hne
  | cons x xs ih =>
    obtain ⟨hx, hxs⟩ := List.forall_mem_cons.mp h
    obtain ⟨n, rfl⟩ := Nat.exists_eq_add_of_le' (Nat.le_trans (Nat.le_add_left 1 _) hn)
    cases xs with
    | nil =>
      rw [List.map_singleton, List.intercalate_singleton, sequence, hx.2 _ (hclose rest),
        Option.bind_some, skipSpace_of_ends (hclose rest)]
      dsimp only
      rw [if_neg hcomma, if_pos rfl]
      rfl
    | cons y ys =>
      have hends (t : Text) : Ends (',' :: t) := by simp [Ends, isSpace]
      rw [List.map_cons, List.map_cons, List.intercalate_cons_cons, ← List.map_cons,
        List.append_assoc, List.append_assoc, List.singleton_append, sequence, hx.2 _ (hends _),
        Option.bind_some, skipSpace_of_ends (hends _)]
      dsimp only
      rw [if_pos rfl, ih (List.cons_ne_nil y ys) hxs (Nat.le_of_succ_le_succ hn)]
      rfl

/-- Parts that are read begin with something, so there are no more of them than characters. -/
theorem length_le_intercalate {xs : List α} (h : ∀ x ∈ xs, ReadBy read (text x) (value x)) :
    xs.length ≤ ([','].intercalate (xs.map text)).length := by
  induction xs with
  | nil => exact Nat.zero_le _
  | cons x xs ih =>
    obtain ⟨⟨⟨c, t, htext, -⟩, -⟩, hxs⟩ := List.forall_mem_cons.mp h
    cases xs with
    | nil => simp [htext]
    | cons y ys =>
      have hle := ih hxs
      rw [List.map_cons, List.map_cons, List.intercalate_cons_cons, ← List.map_cons]
      simp only [List.length_append, List.length_cons, List.length_nil] at hle ⊢
      omega

/-- What the parts begin with. -/
theorem exists_intercalate {xs : List α} (hne : xs ≠ [])
    (h : ∀ x ∈ xs, ReadBy read (text x) (value x)) (rest : Text) :
    ∃ c s, [','].intercalate (xs.map text) ++ rest = c :: s ∧ isSpace c = false ∧ c ≠ ']' ∧
      c ≠ '}' := by
  cases xs with
  | nil => exact absurd rfl hne
  | cons x xs =>
    obtain ⟨⟨⟨c, t, htext, hc⟩, -⟩, -⟩ := List.forall_mem_cons.mp h
    rw [List.map_cons, htext]
    cases xs with
    | nil => exact ⟨c, t ++ rest, by simp, hc⟩
    | cons y ys =>
      refine ⟨c, t ++ ([','] ++ [','].intercalate ((y :: ys).map text) ++ rest), ?_, hc⟩
      rw [List.map_cons, List.intercalate_cons_cons, ← List.map_cons]
      simp

/-- So the parts up to a bracket are read where an empty list would be read first. -/
theorem sequence_parts {γ : Type} {xs : List α} {close : Char} (hclose : close = ']' ∨ close = '}')
    (wrap : List β → γ) (h : ∀ x ∈ xs, ReadBy read (text x) (value x)) (rest : Text) :
    (if (skipSpace ([','].intercalate (xs.map text) ++ close :: rest)).head? = some close then
      some (wrap [], (skipSpace ([','].intercalate (xs.map text) ++ close :: rest)).tail)
    else (sequence read close ([','].intercalate (xs.map text) ++ close :: rest).length
      ([','].intercalate (xs.map text) ++ close :: rest)).map fun y => (wrap y.1, y.2)) =
      some (wrap (xs.map value), rest) := by
  have hends : Ends [close] := by rcases hclose with rfl | rfl <;> decide
  have hcomma : close ≠ ',' := by rcases hclose with rfl | rfl <;> decide
  by_cases hne : xs = []
  · subst hne
    have hskip : skipSpace (close :: rest) = close :: rest := skipSpace_of_ends hends
    rw [List.map_nil, List.intercalate_nil, List.nil_append, hskip, List.head?_cons, if_pos rfl]
    rfl
  · obtain ⟨c, s, htext, hspace, hbracket, hbrace⟩ := exists_intercalate hne h (close :: rest)
    have hlength := length_le_intercalate h
    rw [if_neg, sequence_intercalate hcomma hends hne h]
    · rfl
    · rw [List.length_append]
      exact hlength.trans (Nat.le_add_right _ _)
    · rw [htext, skipSpace, List.dropWhile_cons_of_neg (by simp [hspace])]
      rcases hclose with rfl | rfl
      · simpa using hbracket
      · simpa using hbrace

end

section

variable {α : Type} {text : α → Text} {n : Nat} {xs : List α}

/-- **A list is read if its items are.** -/
theorem reads_array {value : α → Json} (h : ∀ x ∈ xs, Reads n (text x) (value x)) :
    Reads (n + 1) ('[' :: ([','].intercalate (xs.map text) ++ [']'])) (.arr (xs.map value)) := by
  intro m hm
  obtain ⟨m, rfl⟩ := Nat.exists_eq_add_of_le' (Nat.le_trans (Nat.le_add_left 1 n) hm)
  refine ⟨⟨_, _, rfl, by decide⟩, fun rest _ => ?_⟩
  have hskip (t : Text) : skipSpace ('[' :: t) = '[' :: t := rfl
  rw [List.cons_append, List.append_assoc, List.singleton_append, readValue, hskip]
  dsimp only
  rw [if_neg (by decide), if_pos rfl]
  exact sequence_parts (.inl rfl) Json.arr (fun x hx => h x hx m (Nat.le_of_succ_le_succ hm)) rest

/-- A field as it is written, with its key escaped. -/
def writeField (escape : Char → Text) (x : Text × Text) : Text :=
  '"' :: (x.1.flatMap escape ++ '"' :: ':' :: x.2)

theorem readField_write {escape : Char → Text} (hescape : Unescapes escape) {m : Nat} {t : Text}
    {x : Json} (h : ReadBy (readValue m) t x) (key : Text) :
    ReadBy (readField (readValue m)) (writeField escape (key, t)) (key, x) := by
  refine ⟨⟨_, _, rfl, by decide⟩, fun rest hrest => ?_⟩
  have hquote (t : Text) : Text.stripPrefix ['"'] (skipSpace ('"' :: t)) = some t := rfl
  have hcolon (t : Text) : Text.stripPrefix [':'] (skipSpace (':' :: t)) = some t := rfl
  rw [writeField, List.cons_append, List.append_assoc, List.cons_append, List.cons_append,
    readField, hquote, Option.bind_some, readString_escaped hescape, Option.bind_some, hcolon,
    Option.bind_some, h.2 rest hrest]
  rfl

/-- **An object is read if the values of its fields are.** -/
theorem reads_object {escape : Char → Text} (hescape : Unescapes escape) (key : α → Text)
    {value : α → Json} (h : ∀ x ∈ xs, Reads n (text x) (value x)) :
    Reads (n + 1)
      ('{' :: ([','].intercalate (xs.map fun x => writeField escape (key x, text x)) ++ ['}']))
      (.obj (xs.map fun x => (key x, value x))) := by
  intro m hm
  obtain ⟨m, rfl⟩ := Nat.exists_eq_add_of_le' (Nat.le_trans (Nat.le_add_left 1 n) hm)
  refine ⟨⟨_, _, rfl, by decide⟩, fun rest _ => ?_⟩
  have hskip (t : Text) : skipSpace ('{' :: t) = '{' :: t := rfl
  rw [List.cons_append, List.append_assoc, List.singleton_append, readValue, hskip]
  dsimp only
  rw [if_neg (by decide), if_neg (by decide), if_pos rfl]
  have hparts : ∀ x ∈ xs, ReadBy (readField (readValue m)) (writeField escape (key x, text x))
      (key x, value x) := fun x hx =>
    readField_write hescape (h x hx m (Nat.le_of_succ_le_succ hm)) (key x)
  exact sequence_parts (.inr rfl) Json.obj hparts rest

end

theorem parse_of_reads {n : Nat} {t : Text} {x : Json} (h : Reads n t x) (hn : n ≤ t.length) :
    parse t = some x := by
  have hread := (h t.length hn).2 [] (by decide)
  rw [List.append_nil] at hread
  rw [parse, hread]
  rfl

/-! ## What is written is read -/

theorem unescapes_escapeChar : Unescapes Json.escapeChar := by
  intro c rest
  unfold Json.escapeChar
  split_ifs with hquote hbackslash hb hf hn hr ht hcontrol
  · subst hquote
    rfl
  · subst hbackslash
    rfl
  · subst hb
    rfl
  · subst hf
    rfl
  · subst hn
    rfl
  · subst hr
    rfl
  · subst ht
    rfl
  · -- a control character by its number
    have hlt : c.toNat < 0x20 := UInt32.lt_iff_toNat_lt.mp (Char.lt_def.mp hcontrol)
    have hhex : EcmaScript.hexNumber
        ['0', '0', Json.hexDigit (c.toNat / 16), Json.hexDigit (c.toNat % 16)] = some c.toNat := by
      have hall : ∀ n < 0x20, EcmaScript.hexNumber
          ['0', '0', Json.hexDigit (n / 16), Json.hexDigit (n % 16)] = some n := by decide
      exact hall _ hlt
    have hunits : EcmaScript.codeUnits c.toNat = [c.toNat] := if_pos (by omega)
    simp only [List.cons_append, List.nil_append]
    rw [readUnits, hhex, hunits]
    rfl
  · rw [List.singleton_append, readUnits.eq_4, if_neg hquote, if_neg hcontrol]
    · rintro a b c' d t rfl
      exact absurd rfl hbackslash
    · rintro e t rfl
      exact absurd rfl hbackslash

theorem Reads.mono {n n' : Nat} {t : Text} {x : Json} (h : Reads n t x) (hn : n ≤ n') :
    Reads n' t x :=
  fun m hm => h m (hn.trans hm)

/-- What begins with neither white space nor a bracket is a word or a number. -/
theorem reads_scalar {t : Text} {x : Json} {c : Char} {s : Text} (ht : t = c :: s)
    (hspace : isSpace c = false) (hc : c ∉ ['"', '[', ']', '{', '}'])
    (hread : ∀ rest, Ends rest → readScalar (t ++ rest) = some (x, rest)) : Reads 1 t x := by
  intro m hm
  obtain ⟨m, rfl⟩ := Nat.exists_eq_add_of_le' hm
  subst ht
  simp only [List.mem_cons, List.not_mem_nil, or_false, not_or] at hc
  obtain ⟨hquote, hopen, hclose, hbrace, hend⟩ := hc
  refine ⟨⟨c, s, rfl, hspace, hclose, hend⟩, fun rest hrest => ?_⟩
  have hskip : skipSpace (c :: (s ++ rest)) = c :: (s ++ rest) :=
    List.dropWhile_cons_of_neg (by simp [hspace])
  rw [List.cons_append, readValue, hskip]
  dsimp only
  rw [if_neg hquote, if_neg hopen, if_neg hbrace]
  exact hread rest hrest

theorem reads_null : Reads 1 (Json.write .null) .null :=
  reads_scalar rfl rfl (by decide) fun _ _ => rfl

theorem reads_bool (b : Bool) : Reads 1 (Json.write (.bool b)) (.bool b) := by
  cases b with
  | false => exact reads_scalar rfl rfl (by decide) fun _ _ => rfl
  | true => exact reads_scalar rfl rfl (by decide) fun _ _ => rfl

theorem reads_int (n : Int) : Reads 1 (Json.write (.num n)) (.num n) := by
  cases n with
  | ofNat n => exact reads_nat n
  | negSucc n =>
    refine reads_scalar (c := '-') rfl rfl (by decide) ?_
    intro rest hrest
    have hword : (words.findSome? fun x => (Text.stripPrefix x.1 ('-' ::
        (Nat.toDigits 10 (n + 1) ++ rest))).map fun rest => (x.2, rest)) = none := rfl
    rw [Json.write, Json.writeInt, List.cons_append, readScalar, hword]
    dsimp only
    rw [readInt, if_pos List.head?_cons, List.tail_cons, readNat_digits (n + 1) hrest]
    rfl

/-! ## Lists and objects -/

theorem writeItems_eq (xs : List Json) :
    Json.writeItems xs = [','].intercalate (xs.map Json.write) := by
  induction xs with
  | nil => rfl
  | cons x xs ih =>
    cases xs with
    | nil =>
      rw [List.map_singleton, List.intercalate_singleton]
      exact List.append_nil _
    | cons y ys =>
      rw [List.map_cons, List.map_cons, List.intercalate_cons_cons, ← List.map_cons, ← ih,
        Json.writeItems, List.append_assoc]
      rfl

theorem writeFields_eq (xs : List (Text × Json)) :
    Json.writeFields xs =
      [','].intercalate (xs.map fun x => writeField Json.escapeChar (x.1, Json.write x.2)) := by
  induction xs with
  | nil => rfl
  | cons x xs ih =>
    obtain ⟨key, x⟩ := x
    have hfield : Json.writeString key ++ ':' :: Json.write x =
        writeField Json.escapeChar (key, Json.write x) := by
      simp [Json.writeString, writeField]
    cases xs with
    | nil =>
      rw [List.map_singleton, List.intercalate_singleton, ← hfield, Json.writeFields]
      simp
    | cons y ys =>
      rw [List.map_cons] at ih
      rw [List.map_cons, List.map_cons, List.intercalate_cons_cons, ← ih, ← hfield,
        Json.writeFields]
      simp

theorem length_le_intercalate_of_mem {ts : List Text} {t : Text} (h : t ∈ ts) :
    t.length ≤ ([','].intercalate ts).length := by
  induction ts with
  | nil => cases h
  | cons u ts ih =>
    cases ts with
    | nil =>
      rw [List.mem_singleton.mp h, List.intercalate_singleton]
    | cons v ts =>
      rw [List.intercalate_cons_cons, List.length_append, List.length_append]
      obtain rfl | h := List.mem_cons.mp h
      · omega
      · have hle := ih h
        omega

theorem length_writeInt (n : Int) : 1 ≤ (Json.write (.num n)).length := by
  cases n with
  | ofNat n => exact List.length_pos_iff.mpr Nat.toDigits_ne_nil
  | negSucc n => exact Nat.le_add_left 1 _

mutual

/-- The text of a value is read as the value. -/
theorem reads_write : (x : Json) → Reads (Json.write x).length (Json.write x) x
  | .null => reads_null.mono (by decide)
  | .bool b => (reads_bool b).mono (by cases b <;> decide)
  | .num n => (reads_int n).mono (length_writeInt n)
  | .str t => (reads_string unescapes_escapeChar t).mono (Nat.le_add_left 1 _)
  | .arr items => by
    have hitems : ∀ x ∈ items, Reads (Json.writeItems items).length (Json.write x) x := by
      intro x hx
      apply (reads_writeItems items x hx).mono
      rw [writeItems_eq]
      exact length_le_intercalate_of_mem (List.mem_map_of_mem hx)
    have harray : Reads ((Json.writeItems items).length + 1)
        ('[' :: ([','].intercalate (items.map Json.write) ++ [']'])) (.arr (items.map id)) :=
      reads_array hitems
    rw [List.map_id, ← writeItems_eq] at harray
    apply harray.mono
    rw [Json.write, List.length_cons, List.length_append]
    exact Nat.succ_le_succ (Nat.le_add_right _ _)
  | .obj fields => by
    have hfields : ∀ x ∈ fields, Reads (Json.writeFields fields).length (Json.write x.2) x.2 := by
      intro x hx
      apply (reads_writeFields fields x hx).mono
      have hle : (Json.write x.2).length ≤
          (writeField Json.escapeChar (x.1, Json.write x.2)).length := by
        simp only [writeField, List.length_cons, List.length_append]
        omega
      rw [writeFields_eq]
      exact hle.trans (length_le_intercalate_of_mem (List.mem_map_of_mem hx))
    have hobject := reads_object unescapes_escapeChar Prod.fst hfields
    rw [← writeFields_eq, List.map_id''] at hobject
    · apply hobject.mono
      rw [Json.write, List.length_cons, List.length_append]
      exact Nat.succ_le_succ (Nat.le_add_right _ _)
    · exact fun _ => rfl

theorem reads_writeItems : (xs : List Json) →
    ∀ x ∈ xs, Reads (Json.write x).length (Json.write x) x
  | [], _, hx => by cases hx
  | x :: xs, y, hy => by
    obtain hxy | hy := List.mem_cons.mp hy
    · rw [hxy]
      exact reads_write x
    · exact reads_writeItems xs y hy

theorem reads_writeFields : (xs : List (Text × Json)) →
    ∀ x ∈ xs, Reads (Json.write x.2).length (Json.write x.2) x.2
  | [], _, hx => by cases hx
  | (key, x) :: xs, y, hy => by
    obtain hxy | hy := List.mem_cons.mp hy
    · rw [hxy]
      exact reads_write x
    · exact reads_writeFields xs y hy

end

/-- **What is written is read back.** -/
theorem parse_write (x : Json) : parse (Json.write x) = some x :=
  parse_of_reads (reads_write x) (le_refl _)

end Kit.JsonText
