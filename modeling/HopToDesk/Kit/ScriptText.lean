import HopToDesk.Kit.EcmaScript

/-!
# Putting texts into scripts

A text that is put between quotes should be the value of the literal (`Quoting`). It is, when it has
no line terminator, and no backslash and no such quote but those that were escaped
(`Quoting.scan_write`), and only then, where the text behind the closing quote is not such that a
literal that runs on into it could end in a backslash (`Quoting.keeps_of_scan`). From this, the same
for an object with such texts in it (`guardedCall_object_iff`), and for a text by itself
(`guardedCall_quoted_iff`), as what a function is called with.
-/

set_option autoImplicit false

namespace Kit.EcmaScript

open Text

/-! ## Texts between quotes -/

/-- `str::replace` of a character. -/
def replaceChar (c : Char) (by_ : Text) (t : Text) : Text :=
  t.flatMap fun x => if x = c then by_ else [x]

theorem replaceChar_cons (c : Char) (by_ : Text) (x : Char) (t : Text) :
    replaceChar c by_ (x :: t) = (if x = c then by_ else [x]) ++ replaceChar c by_ t :=
  List.flatMap_cons

/-- How a text is put between quotes: the quote, and what is escaped with a backslash before. -/
structure Quoting where
  quote : Char
  isQuote : quote = '"' ∨ quote = '\''
  escapesBackslash : Bool
  escapesQuote : Bool

namespace Quoting

variable (k : Quoting)

/-- Backslashes first, or those put before the quotes would be escaped as well. -/
def write (t : Text) : Text :=
  let t := if k.escapesBackslash then replaceChar '\\' ['\\', '\\'] t else t
  if k.escapesQuote then replaceChar k.quote ['\\', k.quote] t else t

/-- A text that is the value of its literal. -/
def Keeps (t : Text) : Prop :=
  ∀ c ∈ t, c ≠ '\n' ∧ c ≠ '\r' ∧ (c = '\\' → k.escapesBackslash = true) ∧
    (c = k.quote → k.escapesQuote = true)

instance (t : Text) : Decidable (k.Keeps t) := List.decidableBAll _ t

def writeChar (c : Char) : Text :=
  if c = '\\' then if k.escapesBackslash then ['\\', '\\'] else ['\\']
  else if c = k.quote then if k.escapesQuote then ['\\', k.quote] else [k.quote]
  else [c]

theorem quote_ne : k.quote ≠ '\\' := by
  rcases k.isQuote with h | h <;> rw [h] <;> decide

theorem quote_not_plain : ¬ Plain k.quote := by
  rintro ⟨-, hdouble, hsingle⟩
  exact k.isQuote.elim hdouble hsingle

@[simp]
theorem write_nil : k.write [] = [] := by
  unfold write
  split_ifs <;> rfl

@[simp]
theorem write_cons (c : Char) (t : Text) : k.write (c :: t) = k.writeChar c ++ k.write t := by
  have hne := k.quote_ne.symm
  unfold write writeChar
  by_cases hc : c = '\\'
  · subst hc
    cases k.escapesBackslash <;> cases k.escapesQuote <;> simp [replaceChar_cons, hne]
  · cases k.escapesBackslash <;> cases k.escapesQuote <;> by_cases hq : c = k.quote <;>
      simp [replaceChar_cons, hc, hq, hne.symm]

theorem scan_skip (quote : Char) (n : Nat) (t : Text) :
    scan quote n t = scan quote 0 (t.drop n) := by
  induction t generalizing n with
  | nil => cases n <;> rfl
  | cons c t ih =>
    cases n with
    | zero => rfl
    | succ n => rw [scan, List.drop_succ_cons, ih]

/-- **What is kept is read back.** -/
theorem scan_write {t : Text} (h : k.Keeps t) (rest : Text) :
    scan k.quote 0 (k.write t ++ k.quote :: rest) = some (utf16 t, rest) := by
  induction t with
  | nil =>
    rw [write_nil, List.nil_append, scan, if_pos rfl]
    rfl
  | cons c t ih =>
    obtain ⟨⟨hlf, hcr, hbackslash, hquote⟩, ht⟩ := List.forall_mem_cons.mp h
    rw [write_cons, List.append_assoc, writeChar]
    by_cases hc : c = '\\'
    · subst hc
      rw [if_pos rfl, if_pos (hbackslash rfl), List.cons_append, List.cons_append, List.nil_append,
        scan, if_neg k.quote_ne.symm, if_pos rfl, escape]
      simp [isOctal, singleEscape, scan, ih ht]
    · rw [if_neg hc]
      by_cases hq : c = k.quote
      · rw [if_pos hq, if_pos (hquote hq), List.cons_append, List.cons_append, List.nil_append,
          scan, if_neg k.quote_ne.symm, if_pos rfl, escape]
        rcases k.isQuote with hk | hk <;> rw [hk] at ih ⊢ <;>
          simp [isOctal, singleEscape, scan, ih ht, hq, hk]
      · rw [if_neg hq, List.cons_append, List.nil_append, scan, if_neg hq, if_neg hc,
          if_neg (not_or.mpr ⟨hlf, hcr⟩), ih ht]
        rfl

/-- Plain characters at the start of a written text are at the start of the text. -/
theorem write_of_plain {p t rest rest' : Text} (hp : ∀ x ∈ p, Plain x)
    (h : k.write t ++ k.quote :: rest = p ++ rest') :
    ∃ t', t = p ++ t' ∧ rest' = k.write t' ++ k.quote :: rest := by
  induction p generalizing t with
  | nil => exact ⟨t, rfl, h.symm⟩
  | cons x p ih =>
    obtain ⟨hx, hp⟩ := List.forall_mem_cons.mp hp
    cases t with
    | nil =>
      rw [write_nil, List.nil_append, List.cons_append] at h
      injection h with hquote
      exact absurd (hquote ▸ hx) k.quote_not_plain
    | cons c t =>
      rw [write_cons, List.append_assoc, writeChar] at h
      by_cases hc : c = '\\'
      · rw [if_pos hc] at h
        split_ifs at h <;> injection h with hx' <;> exact absurd hx'.symm hx.1
      · rw [if_neg hc] at h
        by_cases hq : c = k.quote
        · rw [if_pos hq] at h
          split_ifs at h <;> injection h with hx'
          · exact absurd hx'.symm hx.1
          · exact absurd (hx' ▸ hx) k.quote_not_plain
        · rw [if_neg hq] at h
          injection h with hcx hrest
          obtain ⟨t', rfl, ht'⟩ := ih hp hrest
          exact ⟨t', by rw [hcx]; rfl, ht'⟩

theorem escape_quote (rest : Text) :
    escape (k.quote :: rest) = some (codeUnits k.quote.toNat, 1) := by
  rcases k.isQuote with h | h <;> rw [h] <;> simp [escape, isOctal, singleEscape]

theorem escape_backslash (rest : Text) : escape ('\\' :: rest) = some ([92], 1) := by
  simp [escape, isOctal, singleEscape, codeUnits]

theorem scan_backslash {t : Text} {v : List Nat} {r : Text}
    (h : scan k.quote 0 ('\\' :: t) = some (v, r)) :
    ∃ us n v', escape t = some (us, n) ∧ scan k.quote 0 (t.drop n) = some (v', r) ∧ v = us ++ v' := by
  rw [scan, if_neg k.quote_ne.symm, if_pos rfl, Option.bind_eq_some_iff] at h
  obtain ⟨⟨us, n⟩, hescape, h⟩ := h
  rw [Option.map_eq_some_iff] at h
  obtain ⟨⟨v', r'⟩, hscan, heq⟩ := h
  cases heq
  exact ⟨us, n, v', hescape, scan_skip k.quote n t ▸ hscan, rfl⟩

/-- An escape sequence at the start of a written text takes characters of the text, or the backslash
that was put before a quote, which then ends the literal. -/
theorem escape_write {c : Char} {t rest : Text} {us : List Nat} {n : Nat}
    (hb : k.escapesBackslash = false)
    (h : escape (k.write (c :: t) ++ k.quote :: rest) = some (us, n)) :
    (∃ p t', c :: t = p ++ t' ∧ p ≠ [] ∧ us.length ≤ (utf16 p).length ∧
      (k.write (c :: t) ++ k.quote :: rest).drop n = k.write t' ++ k.quote :: rest) ∨
    us.length ≤ 1 ∧ ∃ behind, (k.write (c :: t) ++ k.quote :: rest).drop n = k.quote :: behind := by
  rw [write_cons, List.append_assoc, writeChar, hb] at h ⊢
  by_cases hc : c = '\\'
  · subst hc
    simp only [if_true, Bool.false_eq_true, if_false, List.cons_append, List.nil_append] at h ⊢
    cases (escape_backslash _).symm.trans h
    exact .inl ⟨['\\'], t, rfl, by simp, by simp [codeUnits], rfl⟩
  · rw [if_neg hc] at h ⊢
    by_cases hq : c = k.quote
    · rw [if_pos hq] at h ⊢
      split_ifs at h ⊢
      · cases (escape_backslash _).symm.trans h
        exact .inr ⟨le_rfl, _, rfl⟩
      · cases (k.escape_quote _).symm.trans h
        refine .inl ⟨[c], t, rfl, by simp, ?_, rfl⟩
        rw [← hq]
        simp
    · rw [if_neg hq] at h ⊢
      obtain ⟨d, more, behind, ht⟩ := taken_escape h
      have htext := ht.text
      rw [List.cons_append, List.nil_append] at htext
      injection htext with hcd hmore
      obtain ⟨t', rfl, hbehind⟩ := k.write_of_plain ht.plain hmore
      refine .inl ⟨c :: more, t', rfl, by simp, hcd ▸ ht.units, ?_⟩
      rw [ht.count, ← hbehind, List.cons_append, List.nil_append, List.drop_succ_cons, hmore]
      exact List.drop_left

/-- The literal runs on behind a backslash at the end of the text, over the closing quote. -/
def RunsOn (t rest : Text) (v : List Nat) : Prop :=
  t.getLast? = some '\\' ∧
    ∃ before after r, scan k.quote 0 rest = some (after, r) ∧
      v = before ++ (codeUnits k.quote.toNat ++ after)

/-- **What is not kept is read as something shorter**, or the literal runs on. -/
theorem scan_lost {t rest : Text} {v : List Nat} {r : Text}
    (h : scan k.quote 0 (k.write t ++ k.quote :: rest) = some (v, r)) :
    k.Keeps t ∨ v.length < (utf16 t).length ∨ k.RunsOn t rest v := by
  -- the escape sequences of the text take several of its characters
  induction hn : t.length using Nat.strong_induction_on generalizing t v with
  | _ n ih =>
    cases t with
    | nil => exact .inl (by simp [Keeps])
    | cons c t =>
      have hunits := (length_codeUnits c.toNat).1
      -- a text that ends in something else is kept when its rest is
      have hrest : ∀ {us v'}, us.length ≤ (codeUnits c.toNat).length → v = us ++ v' →
          k.Keeps [c] → scan k.quote 0 (k.write t ++ k.quote :: rest) = some (v', r) →
          k.Keeps (c :: t) ∨ v.length < (utf16 (c :: t)).length ∨ k.RunsOn (c :: t) rest v := by
        intro us v' hus hv hkeeps hscan
        rcases ih t.length (by simp [← hn]) hscan rfl with hkept | hshort | ⟨hlast, w, after, r', hr, hv'⟩
        · refine .inl ?_
          rw [Keeps, List.forall_mem_cons]
          exact ⟨hkeeps c List.mem_cons_self, hkept⟩
        · refine .inr (.inl ?_)
          rw [hv, utf16_cons, List.length_append, List.length_append]
          omega
        · refine .inr (.inr ⟨?_, us ++ w, after, r', hr, ?_⟩)
          · cases t with
            | nil => cases hlast
            | cons d t => rw [List.getLast?_cons_cons]; exact hlast
          · rw [hv, hv', List.append_assoc]
      rw [write_cons, List.append_assoc, writeChar] at h
      by_cases hc : c = '\\'
      · subst hc
        cases hb : k.escapesBackslash with
        | true =>
          rw [hb, if_pos rfl, if_pos rfl, List.cons_append, List.cons_append, List.nil_append] at h
          obtain ⟨us, m, v', hescape, hscan, hv⟩ := k.scan_backslash h
          cases (escape_backslash _).symm.trans hescape
          refine hrest (by simp [codeUnits]) hv ?_ hscan
          simp [Keeps, hb, k.quote_ne.symm]
        | false =>
          rw [hb, if_pos rfl, if_neg Bool.false_ne_true, List.cons_append, List.nil_append] at h
          obtain ⟨us, m, v', hescape, hscan, hv⟩ := k.scan_backslash h
          cases t with
          | nil =>
            rw [write_nil, List.nil_append] at hescape hscan
            cases (k.escape_quote _).symm.trans hescape
            exact .inr (.inr ⟨rfl, [], v', r, hscan, hv⟩)
          | cons d t =>
            rcases k.escape_write hb hescape with ⟨p, t', ht, hp, hus, hdrop⟩ | ⟨hus, behind, hdrop⟩
            · have hlen : t'.length < n := by
                have := congrArg List.length ht
                have := List.length_pos_of_ne_nil hp
                simp only [List.length_append, List.length_cons] at *
                omega
              have hlong : (utf16 ('\\' :: d :: t)).length =
                  1 + ((utf16 p).length + (utf16 t').length) := by
                rw [ht, utf16_cons, utf16_append, List.length_append, List.length_append]
                rfl
              rw [hdrop] at hscan
              rcases ih t'.length hlen hscan rfl with hkept | hshort | ⟨hlast, w, after, r', hr, hv'⟩
              · cases (k.scan_write hkept rest).symm.trans hscan
                refine .inr (.inl ?_)
                rw [hlong, hv, List.length_append]
                omega
              · refine .inr (.inl ?_)
                rw [hlong, hv, List.length_append]
                omega
              · refine .inr (.inr ⟨?_, us ++ w, after, r', hr, ?_⟩)
                · rw [ht, ← List.cons_append, List.getLast?_append, hlast]
                  rfl
                · rw [hv, hv', List.append_assoc]
            · rw [hdrop, scan, if_pos rfl] at hscan
              cases hscan
              refine .inr (.inl ?_)
              have hlong := length_le_utf16 ('\\' :: d :: t)
              simp only [hv, List.append_nil, List.length_cons] at hlong ⊢
              omega
      · rw [if_neg hc] at h
        by_cases hq : c = k.quote
        · rw [if_pos hq] at h
          split_ifs at h with hescapes
          · obtain ⟨us, m, v', hescape, hscan, hv⟩ := k.scan_backslash h
            cases (k.escape_quote _).symm.trans hescape
            refine hrest (hq ▸ le_rfl) hv ?_ hscan
            rcases k.isQuote with hk | hk <;> simp [Keeps, hq, hk, hescapes]
          · rw [List.cons_append, scan, if_pos rfl] at h
            cases h
            refine .inr (.inl ?_)
            rw [utf16_cons, List.length_append, List.length_nil]
            omega
        · rw [if_neg hq, List.cons_append, List.nil_append, scan, if_neg hq, if_neg hc] at h
          split_ifs at h with hline
          rw [Option.map_eq_some_iff] at h
          obtain ⟨⟨v', r'⟩, hscan, heq⟩ := h
          cases heq
          refine hrest le_rfl rfl ?_ hscan
          simpa [Keeps, hc, hq] using not_or.mp hline

/-- A literal that runs on into this text does not end in a backslash. -/
def Closes (quote : Char) (rest : Text) : Prop :=
  ∀ v r, scan quote 0 rest = some (v, r) → v.getLast? ≠ some 92

theorem getLast?_utf16 {t : Text} (h : t.getLast? = some '\\') : (utf16 t).getLast? = some 92 := by
  obtain ⟨t', rfl⟩ := List.getLast?_eq_some_iff.mp h
  rw [utf16_append, List.getLast?_append]
  rfl

/-- **What is read back was kept.** -/
theorem keeps_of_scan {t rest r : Text} (hrest : Closes k.quote rest)
    (h : scan k.quote 0 (k.write t ++ k.quote :: rest) = some (utf16 t, r)) : k.Keeps t := by
  rcases k.scan_lost h with hkept | hshort | ⟨hlast, before, after, r', hscan, hv⟩
  · exact hkept
  · exact absurd hshort (lt_irrefl _)
  · have hend := getLast?_utf16 hlast
    rw [hv, List.getLast?_append, List.getLast?_append] at hend
    cases hafter : after.getLast? with
    | some x =>
      rw [hafter] at hend
      exact absurd (hafter.trans hend) (hrest after r' hscan)
    | none =>
      rw [hafter] at hend
      rcases k.isQuote with hk | hk <;> rw [hk] at hend <;> cases hend

theorem scan_eq_none {quote : Char} {t : Text} (h : quote ∉ t) (n : Nat) : scan quote n t = none := by
  induction t generalizing n with
  | nil => cases n <;> rfl
  | cons c t ih =>
    obtain ⟨hc, ht⟩ := not_or.mp (mt List.mem_cons.mpr h)
    cases n with
    | succ n => exact ih ht n
    | zero =>
      rw [scan, if_neg (Ne.symm hc)]
      split_ifs
      · cases escape t with
        | none => rfl
        | some x => rw [Option.bind_some, ih ht]; rfl
      · rfl
      · rw [ih ht]
        rfl

theorem closes_of_not_mem {quote : Char} {rest : Text} (h : quote ∉ rest) : Closes quote rest := by
  intro v r hscan
  rw [scan_eq_none h] at hscan
  cases hscan

theorem closes_comma {quote : Char} (h : quote = '"' ∨ quote = '\'') (rest : Text) :
    Closes quote (',' :: quote :: rest) := by
  intro v r hscan
  rcases h with rfl | rfl <;> simp [scan, codeUnits] at hscan <;> rw [← hscan.1] <;> decide

end Quoting

/-! ## Scripts -/

/-- What stands for a value in a script. -/
inductive Part
  | word (t : Text)
  | quoted (k : Quoting) (t : Text)

namespace Part

def write : Part → Text
  | word t => t
  | quoted k t => k.quote :: (k.write t ++ [k.quote])

def value : Part → Scalar
  | word t => .word t
  | quoted _ t => .string (utf16 t)

/-- A word is one, and a quoted text is in double quotes. -/
def InObject : Part → Prop
  | word t => t ≠ [] ∧ ∀ c ∈ t, isWordChar c = true
  | quoted k _ => k.quote = '"'

def Keeps : Part → Prop
  | word _ => True
  | quoted k t => k.Keeps t

end Part

theorem scalar_quoted (k : Quoting) {t rest : Text} (h : k.Keeps t) :
    scalar (k.quote :: (k.write t ++ k.quote :: rest)) = some (.string (utf16 t), rest) := by
  unfold scalar
  rw [string, if_pos k.isQuote, k.scan_write h]

theorem keeps_of_scalar (k : Quoting) {t rest r : Text} (hrest : Quoting.Closes k.quote rest)
    (h : scalar (k.quote :: (k.write t ++ k.quote :: rest)) = some (.string (utf16 t), r)) :
    k.Keeps t := by
  unfold scalar at h
  rw [string, if_pos k.isQuote] at h
  cases hscan : scan k.quote 0 (k.write t ++ k.quote :: rest) with
  | none =>
    rw [hscan] at h
    dsimp only at h
    split_ifs at h
    cases h
  | some x =>
    obtain ⟨v, r'⟩ := x
    rw [hscan] at h
    simp only [Option.some.injEq, Prod.mk.injEq, Scalar.string.injEq] at h
    obtain ⟨rfl, rfl⟩ := h
    exact k.keeps_of_scan hrest hscan

theorem scalar_word {w rest : Text} (hw : w ≠ []) (hword : ∀ c ∈ w, isWordChar c = true)
    (hrest : ∀ c ∈ rest.head?, isWordChar c = false) :
    scalar (w ++ rest) = some (.word w, rest) := by
  have hstring : string (w ++ rest) = none := by
    cases w with
    | nil => exact absurd rfl hw
    | cons c w =>
      have hc := hword c List.mem_cons_self
      rw [List.cons_append, string, if_neg]
      rintro (rfl | rfl) <;> revert hc <;> decide
  have htake : (w ++ rest).takeWhile isWordChar = w := by
    rw [List.takeWhile_append_of_pos hword]
    cases rest with
    | nil => simp
    | cons c rest => rw [List.takeWhile_cons_of_neg (by simpa using hrest c rfl), List.append_nil]
  have hdrop : (w ++ rest).dropWhile isWordChar = rest := by
    rw [List.dropWhile_append_of_pos hword]
    cases rest with
    | nil => rfl
    | cons c rest => exact List.dropWhile_cons_of_neg (by simpa using hrest c rfl)
  unfold scalar
  rw [hstring]
  dsimp only
  rw [htake, hdrop, if_neg hw]

theorem stripPrefix_append (p t : Text) : stripPrefix p (p ++ t) = some t := by
  unfold stripPrefix
  induction p with
  | nil => rfl
  | cons c p ih => rw [List.cons_append, List.isPrefixOf?, if_pos (BEq.refl c), ih]

/-- A key that needs no escaping. -/
def PlainKey (key : Text) : Prop := ∀ c ∈ key, c ≠ '\n' ∧ c ≠ '\r' ∧ c ≠ '\\' ∧ c ≠ '"'

instance (key : Text) : Decidable (PlainKey key) := List.decidableBAll _ key

def writeField (x : Text × Part) : Text := '"' :: (x.1 ++ '"' :: ':' :: x.2.write)

/-- The fields of an object behind its opening brace. -/
def writeFields : List (Text × Part) → Text
  | [] => ['}']
  | [x] => writeField x ++ ['}']
  | x :: y :: xs => writeField x ++ ',' :: writeFields (y :: xs)

def writeObject (xs : List (Text × Part)) : Text := '{' :: writeFields xs

def fieldValue (x : Text × Part) : List Nat × Scalar := (utf16 x.1, x.2.value)

/-- Fields that are well written, but for what is in the texts. -/
def WellFormed (xs : List (Text × Part)) : Prop := ∀ x ∈ xs, PlainKey x.1 ∧ x.2.InObject

theorem WellFormed.nil : WellFormed [] := by
  rintro x ⟨⟩

theorem WellFormed.cons {key : Text} {part : Part} {xs : List (Text × Part)} (hkey : PlainKey key)
    (hpart : part.InObject) (h : WellFormed xs) : WellFormed ((key, part) :: xs) :=
  List.forall_mem_cons.mpr ⟨⟨hkey, hpart⟩, h⟩

theorem string_key {key rest : Text} (h : PlainKey key) :
    string ('"' :: (key ++ '"' :: rest)) = some (utf16 key, rest) := by
  let k : Quoting := ⟨'"', .inl rfl, false, false⟩
  have hkeeps : k.Keeps key := by
    intro c hc
    obtain ⟨hlf, hcr, hbackslash, hquote⟩ := h c hc
    exact ⟨hlf, hcr, fun h => absurd h hbackslash, fun h => absurd h hquote⟩
  rw [string, if_pos (.inl rfl)]
  exact k.scan_write hkeeps rest

/-- What stands behind a field. -/
structure Behind (rest : Text) : Prop where
  noWord : ∀ c ∈ rest.head?, isWordChar c = false
  closes : Quoting.Closes '"' rest

theorem behind_comma {x : Text × Part} {rest : Text} : Behind (',' :: (writeField x ++ rest)) where
  noWord := by
    rintro c ⟨⟩
    rfl
  closes := Quoting.closes_comma (.inl rfl) _

theorem behind_brace {rest : Text} (h : '"' ∉ rest) : Behind ('}' :: rest) where
  noWord := by
    rintro c ⟨⟩
    rfl
  closes := Quoting.closes_of_not_mem (by simpa using h)

section

variable {x : Text × Part} {rest : Text}

theorem field_eq (hkey : PlainKey x.1) :
    field (writeField x ++ rest) = (scalar (x.2.write ++ rest)).map fun y => ((utf16 x.1, y.1), y.2) := by
  unfold field
  rw [show writeField x ++ rest = '"' :: (x.1 ++ '"' :: (':' :: (x.2.write ++ rest))) by
    simp [writeField], string_key hkey]
  have hcolon := stripPrefix_append [':'] (x.2.write ++ rest)
  rw [List.singleton_append] at hcolon
  simp only [Option.bind_eq_bind, Option.bind_some, hcolon]
  cases scalar (x.2.write ++ rest) <;> rfl

theorem scalar_write (hin : x.2.InObject) (hkeeps : x.2.Keeps) (hrest : Behind rest) :
    scalar (x.2.write ++ rest) = some (x.2.value, rest) := by
  obtain ⟨key, part⟩ := x
  cases part with
  | word t => exact scalar_word hin.1 hin.2 hrest.noWord
  | quoted k t =>
    rw [Part.write, List.cons_append, List.append_assoc]
    exact scalar_quoted k hkeeps

theorem keeps_of_scalar_write (hin : x.2.InObject) (hrest : Behind rest) {r : Text}
    (h : scalar (x.2.write ++ rest) = some (x.2.value, r)) : x.2.Keeps := by
  obtain ⟨key, part⟩ := x
  cases part with
  | word t => trivial
  | quoted k t =>
    rw [Part.write, List.cons_append, List.append_assoc] at h
    have hquote : k.quote = '"' := hin
    exact keeps_of_scalar k (hquote ▸ hrest.closes) h

end

/-- The first field is read first. -/
theorem field_of_fields {n : Nat} {t : Text} {f : List Nat × Scalar} {fs : List (List Nat × Scalar)}
    {r : Text} (h : fields n t = some (f :: fs, r)) : ∃ t', field t = some (f, t') := by
  cases n with
  | zero => cases h
  | succ n =>
    rw [fields, Option.bind_eq_bind, Option.bind_eq_some_iff] at h
    obtain ⟨⟨f', t'⟩, hfield, h⟩ := h
    refine ⟨t', ?_⟩
    dsimp only at h
    cases t' with
    | nil => cases h
    | cons c t' =>
      dsimp only at h
      split_ifs at h
      · rw [Option.map_eq_some_iff] at h
        obtain ⟨y, -, heq⟩ := h
        cases heq
        exact hfield
      · cases h
        exact hfield

theorem fields_comma {n : Nat} {t t' : Text} {f : List Nat × Scalar}
    (h : field t = some (f, ',' :: t')) :
    fields (n + 1) t = (fields n t').map fun y => (f :: y.1, y.2) := by
  rw [fields, h]
  rfl

theorem fields_brace {n : Nat} {t t' : Text} {f : List Nat × Scalar}
    (h : field t = some (f, '}' :: t')) : fields (n + 1) t = some ([f], t') := by
  rw [fields, h]
  rfl

/-- **An object is read back exactly when its texts are kept.** -/
theorem fields_write_iff {xs : List (Text × Part)} (hne : xs ≠ []) (h : WellFormed xs) {rest : Text}
    (hrest : '"' ∉ rest) {n : Nat} (hn : xs.length ≤ n) (r : Text) :
    fields n (writeFields xs ++ rest) = some (xs.map fieldValue, r) ↔
      (∀ x ∈ xs, x.2.Keeps) ∧ r = rest := by
  induction xs generalizing n with
  | nil => exact absurd rfl hne
  | cons x xs ih =>
    obtain ⟨⟨hkey, hin⟩, hxs⟩ := List.forall_mem_cons.mp h
    cases n with
    | zero => cases hn
    | succ n =>
      have hfield : ∀ {behind : Text}, Behind behind → x.2.Keeps →
          field (writeField x ++ behind) = some (fieldValue x, behind) := by
        intro behind hbehind hkeeps
        rw [field_eq hkey, scalar_write hin hkeeps hbehind]
        rfl
      have hkeeps : ∀ {behind r : Text}, Behind behind →
          field (writeField x ++ behind) = some (fieldValue x, r) → x.2.Keeps := by
        intro behind r hbehind hread
        rw [field_eq hkey, Option.map_eq_some_iff] at hread
        obtain ⟨⟨v, r'⟩, hscalar, heq⟩ := hread
        cases heq
        exact keeps_of_scalar_write hin hbehind hscalar
      cases xs with
      | nil =>
        have hbehind := behind_brace hrest
        rw [writeFields, List.append_assoc, List.singleton_append, List.map_singleton,
          List.forall_mem_singleton]
        constructor
        · intro hread
          obtain ⟨t', ht'⟩ := field_of_fields hread
          have hx := hkeeps hbehind ht'
          rw [fields_brace (hfield hbehind hx)] at hread
          cases hread
          exact ⟨hx, rfl⟩
        · rintro ⟨hx, rfl⟩
          exact fields_brace (hfield hbehind hx)
      | cons y ys =>
        have htext : writeFields (x :: y :: ys) ++ rest =
            writeField x ++ ',' :: (writeFields (y :: ys) ++ rest) := by
          rw [writeFields, List.append_assoc, List.cons_append]
        obtain ⟨tail, htail⟩ : ∃ tail, writeFields (y :: ys) = writeField y ++ tail := by
          cases ys with
          | nil => exact ⟨_, rfl⟩
          | cons z zs => exact ⟨_, rfl⟩
        have hbehind : Behind (',' :: (writeFields (y :: ys) ++ rest)) := by
          rw [htail, List.append_assoc]
          exact behind_comma
        have ih := ih (List.cons_ne_nil _ _) hxs (Nat.le_of_succ_le_succ hn)
        rw [htext, List.map_cons, List.forall_mem_cons]
        constructor
        · intro hread
          obtain ⟨t', ht'⟩ := field_of_fields hread
          have hx := hkeeps hbehind ht'
          rw [fields_comma (hfield hbehind hx), Option.map_eq_some_iff] at hread
          obtain ⟨⟨fs, r'⟩, hfields, heq⟩ := hread
          cases heq
          obtain ⟨hxs, hr⟩ := ih.mp hfields
          exact ⟨⟨hx, hxs⟩, hr⟩
        · rintro ⟨⟨hx, hxs⟩, hr⟩
          rw [fields_comma (hfield hbehind hx), ih.mpr ⟨hxs, hr⟩]
          rfl

/-- The script of a call. -/
def writeCall (function method data : Text) : Text :=
  function ++ [' ', '&', '&', ' '] ++ function ++ ['('] ++
    ('\'' :: (method ++ '\'' :: ([',', ' '] ++ (data ++ [')']))))

/-- A name that needs no quoting. -/
def PlainMethod (method : Text) : Prop := ∀ c ∈ method, c ≠ '\n' ∧ c ≠ '\r' ∧ c ≠ '\\' ∧ c ≠ '\''

instance (method : Text) : Decidable (PlainMethod method) :=
  List.decidableBAll _ method

theorem guardedCall_write {function method data : Text} (hmethod : PlainMethod method) :
    guardedCall function (writeCall function method data) =
      (literal (data ++ [')'])).bind fun y =>
        if y.2 = [')'] then some (utf16 method, y.1) else none := by
  let k : Quoting := ⟨'\'', .inr rfl, false, false⟩
  have hkeeps : k.Keeps method := by
    intro c hc
    obtain ⟨hlf, hcr, hbackslash, hquote⟩ := hmethod c hc
    exact ⟨hlf, hcr, fun h => absurd h hbackslash, fun h => absurd h hquote⟩
  have hstring : ∀ rest, string ('\'' :: (method ++ '\'' :: rest)) = some (utf16 method, rest) := by
    intro rest
    rw [string, if_pos (.inr rfl)]
    exact k.scan_write hkeeps rest
  unfold guardedCall writeCall
  simp only [stripPrefix_append, Option.bind_eq_bind, Option.bind_some, hstring]

theorem length_le_writeFields (xs : List (Text × Part)) : xs.length ≤ (writeFields xs).length := by
  induction xs with
  | nil => exact Nat.zero_le _
  | cons x xs ih =>
    cases xs with
    | nil => simp [writeFields, writeField]
    | cons y xs =>
      rw [writeFields]
      simp only [List.length_append, List.length_cons] at ih ⊢
      omega

section

variable {function method : Text} (hmethod : PlainMethod method)
include hmethod

/-- **A call with an object passes it on exactly when its texts are kept.** -/
theorem guardedCall_object_iff {xs : List (Text × Part)} (hne : xs ≠ []) (h : WellFormed xs) :
    guardedCall function (writeCall function method (writeObject xs)) =
      some (utf16 method, .object (xs.map fieldValue)) ↔ ∀ x ∈ xs, x.2.Keeps := by
  have hlength : xs.length ≤ (writeFields xs ++ [')']).length := by
    rw [List.length_append]
    exact (length_le_writeFields xs).trans (Nat.le_add_right _ _)
  have hread := fields_write_iff hne h (show '"' ∉ [')'] by decide) hlength
  have hliteral : literal (writeObject xs ++ [')']) =
      (fields (writeFields xs ++ [')']).length (writeFields xs ++ [')'])).map
        fun y => (.object y.1, y.2) := by
    rw [writeObject, List.cons_append, literal, if_pos rfl]
  rw [guardedCall_write hmethod, hliteral]
  constructor
  · intro hcall
    rw [Option.bind_eq_some_iff] at hcall
    obtain ⟨⟨value, behind⟩, hmap, hcall⟩ := hcall
    rw [Option.map_eq_some_iff] at hmap
    obtain ⟨⟨ys, r⟩, hfields, heq⟩ := hmap
    cases heq
    dsimp only at hcall
    split_ifs at hcall with hr
    cases hcall
    exact ((hread r).mp hfields).1
  · intro hkeeps
    rw [(hread [')']).mpr ⟨hkeeps, rfl⟩]
    rfl

/-- **A call with a text passes it on exactly when it is kept.** -/
theorem guardedCall_quoted_iff (k : Quoting) (t : Text) :
    guardedCall function (writeCall function method (Part.quoted k t).write) =
      some (utf16 method, .scalar (.string (utf16 t))) ↔ k.Keeps t := by
  have hliteral : literal ((Part.quoted k t).write ++ [')']) =
      (scalar (k.quote :: (k.write t ++ k.quote :: [')']))).map fun y => (.scalar y.1, y.2) := by
    rw [Part.write, List.cons_append, List.append_assoc, literal, if_neg]
    · rfl
    · rcases k.isQuote with hk | hk <;> rw [hk] <;> decide
  have hcloses : Quoting.Closes k.quote [')'] := by
    apply Quoting.closes_of_not_mem
    rcases k.isQuote with hk | hk <;> rw [hk] <;> decide
  rw [guardedCall_write hmethod, hliteral]
  constructor
  · intro hcall
    rw [Option.bind_eq_some_iff] at hcall
    obtain ⟨⟨value, behind⟩, hmap, hcall⟩ := hcall
    rw [Option.map_eq_some_iff] at hmap
    obtain ⟨⟨v, r⟩, hscalar, heq⟩ := hmap
    cases heq
    dsimp only at hcall
    split_ifs at hcall with hr
    simp only [Option.some.injEq, Prod.mk.injEq, Literal.scalar.injEq, true_and] at hcall
    rw [hcall] at hscalar
    exact keeps_of_scalar k hcloses hscalar
  · intro hkeeps
    rw [scalar_quoted k hkeeps]
    rfl

theorem guardedCall_word {w : Text} (hw : w ≠ []) (hword : ∀ c ∈ w, isWordChar c = true) :
    guardedCall function (writeCall function method w) =
      some (utf16 method, .scalar (.word w)) := by
  have hscalar : scalar (w ++ [')']) = some (.word w, [')']) := by
    apply scalar_word hw hword
    rintro c ⟨⟩
    rfl
  have hliteral : literal (w ++ [')']) = some (.scalar (.word w), [')']) := by
    cases w with
    | nil => exact absurd rfl hw
    | cons c w =>
      rw [List.cons_append] at hscalar ⊢
      rw [literal, if_neg, hscalar]
      · rfl
      · rintro rfl
        exact absurd (hword '{' List.mem_cons_self) (by decide)
  rw [guardedCall_write hmethod, hliteral]
  rfl

end

end Kit.EcmaScript
