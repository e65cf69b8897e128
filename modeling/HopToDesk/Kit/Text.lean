import Mathlib.Data.List.DropRight
import Mathlib.Tactic

/-!
# Text

Text is a list of characters, and the operations are those of Rust's `str`: its lines, its words,
what is left when white space or a prefix is taken off.
-/

set_option autoImplicit false

namespace Kit

abbrev Text := List Char

namespace Text

/-- The characters with the Unicode property `White_Space`. -/
def isWhitespace (c : Char) : Bool :=
  let n := c.toNat
  (9 ≤ n && n ≤ 13) || n == 0x20 || n == 0x85 || n == 0xA0 || n == 0x1680 ||
    (0x2000 ≤ n && n ≤ 0x200A) || n == 0x2028 || n == 0x2029 || n == 0x202F || n == 0x205F ||
    n == 0x3000

/-- The words between white space. -/
def splitWhitespace (t : Text) : List Text := (t.splitOnP isWhitespace).filter (· ≠ [])

def trimEnd (t : Text) : Text := List.rdropWhile isWhitespace t

def trim (t : Text) : Text := trimEnd (t.dropWhile isWhitespace)

/-- A line feed ends a line, and so does a carriage return with a line feed. -/
def endLine (t : Text) : Text := if t.getLast? = some '\r' then t.dropLast else t

/-- The lines of pieces that line feeds separate: nothing follows the last line feed. -/
def linesOf : List Text → List Text
  | [] => []
  | [t] => if t = [] then [] else [t]
  | t :: ts => endLine t :: linesOf ts

def lines (t : Text) : List Text := linesOf (t.splitOnP (· == '\n'))

/-- What follows the prefix. -/
def stripPrefix (p t : Text) : Option Text := p.isPrefixOf? t

/-- What follows the first place where `p` occurs. -/
def afterFirst (p : Text) : Text → Option Text
  | [] => stripPrefix p []
  | c :: t =>
    match stripPrefix p (c :: t) with
    | some rest => some rest
    | none => afterFirst p t

def contains (p t : Text) : Bool := decide (p <:+: t)

example : lines "a b\r\n\n\tc".toList = ["a b".toList, [], "\tc".toList] := by decide

/-! ## What comes behind a text -/

theorem stripPrefix_append (p rest : Text) : stripPrefix p (p ++ rest) = some rest :=
  List.isPrefixOf?_eq_some_iff_append_eq.mpr rfl

theorem stripPrefix_of_not_mem {p t : Text} {c : Char} (hp : c ∈ p) (ht : c ∉ t) :
    stripPrefix p t = none := by
  rw [Option.eq_none_iff_forall_not_mem]
  intro rest hrest
  have happ : p ++ rest = t := List.isPrefixOf?_eq_some_iff_append_eq.mp hrest
  exact ht (happ ▸ List.mem_append_left rest hp)

theorem afterFirst_of_not_mem {p t : Text} {c : Char} (hp : c ∈ p) (ht : c ∉ t) :
    afterFirst p t = none := by
  induction t with
  | nil => exact stripPrefix_of_not_mem hp ht
  | cons d t ih =>
    simp only [afterFirst, stripPrefix_of_not_mem hp ht]
    exact ih fun hc => ht (List.mem_cons_of_mem d hc)

end Text

end Kit

/-!
## Lines written and read back

Lines that hold no line feed are read back as they were written, each with a line feed behind it, up
to the carriage return that belongs to a line's end. No line that is read holds a line feed.
-/

namespace Kit.Text

variable {t rest line : Text} {ts : List Text}

theorem lines_append (h : '\n' ∉ t) : lines (t ++ '\n' :: rest) = endLine t :: lines rest := by
  have hfree : ∀ c ∈ t, (c == '\n') = false := fun c hc =>
    beq_eq_false_iff_ne.mpr fun heq => h (heq ▸ hc)
  unfold lines
  rw [List.splitOnP_append_cons_of_forall_mem hfree '\n' rfl]
  cases hsplit : rest.splitOnP (· == '\n') with
  | nil => exact absurd hsplit (List.splitOnP_ne_nil _ _)
  | cons p ps => rfl

/-- **Each line is read back.** -/
theorem lines_flatMap (h : ∀ t ∈ ts, '\n' ∉ t) :
    lines (ts.flatMap fun t => t ++ ['\n']) = ts.map endLine := by
  induction ts with
  | nil => rfl
  | cons t ts ih =>
    have hfree : '\n' ∉ t := h t List.mem_cons_self
    rw [List.flatMap_cons, List.append_assoc, List.singleton_append, lines_append hfree,
      ih fun t ht => h t (List.mem_cons_of_mem _ ht), List.map_cons]

theorem mem_of_mem_endLine {c : Char} (h : c ∈ endLine t) : c ∈ t := by
  unfold endLine at h
  split at h
  · exact List.mem_of_mem_dropLast h
  · exact h

theorem mem_linesOf {ps : List Text} (h : line ∈ linesOf ps) : ∃ p ∈ ps, ∀ c ∈ line, c ∈ p := by
  fun_induction linesOf ps with
  | case1 => cases h
  | case2 => cases h
  | case3 p hp =>
    obtain rfl := List.mem_singleton.mp h
    exact ⟨line, h, fun c => id⟩
  | case4 p ps hps ih =>
    rcases List.mem_cons.mp h with rfl | h
    · exact ⟨p, List.mem_cons_self, fun c => mem_of_mem_endLine⟩
    · obtain ⟨q, hq, hmem⟩ := ih h
      exact ⟨q, List.mem_cons_of_mem _ hq, hmem⟩

theorem not_mem_of_mem_splitOnP {p : Text} (h : p ∈ t.splitOnP (· == '\n')) : '\n' ∉ p := by
  induction t generalizing p with
  | nil =>
    rw [List.splitOnP_nil, List.mem_singleton] at h
    rw [h]
    exact List.not_mem_nil
  | cons c t ih =>
    rw [List.splitOnP_cons_eq_if_modifyHead] at h
    split at h
    · rcases List.mem_cons.mp h with rfl | h
      · exact List.not_mem_nil
      · exact ih h
    next hc =>
      cases hsplit : t.splitOnP (· == '\n') with
      | nil => exact absurd hsplit (List.splitOnP_ne_nil _ _)
      | cons q qs =>
        rw [hsplit] at h
        rcases List.mem_cons.mp h with rfl | h
        · have hq : '\n' ∉ q := ih (hsplit ▸ List.mem_cons_self)
          rw [List.mem_cons, not_or]
          exact ⟨fun heq => hc (beq_iff_eq.mpr heq.symm), hq⟩
        · exact ih (hsplit ▸ List.mem_cons_of_mem _ h)

/-- A line that is read holds no line feed. -/
theorem not_mem_of_mem_lines (h : line ∈ lines t) : '\n' ∉ line := by
  obtain ⟨p, hp, hmem⟩ := mem_linesOf h
  exact fun hfeed => not_mem_of_mem_splitOnP hp (hmem _ hfeed)

/-! ### White space -/

/-- White space is what the text ends with. -/
def endsBlank (t : Text) : Bool := t.getLast?.any isWhitespace

theorem trimEnd_eq_self_iff : trimEnd t = t ↔ endsBlank t = false := by
  unfold trimEnd endsBlank
  rw [List.rdropWhile_eq_self_iff]
  constructor
  · intro hlast
    cases hc : t.getLast? with
    | none => rfl
    | some c =>
      obtain ⟨ts, rfl⟩ := List.getLast?_eq_some_iff.mp hc
      have hblank := hlast (by simp)
      rw [List.getLast_concat] at hblank
      exact Bool.eq_false_iff.mpr hblank
  · intro hlast hne hblank
    rw [List.getLast?_eq_some_getLast hne, Option.any_some, hblank] at hlast
    cases hlast

theorem endsBlank_trim : endsBlank (trim t) = false :=
  trimEnd_eq_self_iff.mp (List.rdropWhile_idempotent _ _)

theorem mem_of_mem_trim {c : Char} (h : c ∈ trim t) : c ∈ t :=
  (List.dropWhile_suffix _).subset ((List.rdropWhile_prefix _ _).subset h)

theorem endLine_eq_self (h : endsBlank t = false) : endLine t = t := by
  unfold endLine
  split
  next hlast =>
    unfold endsBlank at h
    rw [hlast] at h
    cases h
  next => rfl

/-- A text that begins with something else has no more white space than it ends with. -/
theorem trim_cons_eq_self {c : Char} (hc : isWhitespace c = false)
    (h : endsBlank (c :: t) = false) : trim (c :: t) = c :: t := by
  unfold trim
  rw [List.dropWhile_cons, hc]
  exact trimEnd_eq_self_iff.mpr h

/-- What stands in front is not what the text ends with, unless there is nothing else. -/
theorem endsBlank_append {p : Text} (hp : endsBlank p = false) :
    endsBlank (p ++ t) = endsBlank t := by
  cases t with
  | nil =>
    rw [List.append_nil, hp]
    rfl
  | cons c t =>
    unfold endsBlank
    rw [List.getLast?_append_cons]

end Kit.Text
