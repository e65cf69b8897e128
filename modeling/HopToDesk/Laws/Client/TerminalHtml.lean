import HopToDesk.Client.TerminalEmulator
import HopToDesk.Kit.Html
import HopToDesk.Kit.JsonText

/-!
# The HTML of a terminal row

Whatever a shell writes, the page gets it as text. The payload is read as JSON with the rows and
their HTML in it, for any rows at all (`parse_buildUpdatePayload`). The HTML of a row is read as
characters and spans: the words of their classes and the declarations of their styles are those of
the renderer, and their text is that of the cells.

A row is rendered run by run, so what carries the argument is that what is out and the run that is
collected have between them the text of the cells so far (`RowText.Holds`).
-/

set_option autoImplicit false

namespace HopToDesk.Client

open Kit Vt100 Terminal

/-! ## The payload -/

theorem unescapes_json : JsonText.Unescapes escapeJsonChar := by
  intro c rest
  unfold escapeJsonChar
  split_ifs with h1 h2 h3 h4 h5 h6
  · subst h1
    rfl
  · subst h2
    rfl
  · subst h3
    rfl
  · subst h4
    rfl
  · subst h5
    rfl
  · -- a control character by its number
    have hhex : EcmaScript.hexNumber
        ['0', '0', Json.hexDigit (c.toNat / 16), Json.hexDigit (c.toNat % 16)] = some c.toNat := by
      have hall : ∀ n < 0x20, EcmaScript.hexNumber
          ['0', '0', Json.hexDigit (n / 16), Json.hexDigit (n % 16)] = some n := by decide
      exact hall _ h6
    have hunits : EcmaScript.codeUnits c.toNat = [c.toNat] := if_pos (by omega)
    simp only [List.cons_append, List.nil_append]
    rw [JsonText.readUnits, hhex, hunits]
    rfl
  · have hcontrol : ¬ c < ' ' := fun hlt =>
      h6 (UInt32.lt_iff_toNat_lt.mp (Char.lt_def.mp hlt))
    rw [List.singleton_append, JsonText.readUnits.eq_4, if_neg h2, if_neg hcontrol]
    · rintro a b c' d t rfl
      exact absurd rfl h1
    · rintro e t rfl
      exact absurd rfl h1

/-- A row of the payload as a value. -/
def rowValue (x : Nat × Text) : Json := .obj [(['r'], .num x.1), (['h'], .str x.2)]

theorem reads_rowPayload (x : Nat × Text) : JsonText.Reads 2 (rowPayload x) (rowValue x) := by
  have hfields : ∀ f ∈ [(['r'], Nat.toDigits 10 x.1, Json.num x.1),
      (['h'], '"' :: (x.2.flatMap escapeJsonChar ++ ['"']), Json.str x.2)],
        JsonText.Reads 1 f.2.1 f.2.2 := by
    simp only [List.forall_mem_cons]
    exact ⟨JsonText.reads_nat x.1, JsonText.reads_string unescapes_json x.2, by simp⟩
  have hobject := JsonText.reads_object unescapes_json (fun f => f.1) hfields
  have htext : '{' :: ([','].intercalate ([(['r'], Nat.toDigits 10 x.1, Json.num x.1),
      (['h'], '"' :: (x.2.flatMap escapeJsonChar ++ ['"']), Json.str x.2)].map fun f =>
        JsonText.writeField escapeJsonChar (f.1, f.2.1)) ++ ['}']) = rowPayload x := by
    have hr : escapeJsonChar 'r' = ['r'] := rfl
    have hh : escapeJsonChar 'h' = ['h'] := rfl
    simp [rowPayload, JsonText.writeField, jsonEscape, hr, hh]
  rw [htext] at hobject
  exact hobject

/-- **The payload is the list of the rows**, whatever is in their HTML. -/
theorem parse_buildUpdatePayload (u : FrameUpdate) :
    JsonText.parse (buildUpdatePayload u) = some (.arr (u.dirtyRows.map rowValue)) := by
  have harray := JsonText.reads_array fun x (_ : x ∈ u.dirtyRows) => reads_rowPayload x
  cases hrows : u.dirtyRows with
  | nil =>
    rw [buildUpdatePayload, hrows]
    rfl
  | cons x xs =>
    rw [hrows] at harray
    refine JsonText.parse_of_reads (n := 3) ?_ ?_
    · rw [buildUpdatePayload, hrows]
      exact harray
    · have hlength : 3 ≤ (rowPayload x).length := by
        simp only [rowPayload, List.length_append, List.length_cons]
        omega
      rw [buildUpdatePayload, hrows, List.map_cons]
      cases xs with
      | nil =>
        simp only [List.map_nil, List.intercalate_singleton, List.length_cons, List.length_append]
        omega
      | cons y ys =>
        simp only [List.map_cons, List.intercalate_cons_cons, List.length_cons,
          List.length_append]
        omega

/-! ## The characters -/

theorem unescapes_html : Html.Unescapes escapeHtmlChar := by
  intro c element done
  unfold escapeHtmlChar
  split_ifs with h1 h2 h3 h4 h5
  · subst h1
    cases element <;> rfl
  · subst h2
    cases element <;> rfl
  · subst h3
    cases element <;> rfl
  · subst h4
    cases element <;> rfl
  · subst h5
    cases element <;> rfl
  · have hstep : Html.step (.inData element done) c =
        some ((Html.Reader.inData element done).emit c) := by
      unfold Html.step
      exact (if_neg h1).trans (if_neg h3)
    rw [List.foldlM_cons, hstep]
    rfl

/-! ## The tables -/

/-- The classes of the renderer. -/
def classTable : List String :=
  "ansi-bold" :: (ansiFg ++ ansiFgBright ++ ansiBg ++ ansiBgBright)

/-- The declarations of the renderer without a colour of the cell in them. -/
def styleTable : List String :=
  ["text-decoration:underline", "font-style:italic", "color:#1e1e1e", "background-color:#d4d4d4"]

/-- A declaration of the renderer. -/
def IsStyle (d : Text) : Prop :=
  d ∈ styleTable.map String.toList ∨
    ∃ property ∈ ["color", "background-color"], ∃ r g b : UInt8,
      d = property.toList ++ ":#".toList ++ hexByte r ++ hexByte g ++ hexByte b

theorem mem_colorClass {dim bright : List String} (hdim : dim.length = 8)
    (hbright : bright.length = 8) {color : Color} {w : String}
    (h : w ∈ colorClass dim bright color) : w ∈ dim ∨ w ∈ bright := by
  cases color with
  | default => cases h
  | rgb r g b => cases h
  | idx i =>
    have hget {table : List String} {n : Nat} (hn : n < table.length) :
        table.getD n "" ∈ table := by
      rw [List.getD_eq_getElem?_getD, List.getElem?_eq_getElem hn]
      exact List.getElem_mem hn
    simp only [colorClass] at h
    split_ifs at h with hlow hhigh
    · rw [List.mem_singleton] at h
      subst h
      have hi : i.toNat ≤ 7 := UInt8.le_iff_toNat_le.mp hlow
      exact .inl (hget (by omega))
    · rw [List.mem_singleton] at h
      subst h
      have hi : i.toNat ≤ 15 := UInt8.le_iff_toNat_le.mp hhigh
      have hnot : ¬ i.toNat ≤ 7 := fun hle => hlow (UInt8.le_iff_toNat_le.mpr hle)
      have hsub : (i - 8).toNat = i.toNat - 8 := by
        rw [UInt8.toNat_sub_of_le]
        · rfl
        · exact UInt8.le_iff_toNat_le.mpr (by simp; omega)
      exact .inr (hget (by omega))
    · cases h

theorem mem_classTable {a : Attrs} {w : String} (h : w ∈ a.classes) : w ∈ classTable := by
  unfold Attrs.classes at h
  simp only [List.mem_append] at h
  unfold classTable
  simp only [List.mem_cons, List.mem_append]
  rcases h with (h | h) | h
  · split at h
    · exact .inl (List.mem_singleton.mp h)
    · cases h
  · rcases mem_colorClass rfl rfl h with h | h
    · exact .inr (.inl (.inl (.inl h)))
    · exact .inr (.inl (.inl (.inr h)))
  · rcases mem_colorClass rfl rfl h with h | h
    · exact .inr (.inl (.inr h))
    · exact .inr (.inr h)

/-- Characters that need no quoting, and that do not separate. -/
def Unbroken (separator : Char) (t : Text) : Prop := ∀ c ∈ t, c ≠ separator ∧ c ≠ '"' ∧ c ≠ '&'

instance (separator : Char) (t : Text) : Decidable (Unbroken separator t) := List.decidableBAll _ t

theorem unbroken_classTable : ∀ w ∈ classTable, Unbroken ' ' w.toList := by
  rw [← List.forall_iff_forall_mem]
  decide +kernel

/-- A style of the renderer: a declaration and a semicolon, which need no quoting. -/
def IsRule (s : Text) : Prop :=
  ∃ d, s = d ++ [';'] ∧ IsStyle d ∧ Unbroken ';' d

theorem isRule_table {d : String} (h : d ∈ styleTable) : IsRule (d.toList ++ [';']) := by
  have hbare : ∀ d ∈ styleTable, Unbroken ';' d.toList := by
    rw [← List.forall_iff_forall_mem]
    decide +kernel
  exact ⟨d.toList, rfl, .inl (List.mem_map_of_mem h), hbare d h⟩

theorem unbroken_hexByte (b : UInt8) : Unbroken ';' (hexByte b) := by
  intro c h
  have hall : ∀ n < 16, Json.hexDigit n ≠ ';' ∧ Json.hexDigit n ≠ '"' ∧ Json.hexDigit n ≠ '&' := by
    decide
  have hlt := b.toNat_lt
  simp only [hexByte, List.mem_cons, List.not_mem_nil, or_false] at h
  rcases h with rfl | rfl
  · exact hall _ (by omega)
  · exact hall _ (by omega)

theorem isRule_colorStyle {property : String} (h : property ∈ ["color", "background-color"])
    (r g b : UInt8) : IsRule (colorStyle property r g b) := by
  have hbare : ∀ p ∈ ["color", "background-color"], Unbroken ';' (p.toList ++ ":#".toList) := by
    rw [← List.forall_iff_forall_mem]
    decide +kernel
  refine ⟨_, rfl, .inr ⟨property, h, r, g, b, rfl⟩, ?_⟩
  unfold Unbroken
  simp only [List.forall_mem_append]
  exact ⟨⟨⟨List.forall_mem_append.mp (hbare property h), unbroken_hexByte r⟩, unbroken_hexByte g⟩,
    unbroken_hexByte b⟩

theorem isRule_colorStyles {property inverted : String}
    (hproperty : property ∈ ["color", "background-color"])
    (hinverted : IsRule (property.toList ++ ":".toList ++ inverted.toList ++ [';']))
    {inverse : Bool} {color : Color} {s : Text}
    (h : s ∈ colorStyles property inverted inverse color) : IsRule s := by
  cases color with
  | default =>
    simp only [colorStyles] at h
    split at h
    · obtain rfl := List.mem_singleton.mp h
      exact hinverted
    · cases h
  | idx i =>
    simp only [colorStyles] at h
    split at h
    · cases h
    · obtain rfl := List.mem_singleton.mp h
      exact isRule_colorStyle hproperty _ _ _
  | rgb r g b =>
    obtain rfl := List.mem_singleton.mp h
    exact isRule_colorStyle hproperty r g b

theorem isRule_of_mem_styles {a : Attrs} {s : Text} (h : s ∈ a.styles) : IsRule s := by
  have hfg : "color".toList ++ ":".toList ++ "#1e1e1e".toList = "color:#1e1e1e".toList := by decide
  have hbg : "background-color".toList ++ ":".toList ++ "#d4d4d4".toList =
      "background-color:#d4d4d4".toList := by decide
  unfold Attrs.styles at h
  simp only [List.mem_append] at h
  rcases h with ((h | h) | h) | h
  · split at h
    · obtain rfl := List.mem_singleton.mp h
      exact isRule_table (d := "text-decoration:underline") (by decide)
    · cases h
  · split at h
    · obtain rfl := List.mem_singleton.mp h
      exact isRule_table (d := "font-style:italic") (by decide)
    · cases h
  · refine isRule_colorStyles (by decide) ?_ h
    rw [hfg]
    exact isRule_table (by decide)
  · refine isRule_colorStyles (by decide) ?_ h
    rw [hbg]
    exact isRule_table (by decide)

/-! ## A run -/

/-- A node of the fragment is a character or a span from the tables. -/
def FromTables : Html.Node → Prop
  | .char _ => True
  | .element name attributes _ =>
    name = "span".toList ∧
      (attributes.map Prod.fst).Sublist ["class".toList, "style".toList] ∧
      ∀ x ∈ attributes,
        (x.1 = "class".toList ∧ ∀ w ∈ Html.classList x.2, w ∈ classTable.map String.toList) ∨
        (x.1 = "style".toList ∧ ∀ d ∈ Html.declarations x.2, IsStyle d)

def classValue (a : Attrs) : Text := [' '].intercalate (a.classes.map String.toList)

/-- The attributes of the span of a run. -/
def spanAttributes (a : Attrs) : List (Text × Text) :=
  [("class".toList, classValue a), ("style".toList, a.styles.flatten)].filter (·.2 ≠ [])

/-- The nodes of a run. -/
def runNodes (a : Attrs) (text : Text) : List Html.Node :=
  if text = [] then []
  else if a.isPlain then text.map .char
  else [.element "span".toList (spanAttributes a) text]

theorem tagAttribute_eq (name : String) (value : Text) :
    tagAttribute name value =
      ([(name.toList, value)].filter (·.2 ≠ [])).flatMap Html.writeAttribute := by
  by_cases h : value = []
  · simp [tagAttribute, h]
  · simp [tagAttribute, h, Html.writeAttribute]

theorem flushRun_span {a : Attrs} (ha : a.isPlain = false) {text : Text} (h : text ≠ [])
    (out : Text) :
    flushRun out a text =
      out ++ Html.writeElement escapeHtmlChar "span".toList (spanAttributes a) text := by
  have hattributes : (spanAttributes a).flatMap Html.writeAttribute =
      tagAttribute "class" (classValue a) ++ tagAttribute "style" a.styles.flatten := by
    rw [tagAttribute_eq, tagAttribute_eq, ← List.flatMap_append, ← List.filter_append]
    rfl
  have hopen : "<span".toList = '<' :: "span".toList := by decide
  have hclose : "</span>".toList = '<' :: '/' :: ("span".toList ++ ['>']) := by decide
  rw [flushRun, if_neg h, ha, if_neg Bool.false_ne_true, Html.writeElement, hattributes, hopen,
    hclose, htmlEscape, ← classValue]
  simp only [List.append_assoc, List.cons_append, List.nil_append]

/-- The words between the spaces of what is joined of them. -/
theorem mem_classList {a : Attrs} {w : Text} (h : w ∈ Html.classList (classValue a)) :
    w ∈ classTable.map String.toList := by
  unfold Html.classList classValue at h
  obtain ⟨hmem, hne⟩ := List.mem_filter.mp h
  by_cases hnil : a.classes = []
  · rw [hnil, List.map_nil, List.intercalate_nil, List.splitOn_nil, List.mem_singleton] at hmem
    exact absurd hmem (of_decide_eq_true hne)
  · rw [List.splitOn_intercalate] at hmem
    · obtain ⟨c, hc, rfl⟩ := List.mem_map.mp hmem
      exact List.mem_map_of_mem (mem_classTable hc)
    · intro l hl hspace
      obtain ⟨c, hc, rfl⟩ := List.mem_map.mp hl
      exact (unbroken_classTable c (mem_classTable hc) ' ' hspace).1 rfl
    · exact fun hmap => hnil (List.map_eq_nil_iff.mp hmap)

/-- The declarations between the semicolons of rules. -/
theorem mem_declarations {rules : List Text} (h : ∀ s ∈ rules, IsRule s) {d : Text}
    (hd : d ∈ Html.declarations rules.flatten) : IsStyle d := by
  induction rules with
  | nil =>
    obtain ⟨hmem, hne⟩ := List.mem_filter.mp hd
    rw [List.flatten_nil, List.splitOn_nil, List.mem_singleton] at hmem
    exact absurd hmem (of_decide_eq_true hne)
  | cons s rules ih =>
    obtain ⟨⟨d', rfl, hstyle, hbare⟩, hrules⟩ := List.forall_mem_cons.mp h
    have hsemicolon : ';' ∉ d' := fun hmem => (hbare ';' hmem).1 rfl
    obtain ⟨hmem, hne⟩ := List.mem_filter.mp hd
    rw [List.flatten_cons, List.append_assoc, List.singleton_append, List.splitOn_append_cons_self,
      List.splitOn_eq_singleton hsemicolon, List.singleton_append, List.mem_cons] at hmem
    rcases hmem with rfl | hmem
    · exact hstyle
    · exact ih hrules (List.mem_filter.mpr ⟨hmem, hne⟩)

theorem isValue_classValue (a : Attrs) : Html.IsValue (classValue a) := by
  intro c hc
  have hwords : ∀ ws : List String, (∀ w ∈ ws, w ∈ classTable) →
      ∀ c ∈ [' '].intercalate (ws.map String.toList), c ≠ '"' ∧ c ≠ '&' := by
    intro ws hws
    induction ws with
    | nil =>
      intro c hc
      cases hc
    | cons w ws ih =>
      obtain ⟨hw, hrest⟩ := List.forall_mem_cons.mp hws
      have hword : ∀ c ∈ w.toList, c ≠ '"' ∧ c ≠ '&' := fun c hc =>
        (unbroken_classTable w hw c hc).2
      cases ws with
      | nil =>
        rw [List.map_singleton, List.intercalate_singleton]
        exact hword
      | cons v vs =>
        rw [List.map_cons, List.map_cons, List.intercalate_cons_cons, ← List.map_cons,
          List.forall_mem_append, List.forall_mem_append, List.forall_mem_singleton]
        exact ⟨⟨hword, by decide⟩, ih hrest⟩
  exact hwords a.classes (fun w hw => mem_classTable hw) c hc

theorem isValue_styles (a : Attrs) : Html.IsValue a.styles.flatten := by
  intro c hc
  obtain ⟨s, hs, hcs⟩ := List.mem_flatten.mp hc
  obtain ⟨d, rfl, -, hbare⟩ := isRule_of_mem_styles hs
  rcases List.mem_append.mp hcs with hd | hsemicolon
  · exact (hbare c hd).2
  · obtain rfl := List.mem_singleton.mp hsemicolon
    decide

theorem fromTables_span (a : Attrs) (text : Text) :
    FromTables (.element "span".toList (spanAttributes a) text) := by
  refine ⟨rfl, ?_, ?_⟩
  · have hsub := (List.filter_sublist (p := fun x : Text × Text => x.2 ≠ [])
      (l := [("class".toList, classValue a), ("style".toList, a.styles.flatten)])).map Prod.fst
    exact hsub
  · intro x hx
    have hmem := List.mem_of_mem_filter hx
    simp only [List.mem_cons, List.not_mem_nil, or_false] at hmem
    rcases hmem with rfl | rfl
    · exact .inl ⟨rfl, fun w hw => mem_classList hw⟩
    · exact .inr ⟨rfl, fun d hd => mem_declarations (fun s hs => isRule_of_mem_styles hs) hd⟩

theorem reads_span (a : Attrs) (text : Text) :
    Html.Reads (Html.writeElement escapeHtmlChar "span".toList (spanAttributes a) text)
      [.element "span".toList (spanAttributes a) text] := by
  refine Html.reads_element unescapes_html (by decide) ?_ text
  intro x hx
  have hmem := List.mem_of_mem_filter hx
  simp only [List.mem_cons, List.not_mem_nil, or_false] at hmem
  rcases hmem with rfl | rfl
  · exact ⟨show Html.IsName "class".toList by decide, isValue_classValue a⟩
  · exact ⟨show Html.IsName "style".toList by decide, isValue_styles a⟩

/-- **A run is read as its nodes**, behind what is out. -/
theorem reads_flushRun {out : Text} {ns : List Html.Node} (h : Html.Reads out ns) (a : Attrs)
    (text : Text) : Html.Reads (flushRun out a text) (ns ++ runNodes a text) := by
  by_cases htext : text = []
  · rw [flushRun, if_pos htext, runNodes, if_pos htext, List.append_nil]
    exact h
  · cases ha : a.isPlain with
    | true =>
      rw [flushRun, runNodes, if_neg htext, if_neg htext, ha, if_pos rfl, if_pos rfl]
      exact h.append (Html.reads_escaped unescapes_html text)
    | false =>
      rw [flushRun_span ha htext, runNodes, if_neg htext, ha, if_neg Bool.false_ne_true]
      exact h.append (reads_span a text)

theorem text_runNodes (a : Attrs) (text : Text) : Html.text (runNodes a text) = text := by
  unfold runNodes
  split
  next h => exact h.symm
  next =>
    split
    · simp [Html.text, List.flatMap_map, Html.Node.text]
    · simp [Html.text, Html.Node.text]

theorem fromTables_runNodes (a : Attrs) (text : Text) : ∀ x ∈ runNodes a text, FromTables x := by
  unfold runNodes
  split_ifs
  · intro x hx
    cases hx
  · intro x hx
    obtain ⟨c, -, rfl⟩ := List.mem_map.mp hx
    trivial
  · rw [List.forall_mem_singleton]
    exact fromTables_span a text

/-! ## A row -/

/-- The text of a cell: nothing for the second half of a wide one. -/
def cellText (screen : Screen) (row col : Nat) : Text :=
  match screen.cell row col with
  | some c => if c.isWideContinuation then [] else glyph c
  | none => []

def rowText (screen : Screen) (row : Nat) : Text :=
  (List.range screen.cols).flatMap (cellText screen row)

/-- HTML that shows a text. -/
def Shows (html text : Text) : Prop :=
  ∃ ns, Html.Reads html ns ∧ (∀ x ∈ ns, FromTables x) ∧ Html.text ns = text

theorem shows_nil : Shows [] [] := ⟨[], Html.reads_nil, nofun, rfl⟩

theorem Shows.flushRun {out shown : Text} (h : Shows out shown) (a : Attrs) (text : Text) :
    Shows (flushRun out a text) (shown ++ text) := by
  obtain ⟨ns, hreads, htables, htext⟩ := h
  refine ⟨ns ++ runNodes a text, reads_flushRun hreads a text, ?_, ?_⟩
  · rw [List.forall_mem_append]
    exact ⟨htables, fromTables_runNodes a text⟩
  · have happend : Html.text (ns ++ runNodes a text) =
        Html.text ns ++ Html.text (runNodes a text) := List.flatMap_append
    rw [happend, htext, text_runNodes]

/-- What is out and the run that is collected have this text between them. -/
structure Terminal.RowText.Holds (r : RowText) (text : Text) : Prop where
  out : ∃ shown, Shows r.out shown ∧ text = shown ++ r.runText
  empty : r.runAttrs = none → r.runText = []

theorem Terminal.RowText.Holds.flush {r : RowText} {text : Text} (h : r.Holds text) :
    Shows r.flush text := by
  obtain ⟨shown, hout, rfl⟩ := h.out
  unfold RowText.flush
  cases hrun : r.runAttrs with
  | none =>
    rw [h.empty hrun, List.append_nil]
    exact hout
  | some a => exact hout.flushRun a r.runText

theorem Terminal.RowText.Holds.push {r : RowText} {text : Text} (h : r.Holds text) (a : Attrs)
    (g : Text) : (r.push a g).Holds (text ++ g) := by
  unfold RowText.push
  split
  next hrun =>
    obtain ⟨shown, hout, rfl⟩ := h.out
    refine ⟨⟨shown, hout, List.append_assoc ..⟩, fun hnone => ?_⟩
    rw [hrun] at hnone
    cases hnone
  next => exact ⟨⟨text, h.flush, rfl⟩, nofun⟩

theorem Terminal.RowText.Holds.renderCells {screen : Screen} {row : Nat} (cursorCol : Option Nat)
    {cs : List Nat}
    (hends : cs.Pairwise fun c c' => screen.cell row c = none → screen.cell row c' = none)
    {r : RowText} {text : Text} (h : r.Holds text) :
    (renderCells screen row cursorCol cs r).Holds (text ++ cs.flatMap (cellText screen row)) := by
  induction cs generalizing r text with
  | nil =>
    rw [List.flatMap_nil, List.append_nil]
    exact h
  | cons c cs ih =>
    obtain ⟨hc, hcs⟩ := List.pairwise_cons.mp hends
    rw [List.flatMap_cons]
    unfold Terminal.renderCells
    cases hcell : screen.cell row c with
    | none =>
      -- there are no cells behind the last one
      have hrest : cs.flatMap (cellText screen row) = [] := by
        refine List.flatMap_eq_nil_iff.mpr fun c' hc' => ?_
        rw [cellText, hc c' hc' hcell]
      rw [hrest, cellText, hcell, List.append_nil, List.append_nil]
      exact h
    | some cell =>
      rw [cellText, hcell, ← List.append_assoc]
      dsimp only
      split
      · rw [List.append_nil]
        exact ih hcs h
      · exact ih hcs (h.push _ _)

/-- The space of a cursor behind the last column. -/
def cursorSpace (cols : Nat) (cursorCol : Option Nat) : Text :=
  if ∃ cc ∈ cursorCol, cols ≤ cc then [' '] else []

theorem Terminal.RowText.Holds.renderCursor (cols : Nat) (cursorCol : Option Nat) {r : RowText}
    {text : Text} (h : r.Holds text) :
    (renderCursor cols cursorCol r).Holds (text ++ cursorSpace cols cursorCol) := by
  unfold Terminal.renderCursor cursorSpace
  cases cursorCol with
  | none => simpa using h
  | some cc =>
    by_cases hcc : cols ≤ cc
    · rw [if_pos ⟨cc, rfl, hcc⟩]
      dsimp only
      rw [if_pos hcc]
      refine ⟨⟨text ++ [' '], h.flush.flushRun { inverse := true } [' '], ?_⟩, fun _ => rfl⟩
      rw [List.append_nil]
    · simpa [hcc] using h

/-- What the crate documents of a screen: a row has a cell at least, for it is one column wide at
least, its cells are its first ones (a row of the scrollback may have been narrower), and a cell
that continues a wide one has that to its left. -/
structure Vt100.Screen.Documented (screen : Screen) : Prop where
  cols_pos : 0 < screen.cols
  first : ∀ row < screen.rows, (screen.cell row 0).isSome = true
  ends : ∀ {row col}, screen.cell row col = none → screen.cell row (col + 1) = none
  continuation : ∀ {row col c}, screen.cell row col = some c → c.isWideContinuation = true →
    ∃ col' c', col = col' + 1 ∧ screen.cell row col' = some c' ∧ c'.isWide = true

theorem glyph_ne_nil (c : Cell) : glyph c ≠ [] := by
  unfold glyph
  split
  · exact List.cons_ne_nil _ _
  next h => exact h

/-- A row has some text in it. -/
theorem rowText_ne_nil {screen : Screen} (h : screen.Documented) {row : Nat}
    (hrow : row < screen.rows) : rowText screen row ≠ [] := by
  obtain ⟨c, hc⟩ := Option.isSome_iff_exists.mp (h.first row hrow)
  have hfirst : c.isWideContinuation = false := by
    by_contra hwide
    obtain ⟨col', c', hcol, -⟩ := h.continuation hc (Bool.of_not_eq_false hwide)
    exact absurd hcol (Nat.succ_ne_zero col').symm
  intro hnil
  have hcell := List.flatMap_eq_nil_iff.mp hnil 0 (List.mem_range.mpr h.cols_pos)
  rw [cellText, hc] at hcell
  simp only [hfirst, Bool.false_eq_true, if_false] at hcell
  exact glyph_ne_nil c hcell

theorem shows_renderRow {screen : Screen} (h : screen.Documented) {row : Nat}
    (hrow : row < screen.rows) (cursorCol : Option Nat) :
    Shows (renderRow screen row screen.cols cursorCol)
      (rowText screen row ++ cursorSpace screen.cols cursorCol) := by
  have hstart : RowText.Holds {} [] := ⟨⟨[], shows_nil, rfl⟩, fun _ => rfl⟩
  have hends : (List.range screen.cols).Pairwise fun c c' =>
      screen.cell row c = none → screen.cell row c' = none :=
    List.pairwise_lt_range.imp fun hlt hnone => Nat.le_induction hnone (fun _ _ => h.ends) _ hlt.le
  have hshows := ((hstart.renderCells cursorCol hends).renderCursor screen.cols cursorCol).flush
  rw [List.nil_append] at hshows
  unfold renderRow
  rw [if_neg]
  · exact hshows
  · intro hnil
    rw [hnil] at hshows
    obtain ⟨ns, hreads, -, htext⟩ := hshows
    obtain rfl := hreads.unique Html.reads_nil
    exact rowText_ne_nil h hrow (List.append_eq_nil_iff.mp htext.symm).1

/-- **Nothing a shell writes gets out of the text of its row.** The payload is the list of the rows
with their HTML, and the HTML of a row has no elements but spans with what the renderer has in its
tables, around the text of the cells and the space of the cursor. -/
theorem payload_free_of_injection (u : FrameUpdate) (screen : Screen) (h : screen.Documented)
    (row : Nat) (hrow : row < screen.rows) (cursorCol : Option Nat) :
    JsonText.parse (buildUpdatePayload u) = some (.arr (u.dirtyRows.map rowValue)) ∧
      ∃ ns, Html.parse (renderRow screen row screen.cols cursorCol) = some ns ∧
        (∀ x ∈ ns, FromTables x) ∧
        Html.text ns = rowText screen row ++ cursorSpace screen.cols cursorCol := by
  obtain ⟨ns, hreads, htables, htext⟩ := shows_renderRow h hrow cursorCol
  exact ⟨parse_buildUpdatePayload u, ns, Html.parse_of_reads hreads, htables, htext⟩

/-- A screen of one row, as wide as it has cells. -/
def rowScreen (cells : List Cell) (cursorCol : Nat) : Screen where
  rows := 1
  cols := cells.length
  cell row col := if row = 0 then cells[col]? else none
  cursorRow := 0
  cursorCol := cursorCol
  hideCursor := false
  applicationCursor := false
  applicationKeypad := false
  alternateScreen := false
  bracketedPaste := false
  title := []

/-- A tag that was sent as text, in red: it is the text of a span. -/
def redTag : List Cell :=
  "<b>".toList.map fun c => { contents := [c], fgcolor := .idx 1, bold := true }

theorem payload_free_of_injection_redTag :
    ∃ ns, Html.parse (renderRow (rowScreen redTag 3) 0 3 (some 3)) = some ns ∧
      (∀ x ∈ ns, FromTables x) ∧ Html.text ns = "<b> ".toList := by
  have hdocumented : (rowScreen redTag 3).Documented := by
    refine ⟨by decide, by decide, ?_, ?_⟩
    · intro row col hnone
      by_cases hrow : row = 0
      · subst hrow
        exact List.getElem?_eq_none ((List.getElem?_eq_none_iff.mp hnone).trans (Nat.le_succ col))
      · exact if_neg hrow
    · intro row col c hc hwide
      have hall : ∀ c ∈ redTag, c.isWideContinuation = false := by
        rw [← List.forall_iff_forall_mem]
        decide
      by_cases hrow : row = 0
      · subst hrow
        have hfalse := hall c (List.mem_of_getElem? hc)
        rw [hwide] at hfalse
        cases hfalse
      · exact absurd ((if_neg hrow).symm.trans hc) nofun
  obtain ⟨-, ns, hparse, htables, htext⟩ := payload_free_of_injection
    (frameUpdate (rowScreen redTag 3) [] true true) (rowScreen redTag 3) hdocumented 0 (by decide)
    (some 3)
  exact ⟨ns, hparse, htables, htext.trans (by decide)⟩

end HopToDesk.Client
