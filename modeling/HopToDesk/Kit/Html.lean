import HopToDesk.Kit.Text

/-!
# HTML of flat elements

A reader of HTML fragments that are text and elements with text in them. It goes through the text
one character at a time, as the tokenizer of a browser does: it is in the data, in a character
reference, in a tag, or in the value of an attribute. What it reads is a list of characters and
elements; a character reference is the character it stands for.

It is a strict reader, for text as it stands: what a browser does to line ends and NUL characters
before it reads a stream is not here. A tag inside an element, an attribute without quotes, a
reference it does not know, or a text that ends in the middle of something is not read at all, so
where it gives a fragment there is no doubt about what that is.

`Reads t ns` says that the text reads as these nodes wherever it stands. Such texts may be put one
behind the other, and an element is read if its characters are escaped.
-/

set_option autoImplicit false

namespace Kit.Html

inductive Node
  | char (c : Char)
  | element (name : Text) (attributes : List (Text × Text)) (content : Text)
deriving DecidableEq

def Node.text : Node → Text
  | char c => [c]
  | element _ _ content => content

/-- The text of a fragment, its tags left out. -/
def text (ns : List Node) : Text := ns.flatMap Node.text

/-- The words of the value of a `class` attribute. -/
def classList (value : Text) : List Text := (value.splitOn ' ').filter (· ≠ [])

/-- The declarations of the value of a `style` attribute. -/
def declarations (value : Text) : List Text := (value.splitOn ';').filter (· ≠ [])

/-! ## The reader -/

/-- Where the reader is: a tag comes with its name and the attributes read so far. -/
inductive State
  | data
  | reference (name : Text)
  | tagOpen
  | endTag (name : Text)
  | tagName (name : Text)
  | attributeName (tag : Text) (attributes : List (Text × Text)) (name : Text)
  | beforeValue (tag : Text) (attributes : List (Text × Text)) (name : Text)
  | value (tag : Text) (attributes : List (Text × Text)) (name value : Text)
  | behindValue (tag : Text) (attributes : List (Text × Text))
deriving DecidableEq

/-- An element that is open, with its text so far. -/
structure Open where
  name : Text
  attributes : List (Text × Text)
  content : Text
deriving DecidableEq

structure Reader where
  state : State := .data
  element : Option Open := none
  nodes : List Node := []
deriving DecidableEq

/-- The characters that have a name here. -/
def namedCharacters : List (Text × Char) :=
  [("lt".toList, '<'), ("gt".toList, '>'), ("amp".toList, '&'), ("quot".toList, '"'),
    ("nbsp".toList, '\u00a0')]

/-- The character of a reference, by its name or by its number if it is one of ASCII. -/
def dereference (name : Text) : Option Char :=
  if name.head? = some '#' then
    let n := Nat.ofDigitChars 10 name.tail 0
    if name.tail ≠ [] ∧ name.tail.all Char.isDigit = true ∧ 0x20 ≤ n ∧ n < 0x7F then
      some (Char.ofNat n)
    else none
  else namedCharacters.lookup name

/-- A character of the text, back in the data. -/
def Reader.emit (r : Reader) (c : Char) : Reader :=
  match r.element with
  | none => { r with state := .data, nodes := r.nodes ++ [.char c] }
  | some e => { r with state := .data, element := some { e with content := e.content ++ [c] } }

/-- A start tag, where no element is open. -/
def Reader.start (r : Reader) (name : Text) (attributes : List (Text × Text)) : Option Reader :=
  match r.element with
  | none => some { r with state := .data, element := some ⟨name, attributes, []⟩ }
  | some _ => none

/-- The end tag of the element that is open. -/
def Reader.finish (r : Reader) (name : Text) : Option Reader :=
  match r.element with
  | none => none
  | some e =>
    if e.name = name then
      some { state := .data, nodes := r.nodes ++ [.element e.name e.attributes e.content] }
    else none

def Reader.to (r : Reader) (s : State) : Option Reader := some { r with state := s }

def isNameChar (c : Char) : Bool := c.isLower || c == '-'

def step (r : Reader) (c : Char) : Option Reader :=
  match r.state with
  | .data =>
    if c = '<' then r.to .tagOpen
    else if c = '&' then r.to (.reference [])
    else some (r.emit c)
  | .reference name =>
    if c = ';' then (dereference name).map r.emit else r.to (.reference (name ++ [c]))
  | .tagOpen =>
    if c = '/' then r.to (.endTag [])
    else if isNameChar c then r.to (.tagName [c])
    else none
  | .endTag name =>
    if c = '>' then r.finish name
    else if isNameChar c then r.to (.endTag (name ++ [c]))
    else none
  | .tagName name =>
    if c = '>' then r.start name []
    else if c = ' ' then r.to (.attributeName name [] [])
    else if isNameChar c then r.to (.tagName (name ++ [c]))
    else none
  | .attributeName tag attributes name =>
    if c = '=' ∧ name ≠ [] then r.to (.beforeValue tag attributes name)
    else if isNameChar c then r.to (.attributeName tag attributes (name ++ [c]))
    else none
  | .beforeValue tag attributes name =>
    if c = '"' then r.to (.value tag attributes name []) else none
  | .value tag attributes name value =>
    if c = '"' then r.to (.behindValue tag (attributes ++ [(name, value)]))
    else if c = '&' then none
    else r.to (.value tag attributes name (value ++ [c]))
  | .behindValue tag attributes =>
    if c = '>' then r.start tag attributes
    else if c = ' ' then r.to (.attributeName tag attributes [])
    else none

/-- The nodes of a whole fragment. -/
def parse (t : Text) : Option (List Node) :=
  (t.foldlM step {}).bind fun r =>
    if r.state = .data ∧ r.element = none then some r.nodes else none

example : parse "a&lt;<b class=\u0022x y\u0022>&#39;</b>".toList =
    some [.char 'a', .char '<', .element ['b'] [("class".toList, "x y".toList)] ['\'']] := by
  decide

/-! ## What is read -/

/-- The reader is in the data, where something is open or not. -/
def Reader.inData (element : Option Open) (nodes : List Node) : Reader :=
  { element := element, nodes := nodes }

/-- The text reads as these nodes. -/
def Reads (t : Text) (ns : List Node) : Prop :=
  ∀ done, t.foldlM step (.inData none done) = some (.inData none (done ++ ns))

theorem reads_nil : Reads [] [] := by
  intro done
  rw [List.append_nil]
  rfl

theorem Reads.append {t t' : Text} {ns ns' : List Node} (h : Reads t ns) (h' : Reads t' ns') :
    Reads (t ++ t') (ns ++ ns') := by
  intro done
  rw [List.foldlM_append, h, Option.bind_eq_bind, Option.bind_some, h', List.append_assoc]

theorem parse_of_reads {t : Text} {ns : List Node} (h : Reads t ns) : parse t = some ns := by
  have hread := h []
  rw [parse, show ({} : Reader) = .inData none [] from rfl, hread]
  rfl

theorem Reads.unique {t : Text} {ns ns' : List Node} (h : Reads t ns) (h' : Reads t ns') :
    ns = ns' := Option.some.inj ((parse_of_reads h).symm.trans (parse_of_reads h'))

/-- An escape for each character, which is read as the character. -/
def Unescapes (escape : Char → Text) : Prop :=
  ∀ c element done, (escape c).foldlM step (.inData element done) =
    some ((Reader.inData element done).emit c)

section

variable {escape : Char → Text}

theorem reads_escaped (h : Unescapes escape) (t : Text) :
    Reads (t.flatMap escape) (t.map .char) := by
  induction t with
  | nil => exact reads_nil
  | cons c t ih =>
    rw [List.flatMap_cons, List.map_cons, ← List.singleton_append]
    exact Reads.append (fun done => h c none done) ih

theorem content_escaped (h : Unescapes escape) (e : Open) (done : List Node) (t : Text) :
    (t.flatMap escape).foldlM step (.inData (some e) done) =
      some (.inData (some { e with content := e.content ++ t }) done) := by
  induction t generalizing e with
  | nil =>
    rw [List.append_nil]
    rfl
  | cons c t ih =>
    rw [List.flatMap_cons, List.foldlM_append, h, Option.bind_eq_bind, Option.bind_some]
    refine (ih { e with content := e.content ++ [c] }).trans ?_
    rw [List.append_assoc, List.singleton_append]

end

/-! ## Tags -/

/-- A name of a tag or an attribute. -/
def IsName (name : Text) : Prop := name ≠ [] ∧ name.all isNameChar = true

instance (name : Text) : Decidable (IsName name) := inferInstanceAs (Decidable (_ ∧ _))

/-- The value of an attribute, without a quote or an ampersand. -/
def IsValue (value : Text) : Prop := ∀ c ∈ value, c ≠ '"' ∧ c ≠ '&'

instance (value : Text) : Decidable (IsValue value) := List.decidableBAll _ value

theorem isNameChar_ne {c d : Char} (h : isNameChar c = true) (hd : isNameChar d = false) :
    c ≠ d := by
  rintro rfl
  rw [h] at hd
  cases hd

section

variable {element : Option Open} {done : List Node}

/-- Characters that are added to what the state has of them. -/
theorem read_more {state : Text → State} {t : Text}
    (h : ∀ c ∈ t, ∀ before, step ⟨state before, element, done⟩ c =
      some ⟨state (before ++ [c]), element, done⟩) (before : Text) :
    t.foldlM step ⟨state before, element, done⟩ =
      some ⟨state (before ++ t), element, done⟩ := by
  induction t generalizing before with
  | nil =>
    rw [List.append_nil]
    rfl
  | cons c t ih =>
    obtain ⟨hc, ht⟩ := List.forall_mem_cons.mp h
    rw [List.foldlM_cons, hc, Option.bind_eq_bind, Option.bind_some, ih ht, List.append_assoc,
      List.singleton_append]

theorem read_tagName {name : Text} (h : ∀ c ∈ name, isNameChar c = true) (before : Text) :
    name.foldlM step ⟨.tagName before, element, done⟩ =
      some ⟨.tagName (before ++ name), element, done⟩ := by
  refine read_more (fun c hc before => ?_) before
  have hname := h c hc
  unfold step
  dsimp only
  rw [if_neg (isNameChar_ne hname rfl), if_neg (isNameChar_ne hname rfl), if_pos hname]
  rfl

theorem read_endTag {name : Text} (h : ∀ c ∈ name, isNameChar c = true) (before : Text) :
    name.foldlM step ⟨.endTag before, element, done⟩ =
      some ⟨.endTag (before ++ name), element, done⟩ := by
  refine read_more (fun c hc before => ?_) before
  have hname := h c hc
  unfold step
  dsimp only
  rw [if_neg (isNameChar_ne hname rfl), if_pos hname]
  rfl

theorem read_attributeName {name : Text} (h : ∀ c ∈ name, isNameChar c = true) (tag : Text)
    (attributes : List (Text × Text)) (before : Text) :
    name.foldlM step ⟨.attributeName tag attributes before, element, done⟩ =
      some ⟨.attributeName tag attributes (before ++ name), element, done⟩ := by
  refine read_more (fun c hc before => ?_) before
  have hname := h c hc
  unfold step
  dsimp only
  rw [if_neg fun hboth => isNameChar_ne hname rfl hboth.1, if_pos hname]
  rfl

theorem read_value {value : Text} (h : IsValue value) (tag : Text)
    (attributes : List (Text × Text)) (name before : Text) :
    value.foldlM step ⟨.value tag attributes name before, element, done⟩ =
      some ⟨.value tag attributes name (before ++ value), element, done⟩ := by
  refine read_more (fun c hc before => ?_) before
  unfold step
  dsimp only
  rw [if_neg (h c hc).1, if_neg (h c hc).2]
  rfl

/-- Where the reader is behind these attributes of a tag. -/
def behind (tag : Text) : List (Text × Text) → State
  | [] => .tagName tag
  | x :: xs => .behindValue tag (x :: xs)

theorem step_behind_space (tag : Text) (attributes : List (Text × Text)) :
    step ⟨behind tag attributes, element, done⟩ ' ' =
      some ⟨.attributeName tag attributes [], element, done⟩ := by
  cases attributes with
  | nil => rfl
  | cons x xs => rfl

theorem step_behind_close (tag : Text) (attributes : List (Text × Text)) :
    step ⟨behind tag attributes, none, done⟩ '>' =
      some (.inData (some ⟨tag, attributes, []⟩) done) := by
  cases attributes with
  | nil => rfl
  | cons x xs => rfl

/-- An attribute as it is written in a tag. -/
def writeAttribute (x : Text × Text) : Text := ' ' :: (x.1 ++ '=' :: '"' :: (x.2 ++ ['"']))

theorem read_attribute {x : Text × Text} (hname : IsName x.1) (hvalue : IsValue x.2) (tag : Text)
    (attributes : List (Text × Text)) :
    (writeAttribute x).foldlM step ⟨behind tag attributes, element, done⟩ =
      some ⟨behind tag (attributes ++ [x]), element, done⟩ := by
  have hequals : step ⟨.attributeName tag attributes x.1, element, done⟩ '=' =
      some ⟨.beforeValue tag attributes x.1, element, done⟩ := by
    unfold step
    dsimp only
    rw [if_pos ⟨rfl, hname.1⟩]
    rfl
  have hopen : step ⟨.beforeValue tag attributes x.1, element, done⟩ '"' =
      some ⟨.value tag attributes x.1 [], element, done⟩ := rfl
  have hclose : step ⟨.value tag attributes x.1 x.2, element, done⟩ '"' =
      some ⟨behind tag (attributes ++ [x]), element, done⟩ := by
    cases attributes with
    | nil => rfl
    | cons y ys => rfl
  have hnamed : x.1.foldlM step ⟨.attributeName tag attributes [], element, done⟩ =
      some ⟨.attributeName tag attributes x.1, element, done⟩ :=
    read_attributeName (List.all_eq_true.mp hname.2) tag attributes []
  have hvalued : x.2.foldlM step ⟨.value tag attributes x.1 [], element, done⟩ =
      some ⟨.value tag attributes x.1 x.2, element, done⟩ :=
    read_value hvalue tag attributes x.1 []
  rw [writeAttribute, List.foldlM_cons, step_behind_space, Option.bind_eq_bind, Option.bind_some,
    List.foldlM_append, hnamed, Option.bind_eq_bind, Option.bind_some, List.foldlM_cons, hequals,
    Option.bind_eq_bind, Option.bind_some, List.foldlM_cons, hopen, Option.bind_eq_bind,
    Option.bind_some, List.foldlM_append, hvalued, Option.bind_eq_bind, Option.bind_some,
    List.foldlM_cons, hclose]
  rfl

theorem read_attributes {xs : List (Text × Text)} (h : ∀ x ∈ xs, IsName x.1 ∧ IsValue x.2)
    (tag : Text) (attributes : List (Text × Text)) :
    (xs.flatMap writeAttribute).foldlM step ⟨behind tag attributes, element, done⟩ =
      some ⟨behind tag (attributes ++ xs), element, done⟩ := by
  induction xs generalizing attributes with
  | nil =>
    rw [List.append_nil]
    rfl
  | cons x xs ih =>
    obtain ⟨hx, hxs⟩ := List.forall_mem_cons.mp h
    rw [List.flatMap_cons, List.foldlM_append, read_attribute hx.1 hx.2, Option.bind_eq_bind,
      Option.bind_some, ih hxs, List.append_assoc, List.singleton_append]

end

/-- An element as it is written. -/
def writeElement (escape : Char → Text) (name : Text) (attributes : List (Text × Text))
    (content : Text) : Text :=
  '<' :: (name ++ attributes.flatMap writeAttribute) ++
    '>' :: (content.flatMap escape ++ ('<' :: '/' :: (name ++ ['>'])))

/-- **An element is read if its characters are escaped.** -/
theorem reads_element {escape : Char → Text} (hescape : Unescapes escape) {name : Text}
    (hname : IsName name) {attributes : List (Text × Text)}
    (h : ∀ x ∈ attributes, IsName x.1 ∧ IsValue x.2) (content : Text) :
    Reads (writeElement escape name attributes content) [.element name attributes content] := by
  intro done
  have hne : name ≠ [] := hname.1
  have hchars : ∀ c ∈ name, isNameChar c = true := List.all_eq_true.mp hname.2
  -- the start tag
  have hstart : ('<' :: (name ++ attributes.flatMap writeAttribute)).foldlM step
      (.inData none done) = some ⟨behind name attributes, none, done⟩ := by
    cases name with
    | nil => exact absurd rfl hne
    | cons c name =>
      obtain ⟨hc, hrest⟩ := List.forall_mem_cons.mp hchars
      have hopen : step (.inData none done) '<' = some ⟨.tagOpen, none, done⟩ := rfl
      have hfirst : step ⟨.tagOpen, none, done⟩ c = some ⟨.tagName [c], none, done⟩ := by
        unfold step
        dsimp only
        rw [if_neg (isNameChar_ne hc rfl), if_pos hc]
        rfl
      rw [List.foldlM_cons, hopen, Option.bind_eq_bind, Option.bind_some, List.cons_append,
        List.foldlM_cons, hfirst, Option.bind_eq_bind, Option.bind_some, List.foldlM_append,
        read_tagName hrest, Option.bind_eq_bind, Option.bind_some]
      exact read_attributes h (c :: name) []
  -- the end tag
  have hfinish : step ⟨.endTag name, some ⟨name, attributes, content⟩, done⟩ '>' =
      some (.inData none (done ++ [.element name attributes content])) := by
    unfold step
    dsimp only
    rw [if_pos rfl]
    exact if_pos rfl
  have hend : ('<' :: '/' :: (name ++ ['>'])).foldlM step
      (.inData (some ⟨name, attributes, content⟩) done) =
        some (.inData none (done ++ [.element name attributes content])) := by
    have hopen : step (.inData (some ⟨name, attributes, content⟩) done) '<' =
        some ⟨.tagOpen, some ⟨name, attributes, content⟩, done⟩ := rfl
    have hslash : step ⟨.tagOpen, some ⟨name, attributes, content⟩, done⟩ '/' =
        some ⟨.endTag [], some ⟨name, attributes, content⟩, done⟩ := rfl
    rw [List.foldlM_cons, hopen, Option.bind_eq_bind, Option.bind_some, List.foldlM_cons, hslash,
      Option.bind_eq_bind, Option.bind_some, List.foldlM_append, read_endTag hchars,
      Option.bind_eq_bind, Option.bind_some, List.nil_append, List.foldlM_cons, hfinish]
    rfl
  rw [writeElement, List.foldlM_append, hstart, Option.bind_eq_bind, Option.bind_some,
    List.foldlM_cons, step_behind_close, Option.bind_eq_bind, Option.bind_some,
    List.foldlM_append, content_escaped hescape, Option.bind_eq_bind, Option.bind_some]
  exact hend

end Kit.Html
