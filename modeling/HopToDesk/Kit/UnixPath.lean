import Mathlib.Tactic

/-!
# Paths as strings, and the places they name

A path is text. Read as `std::path` reads it on Unix (`parse`), it is absolute or not and has
components: empty pieces and `.` are dropped, `..` stays, anything else is a name. What it names is
a place, the list of names from the root (`resolve`), with `..` taken off lexically: there are no
symbolic links here, and a path is not asked whether the directories it climbs out of exist.

`join` is `PathBuf::join`: an absolute second path replaces the first. `parent` is `Path::parent`.
`visited` lists the places a walk along the components comes through, which is what creating the
directories of a path has to create.

The laws say where `join` can lead. A relative path without `..`, joined to any path, stays below
what that path names (`resolve_join`), also with a suffix put to its text (`resolve_join_append`).
-/

set_option autoImplicit false

namespace Kit.UnixPath

abbrev Name := List Char

/-- The text of a path. -/
abbrev PathStr := List Char

/-- A place in the tree: the names from the root down. -/
abbrev Place := List Name

/-- The text between the slashes. -/
def pieces : PathStr → List Name
  | [] => [[]]
  | c :: s =>
    if c = '/' then [] :: pieces s
    else
      match pieces s with
      | [] => [[c]]
      | n :: ns => (c :: n) :: ns

inductive Comp
  | up
  | name (n : Name)
deriving DecidableEq, Repr

/-- What a piece of text is as a component. -/
def toComp (piece : Name) : Option Comp :=
  if piece = [] then none
  else if piece = ['.'] then none
  else if piece = ['.', '.'] then some .up
  else some (.name piece)

structure Parsed where
  absolute : Bool
  comps : List Comp
deriving DecidableEq, Repr

def isAbsolute (s : PathStr) : Bool := s.head? = some '/'

def parse (s : PathStr) : Parsed :=
  { absolute := isAbsolute s, comps := (pieces s).filterMap toComp }

/-- `Path::parent`, as far as it has one. -/
def parent (p : Parsed) : Option Parsed :=
  if p.comps = [] then none else some { p with comps := p.comps.dropLast }

/-- `PathBuf::join`. -/
def join (p name : PathStr) : PathStr :=
  if isAbsolute name then name
  else if p = [] ∨ p.getLast? = some '/' then p ++ name
  else p ++ '/' :: name

def walk (at_ : Place) : Comp → Place
  | .up => at_.dropLast
  | .name n => at_ ++ [n]

/-- Where a walk starts. -/
def start (cwd : Place) (p : Parsed) : Place := if p.absolute then [] else cwd

def resolve (cwd : Place) (p : Parsed) : Place := p.comps.foldl walk (start cwd p)

/-- The places a walk comes through, after its start. -/
def stops (at_ : Place) : List Comp → List Place
  | [] => []
  | c :: cs => walk at_ c :: stops (walk at_ c) cs

def visited (cwd : Place) (p : Parsed) : List Place := stops (start cwd p) p.comps

/-- The text ends in a slash or a dot, and so names a directory or nothing. -/
def endsAsDir (s : PathStr) : Bool :=
  match (pieces s).getLast? with
  | some last => last = [] || last = ['.'] || last = ['.', '.']
  | none => true

/-! ## Pieces -/

theorem pieces_ne_nil (s : PathStr) : pieces s ≠ [] := by
  cases s with
  | nil => simp [pieces]
  | cons c s =>
    unfold pieces
    split_ifs
    · exact List.cons_ne_nil _ _
    · split <;> exact List.cons_ne_nil _ _

@[simp]
theorem pieces_slash (s : PathStr) : pieces ('/' :: s) = [] :: pieces s := by
  rw [pieces, if_pos rfl]

/-- A character that is not a slash joins the first piece. -/
theorem pieces_cons {c : Char} (h : c ≠ '/') {s : PathStr} {n : Name} {ns : List Name}
    (hs : pieces s = n :: ns) : pieces (c :: s) = (c :: n) :: ns := by
  rw [pieces, if_neg h, hs]

/-- A slash cuts the text. -/
theorem pieces_append_slash (a b : PathStr) : pieces (a ++ '/' :: b) = pieces a ++ pieces b := by
  induction a with
  | nil => rw [List.nil_append, pieces_slash, pieces, List.cons_append, List.nil_append]
  | cons c a ih =>
    rw [List.cons_append]
    by_cases hc : c = '/'
    · subst hc
      rw [pieces_slash, pieces_slash, ih, List.cons_append]
    · obtain ⟨n, ns, hs⟩ := List.exists_cons_of_ne_nil (pieces_ne_nil a)
      rw [hs, List.cons_append] at ih
      rw [pieces_cons hc ih, pieces_cons hc hs, List.cons_append]

/-- A text without a slash is one piece. -/
theorem pieces_of_no_slash {s : PathStr} (h : '/' ∉ s) : pieces s = [s] := by
  induction s with
  | nil => rfl
  | cons c s ih =>
    have hc : c ≠ '/' := fun he => h (he ▸ List.mem_cons_self)
    exact pieces_cons hc (ih fun hs => h (List.mem_cons_of_mem _ hs))

/-- A suffix without a slash is put to the last piece. -/
theorem pieces_append (s suffix : PathStr) (h : '/' ∉ suffix) :
    pieces (s ++ suffix) =
      (pieces s).dropLast ++ [(pieces s).getLast (pieces_ne_nil s) ++ suffix] := by
  induction s with
  | nil => rw [List.nil_append, pieces_of_no_slash h]; rfl
  | cons c s ih =>
    obtain ⟨n, ns, hs⟩ := List.exists_cons_of_ne_nil (pieces_ne_nil s)
    rw [List.cons_append]
    by_cases hc : c = '/'
    · subst hc
      simp only [pieces_slash, ih]
      rw [List.dropLast_cons_of_ne_nil (pieces_ne_nil s), List.getLast_cons (pieces_ne_nil s)]
      rfl
    · simp only [hs] at ih
      cases ns with
      | nil =>
        have hone : pieces (s ++ suffix) = (n ++ suffix) :: [] := by simpa using ih
        rw [pieces_cons hc hone]
        simp only [pieces_cons hc hs]
        rfl
      | cons m ms =>
        have hne : m :: ms ≠ [] := List.cons_ne_nil _ _
        rw [List.dropLast_cons_of_ne_nil hne, List.getLast_cons hne, List.cons_append] at ih
        rw [pieces_cons hc ih]
        simp only [pieces_cons hc hs]
        rw [List.dropLast_cons_of_ne_nil hne, List.getLast_cons hne, List.cons_append]

/-! ## Components -/

/-- The components before the last piece. -/
def stem (s : PathStr) : List Comp := (pieces s).dropLast.filterMap toComp

/-- The last piece. -/
def tip (s : PathStr) : Name := (pieces s).getLast (pieces_ne_nil s)

theorem comps_eq (s : PathStr) : (parse s).comps = stem s ++ (toComp (tip s)).toList := by
  have h := List.dropLast_append_getLast (pieces_ne_nil s)
  show (pieces s).filterMap toComp = _
  conv_lhs => rw [← h]
  rw [List.filterMap_append]
  rfl

/-- A suffix of at least three characters makes the last piece a name. -/
theorem comps_append (s suffix : PathStr) (hslash : '/' ∉ suffix) (hlen : 3 ≤ suffix.length) :
    (parse (s ++ suffix)).comps = stem s ++ [.name (tip s ++ suffix)] := by
  have hname : toComp (tip s ++ suffix) = some (.name (tip s ++ suffix)) := by
    have hlong : 3 ≤ (tip s ++ suffix).length := by rw [List.length_append]; omega
    have short (l : Name) (hl : l.length < 3) : tip s ++ suffix ≠ l := by
      rintro rfl
      omega
    unfold toComp
    rw [if_neg (short [] (by decide)), if_neg (short ['.'] (by decide)),
      if_neg (short ['.', '.'] (by decide))]
  show (pieces (s ++ suffix)).filterMap toComp = _
  rw [pieces_append s suffix hslash, List.filterMap_append]
  exact congrArg (stem s ++ ·) (List.filterMap_cons_some hname)

theorem isAbsolute_append {s : PathStr} (h : s ≠ []) (t : PathStr) :
    isAbsolute (s ++ t) = isAbsolute s := by
  unfold isAbsolute
  rw [List.head?_append_of_ne_nil _ h]

/-- Joining a relative path puts its pieces after the other's components. -/
theorem pieces_join (p : PathStr) {name : PathStr} (h : isAbsolute name = false) :
    ∃ before, pieces (join p name) = before ++ pieces name ∧
      before.filterMap toComp = (parse p).comps := by
  unfold join
  rw [if_neg (by rw [h]; exact Bool.false_ne_true)]
  split_ifs with hp
  · rcases hp with rfl | hp
    · exact ⟨[], rfl, rfl⟩
    · obtain ⟨q, rfl⟩ := List.getLast?_eq_some_iff.mp hp
      refine ⟨pieces q, ?_, ?_⟩
      · rw [List.append_assoc]
        exact pieces_append_slash q name
      · show _ = (pieces (q ++ '/' :: [])).filterMap toComp
        rw [pieces_append_slash, List.filterMap_append]
        exact (List.append_nil _).symm
  · exact ⟨pieces p, pieces_append_slash p name, rfl⟩

theorem isAbsolute_join (p : PathStr) {name : PathStr} (h : isAbsolute name = false) :
    isAbsolute (join p name) = isAbsolute p := by
  unfold join
  rw [if_neg (by rw [h]; exact Bool.false_ne_true)]
  cases p with
  | nil => simp only [true_or, if_true, List.nil_append, h]; rfl
  | cons c p => split_ifs <;> exact isAbsolute_append (List.cons_ne_nil _ _) _

theorem comps_join (p : PathStr) {name : PathStr} (h : isAbsolute name = false) :
    (parse (join p name)).comps = (parse p).comps ++ (parse name).comps := by
  obtain ⟨before, hpieces, hcomps⟩ := pieces_join p h
  show (pieces (join p name)).filterMap toComp = _
  rw [hpieces, List.filterMap_append, hcomps]
  rfl

theorem tip_join (p : PathStr) {name : PathStr} (h : isAbsolute name = false) :
    tip (join p name) = tip name := by
  obtain ⟨before, hpieces, -⟩ := pieces_join p h
  unfold tip
  simp only [hpieces]
  exact List.getLast_append_of_ne_nil _ (pieces_ne_nil name)

theorem stem_join (p : PathStr) {name : PathStr} (h : isAbsolute name = false) :
    stem (join p name) = (parse p).comps ++ stem name := by
  obtain ⟨before, hpieces, hcomps⟩ := pieces_join p h
  unfold stem
  rw [hpieces, List.dropLast_append_of_ne_nil (pieces_ne_nil name), List.filterMap_append, hcomps]

theorem tip_append (s suffix : PathStr) (hslash : '/' ∉ suffix) :
    tip (s ++ suffix) = tip s ++ suffix := by
  unfold tip
  simp only [pieces_append s suffix hslash]
  exact List.getLast_concat

theorem endsAsDir_eq (s : PathStr) :
    endsAsDir s = (tip s = [] || tip s = ['.'] || tip s = ['.', '.']) := by
  unfold endsAsDir
  rw [List.getLast?_eq_some_getLast (pieces_ne_nil s)]
  rfl

/-- A path with a suffix can name a file. -/
theorem endsAsDir_suffix (s : PathStr) {suffix : PathStr} (hslash : '/' ∉ suffix)
    (hlen : 3 ≤ suffix.length) : endsAsDir (s ++ suffix) = false := by
  have short (l : Name) (hl : l.length < 3) : tip s ++ suffix ≠ l := by
    rintro rfl
    rw [List.length_append] at hl
    omega
  simp [endsAsDir_eq, tip_append s suffix hslash, short ['.'] (by decide),
    short ['.', '.'] (by decide), ← List.length_eq_zero_iff]
  omega

/-! ## Where a path leads -/

theorem resolve_append (cwd : Place) (absolute : Bool) (cs ds : List Comp) :
    resolve cwd ⟨absolute, cs ++ ds⟩ = ds.foldl walk (resolve cwd ⟨absolute, cs⟩) :=
  List.foldl_append

/-- The directory a path's last piece is read in. -/
def site (cwd : Place) (s : PathStr) : Place := (stem s).foldl walk (start cwd (parse s))

theorem resolve_site (cwd : Place) (s : PathStr) :
    resolve cwd (parse s) = (toComp (tip s)).toList.foldl walk (site cwd s) := by
  unfold resolve
  rw [comps_eq, List.foldl_append]
  rfl

/-- A path with a suffix names a child of that directory. -/
theorem resolve_suffix (cwd : Place) (s : PathStr) {suffix : PathStr} (hslash : '/' ∉ suffix)
    (hlen : 3 ≤ suffix.length) :
    resolve cwd (parse (s ++ suffix)) = site cwd s ++ [tip s ++ suffix] := by
  have habs : isAbsolute (s ++ suffix) = isAbsolute s := by
    cases s with
    | nil =>
      cases suffix with
      | nil => exact absurd hlen (by decide)
      | cons c suffix =>
        have hc : c ≠ '/' := fun h => hslash (h ▸ List.mem_cons_self)
        simp [isAbsolute, hc]
    | cons c s => exact isAbsolute_append (List.cons_ne_nil _ _) _
  unfold resolve
  rw [comps_append s suffix hslash hlen, List.foldl_append]
  unfold site start
  rw [show (parse (s ++ suffix)).absolute = (parse s).absolute from habs]
  rfl

theorem stops_append (at_ : Place) (cs ds : List Comp) :
    stops at_ (cs ++ ds) = stops at_ cs ++ stops (cs.foldl walk at_) ds := by
  induction cs generalizing at_ with
  | nil => rfl
  | cons c cs ih => rw [List.cons_append, stops, stops, ih, List.cons_append]; rfl

/-- Walking down names only goes down. -/
theorem prefix_walk {ds : List Comp} (h : .up ∉ ds) (at_ : Place) :
    at_ <+: ds.foldl walk at_ := by
  induction ds generalizing at_ with
  | nil => exact List.prefix_refl _
  | cons d ds ih =>
    obtain ⟨hd, hds⟩ := not_or.mp (mt List.mem_cons.mpr h)
    cases d with
    | up => exact absurd rfl hd
    | name n => exact (List.prefix_append at_ [n]).trans (ih hds _)

theorem prefix_stops {ds : List Comp} (h : .up ∉ ds) {at_ q : Place} (hq : q ∈ stops at_ ds) :
    at_ <+: q := by
  induction ds generalizing at_ with
  | nil => exact nomatch hq
  | cons d ds ih =>
    obtain ⟨hd, hds⟩ := not_or.mp (mt List.mem_cons.mpr h)
    cases d with
    | up => exact absurd rfl hd
    | name n =>
      rcases List.mem_cons.mp hq with rfl | hq
      · exact List.prefix_append at_ [n]
      · exact (List.prefix_append at_ [n]).trans (ih hds hq)

theorem foldl_mem_stops (at_ : Place) (cs : List Comp) :
    cs.foldl walk at_ = at_ ∨ cs.foldl walk at_ ∈ stops at_ cs := by
  induction cs generalizing at_ with
  | nil => exact .inl rfl
  | cons c cs ih =>
    right
    rcases ih (walk at_ c) with heq | hmem
    · exact List.mem_cons.mpr (.inl heq)
    · exact List.mem_cons_of_mem _ hmem

/-- A walk ends where the path leads. -/
theorem resolve_mem_visited (cwd : Place) (p : Parsed) :
    resolve cwd p = start cwd p ∨ resolve cwd p ∈ visited cwd p :=
  foldl_mem_stops _ _

theorem stops_prefix {ds : List Comp} (h : .up ∉ ds) {at_ q : Place} (hq : q ∈ stops at_ ds) :
    q <+: ds.foldl walk at_ := by
  induction ds generalizing at_ with
  | nil => exact nomatch hq
  | cons d ds ih =>
    obtain ⟨-, hds⟩ := not_or.mp (mt List.mem_cons.mpr h)
    rcases List.mem_cons.mp hq with rfl | hq
    · exact prefix_walk hds _
    · exact ih hds hq

/-- A walk that does not climb comes through places above its end. -/
theorem visited_prefix {cwd : Place} {p : Parsed} (h : .up ∉ p.comps) {q : Place}
    (hq : q ∈ visited cwd p) : q <+: resolve cwd p :=
  stops_prefix h hq

/-- The way to a parent is part of the way. -/
theorem visited_parent {cwd : Place} {p pp : Parsed} (h : parent p = some pp) {q : Place}
    (hq : q ∈ visited cwd pp) : q ∈ visited cwd p := by
  unfold parent at h
  split_ifs at h with hne
  cases h
  have hcs : visited cwd p = stops (start cwd p) (p.comps.dropLast ++ [p.comps.getLast hne]) := by
    rw [List.dropLast_append_getLast]
    rfl
  rw [hcs, stops_append]
  exact List.mem_append_left _ hq

section File

variable {s : PathStr} (h : endsAsDir s = false)

include h in
/-- A path that can name a file ends in a name. -/
theorem toComp_tip : toComp (tip s) = some (.name (tip s)) := by
  rw [endsAsDir_eq] at h
  simp only [Bool.or_eq_false_iff, decide_eq_false_iff_not] at h
  unfold toComp
  rw [if_neg h.1.1, if_neg h.1.2, if_neg h.2]

include h in
theorem resolve_file (cwd : Place) : resolve cwd (parse s) = site cwd s ++ [tip s] := by
  rw [resolve_site, toComp_tip h]
  rfl

include h in
theorem parent_file : parent (parse s) = some ⟨isAbsolute s, stem s⟩ := by
  have hcomps : (parse s).comps = stem s ++ [.name (tip s)] := by
    rw [comps_eq, toComp_tip h]
    rfl
  unfold parent
  rw [hcomps, if_neg (List.append_ne_nil_of_right_ne_nil _ (List.cons_ne_nil _ _)),
    List.dropLast_concat]
  rfl

end File

/-- A relative path that does not climb. -/
def Descends (name : PathStr) : Prop := isAbsolute name = false ∧ ['.', '.'] ∉ pieces name

instance (name : PathStr) : Decidable (Descends name) := inferInstanceAs (Decidable (_ ∧ _))

theorem toComp_up {piece : Name} (h : toComp piece = some .up) : piece = ['.', '.'] := by
  unfold toComp at h
  split_ifs at h with h1 h2 h3
  · exact h3
  · cases h

theorem Descends.not_up {name : PathStr} (h : Descends name) : .up ∉ (parse name).comps := by
  intro hmem
  obtain ⟨piece, hpiece, hup⟩ := List.mem_filterMap.mp hmem
  exact h.2 (toComp_up hup ▸ hpiece)

theorem Descends.stem_not_up {name : PathStr} (h : Descends name) : .up ∉ stem name := by
  intro hmem
  obtain ⟨piece, hpiece, hup⟩ := List.mem_filterMap.mp hmem
  exact h.2 (toComp_up hup ▸ List.dropLast_subset _ hpiece)

variable (cwd : Place) (p : PathStr) {name : PathStr}

/-- **A path that does not climb stays below what it is joined to.** -/
theorem resolve_join (h : Descends name) :
    resolve cwd (parse p) <+: resolve cwd (parse (join p name)) := by
  have hparse : parse (join p name) =
      ⟨(parse p).absolute, (parse p).comps ++ (parse name).comps⟩ := by
    rw [← comps_join p h.1, show (parse p).absolute = isAbsolute p from rfl,
      ← isAbsolute_join p h.1]
    rfl
  rw [hparse, resolve_append]
  exact prefix_walk h.not_up _

/-- The same with a suffix put to the text. -/
theorem resolve_join_append (h : Descends name) {suffix : PathStr} (hslash : '/' ∉ suffix)
    (hlen : 3 ≤ suffix.length) (hne : join p name ≠ []) :
    resolve cwd (parse p) <+: resolve cwd (parse (join p name ++ suffix)) := by
  have hparse : parse (join p name ++ suffix) =
      ⟨(parse p).absolute, (parse p).comps ++ (stem name ++ [.name (tip name ++ suffix)])⟩ := by
    rw [← List.append_assoc, ← stem_join p h.1, ← tip_join p h.1,
      ← comps_append _ _ hslash hlen, show (parse p).absolute = isAbsolute p from rfl,
      ← isAbsolute_join p h.1, ← isAbsolute_append hne]
    rfl
  rw [hparse, resolve_append]
  refine prefix_walk ?_ _
  rw [List.mem_append, not_or]
  exact ⟨h.stem_not_up, by simp⟩

/-- The places on the way to a joined path are on the way to the first, or below it. -/
theorem visited_join (h : Descends name) {q : Place}
    (hq : q ∈ visited cwd (parse (join p name))) :
    q ∈ visited cwd (parse p) ∨ resolve cwd (parse p) <+: q := by
  have hvisited : visited cwd (parse (join p name)) =
      stops (start cwd (parse p)) ((parse p).comps ++ (parse name).comps) := by
    rw [← comps_join p h.1]
    unfold visited start
    rw [show (parse (join p name)).absolute = (parse p).absolute from isAbsolute_join p h.1]
  rw [hvisited, stops_append, List.mem_append] at hq
  exact hq.imp_right (prefix_stops h.not_up)

end Kit.UnixPath
