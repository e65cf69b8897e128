import Mathlib.Data.List.DropRight
import Mathlib.Tactic

/-!
# Paths of bytes

A path of the system is bytes, and need not be text. `osComponents` and `stripPrefix` are those of
`std::path::Path` on Unix.
-/

set_option autoImplicit false

namespace Kit.OsPath

abbrev OsStr := List UInt8

def slash : UInt8 := 47

def dot : UInt8 := 46

inductive OsComponent
  | rootDir
  | curDir
  | parentDir
  | normal (name : OsStr)
deriving DecidableEq, Repr

/-- The bytes between the slashes. -/
def osPieces (s : OsStr) : List OsStr := s.splitOn slash

/-- A piece behind the first that is a component. -/
def counts (piece : OsStr) : Bool := piece ≠ [] && piece ≠ [dot]

def toOsComponent (piece : OsStr) : OsComponent :=
  if piece = [dot, dot] then .parentDir else .normal piece

/-- What the first piece is: nothing before a slash, a dot, or one like the others. -/
def firstComponent (s : OsStr) (piece : OsStr) : Option OsComponent :=
  if s.head? = some slash then some .rootDir
  else if piece = [dot] then some .curDir
  else if piece = [] then none
  else some (toOsComponent piece)

/-- `Path::components`. -/
def osComponents (s : OsStr) : List OsComponent :=
  match osPieces s with
  | [] => []
  | piece :: pieces =>
    (firstComponent s piece).toList ++ (pieces.filter counts).map toOsComponent

/-- Pieces without so many components, and without what comes before the next. -/
def dropPieces : Nat → List OsStr → List OsStr
  | 0, pieces => pieces.dropWhile fun piece => !counts piece
  | _ + 1, [] => []
  | n + 1, piece :: pieces =>
    if counts piece then dropPieces n pieces else dropPieces (n + 1) pieces

/-- Pieces without what does not count at their end. -/
def trimEnd (pieces : List OsStr) : List OsStr := pieces.rdropWhile fun piece => !counts piece

/-- The text of a first piece and of those behind it. -/
def render (piece : OsStr) (pieces : List OsStr) : OsStr :=
  if piece = [] ∧ pieces = [] then [slash] else List.intercalate [slash] (piece :: pieces)

/-- The path behind the first components. -/
def behind (n : Nat) (s : OsStr) : OsStr :=
  match osPieces s with
  | [] => []
  | piece :: pieces =>
    match n, firstComponent s piece with
    | 0, none => []
    | 0, some _ => render piece (trimEnd pieces)
    | n + 1, some _ => List.intercalate [slash] (trimEnd (dropPieces n pieces))
    | n + 1, none => List.intercalate [slash] (trimEnd (dropPieces (n + 1) pieces))

/-- `Path::strip_prefix`. -/
def stripPrefix (s base : OsStr) : Option OsStr :=
  if osComponents base <+: osComponents s then some (behind (osComponents base).length s) else none

/-- `Path::parent`: what comes before the last component. -/
def parent (s : OsStr) : Option OsStr :=
  match osPieces s with
  | [] => none
  | piece :: pieces =>
    match firstComponent s piece, trimEnd pieces with
    | none, _ | some .rootDir, [] => none
    | some _, [] => some []
    | some _, pieces => some (render piece (trimEnd pieces.dropLast))

/-- `PathBuf::join`. -/
def join (s name : OsStr) : OsStr :=
  if name.head? = some slash then name
  else if s = [] ∨ s.getLast? = some slash then s ++ name
  else s ++ slash :: name

example : stripPrefix [97, 47, 46, 47, 98, 47] [97] = some [98] ∧
    parent [47, 97, 47, 47, 98] = some [47, 97] := by decide

/-! ## The bytes of a path -/

variable {s base : OsStr} {b : UInt8} {pieces : List OsStr}

/-- The bytes between slashes are in the text, and nothing but slashes is added. -/
theorem mem_intercalate : b ∈ List.intercalate [slash] pieces →
    b = slash ∨ ∃ piece ∈ pieces, b ∈ piece := by
  induction pieces with
  | nil => exact fun h => absurd h List.not_mem_nil
  | cons piece pieces ih =>
    intro h
    rcases eq_or_ne pieces [] with rfl | hne
    · rw [List.intercalate_singleton] at h
      exact .inr ⟨piece, List.mem_cons_self, h⟩
    · rw [List.intercalate_cons_of_ne_nil hne] at h
      simp only [List.mem_append, List.mem_singleton] at h
      rcases h with (h | h) | h
      · exact .inr ⟨piece, List.mem_cons_self, h⟩
      · exact .inl h
      · obtain hslash | ⟨piece', hpiece', hb⟩ := ih h
        · exact .inl hslash
        · exact .inr ⟨piece', List.mem_cons_of_mem _ hpiece', hb⟩

theorem mem_intercalate_of_mem {piece : OsStr} (hpiece : piece ∈ pieces) (hb : b ∈ piece) :
    b ∈ List.intercalate [slash] pieces := by
  induction pieces with
  | nil => cases hpiece
  | cons first pieces ih =>
    rcases eq_or_ne pieces [] with rfl | hne
    · rw [List.intercalate_singleton]
      rwa [← List.mem_singleton.mp hpiece]
    · rw [List.intercalate_cons_of_ne_nil hne]
      rcases List.mem_cons.mp hpiece with rfl | hpiece
      · exact List.mem_append_left _ (List.mem_append_left _ hb)
      · exact List.mem_append_right _ (ih hpiece)

theorem mem_of_osPieces {piece : OsStr} (hpiece : piece ∈ osPieces s) (hb : b ∈ piece) :
    b ∈ s := by
  have hjoined : List.intercalate [slash] (s.splitOn slash) = s := List.intercalate_splitOn slash
  rw [← hjoined]
  exact mem_intercalate_of_mem hpiece hb

theorem dropPieces_sublist (n : Nat) (pieces : List OsStr) :
    (dropPieces n pieces).Sublist pieces := by
  induction pieces generalizing n with
  | nil =>
    cases n with
    | zero => exact List.Sublist.refl _
    | succ n => exact List.Sublist.refl _
  | cons piece pieces ih =>
    cases n with
    | zero => exact List.dropWhile_sublist _
    | succ n =>
      rw [dropPieces]
      split
      · exact (ih n).cons _
      · exact (ih (n + 1)).cons _

/-- What is behind a beginning of a path has the bytes of the path. -/
theorem mem_of_stripPrefix {rest : OsStr} (h : stripPrefix s base = some rest) (hb : b ∈ rest)
    (hslash : b ≠ slash) : b ∈ s := by
  have hrest : b ∈ behind (osComponents base).length s := by
    unfold stripPrefix at h
    split at h
    · rwa [Option.some.inj h]
    · cases h
  unfold behind at hrest
  split at hrest
  next => cases hrest
  next piece pieces hpieces =>
    have hsub {ps : List OsStr} (hps : ps.Sublist (piece :: pieces))
        (hmem : b ∈ List.intercalate [slash] ps) : b ∈ s := by
      obtain ⟨p, hp, hbp⟩ := (mem_intercalate hmem).resolve_left hslash
      exact mem_of_osPieces (hpieces ▸ hps.mem hp) hbp
    have htrim {ps : List OsStr} : (trimEnd ps).Sublist ps := (List.rdropWhile_prefix _ ps).sublist
    split at hrest
    next => cases hrest
    next =>
      unfold render at hrest
      split at hrest
      · exact absurd (List.mem_singleton.mp hrest) hslash
      · exact hsub (htrim.cons_cons _) hrest
    next => exact hsub ((htrim.trans (dropPieces_sublist _ _)).cons _) hrest
    next => exact hsub ((htrim.trans (dropPieces_sublist _ _)).cons _) hrest

end Kit.OsPath
