import HopToDesk.Kit.UnixPath

/-!
# The components of a path

`std::path::Path` on Unix, as the list of its components. A path compares as its components do. A
dot is a component at the beginning of a relative path only, and a slash at the beginning is one of
its own.
-/

set_option autoImplicit false

namespace Kit.UnixPath

/-- `std::path::Component`. -/
inductive Component
  | rootDir
  | curDir
  | parentDir
  | normal (name : Name)
deriving DecidableEq, Repr

/-- A piece of the text behind its beginning. -/
def toComponent (piece : Name) : Option Component :=
  if piece = [] then none
  else if piece = ['.'] then none
  else if piece = ['.', '.'] then some .parentDir
  else some (.normal piece)

/-- What a path begins with, besides its pieces. -/
def beginning (s : PathStr) : List Component :=
  if isAbsolute s then [.rootDir]
  else if (pieces s).head? = some ['.'] then [.curDir]
  else []

/-- `Path::components`. -/
def components (s : PathStr) : List Component := beginning s ++ (pieces s).filterMap toComponent

namespace Component

/-- `Path::parent`. -/
def parent (cs : List Component) : Option (List Component) :=
  match cs.getLast? with
  | none | some .rootDir => none
  | some _ => some cs.dropLast

/-- `Path::file_name`. -/
def fileName (cs : List Component) : Option Name :=
  match cs.getLast? with
  | some (.normal name) => some name
  | _ => none

theorem fileName_eq_some {cs : List Component} {name : Name} (h : fileName cs = some name) :
    cs = cs.dropLast ++ [.normal name] := by
  unfold fileName at h
  split at h
  next n hlast =>
    cases h
    exact (List.dropLast_append_getLast? _ hlast).symm
  next => cases h

@[simp]
theorem fileName_snoc (cs : List Component) (name : Name) :
    fileName (cs ++ [.normal name]) = some name := by
  rw [fileName, List.getLast?_concat]

@[simp]
theorem parent_snoc (cs : List Component) (name : Name) :
    parent (cs ++ [.normal name]) = some cs := by
  rw [parent, List.getLast?_concat]
  exact congrArg some List.dropLast_concat

end Component

example : components "/a/./b//".toList = [.rootDir, .normal ['a'], .normal ['b']] ∧
    components "./a/..".toList = [.curDir, .normal ['a'], .parentDir] := by decide

end Kit.UnixPath
