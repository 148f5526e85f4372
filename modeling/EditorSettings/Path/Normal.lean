import EditorSettings.Path.Basic

/-!
# Normal paths and directories above a path

A path is normalized without looking at any file: `.` vanishes and `..` takes the name before it away,
never the root.  The directories above a path are its parents, the nearest first; a search for documents
visits them up to a root directory.
-/

namespace EditorSettings.Path

/-! ### Normalization -/

/-- The names on the way to a component, the last one first, after one more component. -/
def settle (names : List (List TextUnit)) : Component → List (List TextUnit)
  | .root => names
  | .here => names
  | .up => names.tail
  | .name n => n :: names

/-- The names that are left of a path when every `..` has taken one away. -/
def normalNames (p : Path) : List (List TextUnit) := (p.components.foldl settle []).reverse

/-- The path of some names, from the root or relative. -/
def ofNames (absolute : Bool) (names : List (List TextUnit)) : Path :=
  ⟨(if absolute then [slash] else []) ++ joinPieces names⟩

/-- A path without `.` and `..`. -/
def normalForm (p : Path) : Path := ofNames p.isAbsolute p.normalNames

/-- The normal absolute form of a path seen from a current directory, which may be missing. -/
def absolute? (current : Option Path) (p : Path) : Option Path :=
  if p.isAbsolute then some p.normalForm else current.map fun d => (d.join p).normalForm

/-- The root above a path: a slash, or the empty path for a relative one. -/
def root (p : Path) : Path := if p.isAbsolute then ⟨[slash]⟩ else empty

/-! ### Directories above -/

/-- The directories above a path, the nearest first. -/
def ancestors (p : Path) : List Path :=
  match _h : p.parent? with
  | some d => d :: d.ancestors
  | none => []
termination_by p.units.length
decreasing_by exact length_parent? _h

/-- The beginning of a list through the first member that satisfies a test. -/
def throughFirst {α : Type} (test : α → Bool) : List α → List α
  | [] => []
  | a :: l => if test a then [a] else a :: throughFirst test l

/-- The directories above a path, the nearest first, through the first one that is `top`. -/
def ancestorsUpTo (top p : Path) : List Path := throughFirst (·.same top) p.ancestors

/-- The files called `name` in the directories above `target` through `top`, the nearest first. -/
def filesAbove (target : Path) (name : Text) (top : Path) : List Path :=
  (ancestorsUpTo top target).map fun d => d.join (ofText name)

example : (ofText "a/./b/../../../c".toList).normalForm = ofText "c".toList := by decide +kernel

example : (ofText "/a//b/c/.".toList).parent? = some (ofText "/a//b".toList) := by decide +kernel

end EditorSettings.Path
