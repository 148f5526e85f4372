import EditorSettings.Text.Integer

/-!
# Format versions

A version has three numbers, identifiers of a pre-release and identifiers of a build.  Versions are
totally ordered: by the numbers, then by the pre-release, where none is the greatest, then by the build,
where none is the least.
-/

namespace EditorSettings

/-- An identifier in a pre-release or a build. -/
inductive Identifier
  /-- A run of digits: its value and its length. -/
  | number (value width : Nat)
  /-- An identifier with other characters. -/
  | word (t : Text)
deriving DecidableEq, Repr

namespace Identifier

/-- The text of an identifier. -/
def toText : Identifier → Text
  | number value width =>
    let digits := Text.ofNat value
    List.replicate (width - digits.length) '0' ++ digits
  | word t => t

/-- The order of identifiers: numbers by value, then by length, before words by their characters. -/
def order : Identifier → Identifier → Ordering
  | number v w, number v' w' => (compare v v').then (compare w w')
  | number .., word _ => .lt
  | word _, number .. => .gt
  | word s, word t => List.compareLex compare s t

/-- The text of identifiers with points between them. -/
def joined (ids : List Identifier) : Text := ['.'].intercalate (ids.map toText)

end Identifier

/-- A format version. -/
structure Version where
  /-- The first number. -/
  major : Nat
  /-- The second number. -/
  minor : Nat
  /-- The third number. -/
  patch : Nat
  /-- The identifiers of the pre-release; none for a release. -/
  preRelease : List Identifier
  /-- The identifiers of the build. -/
  build : List Identifier
deriving DecidableEq, Repr

namespace Version

/-- A release. -/
def release (major minor patch : Nat) : Version := ⟨major, minor, patch, [], []⟩

/-- The order of pre-releases: a release is greater than its pre-releases. -/
def preReleaseOrder : List Identifier → List Identifier → Ordering
  | [], [] => .eq
  | [], _ :: _ => .gt
  | _ :: _, [] => .lt
  | a :: as, b :: bs => List.compareLex Identifier.order (a :: as) (b :: bs)

/-- The order of versions. -/
def order (v w : Version) : Ordering :=
  (compare v.major w.major).then <| (compare v.minor w.minor).then <|
    (compare v.patch w.patch).then <| (preReleaseOrder v.preRelease w.preRelease).then <|
      List.compareLex Identifier.order v.build w.build

/-- Whether `v` is `least` or greater. -/
def reaches (v least : Version) : Bool := (order v least).isGE

/-- The version that this library implements. -/
def current : Version := release 1 0 0

/-- The first version in which tabs as indentation make the tab the size of an indentation. -/
def tabSizeSince : Version := release 0 10 0

/-- The text of a release's three numbers. -/
def numbersText (v : Version) : Text :=
  Text.ofNat v.major ++ ['.'] ++ Text.ofNat v.minor ++ ['.'] ++ Text.ofNat v.patch

end Version

end EditorSettings
