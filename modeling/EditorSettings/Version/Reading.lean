import EditorSettings.Text.Quoted
import EditorSettings.Version.Basic

/-!
# Reading versions

The strict reading of a version: three numbers below `2 ^ 64` without leading zeros and with points
between them, then perhaps a hyphen with a pre-release and a plus sign with a build.
`Version.ofText` gives the version or the first thing that is wrong with the text.
-/

namespace EditorSettings

/-- A part of a version. -/
inductive VersionPart
  /-- The first number. -/
  | major
  /-- The second number. -/
  | minor
  /-- The third number. -/
  | patch
  /-- An identifier of the pre-release. -/
  | preRelease
  /-- An identifier of the build. -/
  | build
deriving DecidableEq, Repr

/-- The wording for a part. -/
def VersionPart.name : VersionPart → Text
  | major => "major version number".toList
  | minor => "minor version number".toList
  | patch => "patch version number".toList
  | preRelease => "pre-release identifier".toList
  | build => "build metadata".toList

/-- What is wrong with the text of a version. -/
inductive VersionFault
  /-- The text is empty. -/
  | empty
  /-- The text ends where a part is read. -/
  | endOfText (part : VersionPart)
  /-- A character that no part begins with. -/
  | unexpected (c : Char) (part : VersionPart)
  /-- A character that does not follow a part. -/
  | unexpectedAfter (c : Char) (part : VersionPart)
  /-- A number with a leading zero. -/
  | leadingZero (part : VersionPart)
  /-- A number of `2 ^ 64` or more. -/
  | tooLarge (part : VersionPart)
  /-- An identifier without characters. -/
  | emptyIdentifier (part : VersionPart)
deriving DecidableEq, Repr

/-- The wording of a fault. -/
def VersionFault.message : VersionFault → Text
  | empty => "empty string, expected a semver version".toList
  | endOfText part => "unexpected end of input while parsing ".toList ++ part.name
  | unexpected c part =>
    "unexpected character ".toList ++ Text.quotedAlone c ++ " while parsing ".toList ++ part.name
  | unexpectedAfter c part =>
    "unexpected character ".toList ++ Text.quotedAlone c ++ " after ".toList ++ part.name
  | leadingZero part => "invalid leading zero in ".toList ++ part.name
  | tooLarge part => "value of ".toList ++ part.name ++ " exceeds u64::MAX".toList
  | emptyIdentifier part => "empty identifier segment in ".toList ++ part.name

namespace Version

/-! ### Numbers -/

/-- The value of the digits of a number. -/
def numberOfDigits (part : VersionPart) (digits : Text) : Except VersionFault Nat :=
  if 1 < digits.length ∧ digits.head? = some '0' then .error (.leadingZero part)
  else if Nat.ofDigitChars 10 digits 0 < Nat.pow 2 64 then .ok (Nat.ofDigitChars 10 digits 0)
  else .error (.tooLarge part)

/-- The number at the beginning of a text, and the rest. -/
def readNumber (part : VersionPart) (t : Text) : Except VersionFault (Nat × Text) :=
  match t.takeWhile Char.isDigit, t with
  | [], [] => .error (.endOfText part)
  | [], c :: _ => .error (.unexpected c part)
  | d :: ds, _ => (numberOfDigits part (d :: ds)).map fun n => (n, t.dropWhile Char.isDigit)

/-- What follows the point after a part. -/
def readPoint (part : VersionPart) : Text → Except VersionFault Text
  | [] => .error (.endOfText part)
  | c :: t => if c = '.' then .ok t else .error (.unexpectedAfter c part)

/-! ### Identifiers -/

/-- The characters of identifiers. -/
def isIdentifierChar (c : Char) : Bool := c.isAlphanum || c == '-'

/-- The identifier with the given characters.  Only a build may have numbers with leading zeros. -/
def identifier (part : VersionPart) (t : Text) : Except VersionFault Identifier :=
  if t = [] then .error (.emptyIdentifier part)
  else if t.all Char.isDigit then
    if part = .preRelease ∧ 1 < t.length ∧ t.head? = some '0' then .error (.leadingZero part)
    else .ok (.number (Nat.ofDigitChars 10 t 0) t.length)
  else .ok (.word t)

/-- Whether a character belongs to identifiers with points between them. -/
def isRunChar (c : Char) : Bool := isIdentifierChar c || c == '.'

/-- The identifiers at the beginning of a text, and the rest. -/
def readIdentifiers (part : VersionPart) (t : Text) :
    Except VersionFault (List Identifier × Text) := do
  let ids ← (pieces '.' (t.takeWhile isRunChar)).mapM (identifier part)
  return (ids, t.dropWhile isRunChar)

/-- The identifiers that follow `mark`, if the text begins with it, and the rest. -/
def readMarked (mark : Char) (part : VersionPart) (t : Text) :
    Except VersionFault (List Identifier × Text) :=
  match t with
  | [] => .ok ([], [])
  | c :: rest => if c = mark then readIdentifiers part rest else .ok ([], c :: rest)

/-! ### Versions -/

/-- The part that was read last. -/
def lastPart (preRelease build : List Identifier) : VersionPart :=
  if build ≠ [] then .build else if preRelease ≠ [] then .preRelease else .patch

/-- The version that a text describes. -/
def ofText (t : Text) : Except VersionFault Version := do
  if t = [] then throw .empty
  let (major, t) ← readNumber .major t
  let t ← readPoint .major t
  let (minor, t) ← readNumber .minor t
  let t ← readPoint .minor t
  let (patch, t) ← readNumber .patch t
  let (preRelease, t) ← readMarked '-' .preRelease t
  let (build, t) ← readMarked '+' .build t
  match t with
  | [] => return ⟨major, minor, patch, preRelease, build⟩
  | c :: _ => throw (.unexpectedAfter c (lastPart preRelease build))

example : ofText "1.0".toList = .error (.endOfText .minor) := rfl

example : ofText "1.2.3-rc.1+007".toList =
    .ok ⟨1, 2, 3, [.word "rc".toList, .number 1 1], [.number 7 3]⟩ := rfl

end Version

end EditorSettings
