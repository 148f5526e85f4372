import EditorSettings.Document.Reading
import EditorSettings.Glob.Basic
import EditorSettings.Path.Normal
import EditorSettings.Text.Blank
import EditorSettings.Version.Reading

/-!
# Requests for settings

A request asks for the settings of a target.  It is made from a target and options; all that can be
wrong with them is found before any document is read, in a fixed order: the name of the documents, the
version, the current directory if it is needed, and the root, which must lie above the target.
-/

namespace EditorSettings

/-- Why there are no settings. -/
inductive Failure
  /-- A document with a faulty line. -/
  | faultyDocument (fault : DocumentFault)
  /-- A root that does not lie above the target. -/
  | rootNotAbove (root target : Path)
  /-- A version that cannot be read. -/
  | invalidVersion (text : Text) (fault : VersionFault)
  /-- A pattern whose expression, with its directory in front, is refused. -/
  | invalidPattern (directory pattern : Text)
  /-- A name that no document can have. -/
  | invalidFileName (name : Text)
  /-- A relative path without a current directory. -/
  | noCurrentDirectory
deriving DecidableEq, Repr

/-- The words of others: of the engine for regular expressions and of the operating system. -/
structure Reasons where
  /-- Why an expression is refused. -/
  refusal : Text → Text
  /-- Why there is no current directory. -/
  noDirectory : Text

namespace Failure

/-- The wording of a failure. -/
def message : Failure → Text
  | faultyDocument fault => fault.message
  | rootNotAbove root target =>
    "Root directory ".toList ++ root.text ++ " is not an ancestor of ".toList ++ target.text
  | invalidVersion text _ => "Invalid version: ".toList ++ text
  | invalidPattern _ pattern => "Invalid glob pattern: ".toList ++ pattern
  | invalidFileName name => "Invalid config file name: ".toList ++ name.quoted
  | noCurrentDirectory => "Failed to get current directory".toList

/-- The wording of what a failure comes from, if it comes from another fault. -/
def source? (reasons : Reasons) : Failure → Option Text
  | invalidVersion _ fault => some fault.message
  | invalidPattern directory pattern => some (reasons.refusal (Glob.expression directory pattern))
  | noCurrentDirectory => some reasons.noDirectory
  | _ => none

/-- The wording of a failure and of what it comes from. -/
def causes (reasons : Reasons) (failure : Failure) : List Text :=
  failure.message :: (failure.source? reasons).toList

end Failure

/-- The options of a request. -/
structure Options where
  /-- The name of the documents. -/
  fileName : Text := ".editorconfig".toList
  /-- The format version, as text. -/
  version : Text := Version.current.numbersText
  /-- The directory above which no document is looked up; without it, the root of the target. -/
  root : Option Path := none
deriving DecidableEq, Repr

/-- A request whose parts are valid. -/
structure Request where
  /-- The target, absolute and normal. -/
  target : Path
  /-- The outermost directory that may hold a document, absolute and normal. -/
  root : Path
  /-- The name of the documents. -/
  fileName : Text
  /-- The format version. -/
  version : Version
deriving DecidableEq, Repr

/-- The format version that a text describes, blanks around it being left out. -/
def Version.read (t : Text) : Except Failure Version :=
  match Version.ofText (Text.trim t) with
  | .ok v => .ok v
  | .error fault => .error (.invalidVersion t fault)

/-- The normal absolute form of a path, if it has one. -/
def Path.absolute (current : Option Path) (p : Path) : Except Failure Path :=
  match p.absolute? current with
  | some q => .ok q
  | none => .error .noCurrentDirectory

namespace Request

/-- Whether documents may have a name. -/
def isFileName (name : Text) : Bool := decide (name ≠ []) && !name.contains '/'

/-- The root of a request: the one that is given, or that of the target. -/
def rootOf (current : Option Path) (root : Option Path) (target : Path) : Except Failure Path :=
  match root with
  | some r => r.absolute current
  | none => .ok target.root

/-- The request of a target with options. -/
def of (current : Option Path) (target : Path) (options : Options) : Except Failure Request := do
  if !isFileName options.fileName then throw (.invalidFileName options.fileName)
  let version ← Version.read options.version
  let target ← target.absolute current
  let root ← rootOf current options.root target
  if target.same root || !target.isWithin root then throw (.rootNotAbove root target)
  return ⟨target, root, options.fileName, version⟩

/-- The paths at which documents are looked up, the nearest to the target first. -/
def places (r : Request) : List Path := Path.filesAbove r.target r.fileName r.root

end Request

end EditorSettings
