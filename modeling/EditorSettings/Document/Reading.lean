import EditorSettings.Document.Basic
import EditorSettings.Document.Line
import EditorSettings.Text.Integer

/-!
# Reading a settings document

A text is cut into lines at line feeds, carriage returns and pairs of both, after one leading byte
order mark is dropped.  The lines are read in order: a header opens a section, a property is written
in the section that was opened last.  The first faulty line ends the reading with its position.
-/

namespace EditorSettings

/-- The first fault of a document and where it is. -/
structure DocumentFault where
  /-- The name of the document, usually its path. -/
  label : Text
  /-- The number of the faulty line, from 1. -/
  line : Nat
  /-- The place of its first character that is not blank, from 1. -/
  column : Nat
  /-- What is wrong with it. -/
  fault : LineFault
deriving DecidableEq, Repr

/-- The position and the wording of a fault. -/
def DocumentFault.message (f : DocumentFault) : Text :=
  f.label ++ ":".toList ++ Text.ofNat f.line ++ ":".toList ++ Text.ofNat f.column ++ ": ".toList ++
    f.fault.message

namespace Document

/-- A text with a line feed for every line end: a carriage return, a line feed or a pair of both. -/
def unifyLineEnds : Text → Text
  | [] => []
  | '\r' :: '\n' :: t => '\n' :: unifyLineEnds t
  | c :: t => (if c = '\r' then '\n' else c) :: unifyLineEnds t

/-- A text without one leading byte order mark. -/
def withoutMark : Text → Text
  | [] => []
  | c :: t => if c = '\ufeff' then t else c :: t

/-- The lines of a text. -/
def linesOf (contents : Text) : List Text := pieces '\n' (unifyLineEnds (withoutMark contents))

/-- The document after one more line. -/
def extend (d : Document) : Line → Document
  | .silent => d
  | .header pattern => d.push (Section.headed pattern)
  | .property key value => d.set key value

/-- The document after further lines, the first of which has the number `number`. -/
def readLines (label : Text) (number : Nat) (d : Document) :
    List Text → Except DocumentFault Document
  | [] => .ok d
  | raw :: rest =>
    match Line.read raw with
    | .error fault => .error ⟨label, number, raw.indentation + 1, fault⟩
    | .ok line => readLines label (number + 1) (d.extend line) rest

/-- The document that a text describes.  `label` names it in faults. -/
def ofText (label contents : Text) : Except DocumentFault Document :=
  readLines label 1 empty (linesOf contents)

end Document

end EditorSettings
