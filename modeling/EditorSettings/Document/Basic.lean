import EditorSettings.OrderedMap
import EditorSettings.Text.LowerCase

/-!
# Settings documents

A document is a list of sections.  A section holds properties, still as raw text, and the pattern of
the files that they apply to; the properties before the first header form the preamble, a section
without a pattern.  The preamble applies to no file: it says whether the search for documents ends
here (`Document.declaresRoot`).
-/

namespace EditorSettings

/-- A block of properties with the pattern of its header. -/
structure Section where
  /-- The pattern between the brackets of the header, as written; none for the preamble. -/
  pattern : Option Text
  /-- The raw values of the properties. -/
  properties : OrderedMap Text
deriving DecidableEq, Repr

namespace Section

/-- A preamble without properties. -/
def preamble : Section := ⟨none, ∅⟩

/-- A section under a header, without properties. -/
def headed (pattern : Text) : Section := ⟨some pattern, ∅⟩

/-- The section after a property is written. -/
def set (s : Section) (key value : Text) : Section :=
  { s with properties := s.properties.set key value }

/-- The raw value of a property. -/
def get? (s : Section) (key : Text) : Option Text := s.properties.get? key

end Section

/-- A settings document: its sections in order. -/
structure Document where
  /-- The sections in order. -/
  sections : List Section
deriving DecidableEq, Repr

namespace Document

/-- The document of an empty text: a preamble without properties. -/
def empty : Document := ⟨[Section.preamble]⟩

instance : EmptyCollection Document := ⟨empty⟩

instance : Inhabited Document := ⟨empty⟩

/-- The preamble: the first section, if it has no pattern. -/
def preamble? (d : Document) : Option Section :=
  d.sections.head?.filter fun s => s.pattern.isNone

/-- Whether the preamble declares `root` as `true`, in any case of its letters. -/
def declaresRoot (d : Document) : Bool :=
  match d.preamble?.bind (·.get? "root".toList) with
  | some value => value.sameIgnoringAsciiCase "true".toList
  | none => false

/-- The sections under a header with their patterns, in order. -/
def headedSections (d : Document) : List (Text × Section) :=
  d.sections.filterMap fun s => s.pattern.map fun p => (p, s)

/-- The sections after a property is written in the last one. -/
def setInLast (key value : Text) : List Section → List Section
  | [] => []
  | [s] => [s.set key value]
  | s :: t :: rest => s :: setInLast key value (t :: rest)

/-- The document after a property is written in its last section. -/
def set (d : Document) (key value : Text) : Document := ⟨setInLast key value d.sections⟩

/-- The document after a section is opened. -/
def push (d : Document) (s : Section) : Document := ⟨d.sections ++ [s]⟩

end Document

end EditorSettings
