import EditorSettings.Lookup.Request
import EditorSettings.Settings

/-!
# Settings from documents

Documents are given the nearest to the target first.  They take part up to the first one that declares
itself the root.  The sections that apply to the target are written from the farthest document to the
nearest, in each document from top to bottom, so that nearer and later ones win.
-/

namespace EditorSettings

/-- The text of a file with its path. -/
structure StoredText where
  /-- Where the text is stored. -/
  path : Path
  /-- The text. -/
  contents : Text
deriving DecidableEq, Repr

/-- A document with its path. -/
structure PlacedDocument where
  /-- Where the document is stored. -/
  path : Path
  /-- The document. -/
  document : Document
deriving DecidableEq, Repr

namespace StoredText

/-- The contents of the first text that is stored at a path. -/
def lookup (files : List StoredText) (p : Path) : Option Text :=
  (files.find? fun f => f.path.same p).map StoredText.contents

/-- The document of a stored text; its path is the name in faults. -/
def document (f : StoredText) : Except Failure PlacedDocument :=
  match Document.ofText f.path.text f.contents with
  | .ok d => .ok ⟨f.path, d⟩
  | .error fault => .error (.faultyDocument fault)

end StoredText

namespace PlacedDocument

/-- The documents that take part: those of the texts through the first root. -/
def throughRoot : List StoredText → Except Failure (List PlacedDocument)
  | [] => .ok []
  | f :: fs => do
    let d ← f.document
    if d.document.declaresRoot then return [d]
    return d :: (← throughRoot fs)

/-- The directory of a document as text. -/
def directory (d : PlacedDocument) : Text := (d.path.parent?.getD Path.empty).text

/-- The settings after a section is written, if its pattern applies to the target. -/
def writeSection (directory target : Text) (m : Settings) (s : Text × Section) :
    Except Failure Settings :=
  match Glob.ofPattern? directory s.1 with
  | some g => .ok (if g.accepts target then m.writeSection s.2 else m)
  | none => .error (.invalidPattern (Glob.trimSlashes directory) s.1)

/-- The settings after the sections of a document are written. -/
def write (target : Text) (m : Settings) (d : PlacedDocument) : Except Failure Settings :=
  d.document.headedSections.foldlM (writeSection d.directory target) m

/-- The settings of a target from documents, the nearest first. -/
def settings (documents : List PlacedDocument) (target : Path) (version : Version) :
    Except Failure Settings := do
  let m ← documents.reverse.foldlM (write target.text) OrderedMap.empty
  return m.complete version

end PlacedDocument

namespace Request

/-- The settings that a request asks for, from the texts of documents, the nearest first. -/
def settings (r : Request) (files : List StoredText) : Except Failure Settings := do
  PlacedDocument.settings (← PlacedDocument.throughRoot files) r.target r.version

end Request

end EditorSettings
