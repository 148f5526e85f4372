import EditorSettings.Document.Basic
import EditorSettings.Value.Raw
import EditorSettings.Version.Basic

/-!
# Effective settings

The settings of one file: values by key, in the order in which the keys were first written.  Sections
are written into them one after the other; at the end the sizes of tabs and indentations complete each
other (`Settings.complete`).
-/

namespace EditorSettings

/-- The settings of one file. -/
abbrev Settings := OrderedMap Value

namespace Settings

/-! ### Writing sections -/

/-- The settings after one raw property is written. -/
def write (m : Settings) (property : Text × Text) : Settings :=
  m.set (Text.lowercase property.1) (Value.ofRaw (Text.lowercase property.1) property.2)

/-- The settings after the properties of a section are written in order. -/
def writeSection (m : Settings) (s : Section) : Settings := s.properties.entries.foldl write m

/-! ### Completing sizes -/

/-- The key of the kind of indentation. -/
def indentStyle : Text := "indent_style".toList

/-- The key of the size of an indentation. -/
def indentSize : Text := "indent_size".toList

/-- The key of the width of a tab. -/
def tabWidth : Text := "tab_width".toList

/-- The word for tabs. -/
def tab : Text := "tab".toList

/-- Whether a key has the value `tab`. -/
def isTab (m : Settings) (key : Text) : Bool :=
  match m.get? key with
  | some v => v.isText tab
  | none => false

/-- Indentation by tabs, without a size, has the size `tab`, from a certain version on. -/
def completeIndentSize (version : Version) (m : Settings) : Settings :=
  if m.isTab indentStyle && !m.contains indentSize && version.reaches Version.tabSizeSince then
    m.set indentSize (.text tab)
  else m

/-- A tab without a width is as wide as an indentation, unless that has the size `tab`. -/
def completeTabWidth (m : Settings) : Settings :=
  match m.get? indentSize with
  | some size => if size.isText tab || m.contains tabWidth then m else m.set tabWidth size
  | none => m

/-- An indentation of the size `tab` takes the width of a tab, if there is one. -/
def finishIndentSize (m : Settings) : Settings :=
  if m.isTab indentSize then
    match m.get? tabWidth with
    | some width => m.set indentSize width
    | none => m
  else m

/-- The settings with the sizes that follow from each other. -/
def complete (version : Version) (m : Settings) : Settings :=
  finishIndentSize (completeTabWidth (completeIndentSize version m))

/-! ### Texts -/

/-- A key with its value in a JSON object. -/
def jsonEntry (e : Text × Value) : Text := Value.jsonString e.1 ++ [':'] ++ e.2.json

/-- The settings as a JSON object in the order of the keys. -/
def json (m : Settings) : Text :=
  ['{'] ++ [','].intercalate (m.entries.map jsonEntry) ++ ['}']

/-- The settings as lines `key=value` in the order of the keys. -/
def lines (m : Settings) : List Text := m.entries.map fun e => e.1 ++ ['='] ++ e.2.display

end Settings

end EditorSettings
