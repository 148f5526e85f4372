import EditorSettings.Text.Blank
import EditorSettings.Text.LowerCase
import EditorSettings.Text.Quoted

/-!
# Lines of a settings document

A line is blank or a comment, a header `[pattern]`, or a property `key = value` or `key : value`.
`Line.read` says which, or what is wrong with the line.
-/

namespace EditorSettings

/-- What a line says. -/
inductive Line
  /-- A blank line or a comment. -/
  | silent
  /-- A header that opens a section. -/
  | header (pattern : Text)
  /-- A property, its key in lower case, its value without quotes. -/
  | property (key value : Text)
deriving DecidableEq, Repr

/-- What is wrong with a line.  `line` is its text without surrounding blanks. -/
inductive LineFault
  /-- A header without a closing bracket. -/
  | unclosedHeader (line : Text)
  /-- A header without a pattern. -/
  | emptyHeader
  /-- Neither a comment nor a header nor a property. -/
  | unrecognized (line : Text)
  /-- A property without a key. -/
  | missingKey (line : Text)
deriving DecidableEq, Repr

namespace LineFault

/-- The wording of a fault. -/
def message : LineFault → Text
  | unclosedHeader line => "unterminated section header ".toList ++ line.quoted
  | emptyHeader => "empty section header".toList
  | unrecognized line =>
    "expected a comment, section header or key = value pair, found ".toList ++ line.quoted
  | missingKey line => "missing key in ".toList ++ line.quoted

end LineFault

namespace Line

/-- The characters that open a comment. -/
def isCommentMark (c : Char) : Bool := c == ';' || c == '#'

/-- The characters between a key and its value. -/
def isSeparator (c : Char) : Bool := c == '=' || c == ':'

/-- The characters that may enclose a value. -/
def isQuote (c : Char) : Bool := c == '"' || c == '\x27'

/-- A value without one pair of equal quotes around it. -/
def withoutQuotes : Text → Text
  | [] => []
  | c :: t => if isQuote c = true ∧ t.getLast? = some c then t.dropLast else c :: t

/-- What follows the opening bracket of a header. -/
def readHeader (line rest : Text) : Except LineFault Line :=
  if rest.getLast? = some ']' then
    if rest.dropLast = [] then .error .emptyHeader else .ok (.header rest.dropLast)
  else .error (.unclosedHeader line)

/-- A property line. -/
def readProperty (line : Text) : Except LineFault Line :=
  match line.dropWhile fun c => !isSeparator c with
  | [] => .error (.unrecognized line)
  | _ :: value =>
    let key := Text.trim (line.takeWhile fun c => !isSeparator c)
    if key = [] then .error (.missingKey line)
    else .ok (.property (Text.lowercase key) (withoutQuotes (Text.trim value)))

/-- A line without surrounding blanks. -/
def readTrimmed : Text → Except LineFault Line
  | [] => .ok .silent
  | c :: rest =>
    if isCommentMark c then .ok .silent
    else if c = '[' then readHeader (c :: rest) rest
    else readProperty (c :: rest)

/-- What a line says, or what is wrong with it. -/
def read (raw : Text) : Except LineFault Line := readTrimmed raw.trim

end Line

end EditorSettings
