import EditorSettings.Glob.Matching

/-!
# Globs

A pattern seen from the directory of its document.  A pattern without a slash applies at any depth below
the directory, any other one to paths from the directory on.  The directory is matched literally, the
pattern as a regular expression.
-/

namespace EditorSettings

/-- A pattern in a directory. -/
structure Glob where
  /-- The directory, without slashes at its end. -/
  directory : Text
  /-- The pattern from the directory on; it begins with a slash. -/
  pattern : Text
  /-- The regular expression of the pattern. -/
  regex : Regex
deriving DecidableEq, Repr

namespace Glob

/-- A pattern from its directory on. -/
def belowDirectory (pattern : Text) : Text :=
  if '/' ∉ pattern then "/**/".toList ++ pattern
  else if pattern.head? = some '/' then pattern
  else '/' :: pattern

/-- A directory without slashes at its end. -/
def trimSlashes (directory : Text) : Text := (directory.reverse.dropWhile (· == '/')).reverse

/-- The glob of a pattern in a directory; none if the pattern has no regular expression. -/
def ofPattern? (directory pattern : Text) : Option Glob :=
  (Regex.ofTokens? (Token.ofPattern (belowDirectory pattern))).map fun r =>
    ⟨trimSlashes directory, belowDirectory pattern, r⟩

/-- The tokens of a directory and of a pattern in it. -/
def wholeTokens (directory pattern : Text) : List Token :=
  (trimSlashes directory).map Token.literal ++ Token.ofPattern (belowDirectory pattern)

/-- The text of the one expression that a directory and a pattern in it are. -/
def expression (directory pattern : Text) : Text :=
  "^(?s:".toList ++ Token.sourceOf (wholeTokens directory pattern) ++ ")$".toList

/-- The directory with the pattern. -/
def text (g : Glob) : Text := g.directory ++ g.pattern

/-- Whether a glob applies to a path. -/
def accepts (g : Glob) (path : Text) : Bool :=
  match Text.after? g.directory path with
  | some rest => g.regex.accepts rest
  | none => false

end Glob

end EditorSettings
