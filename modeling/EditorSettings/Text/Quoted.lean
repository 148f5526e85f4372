import EditorSettings.Text.Unprintable

/-!
# Quoted texts

The form in which messages show a text: between double quotes, with a backslash before quotes and
backslashes, letters for the usual control characters, and code points for everything unprintable.
-/

namespace EditorSettings.Text

/-- A code point written `\u`, then its lower-case hexadecimal digits in braces. -/
def codePointEscape (c : Char) : Text := ['\\', 'u', '{'] ++ Nat.toDigits 16 c.toNat ++ ['}']

/-- A character inside quotes; `mark` is the quote that encloses it. -/
def quotedChar (mark c : Char) : Text :=
  if c = mark ∨ c = '\\' then ['\\', c]
  else if c = '\t' then ['\\', 't']
  else if c = '\r' then ['\\', 'r']
  else if c = '\n' then ['\\', 'n']
  else if c = '\x00' then ['\\', '0']
  else if isUnprintable c then codePointEscape c
  else [c]

/-- A text in double quotes. -/
def quoted (t : Text) : Text := ['"'] ++ t.flatMap (quotedChar '"') ++ ['"']

/-- A single character in single quotes. -/
def quotedAlone (c : Char) : Text := ['\x27'] ++ quotedChar '\x27' c ++ ['\x27']

example : quoted ['a', '"', '\t', '\x7f'] = "\"a\\\"\\t\\u".toList ++ ['{', '7', 'f', '}', '"'] := by
  decide +kernel

end EditorSettings.Text
