import EditorSettings.Text.Basic

/-!
# Blank characters

The characters with the property White_Space, and trimming by them.  The byte order mark U+FEFF,
the zero width space U+200B and the separators U+001C to U+001F do not have the property.
-/

namespace EditorSettings.Text

/-- The intervals of White_Space. -/
def blankTable : List (Nat × Nat) :=
  [(0x9, 0xD), (0x20, 0x20), (0x85, 0x85), (0xA0, 0xA0), (0x1680, 0x1680), (0x2000, 0x200A),
   (0x2028, 0x2029), (0x202F, 0x202F), (0x205F, 0x205F), (0x3000, 0x3000)]

/-- Blank characters. -/
def isBlank (c : Char) : Bool := inTable blankTable c

/-- A text without its leading blanks. -/
def trimStart (t : Text) : Text := t.dropWhile isBlank

/-- A text without its trailing blanks. -/
def trimEnd (t : Text) : Text := (t.reverse.dropWhile isBlank).reverse

/-- A text without leading and trailing blanks. -/
def trim (t : Text) : Text := trimEnd (trimStart t)

/-- The number of leading blanks. -/
def indentation (t : Text) : Nat := (t.takeWhile isBlank).length

example : isBlank '\u0085' = true ∧ isBlank '\u3000' = true ∧ isBlank '\ufeff' = false := by decide

end EditorSettings.Text
