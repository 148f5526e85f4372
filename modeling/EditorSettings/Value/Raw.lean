import EditorSettings.Text.LowerCase
import EditorSettings.Value.Json

/-!
# Reading raw values

The value of a property from its raw text.  A JSON truth value, number or string is taken as such, and
so is an integer with leading zeros.  Any other text stays a text, in lower case for the properties
whose values ignore case.
-/

namespace EditorSettings.Value

/-- The properties whose texts ignore case. -/
def caselessKeys : List Text :=
  ["end_of_line".toList, "indent_style".toList, "indent_size".toList, "insert_final_newline".toList,
    "trim_trailing_whitespace".toList, "charset".toList]

/-- A text without a leading minus sign. -/
def withoutMinus : Text → Text
  | [] => []
  | c :: t => if c = '-' then t else c :: t

/-- The number that an integer of two or more digits with a leading zero describes. -/
def paddedInteger? (raw : Text) : Option Binary64 :=
  let digits := withoutMinus raw
  if 1 < digits.length ∧ digits.head? = some '0' ∧ digits.all Char.isDigit then
    some (Binary64.ofDecimal (raw.head? == some '-') (Nat.ofDigitChars 10 digits 0) 0)
  else none

/-- The value of the property `key` from its raw text. -/
def ofRaw (key raw : Text) : Value :=
  match ofJson? raw with
  | some v => v
  | none =>
    match paddedInteger? raw with
    | some n => number n
    | none => text (if key ∈ caselessKeys then Text.lowercase raw else raw)

end EditorSettings.Value
