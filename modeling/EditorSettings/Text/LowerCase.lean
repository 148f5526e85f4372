import EditorSettings.Text.CaseTable

/-!
# Lower-casing

The lower-case form of a text, letter by letter, with the two letters that do not simply map to one
letter: a dotted capital I becomes an i with a dot above, and a capital sigma that ends a word becomes
a final sigma.  Keys of properties, and the values of the properties that ignore case, are kept in
this form.
-/

namespace EditorSettings.Text

/-- Whether a code point belongs to a run of capital letters. -/
def CaseRun.holds (r : CaseRun) (n : Nat) : Bool :=
  decide (r.first ≤ n) && decide (n ≤ r.last) && (n - r.first) % r.step == 0

/-- The simple lower-case form of a character. -/
def lowerChar (c : Char) : Char :=
  match caseRuns.find? (·.holds c.toNat) with
  | some r => Char.ofNat (r.image + (c.toNat - r.first))
  | none => c

/-- Whether the first character that is not case-ignorable is cased. -/
def meetsCased (t : Text) : Bool :=
  match t.dropWhile (inTable caseIgnorableTable) with
  | c :: _ => inTable casedTable c
  | [] => false

/-- Whether a sigma ends a word: a letter is before it and none after it.  `before` is the text before
the sigma, nearest character first. -/
def endsWord (before later : Text) : Bool := meetsCased before && !meetsCased later

/-- The lower-case form of one character between the text before it, nearest first, and after it. -/
def lowerAt (before : Text) (c : Char) (later : Text) : Text :=
  if c = 'Σ' then [if endsWord before later then 'ς' else 'σ']
  else if c = 'İ' then ['i', '\u0307']
  else [lowerChar c]

/-- The lower-case form of a text that follows `before`, nearest character first. -/
def lowercaseFrom (before : Text) : Text → Text
  | [] => []
  | c :: t => lowerAt before c t ++ lowercaseFrom (c :: before) t

/-- The lower-case form of a text. -/
def lowercase (t : Text) : Text := lowercaseFrom [] t

/-- Equality of two texts up to the case of ASCII letters. -/
def sameIgnoringAsciiCase (s t : Text) : Bool := s.map Char.toLower == t.map Char.toLower

example : lowercase "ΟΔΥΣΣΕΥΣ".toList = "οδυσσευς".toList := by decide +kernel

example : lowercase "İX".toList = ['i', '\u0307', 'x'] := by decide +kernel

end EditorSettings.Text
