import EditorSettings.Text.Integer

/-!
# Integer ranges of a pattern

The group `{low..high}` of a pattern stands for the integers from `low` to `high`, each written in its
canonical decimal form.
-/

namespace EditorSettings

/-- The integers from `low` to `high`. -/
structure IntegerRange where
  /-- The least integer. -/
  low : Int
  /-- The greatest integer. -/
  high : Int
deriving DecidableEq, Repr

namespace IntegerRange

/-- Whether an integer is in the range. -/
def holds (r : IntegerRange) (n : Int) : Bool := decide (r.low ≤ n) && decide (n ≤ r.high)

/-- Whether a text is the canonical form of an integer in the range, within 64 bits. -/
def holdsText (r : IntegerRange) (t : Text) : Bool :=
  match Text.int64? t with
  | some n => Text.ofInt n == t && r.holds n
  | none => false

/-- The parts before and after the first two points in a row. -/
def splitAtPoints? : Text → Option (Text × Text)
  | [] => none
  | '.' :: '.' :: t => some ([], t)
  | c :: t => (splitAtPoints? t).map fun parts => (c :: parts.1, parts.2)

/-- The range that the text between braces describes, if it describes one. -/
def ofText? (t : Text) : Option IntegerRange :=
  match splitAtPoints? t with
  | none => none
  | some parts =>
    match Text.int64? parts.1, Text.int64? parts.2 with
    | some low, some high => some ⟨low, high⟩
    | _, _ => none

example : ofText? "-5..+5".toList = some ⟨-5, 5⟩ := by decide +kernel

example : (⟨3, 120⟩ : IntegerRange).holdsText "060".toList = false := by decide +kernel

end IntegerRange

end EditorSettings
