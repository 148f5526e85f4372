import EditorSettings.Binary64.Shortest
import EditorSettings.Text.Integer

/-!
# The texts of a number

Two texts of a double-precision number, both made of its shortest digits.

* `Binary64.display`: integers of less than 22 digits are written exactly and without a fraction, other
  numbers positionally from a millionth on; smaller and greater ones have an exponent.
* `Binary64.json`: integers below `9 · 10 ^ 15` are written as such; other numbers are positional from a
  hundred-thousandth to below `10 ^ 16`, integers with `.0`, and have an exponent elsewhere.  What is
  not finite is `null`.
-/

namespace EditorSettings.Binary64

/-- The rules by which a layout places the decimal point. -/
structure Layout where
  /-- The least exponent of a first digit that is written without an exponent. -/
  least : Int
  /-- The exponent of a first digit from which an exponent is written. -/
  below : Int
  /-- What an integer ends with. -/
  wholeEnd : Text
  /-- Which of two equally near decimals is taken. -/
  tie : Tie

/-- The layout of displayed numbers. -/
def displayLayout : Layout := ⟨-6, 21, [], .up⟩

/-- The layout of numbers in JSON. -/
def jsonLayout : Layout := ⟨-5, 16, ".0".toList, .even⟩

/-- Digits around a decimal point. -/
def Decimal.positional (d : Decimal) (wholeEnd : Text) : Text :=
  if d.place ≤ 0 then
    "0.".toList ++ List.replicate (-d.place).toNat '0' ++ d.digits
  else
    let whole := d.place.toNat
    if d.digits.length ≤ whole then
      d.digits ++ List.replicate (whole - d.digits.length) '0' ++ wholeEnd
    else d.digits.take whole ++ ['.'] ++ d.digits.drop whole

/-- One digit before the decimal point, then an exponent with its sign. -/
def Decimal.exponential (d : Decimal) : Text :=
  let exponent := d.place - 1
  let fraction := d.digits.drop 1
  d.digits.take 1 ++ (if fraction = [] then [] else '.' :: fraction) ++
    (if exponent < 0 then "e-".toList else "e+".toList) ++ Text.ofNat exponent.natAbs

/-- A decimal number in a layout. -/
def Decimal.written (d : Decimal) (layout : Layout) : Text :=
  if layout.least ≤ d.place - 1 ∧ d.place - 1 < layout.below then d.positional layout.wholeEnd
  else d.exponential

/-- The sign of a number that is not zero. -/
def signText (negative : Bool) : Text := if negative then ['-'] else []

/-- The displayed text of a number. -/
def display : Binary64 → Text
  | nan => "NaN".toList
  | infinite negative => signText negative ++ "inf".toList
  | finite negative m e =>
    match (finite negative m e).toInt? with
    | some n =>
      if n.natAbs < Nat.pow 10 21 then Text.ofInt n
      else signText negative ++ (shortest displayLayout.tie m e).written displayLayout
    | none => signText negative ++ (shortest displayLayout.tie m e).written displayLayout

/-- The JSON text of a number. -/
def json : Binary64 → Text
  | nan => "null".toList
  | infinite _ => "null".toList
  | finite negative m e =>
    match (finite negative m e).toInt? with
    | some n =>
      if n.natAbs < 9 * Nat.pow 10 15 then Text.ofInt n
      else signText negative ++ (shortest jsonLayout.tie m e).written jsonLayout
    | none => signText negative ++ (shortest jsonLayout.tie m e).written jsonLayout

example : (ofInt 1000000000000000000000).display = "1e+21".toList := by decide +kernel

example : (ofInt 999999999999999900000).display = "999999999999999868928".toList := by decide +kernel

example : (ofDecimal true 15 (-8)).display = "-1.5e-7".toList := by decide +kernel

example : (ofInt 9000000000000000).json = "9000000000000000.0".toList := by decide +kernel

example : (ofDecimal false 1 (-5)).json = "0.00001".toList := by decide +kernel

end EditorSettings.Binary64
