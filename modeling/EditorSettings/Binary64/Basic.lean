/-!
# Double-precision numbers

The values of the 64-bit binary format: a sign with a whole number of 53 bits times a power of two,
an infinity with a sign, or no number.  Everything is exact arithmetic on naturals and integers.

* `Binary64.ofBits` decodes the 64-bit form.
* `Binary64.ofRatio` and `Binary64.ofDecimal` round to the nearest number, a tie to the even one.
* `Binary64.mul` and `Binary64.div` round the exact product and the exact quotient.
-/

namespace EditorSettings

/-- A double-precision number. -/
inductive Binary64
  /-- The number `± mantissa · 2 ^ exponent`. -/
  | finite (negative : Bool) (mantissa : Nat) (exponent : Int)
  /-- An infinity. -/
  | infinite (negative : Bool)
  /-- No number. -/
  | nan
deriving DecidableEq, Repr

namespace Binary64

/-- The number of bits of a mantissa. -/
def precision : Nat := 53

/-- The least exponent. -/
def minExponent : Int := -1074

/-- The greatest exponent. -/
def maxExponent : Int := 971

/-- The number with a given 64-bit form. -/
def ofBits (bits : Nat) : Binary64 :=
  let negative := bits / Nat.pow 2 63 % 2 == 1
  let field : Nat := bits / Nat.pow 2 52 % Nat.pow 2 11
  let fraction := bits % Nat.pow 2 52
  if field = 0 then finite negative fraction minExponent
  else if field = 2047 then if fraction = 0 then infinite negative else nan
  else finite negative (Nat.pow 2 52 + fraction) (minExponent + field - 1)

/-! ### Rounding -/

/-- The quotient rounded to the nearest whole number, a tie to the even one. -/
def roundQuotient (num den : Nat) : Nat :=
  let q := num / den
  let r := num % den
  if den < 2 * r ∨ (den = 2 * r ∧ q % 2 = 1) then q + 1 else q

/-- The ratio `num / den` over `2 ^ e`, again as a ratio. -/
def overPower (num den : Nat) (e : Int) : Nat × Nat :=
  if 0 ≤ e then (num, den * Nat.pow 2 e.toNat) else (num * Nat.pow 2 (-e).toNat, den)

/-- The exponent that leaves a quotient of 53 bits, or the least exponent for small ratios. -/
def exponentFor (num den : Nat) : Int :=
  let guess : Int := (Nat.log2 num : Int) - Nat.log2 den - 52
  let scaled := overPower num den guess
  max minExponent (if scaled.1 / scaled.2 < Nat.pow 2 52 then guess - 1 else guess)

/-- The number nearest to the ratio `num / den` with a sign. -/
def ofRatio (negative : Bool) (num den : Nat) : Binary64 :=
  if num = 0 then finite negative 0 minExponent
  else
    let e := exponentFor num den
    let scaled := overPower num den e
    let m := roundQuotient scaled.1 scaled.2
    if m = Nat.pow 2 precision then
      if e + 1 ≤ maxExponent then finite negative (Nat.pow 2 52) (e + 1) else infinite negative
    else if e ≤ maxExponent then finite negative m e
    else infinite negative

/-- The number nearest to an integer. -/
def ofInt (n : Int) : Binary64 := ofRatio (decide (n < 0)) n.natAbs 1

/-- The number nearest to `± digits · 10 ^ scale`.  Ratios far outside the format are settled by their
number of digits. -/
def ofDecimal (negative : Bool) (digits : Nat) (scale : Int) : Binary64 :=
  let place : Int := (Nat.toDigits 10 digits).length + scale
  if digits = 0 ∨ place < -400 then finite negative 0 minExponent
  else if 400 < place then infinite negative
  else if 0 ≤ scale then ofRatio negative (digits * Nat.pow 10 scale.toNat) 1
  else ofRatio negative digits (Nat.pow 10 (-scale).toNat)

/-! ### Arithmetic -/

/-- The product of two numbers, rounded. -/
def mul : Binary64 → Binary64 → Binary64
  | finite n m e, finite n' m' e' =>
    let exact := overPower (m * m') 1 (-(e + e'))
    ofRatio (n != n') exact.1 exact.2
  | finite n m _, infinite n' => if m = 0 then nan else infinite (n != n')
  | infinite n, finite n' m _ => if m = 0 then nan else infinite (n != n')
  | infinite n, infinite n' => infinite (n != n')
  | _, _ => nan

/-- The quotient of two numbers, rounded. -/
def div : Binary64 → Binary64 → Binary64
  | finite n m e, finite n' m' e' =>
    if m' = 0 then if m = 0 then nan else infinite (n != n')
    else
      let exact := overPower m m' (e' - e)
      ofRatio (n != n') exact.1 exact.2
  | finite n _ _, infinite n' => finite (n != n') 0 minExponent
  | infinite n, finite n' _ _ => infinite (n != n')
  | _, _ => nan

/-! ### Parts of a number -/

/-- Whether a number is zero. -/
def isZero : Binary64 → Bool
  | finite _ m _ => m == 0
  | _ => false

/-- Whether a number is finite. -/
def isFinite : Binary64 → Bool
  | finite .. => true
  | _ => false

/-- The integer that a number is, if it is one. -/
def toInt? : Binary64 → Option Int
  | finite negative m e =>
    let sign (n : Nat) : Int := if negative then -(n : Int) else n
    if 0 ≤ e then some (sign (m * Nat.pow 2 e.toNat))
    else if m % Nat.pow 2 (-e).toNat = 0 then some (sign (m / Nat.pow 2 (-e).toNat))
    else none
  | _ => none

example : ofDecimal false 1 (-1) = ofBits 0x3FB999999999999A := by decide +kernel

example : ofDecimal false 17976931348623159 292 = infinite false := by decide +kernel

example : ofDecimal false 5 (-324) = finite false 1 (-1074) := by decide +kernel

example : (ofInt (-7)).toInt? = some (-7) := by decide +kernel

example : (ofInt (-3)).mul ((ofInt 1).div (ofInt 10)) = ofBits 0xBFD3333333333334 := by decide +kernel

end Binary64

end EditorSettings
