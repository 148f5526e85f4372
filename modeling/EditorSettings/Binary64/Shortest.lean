import EditorSettings.Binary64.Basic
import EditorSettings.Text.Basic

/-!
# Shortest decimal digits

The fewest decimal digits that read back as a given double-precision number, and of those the nearest
to it.  The decimals that read back form an interval around the number; its ends belong to it when the
mantissa is even.  For 1, 2, … digits the two neighbours of the number with that many digits are tried,
and the first count with a neighbour inside the interval is the answer.  Seventeen digits always do.
-/

namespace EditorSettings.Binary64

/-- Which of two neighbours at the same distance is taken. -/
inductive Tie
  /-- The greater one. -/
  | up
  /-- The one with an even last digit. -/
  | even
deriving DecidableEq, Repr

/-- The digits `0.d₁d₂… · 10 ^ place` of a positive decimal number. -/
structure Decimal where
  /-- The digits, from the first one that is not zero. -/
  digits : Text
  /-- The number of digits before the decimal point. -/
  place : Int
deriving DecidableEq, Repr

/-- A positive number and the ends of the interval of decimals that read back as it, all three over one
denominator. -/
structure Neighbourhood where
  /-- The lower end. -/
  low : Nat
  /-- The number. -/
  value : Nat
  /-- The upper end. -/
  high : Nat
  /-- The common denominator. -/
  den : Nat
  /-- Whether the ends read back as the number. -/
  closed : Bool

/-- The neighbourhood of `m · 2 ^ e` for a positive mantissa `m`.  Below a power of two the numbers are
twice as dense, unless the exponent is the least one. -/
def neighbourhood (m : Nat) (e : Int) : Neighbourhood :=
  let below := if m = Nat.pow 2 52 ∧ minExponent < e then 1 else 2
  let up := Nat.pow 2 (e - 2).toNat
  ⟨(4 * m - below) * up, 4 * m * up, (4 * m + 2) * up, Nat.pow 2 (2 - e).toNat, m % 2 == 0⟩

/-- The number of digits before the decimal point of the positive ratio `num / den`; zero or less when
the point is followed by zeros. -/
def decimalPlace (num den : Nat) : Int :=
  if den ≤ num then (Nat.toDigits 10 (num / den)).length
  else
    let k := (Nat.toDigits 10 (den / num)).length - 1
    if num * Nat.pow 10 k = den then 1 - k else -k

/-- Whether the decimal `n · 10 ^ scale` lies in the neighbourhood. -/
def Neighbourhood.holds (b : Neighbourhood) (n : Nat) (scale : Int) : Bool :=
  let x := n * Nat.pow 10 scale.toNat * b.den
  let down := Nat.pow 10 (-scale).toNat
  if b.closed then decide (b.low * down ≤ x) && decide (x ≤ b.high * down)
  else decide (b.low * down < x) && decide (x < b.high * down)

/-- The multiple of `10 ^ scale` to take for the number: the nearer of its neighbours that lie in the
neighbourhood. -/
def Neighbourhood.multiple? (b : Neighbourhood) (tie : Tie) (scale : Int) : Option Nat :=
  let num := b.value * Nat.pow 10 (-scale).toNat
  let den := b.den * Nat.pow 10 scale.toNat
  let n := num / den
  let twice := 2 * (num % den)
  let upper := decide (den < twice) || (twice == den && (tie == .up || n % 2 == 1))
  match b.holds n scale, b.holds (n + 1) scale with
  | false, false => none
  | true, false => some n
  | false, true => some (n + 1)
  | true, true => some (if upper then n + 1 else n)

/-- The digits of a number without its trailing zeros. -/
def significantDigits (n : Nat) : Text :=
  ((Nat.toDigits 10 n).reverse.dropWhile (· == '0')).reverse

/-- The first hit with `count` digits or more, at most `count + fuel`. -/
def searchDigits (b : Neighbourhood) (tie : Tie) (place : Int) (count : Nat) : Nat → Decimal
  | 0 => ⟨[], place⟩
  | fuel + 1 =>
    match b.multiple? tie (place - count) with
    | some n => ⟨significantDigits n, (Nat.toDigits 10 n).length + (place - count)⟩
    | none => searchDigits b tie place (count + 1) fuel

/-- The shortest digits of `m · 2 ^ e` for a positive mantissa `m`. -/
def shortest (tie : Tie) (m : Nat) (e : Int) : Decimal :=
  let b := neighbourhood m e
  searchDigits b tie (decimalPlace b.value b.den) 1 17

example : shortest .even 3 (-1) = ⟨"15".toList, 1⟩ := by decide +kernel

example : shortest .even 1 (-1074) = ⟨"5".toList, -323⟩ := by decide +kernel

example : shortest .up (2 ^ 52) 20 = ⟨"4722366482869645".toList, 22⟩ := by decide +kernel

end EditorSettings.Binary64
