import EditorSettings.Text.Basic

/-!
# Decimal integers

The canonical decimal form of an integer, and the reading of an optionally signed run of ASCII digits,
unbounded or within 64 bits.

* `ofInt n` is the canonical form: no plus sign, no leading zero, no `-0`.
* `signedInt? t` reads `[+-]?[0-9]+`; `int64? t` also requires the value to fit 64 bits with sign.
-/

namespace EditorSettings.Text

/-- The decimal digits of a natural number. -/
def ofNat (n : Nat) : Text := Nat.toDigits 10 n

/-- The canonical decimal form of an integer. -/
def ofInt : Int → Text
  | .ofNat n => ofNat n
  | .negSucc n => '-' :: ofNat (n + 1)

/-- The value of a non-empty run of ASCII digits. -/
def nat? (t : Text) : Option Nat :=
  if t ≠ [] ∧ t.all Char.isDigit then some (Nat.ofDigitChars 10 t 0) else none

/-- The value of a run of ASCII digits with an optional sign. -/
def signedInt? : Text → Option Int
  | '+' :: t => (nat? t).map Int.ofNat
  | '-' :: t => (nat? t).map fun n => -(n : Int)
  | t => (nat? t).map Int.ofNat

/-- The integers of 64 bits with sign. -/
def fitsInt64 (n : Int) : Bool := decide (-0x8000000000000000 ≤ n) && decide (n < 0x8000000000000000)

/-- The value of a signed run of ASCII digits that fits 64 bits. -/
def int64? (t : Text) : Option Int := (signedInt? t).filter fitsInt64

/-- The range of the ASCII digits. -/
theorem toNat_of_isDigit {c : Char} (h : c.isDigit = true) : 48 ≤ c.toNat ∧ c.toNat ≤ 57 := by
  simpa [Char.isDigit, UInt32.le_iff_toNat_le] using h

/-! ### Reading back -/

theorem nat?_ofNat (n : Nat) : nat? (ofNat n) = some n := by
  have h : (ofNat n).all Char.isDigit = true :=
    List.all_eq_true.mpr fun c hc => Nat.isDigit_of_mem_toDigits (by decide) (by decide) hc
  rw [nat?, if_pos ⟨Nat.toDigits_ne_nil, h⟩, ofNat, Nat.ofDigitChars_ten_toDigits]

theorem isDigit_head_ofNat {n : Nat} {c : Char} {t : Text} (h : ofNat n = c :: t) :
    c.isDigit = true :=
  Nat.isDigit_of_mem_toDigits (b := 10) (n := n) (by decide) (by decide)
    (by rw [← ofNat, h]; exact List.mem_cons_self)

theorem signedInt?_of_isDigit {c : Char} {t : Text} (h : c.isDigit = true) :
    signedInt? (c :: t) = (nat? (c :: t)).map Int.ofNat := by
  unfold signedInt?
  split
  · next h' => rw [(List.cons.inj h').1] at h; exact absurd h (by decide)
  · next h' => rw [(List.cons.inj h').1] at h; exact absurd h (by decide)
  · rfl

theorem signedInt?_ofInt (n : Int) : signedInt? (ofInt n) = some n := by
  cases n with
  | ofNat n =>
    cases h : ofNat n with
    | nil => exact absurd h Nat.toDigits_ne_nil
    | cons c t =>
      rw [ofInt, h, signedInt?_of_isDigit (isDigit_head_ofNat h), ← h, nat?_ofNat]
      rfl
  | negSucc n =>
    rw [ofInt, signedInt?, nat?_ofNat]
    rfl

end EditorSettings.Text
