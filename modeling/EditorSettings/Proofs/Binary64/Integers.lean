import EditorSettings.Value.Number
import Mathlib.Algebra.Field.Rat
import Mathlib.Data.Nat.Log
import Mathlib.Data.Rat.Cast.Defs
import Mathlib.Tactic.FieldSimp
import Mathlib.Tactic.NormNum
import Mathlib.Tactic.SplitIfs

/-!
# Integers among the double-precision numbers

`toRat?` is the rational number that a finite double-precision number is; `toInt?` finds the integers among
them (`toRat?_eq_some_iff`).

Integers below `2 ^ 53` need no rounding: the number nearest to one is the integer itself, its bits shifted up to
53 places (`ofRatio_one`).  Nor is there another double that is this integer, apart from the two zeros
(`IsDouble.exists_eq_ofRatio`).  Both texts of an integer that is not too large are its canonical decimal form.
-/

namespace EditorSettings.Binary64

/-- An integer by its sign and its magnitude. -/
def signed (negative : Bool) (n : ℕ) : ℤ := if negative then -(n : ℤ) else n

/-- The rational number that a finite double-precision number is. -/
def toRat? : Binary64 → Option ℚ
  | finite negative m e => some (signed negative m * 2 ^ e)
  | infinite _ => none
  | nan => none

theorem natAbs_signed (negative : Bool) (n : ℕ) : (signed negative n).natAbs = n := by
  cases negative
  · exact Int.natAbs_natCast n
  · exact (Int.natAbs_neg n).trans (Int.natAbs_natCast n)

theorem signed_mul (negative : Bool) (m n : ℕ) : signed negative (m * n) = signed negative m * n := by
  cases negative
  · exact Int.natCast_mul m n
  · exact (congrArg Neg.neg (Int.natCast_mul m n)).trans (Int.neg_mul _ _).symm

theorem decide_signed_lt_zero {n : ℕ} (h : 0 < n) (negative : Bool) :
    decide (signed negative n < 0) = negative := by
  cases negative
  · exact decide_eq_false (not_lt.mpr (Int.natCast_nonneg n))
  · exact decide_eq_true (Int.neg_neg_of_pos (Int.natCast_pos.mpr h))

/-! ### Which numbers are integers -/

theorem toInt?_natCast (negative : Bool) (m n : ℕ) :
    (finite negative m n).toInt? = some (signed negative m * (2 ^ n : ℕ)) := by
  rw [toInt?, if_pos (Int.natCast_nonneg n), ← signed_mul]
  rfl

theorem toInt?_neg_natCast {negative : Bool} {m n : ℕ} {k : ℤ} :
    (finite negative m (-n)).toInt? = some k ↔ signed negative m = k * (2 ^ n : ℕ) := by
  have hpos : 0 < 2 ^ n := Nat.two_pow_pos n
  rcases Nat.eq_zero_or_pos n with rfl | hn
  · have hzero := toInt?_natCast negative m 0
    rw [Nat.pow_zero, Nat.cast_one, mul_one] at hzero ⊢
    exact hzero ▸ Option.some_inj
  · have hneg : ¬ (0 : ℤ) ≤ -(n : ℤ) := by omega
    have hdiv : (finite negative m (-n)).toInt? =
        if m % 2 ^ n = 0 then some (signed negative (m / 2 ^ n)) else none := by
      rw [toInt?, if_neg hneg, neg_neg, Int.toNat_natCast]
      rfl
    rw [hdiv]
    constructor
    · intro h
      split_ifs at h with hm
      rw [← Option.some.inj h, ← signed_mul, Nat.div_mul_cancel (Nat.dvd_of_mod_eq_zero hm)]
    · intro h
      have hm : m = k.natAbs * 2 ^ n := by
        rw [← natAbs_signed negative m, h, Int.natAbs_mul, Int.natAbs_natCast]
      rw [hm, signed_mul] at h
      have hk : signed negative k.natAbs = k :=
        mul_right_cancel₀ (Int.natCast_ne_zero.mpr hpos.ne') h
      rw [hm, if_pos (Nat.mul_mod_left _ _), Nat.mul_div_cancel _ hpos, hk]

/-- **A number is an integer** iff `toInt?` finds it. -/
theorem toRat?_eq_some_iff {x : Binary64} {k : ℤ} : x.toRat? = some (k : ℚ) ↔ x.toInt? = some k := by
  rcases x with ⟨negative, m, e⟩ | _ | _
  · rw [toRat?, Option.some_inj]
    obtain ⟨n, rfl | rfl⟩ := e.eq_nat_or_neg
    · rw [toInt?_natCast, Option.some_inj, zpow_natCast]
      norm_cast
    · rw [toInt?_neg_natCast, zpow_neg, zpow_natCast, ← div_eq_mul_inv, div_eq_iff (by positivity)]
      norm_cast
  · exact iff_of_false (fun h => by cases h) fun h => by cases h
  · exact iff_of_false (fun h => by cases h) fun h => by cases h

theorem isFinite_of_toInt? {x : Binary64} {k : ℤ} (h : x.toInt? = some k) : x.isFinite = true := by
  cases x with
  | finite => rfl
  | infinite => cases h
  | nan => cases h

/-! ### The texts of an integer -/

theorem display_of_toInt? {x : Binary64} {k : ℤ} (h : x.toInt? = some k) (hk : k.natAbs < 10 ^ 21) :
    x.display = Text.ofInt k := by
  cases x with
  | finite negative m e =>
    rw [display, h]
    exact if_pos hk
  | infinite => cases h
  | nan => cases h

theorem json_of_toInt? {x : Binary64} {k : ℤ} (h : x.toInt? = some k) (hk : k.natAbs < 9 * 10 ^ 15) :
    x.json = Text.ofInt k := by
  cases x with
  | finite negative m e =>
    rw [json, h]
    exact if_pos hk
  | infinite => cases h
  | nan => cases h

/-! ### The number nearest to an integer -/

theorem log2_le_of_lt {n : ℕ} (h : n < 2 ^ 53) : n.log2 ≤ 52 := by
  rcases Nat.eq_zero_or_pos n with rfl | hpos
  · decide
  · have hlog := (Nat.log2_lt hpos.ne').mpr h
    omega

/-- The bits of an integer, shifted up so that there are 53 of them. -/
theorem shifted_bounds {n : ℕ} (hpos : 0 < n) (h : n < 2 ^ 53) :
    2 ^ 52 ≤ n * 2 ^ (52 - n.log2) ∧ n * 2 ^ (52 - n.log2) < 2 ^ 53 := by
  have hlog := log2_le_of_lt h
  have hbits : 2 ^ n.log2 * 2 ^ (52 - n.log2) = 2 ^ 52 := by
    rw [← Nat.pow_add, Nat.add_sub_cancel' hlog]
  constructor
  · rw [← hbits]
    exact Nat.mul_le_mul_right _ (Nat.log2_self_le hpos.ne')
  · have hlt := Nat.mul_lt_mul_of_pos_right (Nat.lt_log2_self (n := n)) (Nat.two_pow_pos (52 - n.log2))
    rw [Nat.pow_succ, Nat.mul_right_comm, hbits] at hlt
    exact hlt

theorem overPower_eq (num den : ℕ) (e : ℤ) :
    overPower num den e = (num * 2 ^ (-e).toNat, den * 2 ^ e.toNat) := by
  rcases le_or_gt 0 e with he | he
  · have hzero : (-e).toNat = 0 := by omega
    rw [overPower, if_pos he, hzero, Nat.pow_zero, Nat.mul_one]
    rfl
  · have hzero : e.toNat = 0 := by omega
    rw [overPower, if_neg (not_le.mpr he), hzero, Nat.pow_zero, Nat.mul_one]
    rfl

theorem overPower_nat (num den k : ℕ) : overPower num den k = (num, den * 2 ^ k) := by
  simp [overPower_eq]

theorem overPower_neg (num den k : ℕ) : overPower num den (-k) = (num * 2 ^ k, den) := by
  simp [overPower_eq]

/-- The exponent, where the first guess leaves 53 bits. -/
theorem exponentFor_of_le {num den : ℕ} {guess : ℤ} (hguess : (num.log2 : ℤ) - den.log2 - 52 = guess)
    (hle : 2 ^ 52 ≤ (overPower num den guess).1 / (overPower num den guess).2) :
    exponentFor num den = max minExponent guess := by
  have hlarge : ¬ (overPower num den guess).1 / (overPower num den guess).2 < Nat.pow 2 52 := Nat.not_lt.mpr hle
  unfold exponentFor
  dsimp only
  rw [hguess, if_neg hlarge]

theorem roundQuotient_one (n : ℕ) : roundQuotient n 1 = n := by
  simp [roundQuotient, Nat.mod_one]

/-- **An integer below `2 ^ 53` is not rounded**: the number nearest to it is the integer, with 53 bits. -/
theorem ofRatio_one {n : ℕ} (hpos : 0 < n) (h : n < 2 ^ 53) (negative : Bool) :
    ofRatio negative n 1 = finite negative (n * 2 ^ (52 - n.log2)) (-(52 - n.log2 : ℕ)) := by
  have hlog := log2_le_of_lt h
  obtain ⟨hle, hlt⟩ := shifted_bounds hpos h
  have hexponent : exponentFor n 1 = -(52 - n.log2 : ℕ) := by
    have hguess : (n.log2 : ℤ) - Nat.log2 1 - 52 = -(52 - n.log2 : ℕ) := by
      have hone : Nat.log2 1 = 0 := by decide
      omega
    have hmin : minExponent ≤ -(52 - n.log2 : ℕ) := by
      unfold minExponent
      omega
    rw [exponentFor_of_le hguess (by rwa [overPower_neg, Nat.div_one]), max_eq_right hmin]
  have hmax : (-(52 - n.log2 : ℕ) : ℤ) ≤ maxExponent := by
    unfold maxExponent
    omega
  have hsmall : n * 2 ^ (52 - n.log2) ≠ Nat.pow 2 precision := hlt.ne
  unfold ofRatio
  dsimp only
  rw [if_neg hpos.ne', hexponent, overPower_neg, roundQuotient_one, if_neg hsmall, if_pos hmax]

/-- The number nearest to an integer below `2 ^ 53` is the integer. -/
theorem toInt?_ofRatio_one {n : ℕ} (h : n < 2 ^ 53) (negative : Bool) :
    (ofRatio negative n 1).toInt? = some (signed negative n) := by
  rcases Nat.eq_zero_or_pos n with rfl | hpos
  · cases negative <;> decide +kernel
  · rw [ofRatio_one hpos h, toInt?_neg_natCast, signed_mul]

/-- Whole digits are read as the integer that they are. -/
theorem ofDecimal_zero {n : ℕ} (h : n < 2 ^ 53) (negative : Bool) :
    ofDecimal negative n 0 = ofRatio negative n 1 := by
  have hdigits : (Nat.toDigits 10 n).length ≤ 16 :=
    (Nat.length_toDigits_le_iff (by decide) (by decide)).mpr (by omega)
  rcases Nat.eq_zero_or_pos n with rfl | hpos
  · rfl
  · have hsome : ¬ (n = 0 ∨ ((Nat.toDigits 10 n).length : ℤ) + 0 < -400) := by omega
    have hfew : ¬ (400 : ℤ) < (Nat.toDigits 10 n).length + 0 := by omega
    unfold ofDecimal
    dsimp only
    rw [if_neg hsome, if_neg hfew, if_pos (le_refl 0), Int.toNat_zero]
    exact congrArg (ofRatio negative · 1) (Nat.mul_one n)

/-! ### The double that is an integer -/

/-- One of the numbers of the 64-bit format. -/
def IsDouble (x : Binary64) : Prop := ∃ bits, x = ofBits bits

/-- A mantissa has 53 bits, or fewer with the least exponent. -/
theorem bounds_of_ofBits {bits : ℕ} {negative : Bool} {m : ℕ} {e : ℤ}
    (h : ofBits bits = finite negative m e) :
    m < 2 ^ 52 ∧ e = minExponent ∨ 2 ^ 52 ≤ m ∧ m < 2 ^ 53 ∧ minExponent ≤ e := by
  have hfraction : bits % 2 ^ 52 < 2 ^ 52 := Nat.mod_lt _ (Nat.two_pow_pos 52)
  unfold ofBits at h
  dsimp only at h
  split_ifs at h with hleast hgreatest
  · cases h
    exact .inl ⟨hfraction, rfl⟩
  · cases h
    refine .inr ⟨Nat.le_add_right _ _, ?_, ?_⟩
    · have htwice : 2 ^ 53 = 2 ^ 52 + 2 ^ 52 := by decide
      exact htwice ▸ Nat.add_lt_add_left hfraction (2 ^ 52)
    · omega

/-- Only one shift leaves 53 bits. -/
theorem shift_le {q n n' : ℕ} (h : 2 ^ 52 ≤ q * 2 ^ n) (h' : q * 2 ^ n' < 2 ^ 53) : n' ≤ n := by
  by_contra hlt
  have hpow : 2 ^ (n + 1) ≤ 2 ^ n' := Nat.pow_le_pow_right (by decide) (by omega)
  have hmul := Nat.mul_le_mul_left q hpow
  rw [Nat.pow_succ, ← Nat.mul_assoc] at hmul
  omega

/-- A double that is an integer below `2 ^ 53` has no factor of two to spare. -/
theorem exists_shift {negative : Bool} {m : ℕ} {e k : ℤ}
    (hm : m < 2 ^ 52 ∧ e = minExponent ∨ 2 ^ 52 ≤ m ∧ m < 2 ^ 53 ∧ minExponent ≤ e)
    (h : (finite negative m e).toInt? = some k) (hk : k.natAbs < 2 ^ 53) :
    ∃ n : ℕ, e = -(n : ℤ) ∧ m = k.natAbs * 2 ^ n ∧ k = signed negative k.natAbs := by
  obtain ⟨n, rfl | rfl⟩ := e.eq_nat_or_neg
  · rw [toInt?_natCast, ← signed_mul] at h
    rw [← Option.some.inj h, natAbs_signed] at hk ⊢
    have hn : n = 0 := by
      refine Nat.le_zero.mp (shift_le ?_ hk)
      rcases hm with ⟨-, he⟩ | ⟨hle, -, -⟩
      · unfold minExponent at he
        omega
      · simpa using hle
    subst hn
    exact ⟨0, rfl, by simp, rfl⟩
  · rw [toInt?_neg_natCast] at h
    have habs : m = k.natAbs * 2 ^ n := by
      rw [← natAbs_signed negative m, h, Int.natAbs_mul, Int.natAbs_natCast]
    refine ⟨n, rfl, habs, ?_⟩
    rw [habs, signed_mul] at h
    exact (mul_right_cancel₀ (Int.natCast_ne_zero.mpr (Nat.two_pow_pos n).ne') h).symm

/-- **An integer below `2 ^ 53` is only one double**, apart from the two zeros: the number nearest to it. -/
theorem IsDouble.exists_eq_ofRatio {x : Binary64} (hx : x.IsDouble) {k : ℤ} (h : x.toInt? = some k)
    (hk : k.natAbs < 2 ^ 53) :
    ∃ negative, x = ofRatio negative k.natAbs 1 ∧ k = signed negative k.natAbs := by
  obtain ⟨bits, rfl⟩ := hx
  rcases hbits : ofBits bits with ⟨negative, m, e⟩ | _ | _
  · rw [hbits] at h
    have hbounds := bounds_of_ofBits hbits
    obtain ⟨n, rfl, rfl, hsign⟩ := exists_shift hbounds h hk
    refine ⟨negative, ?_, hsign⟩
    rcases Nat.eq_zero_or_pos k.natAbs with hzero | hpos
    · rw [hzero, Nat.zero_mul] at hbounds ⊢
      rcases hbounds with ⟨-, he⟩ | ⟨hle, -⟩
      · rw [he]
        rfl
      · exact absurd hle (by decide)
    · obtain ⟨hle, hlt⟩ := shifted_bounds hpos hk
      have hn : 52 - k.natAbs.log2 = n := by
        rcases hbounds with ⟨hlt', he⟩ | ⟨hle', hlt', -⟩
        · -- The least exponent would leave more than 53 bits.
          have := shift_le hle (hlt'.trans (by decide))
          unfold minExponent at he
          omega
        · exact Nat.le_antisymm (shift_le hle' hlt) (shift_le hle hlt')
      rw [ofRatio_one hpos hk, hn]
  · rw [hbits] at h
    cases h
  · rw [hbits] at h
    cases h

end EditorSettings.Binary64
