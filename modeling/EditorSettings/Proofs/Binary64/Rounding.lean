import EditorSettings.Proofs.Binary64.Integers
import Mathlib.Algebra.Order.Field.Power
import Mathlib.Tactic.Linarith
import Mathlib.Tactic.Positivity
import Mathlib.Tactic.Ring

/-!
# Rounding and overflow

Whatever is rounded has a mantissa of 53 bits at most (`fits_ofRatio`, `fits_ofDecimal`): the exponent
is chosen so that the quotient has no more bits (`quotient_lt`), and a mantissa that is rounded up to `2 ^ 53` is
replaced.

The numbers from `overflowBound` on, halfway between the greatest finite number and the next power of two, are
rounded to an infinity, and no smaller integer is (`isFinite_ofDecimal_iff`).
-/

namespace EditorSettings.Binary64

/-! ### Powers with integer exponents -/

/-- A comparison of ratios without negative exponents. -/
theorem mul_pow_le_iff {b : ℕ} (hb : 0 < b) (m n : ℕ) (e : ℤ) :
    m * b ^ e.toNat ≤ n * b ^ (-e).toNat ↔ (m : ℚ) * (b : ℚ) ^ e ≤ n := by
  have hpos (k : ℕ) : (0 : ℚ) < (b : ℚ) ^ k := pow_pos (Nat.cast_pos.mpr hb) k
  obtain ⟨k, rfl | rfl⟩ := e.eq_nat_or_neg
  · have hzero : (-(k : ℤ)).toNat = 0 := by omega
    rw [hzero, Int.toNat_natCast, pow_zero, mul_one, zpow_natCast]
    norm_cast
  · have hzero : (-(k : ℤ)).toNat = 0 := by omega
    rw [neg_neg, hzero, Int.toNat_natCast, pow_zero, mul_one, zpow_neg, zpow_natCast, ← div_eq_mul_inv,
      div_le_iff₀ (hpos k)]
    norm_cast

theorem lt_mul_pow_iff {b : ℕ} (hb : 0 < b) (m n : ℕ) (e : ℤ) :
    n * b ^ (-e).toNat < m * b ^ e.toNat ↔ (n : ℚ) < m * (b : ℚ) ^ e := by
  rw [← not_le, mul_pow_le_iff hb, not_le]

/-! ### The bits of a mantissa -/

/-- A bound of a ratio over a power of two. -/
theorem overPower_lt_iff (num den c : ℕ) (e : ℤ) :
    (overPower num den e).1 < c * (overPower num den e).2 ↔ (num : ℚ) < c * den * 2 ^ e := by
  rw [overPower_eq, ← Nat.mul_assoc, lt_mul_pow_iff (by decide)]
  norm_cast

variable {den : ℕ}

/-- A ratio has 53 bits at most over a power of two near its size. -/
theorem lt_mul_zpow_log2 (num : ℕ) (hden : 0 < den) :
    (num : ℚ) < (2 ^ 53 : ℕ) * den * 2 ^ ((num.log2 : ℤ) - den.log2 - 52) := by
  have hnum : (num : ℚ) < 2 ^ (num.log2 + 1) := by exact_mod_cast Nat.lt_log2_self
  have hlog : (2 : ℚ) ^ den.log2 ≤ den := by exact_mod_cast Nat.log2_self_le hden.ne'
  have hexponent : (num.log2 + 1 : ℤ) = 53 + den.log2 + ((num.log2 : ℤ) - den.log2 - 52) := by ring
  have hpow : (2 : ℚ) ^ (num.log2 + 1) =
      2 ^ 53 * 2 ^ den.log2 * 2 ^ ((num.log2 : ℤ) - den.log2 - 52) := by
    rw [← zpow_natCast, Nat.cast_add, Nat.cast_one, hexponent, zpow_add₀ (by norm_num), zpow_add₀ (by norm_num)]
    norm_cast
  have hscale : (0 : ℚ) < 2 ^ ((num.log2 : ℤ) - den.log2 - 52) := by positivity
  calc (num : ℚ) < 2 ^ (num.log2 + 1) := hnum
    _ = 2 ^ 53 * 2 ^ den.log2 * 2 ^ ((num.log2 : ℤ) - den.log2 - 52) := hpow
    _ ≤ 2 ^ 53 * den * 2 ^ ((num.log2 : ℤ) - den.log2 - 52) := by gcongr
    _ = (2 ^ 53 : ℕ) * den * 2 ^ ((num.log2 : ℤ) - den.log2 - 52) := by norm_cast

/-- **The quotient has 53 bits at most.** -/
theorem quotient_lt (num : ℕ) (hden : 0 < den) : (overPower num den (exponentFor num den)).1 <
    2 ^ 53 * (overPower num den (exponentFor num den)).2 := by
  set guess : ℤ := (num.log2 : ℤ) - den.log2 - 52 with hguess
  -- It is enough to look at some exponent that is not greater.
  obtain ⟨e, hle, hlt⟩ : ∃ e ≤ exponentFor num den, (num : ℚ) < (2 ^ 53 : ℕ) * den * 2 ^ e := by
    by_cases hsmall : (overPower num den guess).1 / (overPower num den guess).2 < Nat.pow 2 52
    · refine ⟨guess - 1, ?_, ?_⟩
      · unfold exponentFor
        dsimp only
        rw [← hguess, if_pos hsmall]
        exact le_max_right _ _
      · have hpos : 0 < (overPower num den guess).2 := by
          rw [overPower_eq]
          positivity
        have hlt := (overPower_lt_iff num den (2 ^ 52) guess).mp
          ((Nat.div_lt_iff_lt_mul hpos).mp hsmall)
        have hpow : (2 : ℚ) ^ guess = 2 * 2 ^ (guess - 1) := by
          rw [zpow_sub_one₀ (by norm_num)]
          ring
        rw [hpow] at hlt
        push_cast at hlt ⊢
        linarith
    · refine ⟨guess, ?_, lt_mul_zpow_log2 num hden⟩
      rw [exponentFor_of_le hguess.symm (not_lt.mp hsmall)]
      exact le_max_right _ _
  rw [overPower_lt_iff]
  have hpow : (2 : ℚ) ^ e ≤ 2 ^ exponentFor num den := zpow_le_zpow_right₀ (by norm_num) hle
  calc (num : ℚ) < (2 ^ 53 : ℕ) * den * 2 ^ e := hlt
    _ ≤ (2 ^ 53 : ℕ) * den * 2 ^ exponentFor num den := by gcongr

variable {num : ℕ}

theorem roundQuotient_le {c : ℕ} (h : num < c * den) : roundQuotient num den ≤ c := by
  have hquotient : num / den < c := Nat.div_lt_of_lt_mul (Nat.mul_comm c den ▸ h)
  unfold roundQuotient
  dsimp only
  split_ifs <;> omega

/-- The mantissa of a finite number has 53 bits at most. -/
def Fits : Binary64 → Prop
  | finite _ m _ => m < 2 ^ 53
  | infinite _ => True
  | nan => True

theorem fits_zero (negative : Bool) : (finite negative 0 minExponent).Fits := Nat.two_pow_pos 53

/-- **A rounded mantissa has 53 bits at most.** -/
theorem fits_ofRatio (hden : 0 < den) (negative : Bool) : (ofRatio negative num den).Fits := by
  unfold ofRatio
  dsimp only
  have hle := roundQuotient_le (quotient_lt num hden)
  split_ifs with hzero hcarry hmax hmax
  · exact fits_zero negative
  · exact Nat.pow_lt_pow_right (by decide) (by decide)
  · trivial
  · exact lt_of_le_of_ne hle hcarry
  · trivial

theorem fits_mul (x y : Binary64) : (x.mul y).Fits := by
  unfold mul
  split
  · next n m e n' m' e' =>
    dsimp only
    rw [overPower_eq]
    exact fits_ofRatio (by positivity) _
  · split_ifs <;> trivial
  · split_ifs <;> trivial
  · trivial
  · trivial

theorem fits_div (x y : Binary64) : (x.div y).Fits := by
  unfold div
  split
  · next n m e n' m' e' =>
    split_ifs with hzero
    · trivial
    · trivial
    · have hpos : 0 < m' := Nat.pos_of_ne_zero hzero
      dsimp only
      rw [overPower_eq]
      exact fits_ofRatio (by positivity) _
  · exact fits_zero _
  · trivial
  · trivial

theorem fits_ofDecimal (negative : Bool) (digits : ℕ) (scale : ℤ) : (ofDecimal negative digits scale).Fits := by
  unfold ofDecimal
  dsimp only
  split_ifs
  · exact fits_zero negative
  · trivial
  · exact fits_ofRatio Nat.one_pos negative
  · exact fits_ofRatio (Nat.pow_pos (by decide)) negative

/-! ### Overflow -/

theorem eq_infinite_of_ofRatio {negative : Bool} (h : ¬ (ofRatio negative num den).isFinite = true) :
    ofRatio negative num den = infinite negative := by
  unfold ofRatio at h ⊢
  dsimp only at h ⊢
  split_ifs at h ⊢
  · exact absurd rfl h
  · exact absurd rfl h
  · rfl
  · exact absurd rfl h
  · rfl

/-- What is read as no finite number is read as an infinity. -/
theorem eq_infinite_of_ofDecimal {negative : Bool} {digits : ℕ} {scale : ℤ}
    (h : ¬ (ofDecimal negative digits scale).isFinite = true) :
    ofDecimal negative digits scale = infinite negative := by
  unfold ofDecimal at h ⊢
  dsimp only at h ⊢
  split_ifs at h ⊢
  · exact absurd rfl h
  · rfl
  · exact eq_infinite_of_ofRatio h
  · exact eq_infinite_of_ofRatio h

/-- The least number that is rounded to an infinity: half a step above the greatest finite number. -/
def overflowBound : ℕ := (2 ^ 54 - 1) * 2 ^ 970

/-- A quotient below `c` is rounded up to `c` iff it is at least half a step below. -/
theorem roundQuotient_eq_iff {c : ℕ} (hc : c % 2 = 0) (h : num < c * den) :
    roundQuotient num den = c ↔ 2 * c * den ≤ 2 * num + den := by
  have hden : 0 < den := Nat.pos_of_ne_zero (by rintro rfl; simp at h)
  have hquotient : num / den < c := Nat.div_lt_of_lt_mul (Nat.mul_comm c den ▸ h)
  have hsum := Nat.div_add_mod num den
  have hrest := Nat.mod_lt num hden
  unfold roundQuotient
  dsimp only
  generalize num / den = q at *
  generalize num % den = r at *
  rcases Nat.lt_or_ge (q + 1) c with hlt | hge
  · -- The quotient is too far below `c`.
    have hmul : (q + 2) * den ≤ c * den := Nat.mul_le_mul_right den hlt
    have hfar : ¬ 2 * c * den ≤ 2 * num + den := by
      rw [Nat.mul_assoc, ← hsum, not_le]
      nlinarith
    refine iff_of_false ?_ hfar
    split_ifs <;> omega
  · obtain rfl : c = q + 1 := by omega
    have hodd : q % 2 = 1 := by omega
    have hhalf : 2 * (q + 1) * den ≤ 2 * num + den ↔ den ≤ 2 * r := by
      rw [← hsum]
      constructor <;> intro <;> nlinarith
    rw [hhalf]
    split_ifs with hup <;> omega

/-- The bits of an integer that has more than 53. -/
theorem exponentFor_one {n k : ℕ} (h : n.log2 = 52 + k) (hn : n ≠ 0) : exponentFor n 1 = k := by
  have hguess : (n.log2 : ℤ) - Nat.log2 1 - 52 = k := by
    have hone : Nat.log2 1 = 0 := by decide
    omega
  have hlarge : 2 ^ 52 ≤ (overPower n 1 k).1 / (overPower n 1 k).2 := by
    have hle := Nat.log2_self_le hn
    rw [h, Nat.pow_add] at hle
    rw [overPower_nat, Nat.one_mul]
    exact (Nat.le_div_iff_mul_le (Nat.two_pow_pos k)).mpr hle
  rw [exponentFor_of_le hguess hlarge]
  exact max_eq_right (by unfold minExponent; omega)

/-- The bound beside the greatest exponent.  Proofs about it leave open which power of two is in it. -/
theorem exists_overflowBound_eq :
    ∃ t : ℕ, 54 + t = 1024 ∧ maxExponent = t + 1 ∧ overflowBound = (2 ^ 54 - 1) * 2 ^ t :=
  ⟨970, rfl, rfl, rfl⟩

theorem isFinite_ofRatio_of_log2 {n k : ℕ} (h : n.log2 = 52 + k) (hn : n ≠ 0) (negative : Bool) :
    (ofRatio negative n 1).isFinite = true ↔ n < overflowBound := by
  have hle : 2 ^ 52 * 2 ^ k ≤ n := by
    rw [← Nat.pow_add, ← h]
    exact Nat.log2_self_le hn
  have hlt : n < 2 ^ 53 * 2 ^ k := by
    rw [← Nat.pow_add, show 53 + k = n.log2 + 1 by omega]
    exact Nat.lt_log2_self
  have hcarry : roundQuotient n (2 ^ k) = Nat.pow 2 precision ↔ 2 * 2 ^ 53 * 2 ^ k ≤ 2 * n + 2 ^ k :=
    roundQuotient_eq_iff (by decide) hlt
  obtain ⟨t, -, hmax, hbound⟩ := exists_overflowBound_eq
  unfold ofRatio
  dsimp only
  rw [if_neg hn, exponentFor_one h hn, overPower_nat, Nat.one_mul, hbound, hmax]
  rcases Nat.lt_trichotomy k (t + 1) with hk | rfl | hk
  · have hpow : 2 ^ k ≤ 2 ^ t := Nat.pow_le_pow_right (by decide) (by omega)
    refine iff_of_true ?_ (by omega)
    split_ifs
    · rfl
    · omega
    · rfl
    · omega
  · have hpow : 2 ^ (t + 1) = 2 * 2 ^ t := Nat.pow_succ'
    split_ifs with hround
    · omega
    · have := hcarry.mp hround
      exact iff_of_false Bool.false_ne_true (by omega)
    · have := mt hcarry.mpr hround
      exact iff_of_true rfl (by omega)
    · omega
  · have hpow : 2 ^ (t + 2) ≤ 2 ^ k := Nat.pow_le_pow_right (by decide) hk
    have hfour : 2 ^ (t + 2) = 2 ^ t * 4 := Nat.pow_add 2 t 2
    refine iff_of_false ?_ (by omega)
    split_ifs
    · omega
    · exact Bool.false_ne_true
    · omega
    · exact Bool.false_ne_true

/-- **An integer overflows** iff it is not below the bound. -/
theorem isFinite_ofRatio_one_iff (n : ℕ) (negative : Bool) :
    (ofRatio negative n 1).isFinite = true ↔ n < overflowBound := by
  rcases Nat.lt_or_ge n (2 ^ 53) with hlt | hge
  · refine iff_of_true (isFinite_of_toInt? (toInt?_ofRatio_one hlt negative)) ?_
    obtain ⟨t, -, -, hbound⟩ := exists_overflowBound_eq
    have hpos : 0 < 2 ^ t := Nat.two_pow_pos t
    omega
  · have hn : n ≠ 0 := by omega
    have hlog : ¬ n.log2 < 53 := by
      rw [Nat.log2_lt hn]
      omega
    exact isFinite_ofRatio_of_log2 (k := n.log2 - 52) (by omega) hn negative

theorem overflowBound_lt {d : ℕ} (hd : 342 ≤ d) : overflowBound < 10 ^ d := by
  obtain ⟨t, ht, -, hbound⟩ := exists_overflowBound_eq
  have hpos : 0 < 2 ^ t := Nat.two_pow_pos t
  calc overflowBound < 2 ^ 54 * 2 ^ t := by omega
    _ = 2 ^ (54 + t) := (Nat.pow_add 2 54 t).symm
    _ ≤ 2 ^ (3 * d) := Nat.pow_le_pow_right (by decide) (by omega)
    _ = (2 ^ 3) ^ d := Nat.pow_mul 2 3 d
    _ ≤ 10 ^ d := Nat.pow_le_pow_left (by decide) d

/-- **Whole digits overflow** iff their value is not below the bound. -/
theorem isFinite_ofDecimal_iff (negative : Bool) (n : ℕ) :
    (ofDecimal negative n 0).isFinite = true ↔ n < overflowBound := by
  have hscale : n * Nat.pow 10 (0 : ℤ).toNat = n := Nat.mul_one n
  unfold ofDecimal
  dsimp only
  rw [if_pos (le_refl (0 : ℤ)), hscale, add_zero]
  split_ifs with hzero hmany
  · have hn : n = 0 := by omega
    subst hn
    exact iff_of_true rfl ((isFinite_ofRatio_one_iff 0 negative).mp rfl)
  · -- Numbers of more than 400 digits are far above the bound.
    have hbound : overflowBound < 10 ^ 400 := overflowBound_lt (by decide)
    generalize hd : 400 = d at hbound hmany
    have hge : ¬ n < 10 ^ d := by
      rw [← Nat.length_toDigits_le_iff (by decide) (by omega)]
      omega
    exact iff_of_false Bool.false_ne_true fun hlt => hge (hlt.trans hbound)
  · exact isFinite_ofRatio_one_iff n negative

end EditorSettings.Binary64
