import EditorSettings.Proofs.Binary64.Rounding
import EditorSettings.Proofs.Decimal
import Mathlib.Data.List.DropRight

/-!
# Seventeen digits always do

The search for the shortest digits of a number ends with a hit (`exists_digits_searchDigits`).  The multiples of
a power of ten around the number are one step apart, and with seventeen digits such a step is shorter than the
neighbourhood of the number, as the mantissa has 53 bits only (`Neighbourhood.exists_multiple?`).

What is found is not zero, so its digits begin with one that is not zero (`isSignificant_shortest`).
-/

namespace EditorSettings.Binary64

/-! ### The place of the first digit -/

theorem lt_pow_length_toDigits (n : ℕ) : n < 10 ^ (Nat.toDigits 10 n).length :=
  (Nat.length_toDigits_le_iff (by decide) (List.length_pos_iff.mpr Nat.toDigits_ne_nil)).mp le_rfl

theorem pow_length_toDigits_le {n : ℕ} (h : 0 < n) : 10 ^ ((Nat.toDigits 10 n).length - 1) ≤ n := by
  rcases Nat.eq_zero_or_pos ((Nat.toDigits 10 n).length - 1) with hone | hmany
  · rw [hone]
    exact h
  · by_contra hlt
    have hlen := (Nat.length_toDigits_le_iff (by decide) hmany).mpr (not_le.mp hlt)
    omega

/-- **The first digit of a ratio** stands at its place, or before it. -/
theorem mul_pow_decimalPlace_le {num den : ℕ} (hnum : 0 < num) (hden : 0 < den) :
    (den : ℚ) * 10 ^ (decimalPlace num den - 1) ≤ num := by
  unfold decimalPlace
  dsimp only
  split_ifs with hle hpow
  · -- The whole part has digits.
    have hquotient : 0 < num / den := Nat.div_pos hle hden
    have hdigits := pow_length_toDigits_le hquotient
    have hlen : 0 < (Nat.toDigits 10 (num / den)).length := List.length_pos_iff.mpr Nat.toDigits_ne_nil
    have hmul : den * 10 ^ ((Nat.toDigits 10 (num / den)).length - 1) ≤ num :=
      (Nat.mul_le_mul_left den hdigits).trans (Nat.mul_div_le num den)
    rw [← Nat.cast_pred hlen, zpow_natCast]
    exact_mod_cast hmul
  · generalize (Nat.toDigits 10 (den / num)).length - 1 = k at hpow
    have hpow : (num : ℚ) * 10 ^ k = den := by exact_mod_cast hpow
    rw [show (1 : ℤ) - k - 1 = -(k : ℤ) by ring, zpow_neg, zpow_natCast, ← div_eq_mul_inv,
      div_le_iff₀ (by positivity)]
    exact hpow.ge
  · have hlt := lt_pow_length_toDigits (den / num)
    have hlen : 0 < (Nat.toDigits 10 (den / num)).length := List.length_pos_iff.mpr Nat.toDigits_ne_nil
    generalize hk : (Nat.toDigits 10 (den / num)).length - 1 = k
    rw [show (Nat.toDigits 10 (den / num)).length = k + 1 by omega] at hlt
    have hmul : (den : ℚ) ≤ num * 10 ^ (k + 1) := by
      exact_mod_cast ((Nat.div_lt_iff_lt_mul hnum).mp hlt).le.trans_eq (Nat.mul_comm _ _)
    rw [show -(k : ℤ) - 1 = -((k + 1 : ℕ) : ℤ) by push_cast; ring, zpow_neg, zpow_natCast, ← div_eq_mul_inv,
      div_le_iff₀ (by positivity)]
    exact hmul

/-! ### Hits in a neighbourhood -/

/-- **A neighbourhood that is wide enough for seventeen digits.** -/
structure Neighbourhood.Wide (b : Neighbourhood) : Prop where
  den_pos : 0 < b.den
  low_pos : 0 < b.low
  low_lt : b.low < b.value
  lt_high : b.value < b.high
  /-- The number has less than seventeen digits in units of the width. -/
  wide : b.value + 10 ^ 16 * b.low < 10 ^ 16 * b.high

theorem wide_neighbourhood {m : ℕ} (hpos : 0 < m) (hm : m < 2 ^ 53) (e : ℤ) : (neighbourhood m e).Wide := by
  have hup : 0 < 2 ^ (e - 2).toNat := Nat.two_pow_pos _
  have hbelow : ∃ below, 1 ≤ below ∧ below ≤ 2 ∧ (below = 1 → m = 2 ^ 52) ∧
      neighbourhood m e = ⟨(4 * m - below) * 2 ^ (e - 2).toNat, 4 * m * 2 ^ (e - 2).toNat,
        (4 * m + 2) * 2 ^ (e - 2).toNat, 2 ^ (2 - e).toNat, m % 2 == 0⟩ := by
    by_cases h : m = Nat.pow 2 52 ∧ minExponent < e
    · exact ⟨1, le_rfl, by decide, fun _ => h.1, by rw [neighbourhood, if_pos h]; rfl⟩
    · exact ⟨2, by decide, le_rfl, fun htwo => absurd htwo (by decide), by rw [neighbourhood, if_neg h]; rfl⟩
  obtain ⟨below, hge, hle, hone, heq⟩ := hbelow
  rw [heq]
  generalize 2 ^ (e - 2).toNat = up at hup
  -- Next to a power of two the width is smaller, but so is the mantissa.
  have hwidth : 4 * m + 10 ^ 16 * (4 * m - below) < 10 ^ 16 * (4 * m + 2) := by
    rcases Nat.lt_or_ge below 2 with hlt | hge'
    · have := hone (by omega)
      omega
    · omega
  refine ⟨Nat.two_pow_pos _, Nat.mul_pos (by omega) hup, Nat.mul_lt_mul_of_pos_right (by omega) hup,
    Nat.mul_lt_mul_of_pos_right (by omega) hup, ?_⟩
  change 4 * m * up + 10 ^ 16 * ((4 * m - below) * up) < 10 ^ 16 * ((4 * m + 2) * up)
  rw [← Nat.mul_assoc, ← Nat.mul_assoc, ← Nat.add_mul]
  exact Nat.mul_lt_mul_of_pos_right hwidth hup

namespace Neighbourhood

variable {b : Neighbourhood} {n : ℕ} {scale : ℤ}

theorem holds_of_lt (hlow : b.low * 10 ^ (-scale).toNat < n * (b.den * 10 ^ scale.toNat))
    (hhigh : n * (b.den * 10 ^ scale.toNat) < b.high * 10 ^ (-scale).toNat) : b.holds n scale = true := by
  have hx : n * Nat.pow 10 scale.toNat * b.den = n * (b.den * 10 ^ scale.toNat) := by
    rw [Nat.mul_comm b.den, ← Nat.mul_assoc]
    rfl
  unfold holds
  dsimp only
  rw [hx]
  split_ifs
  · exact Bool.and_eq_true_iff.mpr ⟨decide_eq_true hlow.le, decide_eq_true hhigh.le⟩
  · exact Bool.and_eq_true_iff.mpr ⟨decide_eq_true hlow, decide_eq_true hhigh⟩

theorem pos_of_holds (hlow : 0 < b.low) (h : b.holds n scale = true) : 0 < n := by
  rcases Nat.eq_zero_or_pos n with rfl | hpos
  · -- Zero lies below the neighbourhood.
    have hend : 0 < b.low * Nat.pow 10 (-scale).toNat := Nat.mul_pos hlow (Nat.pow_pos (by decide))
    unfold holds at h
    dsimp only at h
    rw [Nat.zero_mul, Nat.zero_mul] at h
    split_ifs at h
    · have hle := of_decide_eq_true (Bool.and_eq_true_iff.mp h).1
      omega
    · have hlt := of_decide_eq_true (Bool.and_eq_true_iff.mp h).1
      omega
  · exact hpos

theorem holds_of_multiple? {tie : Tie} (h : b.multiple? tie scale = some n) : b.holds n scale = true := by
  unfold multiple? at h
  dsimp only at h
  split at h
  · cases h
  · next hn _ => exact Option.some.inj h ▸ hn
  · next _ hn => exact Option.some.inj h ▸ hn
  · next hn hn' =>
    rw [← Option.some.inj h]
    split_ifs
    · exact hn'
    · exact hn

theorem not_holds_of_multiple? {tie : Tie} (h : b.multiple? tie scale = none) {q : ℕ}
    (hq : b.value * 10 ^ (-scale).toNat / (b.den * 10 ^ scale.toNat) = q) :
    b.holds q scale = false ∧ b.holds (q + 1) scale = false := by
  subst hq
  unfold multiple? at h
  dsimp only at h
  split at h
  · next hn hn' => exact ⟨hn, hn'⟩
  · cases h
  · cases h
  · cases h

/-- **With seventeen digits there is a hit**: a step between the multiples is shorter than the neighbourhood. -/
theorem exists_multiple? (hb : b.Wide) (tie : Tie) (h : (b.den : ℚ) * 10 ^ (scale + 16) ≤ b.value) :
    ∃ n, b.multiple? tie scale = some n := by
  by_contra hnone
  have hnone : b.multiple? tie scale = none :=
    Option.eq_none_iff_forall_ne_some.mpr fun n hn => hnone ⟨n, hn⟩
  have hstep : 10 ^ 16 * (b.den * 10 ^ scale.toNat) ≤ b.value * 10 ^ (-scale).toNat := by
    rw [← Nat.mul_assoc, mul_pow_le_iff (by decide)]
    rw [zpow_add₀ (by norm_num)] at h
    push_cast
    linarith
  have hden : 0 < b.den * 10 ^ scale.toNat := Nat.mul_pos hb.den_pos (Nat.pow_pos (by decide))
  obtain ⟨q, hq⟩ : ∃ q, b.value * 10 ^ (-scale).toNat / (b.den * 10 ^ scale.toNat) = q := ⟨_, rfl⟩
  have hfloor := (Nat.le_div_iff_mul_le hden).mp hq.ge
  have hceil := (Nat.div_lt_iff_lt_mul hden).mp (Nat.lt_succ_of_le hq.le)
  obtain ⟨hlower, hupper⟩ := not_holds_of_multiple? hnone hq
  have hdown : 0 < 10 ^ (-scale).toNat := Nat.pow_pos (by decide)
  -- Both neighbours lie outside, so the neighbourhood lies between them.
  have hlow : q * (b.den * 10 ^ scale.toNat) ≤ b.low * 10 ^ (-scale).toNat := by
    by_contra hlt
    have hhigh := Nat.mul_lt_mul_of_pos_right hb.lt_high hdown
    rw [holds_of_lt (not_le.mp hlt) (hfloor.trans_lt hhigh)] at hlower
    cases hlower
  have hhigh : b.high * 10 ^ (-scale).toNat ≤ (q + 1) * (b.den * 10 ^ scale.toNat) := by
    by_contra hlt
    have hlow := Nat.mul_lt_mul_of_pos_right hb.low_lt hdown
    rw [holds_of_lt (hlow.trans hceil) (not_le.mp hlt)] at hupper
    cases hupper
  have hwide := Nat.mul_lt_mul_of_pos_right hb.wide hdown
  rw [Nat.add_mul, Nat.mul_assoc, Nat.mul_assoc] at hwide
  rw [Nat.add_mul, Nat.one_mul] at hhigh
  omega

end Neighbourhood

/-! ### The search -/

/-- **A search ends with a hit** if one of the counts it tries has one. -/
theorem exists_digits_searchDigits {b : Neighbourhood} {tie : Tie} {place : ℤ} : ∀ {fuel count last : ℕ},
    count ≤ last → last < count + fuel → (∃ n, b.multiple? tie (place - last) = some n) →
      ∃ n scale, b.multiple? tie scale = some n ∧
        (searchDigits b tie place count fuel).digits = significantDigits n
  | 0, _, _, hle, hlt, _ => absurd hlt (by omega)
  | fuel + 1, count, last, hle, hlt, hlast => by
    unfold searchDigits
    split
    · next n hn => exact ⟨n, _, hn, rfl⟩
    · next hnone =>
      have hne : count ≠ last := by
        rintro rfl
        obtain ⟨n, hn⟩ := hlast
        rw [hnone] at hn
        cases hn
      exact exists_digits_searchDigits (by omega) (by omega) hlast

/-! ### Digits that begin a number -/

/-- Digits of which the first is not zero. -/
structure IsSignificant (ds : Text) : Prop where
  ne_nil : ds ≠ []
  isDigit : ∀ c ∈ ds, c.isDigit = true
  head?_ne : ds.head? ≠ some '0'

/-- **The digits of a positive number** are still some without the zeros at their end. -/
theorem isSignificant_significantDigits {n : ℕ} (h : 0 < n) : IsSignificant (significantDigits n) := by
  have hnumeral := Text.isNumeral_ofNat n
  obtain ⟨c, ds, hdigits⟩ := List.exists_cons_of_ne_nil hnumeral.ne_nil
  have hc : c ≠ '0' := by
    rintro rfl
    have hzero := Text.eq_zero_of_head?_ofNat n (by rw [hdigits]; rfl)
    omega
  have hprefix : significantDigits n <+: c :: ds := by
    rw [← hdigits]
    exact List.rdropWhile_prefix (· == '0') (l := Text.ofNat n)
  have hne : significantDigits n ≠ [] := by
    intro hnil
    have hall := List.rdropWhile_eq_nil_iff.mp (show (Text.ofNat n).rdropWhile (· == '0') = [] from hnil)
    have hzero := hall c (by rw [hdigits]; exact List.mem_cons_self)
    exact hc (beq_iff_eq.mp hzero)
  refine ⟨hne, fun d hd => hnumeral.isDigit d (hdigits ▸ hprefix.subset hd), fun hzero => hc ?_⟩
  obtain ⟨t, ht⟩ := hprefix
  rw [← Option.some_inj, ← hzero, ← List.head?_append_of_ne_nil _ hne, ht]
  rfl

/-- **The shortest digits of a positive number** begin with one that is not zero. -/
theorem isSignificant_shortest (tie : Tie) {m : ℕ} (hpos : 0 < m) (hm : m < 2 ^ 53) (e : ℤ) :
    IsSignificant (shortest tie m e).digits := by
  have hb := wide_neighbourhood hpos hm e
  have hplace := mul_pow_decimalPlace_le (hb.low_pos.trans hb.low_lt) hb.den_pos
  unfold shortest
  dsimp only
  generalize neighbourhood m e = b at hb hplace
  generalize decimalPlace b.value b.den = place at hplace
  have hseventeen : ∃ n, b.multiple? tie (place - (17 : ℕ)) = some n := by
    refine Neighbourhood.exists_multiple? hb tie ?_
    rwa [show place - (17 : ℕ) + 16 = place - 1 by push_cast; ring]
  obtain ⟨n, scale, hn, hdigits⟩ : ∃ n scale, b.multiple? tie scale = some n ∧
      (searchDigits b tie place 1 17).digits = significantDigits n :=
    exists_digits_searchDigits (by decide) (by decide) hseventeen
  rw [hdigits]
  exact isSignificant_significantDigits
    (Neighbourhood.pos_of_holds hb.low_pos (Neighbourhood.holds_of_multiple? hn))

end EditorSettings.Binary64
