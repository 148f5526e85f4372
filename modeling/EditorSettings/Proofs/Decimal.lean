import EditorSettings.Text.Integer
import Mathlib.Data.List.Induction
import Mathlib.Tactic.SplitIfs

/-!
# Canonical decimal forms

The texts that `ofInt` makes are those that look like a decimal and have no shorter spelling: ASCII
digits, none of them a zero in front of others, and a minus sign before a positive number if at all
(`isDecimalOf_iff`).
-/

namespace EditorSettings.Text

/-- ASCII digits without a zero in front of others. -/
structure IsNumeral (t : Text) : Prop where
  ne_nil : t ≠ []
  isDigit : ∀ c ∈ t, c.isDigit = true
  eq_zero : t.head? = some '0' → t = ['0']

/-- The canonical decimal form of an integer, by its looks: a numeral, with a minus sign before that of
a positive number if the integer is negative. -/
inductive IsDecimalOf : Int → Text → Prop
  | nonneg {t : Text} (h : IsNumeral t) : IsDecimalOf (Nat.ofDigitChars 10 t 0 : Nat) t
  | neg {t : Text} (h : IsNumeral t) (hpos : 0 < Nat.ofDigitChars 10 t 0) :
    IsDecimalOf (-(Nat.ofDigitChars 10 t 0 : Nat)) ('-' :: t)

/-! ### Digits of a natural number -/

theorem eq_zero_of_head?_ofNat (n : Nat) : (ofNat n).head? = some '0' → n = 0 := by
  induction n using Nat.strongRecOn with
  | ind n ih =>
    intro h
    rw [ofNat, Nat.toDigits_eq_if (by decide)] at h
    split_ifs at h with hn
    · have hdigit : ∀ m < 10, Nat.digitChar m = '0' → m = 0 := by decide
      exact hdigit n hn (Option.some.inj h)
    · -- the first digit is that of `n / 10`, which is not zero
      have hhead : (ofNat (n / 10)).head? = some '0' := by
        rwa [List.head?_append, Option.or_of_isSome (List.isSome_head?.mpr Nat.toDigits_ne_nil)] at h
      have := ih (n / 10) (by omega) hhead
      omega

theorem isNumeral_ofNat (n : Nat) : IsNumeral (ofNat n) where
  ne_nil := Nat.toDigits_ne_nil
  isDigit _ hc := Nat.isDigit_of_mem_toDigits (by decide) (by decide) hc
  eq_zero h := by
    rw [eq_zero_of_head?_ofNat n h]
    rfl

theorem digitChar_sub_zero {c : Char} (h : c.isDigit = true) :
    c.toNat - '0'.toNat < 10 ∧ Nat.digitChar (c.toNat - '0'.toNat) = c := by
  have hzero : '0'.toNat = 48 := rfl
  obtain ⟨h1, h2⟩ := toNat_of_isDigit h
  refine ⟨by omega, Char.toNat_inj.mp ?_⟩
  rw [Nat.toNat_digitChar_of_lt_ten (by omega)]
  omega

/-- A numeral is what its value is written as. -/
theorem ofNat_ofDigitChars {t : Text} (h : IsNumeral t) : ofNat (Nat.ofDigitChars 10 t 0) = t := by
  induction t using List.reverseRecOn with
  | nil => exact absurd rfl h.ne_nil
  | append_singleton s c ih =>
    obtain ⟨hlt, hc⟩ := digitChar_sub_zero (h.isDigit c (by simp))
    rw [Nat.ofDigitChars_append, Nat.ofDigitChars_cons, Nat.ofDigitChars_nil]
    by_cases hs : s = []
    · subst hs
      rw [Nat.ofDigitChars_nil, Nat.mul_zero, Nat.zero_add, ofNat, Nat.toDigits_of_lt_base hlt, hc]
      rfl
    · -- `s` has no zero in front, or the zero would be all of `s ++ [c]`
      have hhead : s.head? ≠ some '0' := by
        intro h0
        have hall := h.eq_zero (by rw [List.head?_append, h0]; rfl)
        have hlen := congrArg List.length hall
        have := List.length_pos_iff.mpr hs
        simp only [List.length_append, List.length_singleton] at hlen
        omega
      have hvalue := ih ⟨hs, fun d hd => h.isDigit d (by simp [hd]), fun h0 => absurd h0 hhead⟩
      have hpos : 0 < Nat.ofDigitChars 10 s 0 := by
        rcases Nat.eq_zero_or_pos (Nat.ofDigitChars 10 s 0) with h0 | hpos
        · rw [h0] at hvalue
          exact absurd (hvalue ▸ rfl) hhead
        · exact hpos
      rw [ofNat, ← Nat.toDigits_append_toDigits (by decide) hpos hlt, ← ofNat, hvalue,
        Nat.toDigits_of_lt_base hlt, hc]

/-! ### Integers -/

theorem ofInt_neg {n : Nat} (h : 0 < n) : ofInt (-(n : Int)) = '-' :: ofNat n := by
  obtain ⟨m, rfl⟩ := Nat.exists_eq_add_one.mpr h
  rfl

/-- **The canonical decimal form of an integer has the looks of one, and nothing else has.** -/
theorem isDecimalOf_iff {v : Int} {t : Text} : IsDecimalOf v t ↔ t = ofInt v := by
  constructor
  · rintro (h | ⟨h, hpos⟩)
    · exact (ofNat_ofDigitChars h).symm
    · rw [ofInt_neg hpos, ofNat_ofDigitChars h]
  · rintro rfl
    have hvalue : ∀ n : Nat, Nat.ofDigitChars 10 (ofNat n) 0 = n := fun _ => Nat.ofDigitChars_ten_toDigits
    cases v with
    | ofNat n =>
      have h := IsDecimalOf.nonneg (isNumeral_ofNat n)
      rwa [hvalue] at h
    | negSucc n =>
      have h := IsDecimalOf.neg (isNumeral_ofNat (n + 1)) (by rw [hvalue]; exact n.succ_pos)
      rwa [hvalue] at h

/-- A canonical decimal form is made of ASCII digits and perhaps a minus sign. -/
theorem IsDecimalOf.isDigit_or_eq_hyphen {v : Int} {t : Text} (h : IsDecimalOf v t) :
    t ≠ [] ∧ ∀ c ∈ t, c.isDigit = true ∨ c = '-' := by
  rcases h with h | ⟨h, -⟩
  · exact ⟨h.ne_nil, fun c hc => .inl (h.isDigit c hc)⟩
  · exact ⟨List.cons_ne_nil _ _, List.forall_mem_cons.mpr ⟨.inr rfl, fun c hc => .inl (h.isDigit c hc)⟩⟩

end EditorSettings.Text
