import EditorSettings.Proofs.Binary64.Integers
import EditorSettings.Proofs.Decimal
import EditorSettings.Proofs.Text
import EditorSettings.Value.Raw
import Mathlib.Data.List.TakeWhile

/-!
# Integers as values

A text may spell an integer with zeros in front (`Text.Spells`).  A spelling without them is a JSON number,
any other one is read as a padded integer; either way the value is the integer
(`Value.ofRaw_signText_append`), and it is displayed and written in its canonical decimal form, whatever the
spelling was (`Value.ofRaw_of_spells`).
-/

namespace EditorSettings

/-- **A text spells an integer**: with a minus sign or without one, in decimal digits, any number of which may
be zeros in front of the others. -/
def Text.Spells (t : Text) (n : ℤ) : Prop :=
  ∃ (negative : Bool) (digits : Text), t = Binary64.signText negative ++ digits ∧ digits ≠ [] ∧
    (∀ c ∈ digits, c.isDigit = true) ∧ n = Binary64.signed negative (Nat.ofDigitChars 10 digits 0)

namespace Value

open Binary64

/-! ### The ends of a JSON text -/

/-- A text that does not begin or end with a JSON blank is not trimmed. -/
theorem trimJson_eq_self {t : Text} (hs : ∀ c ∈ t.head?, isJsonBlank c = false)
    (he : ∀ c ∈ t.getLast?, isJsonBlank c = false) : trimJson t = t := by
  rw [trimJson, Text.dropWhile_eq_self_iff.mpr hs, Text.reverse_dropWhile_reverse_eq_self_iff.mpr he]

/-! ### Digits -/

/-- Digits that fit in 64 bits are all taken. -/
theorem fill_eq : ∀ {digits : Text} {n : ℕ}, Nat.ofDigitChars 10 digits n < 2 ^ 64 →
    fill n digits = (Nat.ofDigitChars 10 digits n, [])
  | [], _, _ => rfl
  | c :: t, n, h => by
    rw [Nat.ofDigitChars_cons] at h ⊢
    -- What has been read so far is not greater than the whole.
    have hnext : 10 * n + (c.toNat - '0'.toNat) < Nat.pow 2 64 := by
      refine lt_of_le_of_lt ?_ h
      rw [Nat.ofDigitChars_eq_ofDigitChars_zero]
      exact (Nat.le_mul_of_pos_left _ (Nat.pow_pos (by decide))).trans (Nat.le_add_right _ _)
    rw [fill, if_pos hnext, fill_eq h]

section Digits

variable {digits : Text} (hne : digits ≠ []) (hdigits : ∀ c ∈ digits, c.isDigit = true)
include hdigits

theorem splitDigits_eq : splitDigits digits = (digits, []) :=
  Prod.ext (List.takeWhile_eq_self_iff.mpr hdigits) (List.dropWhile_eq_nil_iff.mpr hdigits)

/-- A zero in front of other digits is refused. -/
theorem magnitude?_of_not_isWholePart (h : isWholePart digits = false) (negative : Bool) :
    magnitude? negative digits = none := by
  unfold magnitude?
  dsimp only
  rw [splitDigits_eq hdigits, h]
  rfl

/-- Digits that fit in 64 bits are rounded once. -/
theorem magnitude?_digits (hlt : Nat.ofDigitChars 10 digits 0 < 2 ^ 64) (h : isWholePart digits = true)
    (negative : Bool) :
    magnitude? negative digits = some (ofRatio negative (Nat.ofDigitChars 10 digits 0) 1) := by
  unfold magnitude?
  dsimp only
  rw [splitDigits_eq hdigits, h, if_pos rfl]
  dsimp only [splitFraction?, exponent?]
  rw [fill_eq hlt]
  rfl

include hne

theorem exists_digit_cons : ∃ c t, digits = c :: t ∧ c.isDigit = true := by
  obtain ⟨c, t, rfl⟩ := List.exists_cons_of_ne_nil hne
  exact ⟨c, t, rfl, hdigits c List.mem_cons_self⟩

theorem jsonNumber?_digits (negative : Bool) :
    jsonNumber? (signText negative ++ digits) = (magnitude? negative digits).filter isFinite := by
  cases negative with
  | true => rfl
  | false =>
    obtain ⟨c, t, rfl, hc⟩ := exists_digit_cons hne hdigits
    unfold jsonNumber?
    split
    · next h =>
      obtain rfl := (List.cons.inj h).1
      cases hc
    · rfl

theorem scalar?_digits (negative : Bool) : scalar? (signText negative ++ digits) =
    ((magnitude? negative digits).filter isFinite).map number := by
  obtain ⟨c, t, ht, hc⟩ : ∃ c t, signText negative ++ digits = c :: t ∧ (c = '-' ∨ c.isDigit = true) := by
    obtain ⟨c, t, rfl, hc⟩ := exists_digit_cons hne hdigits
    cases negative
    · exact ⟨c, t, rfl, .inr hc⟩
    · exact ⟨'-', c :: t, rfl, .inl rfl⟩
  have hnot {w : Text} {d : Char} (hw : w.head? = some d) (hd : ¬ (d = '-' ∨ d.isDigit = true)) :
      c :: t ≠ w := by
    rintro rfl
    exact hd (Option.some.inj hw ▸ hc)
  have htrue : c :: t ≠ "true".toList := hnot rfl (d := 't') (by decide)
  have hfalse : c :: t ≠ "false".toList := hnot rfl (d := 'f') (by decide)
  rw [← jsonNumber?_digits hne hdigits, ht, scalar?, if_neg htrue, if_neg hfalse]
  exact fun rest => hnot rfl (by decide)

theorem ofJson?_digits (negative : Bool) : ofJson? (signText negative ++ digits) =
    ((magnitude? negative digits).filter isFinite).map number := by
  have hblank : ∀ c ∈ signText negative ++ digits, isJsonBlank c = false := by
    intro c hc
    rcases List.mem_append.mp hc with hc | hc
    · cases negative
      · cases hc
      · rw [List.mem_singleton.mp hc]
        rfl
    · rw [← Bool.not_eq_true]
      intro hb
      simp only [isJsonBlank, Bool.or_eq_true, beq_iff_eq] at hb
      have hdigit := hdigits c hc
      rcases hb with ((rfl | rfl) | rfl) | rfl <;> cases hdigit
  rw [ofJson?, trimJson_eq_self (fun c hc => hblank c (List.mem_of_mem_head? hc))
    fun c hc => hblank c (List.mem_of_getLast? hc), scalar?_digits hne hdigits]

/-- Digits that are no whole part of a JSON number have a zero in front. -/
theorem padded_of_not_isWholePart (h : isWholePart digits = false) :
    1 < digits.length ∧ digits.head? = some '0' := by
  obtain ⟨c, t, rfl, -⟩ := exists_digit_cons hne hdigits
  rcases t with _ | ⟨d, t⟩
  · by_cases hc : c = '0'
    · subst hc
      cases h
    · simp [isWholePart, hc] at h
  · have hc : c = '0' := by simpa [isWholePart] using h
    exact ⟨by simp, by rw [hc]; rfl⟩

theorem paddedInteger?_digits (negative : Bool) (h : isWholePart digits = false) :
    paddedInteger? (signText negative ++ digits) =
      some (ofDecimal negative (Nat.ofDigitChars 10 digits 0) 0) := by
  obtain ⟨hlen, hzero⟩ := padded_of_not_isWholePart hne hdigits h
  have hsign : withoutMinus (signText negative ++ digits) = digits ∧
      ((signText negative ++ digits).head? == some '-') = negative := by
    cases negative
    · obtain ⟨t, rfl⟩ := List.head?_eq_some_iff.mp hzero
      exact ⟨rfl, rfl⟩
    · exact ⟨rfl, rfl⟩
  unfold paddedInteger?
  dsimp only
  rw [hsign.1, hsign.2, if_pos ⟨hlen, hzero, List.all_eq_true.mpr hdigits⟩]

/-- **Digits are read as the number that they are**, with or without zeros in front. -/
theorem ofRaw_signText_append (hlt : Nat.ofDigitChars 10 digits 0 < 2 ^ 53) (key : Text)
    (negative : Bool) : ofRaw key (signText negative ++ digits) =
      number (ofRatio negative (Nat.ofDigitChars 10 digits 0) 1) := by
  rw [ofRaw, ofJson?_digits hne hdigits]
  cases hwhole : isWholePart digits with
  | true =>
    have hfinite := isFinite_of_toInt? (toInt?_ofRatio_one hlt negative)
    rw [magnitude?_digits hdigits (hlt.trans (by decide)) hwhole, Option.filter_some_pos hfinite]
    rfl
  | false =>
    rw [magnitude?_of_not_isWholePart hdigits hwhole, paddedInteger?_digits hne hdigits negative hwhole,
      ofDecimal_zero hlt]
    rfl

end Digits

/-! ### Spelled integers -/

/-- **Integers survive reading and printing.**  A text that spells an integer of magnitude below `9 · 10 ^ 15`
is, under every key, a number that is this integer, and both texts of the value are the canonical decimal
form of the integer. -/
theorem ofRaw_of_spells {raw : Text} {n : ℤ} (h : raw.Spells n) (hn : n.natAbs < 9 * 10 ^ 15)
    (key : Text) : ∃ x : Binary64, ofRaw key raw = number x ∧ x.toRat? = some (n : ℚ) ∧
      Text.IsDecimalOf n (ofRaw key raw).display ∧ Text.IsDecimalOf n (ofRaw key raw).json := by
  obtain ⟨negative, digits, rfl, hne, hdigits, rfl⟩ := h
  rw [natAbs_signed] at hn
  have hlt : Nat.ofDigitChars 10 digits 0 < 2 ^ 53 := by omega
  have hint := toInt?_ofRatio_one hlt negative
  rw [ofRaw_signText_append hne hdigits hlt]
  refine ⟨_, rfl, toRat?_eq_some_iff.mpr hint, ?_, ?_⟩
  · rw [Text.isDecimalOf_iff]
    exact display_of_toInt? hint (by rw [natAbs_signed]; omega)
  · rw [Text.isDecimalOf_iff]
    exact json_of_toInt? hint (by rwa [natAbs_signed])

/-- The least integer of the range with more zeros in front than a double has digits. -/
def paddedText : Text := "-00000000000000000000000000008999999999999999".toList

theorem ofRaw_of_spells_paddedText :
    paddedText.Spells (-8999999999999999) ∧ (-8999999999999999 : ℤ).natAbs < 9 * 10 ^ 15 ∧
      (∃ x : Binary64, ofRaw "indent_size".toList paddedText = number x ∧
        x.toRat? = some ((-8999999999999999 : ℤ) : ℚ) ∧
        Text.IsDecimalOf (-8999999999999999) (ofRaw "indent_size".toList paddedText).display ∧
        Text.IsDecimalOf (-8999999999999999) (ofRaw "indent_size".toList paddedText).json) ∧
      Text.Spells "-0".toList 0 ∧
      ∃ x : Binary64, ofRaw [] "-0".toList = number x ∧ x.toRat? = some ((0 : ℤ) : ℚ) ∧
        Text.IsDecimalOf 0 (ofRaw [] "-0".toList).display ∧ Text.IsDecimalOf 0 (ofRaw [] "-0".toList).json := by
  have hpadded : paddedText.Spells (-8999999999999999) :=
    ⟨true, "00000000000000000000000000008999999999999999".toList, rfl, by decide,
      List.all_eq_true.mp (by decide +kernel), by decide +kernel⟩
  have hlt : (-8999999999999999 : ℤ).natAbs < 9 * 10 ^ 15 := by norm_num
  have hzero : Text.Spells "-0".toList 0 :=
    ⟨true, ['0'], rfl, by decide, List.all_eq_true.mp (by decide), rfl⟩
  exact ⟨hpadded, hlt, ofRaw_of_spells hpadded hlt _, hzero, ofRaw_of_spells hzero (by norm_num) []⟩

end Value

end EditorSettings
