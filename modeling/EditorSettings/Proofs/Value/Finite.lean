import EditorSettings.Proofs.Binary64.Texts
import EditorSettings.Proofs.Value.Integers
import EditorSettings.Proofs.Value.Reading

/-!
# Numbers that are finite

JSON numbers out of range are no numbers, so their texts are kept as texts.  Padded integers are not tested in
this way: `Text.Overflows` says which of them are too great, and these are read as an infinity
(`Value.ofRaw_of_overflows`).  Every other number that is read is finite, and both its texts are decimal numbers
(`Value.isFinite_iff_of_ofRaw`).
-/

namespace EditorSettings

open Binary64

/-- **An integer with zeros in front that is too great for a double.** -/
def Text.Overflows (raw : Text) : Prop :=
  ∃ (negative : Bool) (digits : Text), raw = signText negative ++ '0' :: digits ∧ digits ≠ [] ∧
    (∀ c ∈ digits, c.isDigit = true) ∧ overflowBound ≤ Nat.ofDigitChars 10 digits 0

namespace Value

/-! ### Padded integers -/

theorem ofDigitChars_cons_zero (digits : Text) :
    Nat.ofDigitChars 10 ('0' :: digits) 0 = Nat.ofDigitChars 10 digits 0 := Nat.ofDigitChars_cons

/-- What a padded integer is made of. -/
theorem exists_digits_of_paddedInteger? {raw : Text} {x : Binary64} (h : paddedInteger? raw = some x) :
    ∃ (negative : Bool) (digits : Text), raw = signText negative ++ '0' :: digits ∧ digits ≠ [] ∧
      (∀ c ∈ digits, c.isDigit = true) ∧ x = ofDecimal negative (Nat.ofDigitChars 10 digits 0) 0 := by
  obtain ⟨negative, hsign⟩ : ∃ negative, raw = signText negative ++ withoutMinus raw ∧
      (raw.head? == some '-') = negative := by
    rcases raw with _ | ⟨c, t⟩
    · exact ⟨false, rfl, rfl⟩
    · by_cases hc : c = '-'
      · exact ⟨true, by rw [withoutMinus, if_pos hc, hc]; rfl, beq_iff_eq.mpr (congrArg some hc)⟩
      · refine ⟨false, by rw [withoutMinus, if_neg hc]; rfl, ?_⟩
        rw [beq_eq_false_iff_ne]
        exact fun h => hc (Option.some.inj h)
  unfold paddedInteger? at h
  dsimp only at h
  split_ifs at h with hpadded
  obtain ⟨hlen, hzero, hdigits⟩ := hpadded
  obtain ⟨digits, hcons⟩ := List.head?_eq_some_iff.mp hzero
  rw [hsign.2, hcons, ofDigitChars_cons_zero] at h
  rw [hcons] at hsign hlen hdigits
  refine ⟨negative, digits, hsign.1, ?_, ?_, (Option.some.inj h).symm⟩
  · rintro rfl
    exact absurd hlen (by decide)
  · exact fun c hc => List.all_eq_true.mp hdigits c (List.mem_cons_of_mem _ hc)

/-- **A padded integer that is too great** is read as an infinity. -/
theorem ofRaw_of_overflows {raw : Text} (h : raw.Overflows) (key : Text) :
    ∃ negative, ofRaw key raw = number (infinite negative) := by
  obtain ⟨negative, digits, rfl, hne, hdigits, hbound⟩ := h
  obtain ⟨c, t, rfl⟩ := List.exists_cons_of_ne_nil hne
  have hall : ∀ d ∈ '0' :: c :: t, d.isDigit = true := List.forall_mem_cons.mpr ⟨rfl, hdigits⟩
  have hzeros : isWholePart ('0' :: c :: t) = false := rfl
  have hcons : ('0' :: c :: t : Text) ≠ [] := List.cons_ne_nil _ _
  have hjson : ofJson? (signText negative ++ '0' :: c :: t) = none := by
    rw [ofJson?_digits hcons hall, magnitude?_of_not_isWholePart hall hzeros]
    rfl
  have hpadded := paddedInteger?_digits hcons hall negative hzeros
  rw [ofDigitChars_cons_zero] at hpadded
  have hlarge := (isFinite_ofDecimal_iff negative _).not.mpr (not_lt.mpr hbound)
  rw [eq_infinite_of_ofDecimal hlarge] at hpadded
  rw [ofRaw, hjson, hpadded]
  exact ⟨negative, rfl⟩

/-! ### All numbers -/

theorem fits_divPowers {k : ℕ} : ∀ {rounds : ℕ} {x : Binary64}, x.Fits → (divPowers k rounds x).Fits
  | 0, x, _ => fits_div x _
  | rounds + 1, x, h => by
    rw [divPowers]
    split_ifs
    · exact h
    · exact fits_divPowers (fits_div x _)

/-- **A number that is computed from its parts** has a mantissa of 53 bits at most. -/
theorem fits_of_ofParts? {negative : Bool} {significand : ℕ} {exponent : ℤ} {x : Binary64}
    (h : ofParts? negative significand exponent = some x) : x.Fits := by
  have hsignificand : (ofRatio negative significand 1).Fits := fits_ofRatio Nat.one_pos negative
  unfold ofParts? at h
  dsimp only at h
  split_ifs at h
  · exact Option.some.inj h ▸ hsignificand
  · exact Option.some.inj h ▸ hsignificand
  · exact Option.some.inj h ▸ fits_mul _ _
  · exact Option.some.inj h ▸ fits_divPowers hsignificand

theorem isFinite_of_ofJson? {raw : Text} {x : Binary64} (h : ofJson? raw = some (number x)) :
    x.isFinite = true ∧ x.Fits := by
  rcases scalar?_cases h with ⟨-, hv⟩ | ⟨-, hv⟩ | ⟨body, s, -, -, hv⟩ | ⟨y, hy, hv⟩
  · cases hv
  · cases hv
  · cases hv
  · obtain ⟨hfinite, -, negative, significand, exponent, hparts⟩ := exists_of_jsonNumber? hy
    obtain rfl := number.inj hv
    exact ⟨hfinite, fits_of_ofParts? hparts⟩

/-- A number that is read is finite, or its text is a padded integer that is too great. -/
theorem fits_of_ofRaw {key raw : Text} {x : Binary64} (h : ofRaw key raw = number x) :
    x.Fits ∧ (x.isFinite = true ∨ raw.Overflows) := by
  rcases ofRaw_cases key raw with hjson | ⟨y, hpadded, hy⟩ | htext
  · obtain ⟨hfinite, hfits⟩ := isFinite_of_ofJson? (h ▸ hjson)
    exact ⟨hfits, .inl hfinite⟩
  · obtain ⟨negative, digits, rfl, hne, hdigits, rfl⟩ := exists_digits_of_paddedInteger? hpadded
    obtain rfl := number.inj (h.symm.trans hy)
    refine ⟨fits_ofDecimal _ _ _, ?_⟩
    rw [isFinite_ofDecimal_iff]
    rcases Nat.lt_or_ge (Nat.ofDigitChars 10 digits 0) overflowBound with hlt | hge
    · exact .inl hlt
    · exact .inr ⟨negative, digits, rfl, hne, hdigits, hge⟩
  · rw [h] at htext
    cases htext

/-- **Numbers are finite** unless their text is a padded integer that is too great, and the texts of finite ones
are decimal numbers. -/
theorem isFinite_iff_of_ofRaw {key raw : Text} {x : Binary64} (h : ofRaw key raw = number x) :
    (x.isFinite = true ↔ ¬ raw.Overflows) ∧
      (¬ raw.Overflows → (ofRaw key raw).display.IsNumber ∧ (ofRaw key raw).json.IsNumber ∧
        (ofRaw key raw).json ≠ "null".toList) := by
  obtain ⟨hfits, hcases⟩ := fits_of_ofRaw h
  have hiff : x.isFinite = true ↔ ¬ raw.Overflows := by
    constructor
    · intro hfinite hover
      obtain ⟨negative, hinfinite⟩ := ofRaw_of_overflows hover key
      obtain rfl := number.inj (h.symm.trans hinfinite)
      cases hfinite
    · exact fun hover => hcases.resolve_right hover
  refine ⟨hiff, fun hover => ?_⟩
  rw [h]
  have hfinite := hiff.mpr hover
  have hjson := isNumber_json hfinite hfits
  refine ⟨isNumber_display hfinite hfits, hjson, fun hnull => ?_⟩
  obtain ⟨c, hc, hbegin⟩ := hjson.head?
  rw [show x.json = "null".toList from hnull] at hc
  obtain rfl := Option.some.inj hc
  exact absurd hbegin (by decide)

/-- A padded integer that is almost too great. -/
def largeText : Text := "-0017976931348623158".toList ++ List.replicate 292 '0'

theorem isFinite_iff_of_ofRaw_largeText : ∃ x, ofRaw [] largeText = number x ∧ x.isFinite = true ∧
    ¬ largeText.Overflows ∧ (ofRaw [] largeText).display.IsNumber ∧ (ofRaw [] largeText).json.IsNumber ∧
    (ofRaw [] largeText).json ≠ "null".toList := by
  have h : ofRaw [] largeText = number (finite true 9007199254740991 971) := by decide +kernel
  obtain ⟨hfinite, htexts⟩ := isFinite_iff_of_ofRaw h
  have hover : ¬ largeText.Overflows := hfinite.mp rfl
  exact ⟨_, h, rfl, hover, htexts hover⟩

/-- A padded integer that is read as an infinity; no shorter one is. -/
def tooLargeText : Text := '0' :: '2' :: List.replicate 308 '0'

/-- **A padded integer can be read as an infinity**, which is displayed as a word and is `null` in JSON. -/
theorem ofRaw_tooLargeText : ∃ x, ofRaw "my_custom".toList tooLargeText = number x ∧ x.isFinite = false ∧
    (ofRaw "my_custom".toList tooLargeText).display = "inf".toList ∧ ¬ Text.IsNumber "inf".toList ∧
    (ofRaw "my_custom".toList tooLargeText).json = "null".toList := by
  have h : ofRaw "my_custom".toList tooLargeText = number (infinite false) := by decide +kernel
  refine ⟨_, h, rfl, by rw [h]; rfl, fun hinf => ?_, by rw [h]; rfl⟩
  obtain ⟨c, hc, hbegin⟩ := hinf.head?
  obtain rfl := Option.some.inj hc
  exact absurd hbegin (by decide)

end Value

end EditorSettings
