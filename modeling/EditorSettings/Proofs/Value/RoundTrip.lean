import EditorSettings.Proofs.Value.Integers

/-!
# Values read back from their JSON text

Reading a JSON string takes back character by character what writing it did (`Value.stringBody?_jsonChar`), so
every text is read back from its JSON text, and so are truth values and the integers below `9 · 10 ^ 15`
(`Value.equals_ofRaw_json`).  The JSON text is tried first, so it does not matter whether the texts of a property
ignore case.
-/

namespace EditorSettings.Value

open Binary64

/-! ### Hexadecimal escapes -/

/-- A control character is written with two hexadecimal digits. -/
theorem hexDigits_eq {n : ℕ} (h : n < 0x20) : (if n < 0x10 then ['0'] else []) ++ Nat.toDigits 16 n =
    [Nat.digitChar (n / 16), Nat.digitChar (n % 16)] := by
  have hall : ∀ n < 0x20, (if n < 0x10 then ['0'] else []) ++ Nat.toDigits 16 n =
    [Nat.digitChar (n / 16), Nat.digitChar (n % 16)] := by decide +kernel
  exact hall n h

theorem hexDigit?_digitChar {n : ℕ} (h : n < 16) : hexDigit? (Nat.digitChar n) = some n := by
  have hall : ∀ n < 16, hexDigit? (Nat.digitChar n) = some n := by decide +kernel
  exact hall n h

theorem unicodeEscape?_control {c : Char} (h : c.toNat < 0x20) (t : Text) :
    unicodeEscape? ('0' :: '0' :: Nat.digitChar (c.toNat / 16) :: Nat.digitChar (c.toNat % 16) :: t) =
      some (c, t) := by
  have hzero : hexDigit? '0' = some 0 := by decide
  have hhigh := hexDigit?_digitChar (n := c.toNat / 16) (by omega)
  have hlow := hexDigit?_digitChar (n := c.toNat % 16) (by omega)
  have hvalue : ((0 * 16 + 0) * 16 + c.toNat / 16) * 16 + c.toNat % 16 = c.toNat := by omega
  have hsmall : c.toNat < 0xD800 ∨ 0xDFFF < c.toNat := by omega
  simp only [unicodeEscape?, hexUnit?, hzero, hhigh, hlow, hvalue, if_pos hsmall, Char.ofNat_toNat]

/-! ### Strings -/

theorem stringBody?_quote : stringBody? ['"'] = some [] := by
  rw [stringBody?, if_pos rfl, if_pos rfl]

theorem stringBody?_escape {t rest : Text} {c : Char} (h : escape? t = some (c, rest)) :
    stringBody? ('\\' :: t) = (stringBody? rest).map (c :: ·) := by
  rw [stringBody?, if_neg (by decide), if_pos rfl]
  split
  · next d rest' h' =>
    rw [h] at h'
    cases h'
    rfl
  · next h' =>
    rw [h] at h'
    cases h'

theorem stringBody?_cons {c : Char} (hmark : ¬ (c = '"' ∨ c = '\\')) (hcontrol : ¬ c.toNat < 0x20)
    (t : Text) : stringBody? (c :: t) = (stringBody? t).map (c :: ·) := by
  rw [not_or] at hmark
  rw [stringBody?, if_neg hmark.1, if_neg hmark.2, if_neg hcontrol]

theorem stringBody?_control {c : Char} (h : c.toNat < 0x20) (t : Text) :
    stringBody? ("\\u00".toList ++ (if c.toNat < 0x10 then ['0'] else []) ++ Nat.toDigits 16 c.toNat ++ t) =
      (stringBody? t).map (c :: ·) := by
  rw [List.append_assoc "\\u00".toList, hexDigits_eq h]
  exact stringBody?_escape (unicodeEscape?_control h t)

/-- **A written character is read back.** -/
theorem stringBody?_jsonChar (c : Char) (t : Text) :
    stringBody? (jsonChar c ++ t) = (stringBody? t).map (c :: ·) := by
  unfold jsonChar
  split_ifs with hmark hb ht hn hf hr hcontrol hshort
  · refine stringBody?_escape ?_
    rcases hmark with rfl | rfl <;> rfl
  · subst hb
    exact stringBody?_escape rfl
  · subst ht
    exact stringBody?_escape rfl
  · subst hn
    exact stringBody?_escape rfl
  · subst hf
    exact stringBody?_escape rfl
  · subst hr
    exact stringBody?_escape rfl
  · have hread := stringBody?_control hcontrol t
    rwa [if_pos hshort] at hread
  · have hread := stringBody?_control hcontrol t
    rwa [if_neg hshort] at hread
  · exact stringBody?_cons hmark hcontrol t

theorem stringBody?_flatMap (t : Text) : stringBody? (t.flatMap jsonChar ++ ['"']) = some t := by
  induction t with
  | nil => exact stringBody?_quote
  | cons c t ih => rw [List.flatMap_cons, List.append_assoc, stringBody?_jsonChar, ih, Option.map_some]

/-- **A JSON string is read as the text that was written.** -/
theorem ofJson?_jsonString (t : Text) : ofJson? (jsonString t) = some (text t) := by
  have hquote : isJsonBlank '"' = false := by decide
  have htrim : trimJson (jsonString t) = jsonString t := by
    refine trimJson_eq_self ?_ ?_
    · rintro _ ⟨⟩
      exact hquote
    · unfold jsonString
      rw [List.getLast?_concat]
      rintro _ ⟨⟩
      exact hquote
  have hscalar : scalar? (jsonString t) = (stringBody? (t.flatMap jsonChar ++ ['"'])).map text := rfl
  rw [ofJson?, htrim, hscalar, stringBody?_flatMap, Option.map_some]

/-! ### All values -/

/-- **Values that compare as equal**: values that are the same, unless they are no number, and the two zeros. -/
inductive Equals : Value → Value → Prop
  | same {v : Value} (h : v ≠ number nan) : Equals v v
  | zeros (a b : Bool) : Equals (number (finite a 0 minExponent)) (number (finite b 0 minExponent))

/-- Truth values, texts, and the doubles that are integers of magnitude below `9 · 10 ^ 15`. -/
inductive IsBasic : Value → Prop
  | bool (b : Bool) : IsBasic (bool b)
  | text (t : Text) : IsBasic (text t)
  | number {x : Binary64} {k : ℤ} (hx : x.IsDouble) (h : x.toRat? = some (k : ℚ))
    (hk : k.natAbs < 9 * 10 ^ 15) : IsBasic (number x)

theorem ofRaw_ofInt {k : ℤ} (h : k.natAbs < 2 ^ 53) (key : Text) :
    ofRaw key (Text.ofInt k) = number (ofRatio (decide (k < 0)) k.natAbs 1) := by
  have hsign : Text.ofInt k = signText (decide (k < 0)) ++ Text.ofNat k.natAbs := by
    cases k with
    | ofNat n => rfl
    | negSucc n =>
      rw [decide_eq_true (Int.negSucc_lt_zero n)]
      rfl
  have hvalue : Nat.ofDigitChars 10 (Text.ofNat k.natAbs) 0 = k.natAbs := Nat.ofDigitChars_ten_toDigits
  have hnumeral := Text.isNumeral_ofNat k.natAbs
  rw [hsign, ofRaw_signText_append hnumeral.ne_nil hnumeral.isDigit (by rwa [hvalue]), hvalue]

theorem ofRaw_of_ofJson? {raw : Text} {v : Value} (h : ofJson? raw = some v) (key : Text) :
    ofRaw key raw = v := by
  rw [ofRaw, h]

/-- **A value is read back from its JSON text**, whatever its key is. -/
theorem equals_ofRaw_json {v : Value} (h : v.IsBasic) (key : Text) : Equals (ofRaw key v.json) v := by
  cases h with
  | bool b =>
    have hread : ofJson? (Value.bool b).json = some (.bool b) := by cases b <;> decide +kernel
    rw [ofRaw_of_ofJson? hread]
    exact .same fun h => by cases h
  | text t =>
    rw [json, ofRaw_of_ofJson? (ofJson?_jsonString t)]
    exact .same fun h => by cases h
  | @number x k hx h hk =>
    have hint := toRat?_eq_some_iff.mp h
    have hlt : k.natAbs < 2 ^ 53 := by omega
    have hnan : x ≠ nan := by
      rintro rfl
      cases hint
    rw [json, json_of_toInt? hint hk, ofRaw_ofInt hlt]
    obtain ⟨negative, rfl, hsign⟩ := hx.exists_eq_ofRatio hint hlt
    rcases Nat.eq_zero_or_pos k.natAbs with hzero | hpos
    · rw [hzero]
      exact .zeros _ negative
    · have hnegative : decide (k < 0) = negative := by
        rw [hsign]
        exact decide_signed_lt_zero hpos negative
      rw [hnegative]
      exact .same fun he => hnan (number.inj he)

/-- A text of quotes, backslashes, control characters with and without letters of their own, and characters
from every plane that look like JSON. -/
def escapedText : Text := "\"Tab\\ \x00\t\x1f\x7f\u2028\\u0041😀 true".toList

theorem equals_ofRaw_json_escapedText :
    IsBasic (text escapedText) ∧
      Equals (ofRaw "indent_style".toList (text escapedText).json) (text escapedText) ∧
      (text escapedText).json =
        "\"\\\"Tab\\\\ \\u0000\\t\\u001f\x7f\u2028\\\\u0041😀 true\"".toList ∧
      IsBasic (number (ofBits 0xC33FF973CAFA7FFF)) ∧
      Equals (ofRaw [] (number (ofBits 0xC33FF973CAFA7FFF)).json) (number (ofBits 0xC33FF973CAFA7FFF)) ∧
      (number (ofBits 0xC33FF973CAFA7FFF)).json = "-8999999999999999".toList ∧
      IsBasic (number (ofBits 0x8000000000000000)) ∧
      Equals (ofRaw [] (number (ofBits 0x8000000000000000)).json) (number (ofBits 0x8000000000000000)) := by
  have htext : IsBasic (text escapedText) := .text escapedText
  have hleast : IsBasic (number (ofBits 0xC33FF973CAFA7FFF)) :=
    .number (k := -8999999999999999) ⟨_, rfl⟩ (toRat?_eq_some_iff.mpr (by decide +kernel)) (by norm_num)
  have hzero : IsBasic (number (ofBits 0x8000000000000000)) :=
    .number (k := 0) ⟨_, rfl⟩ (toRat?_eq_some_iff.mpr (by decide +kernel)) (by norm_num)
  exact ⟨htext, equals_ofRaw_json htext _, by decide +kernel, hleast, equals_ofRaw_json hleast [],
    by decide +kernel, hzero, equals_ofRaw_json hzero []⟩

end EditorSettings.Value
