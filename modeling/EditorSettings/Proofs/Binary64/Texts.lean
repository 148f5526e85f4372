import EditorSettings.Proofs.Binary64.Shortest

/-!
# The texts of a finite number are numbers

`Text.IsNumber` says which texts are decimal numbers, in the grammar of JSON: an integer without needless zeros,
then perhaps a fraction, then perhaps an exponent.  Both texts of a finite double-precision number are such
numbers (`Binary64.isNumber_display`, `Binary64.isNumber_json`), since its shortest digits begin with one that is
not zero.
-/

namespace EditorSettings

namespace Text

/-- Nothing, or a decimal point with digits. -/
inductive IsFraction : Text → Prop
  | none : IsFraction []
  | point {ds : Text} (hne : ds ≠ []) (h : ∀ c ∈ ds, c.isDigit = true) : IsFraction ('.' :: ds)

/-- Nothing, or an exponent with its sign. -/
inductive IsExponent : Text → Prop
  | none : IsExponent []
  | signed {sign : Char} {ds : Text} (hsign : sign = '+' ∨ sign = '-') (h : IsNumeral ds) :
    IsExponent ('e' :: sign :: ds)

/-- **A decimal number**, with a minus sign or without one. -/
def IsNumber (t : Text) : Prop :=
  ∃ (negative : Bool) (whole fraction exponent : Text),
    t = Binary64.signText negative ++ (whole ++ (fraction ++ exponent)) ∧
      IsNumeral whole ∧ IsFraction fraction ∧ IsExponent exponent

/-- A number begins with a digit or a minus sign, so it is no word. -/
theorem IsNumber.head? {t : Text} (h : t.IsNumber) : ∃ c, t.head? = some c ∧ (c.isDigit = true ∨ c = '-') := by
  obtain ⟨negative, whole, fraction, exponent, rfl, hwhole, -, -⟩ := h
  cases negative with
  | true => exact ⟨'-', rfl, .inr rfl⟩
  | false =>
    obtain ⟨c, ds, rfl⟩ := List.exists_cons_of_ne_nil hwhole.ne_nil
    exact ⟨c, rfl, .inl (hwhole.isDigit c List.mem_cons_self)⟩

theorem isNumber_ofInt (n : ℤ) : (ofInt n).IsNumber := by
  cases n with
  | ofNat n =>
    refine ⟨false, ofNat n, [], [], ?_, isNumeral_ofNat n, .none, .none⟩
    simp [ofInt, Binary64.signText]
  | negSucc n =>
    refine ⟨true, ofNat (n + 1), [], [], ?_, isNumeral_ofNat (n + 1), .none, .none⟩
    simp [ofInt, Binary64.signText]

end Text

namespace Binary64

open Text

theorem isDigit_of_mem_replicate {n : ℕ} {c : Char} (h : c ∈ List.replicate n '0') : c.isDigit = true := by
  rw [List.eq_of_mem_replicate h]
  rfl

namespace IsSignificant

variable {ds : Text} (hds : IsSignificant ds)
include hds

/-- Digits that begin with one that is not zero, followed by others. -/
theorem isNumeral_append {es : Text} (hes : ∀ c ∈ es, c.isDigit = true) : IsNumeral (ds ++ es) where
  ne_nil := List.append_ne_nil_of_left_ne_nil hds.ne_nil es
  isDigit := List.forall_mem_append.mpr ⟨hds.isDigit, hes⟩
  eq_zero h := by
    rw [List.head?_append_of_ne_nil _ hds.ne_nil] at h
    exact absurd h hds.head?_ne

theorem isNumeral_take {n : ℕ} (hn : 0 < n) : IsNumeral (ds.take n) where
  ne_nil := by
    rw [ne_eq, List.take_eq_nil_iff, not_or]
    exact ⟨hn.ne', hds.ne_nil⟩
  isDigit c hc := hds.isDigit c (List.mem_of_mem_take hc)
  eq_zero h := by
    rw [List.head?_take, if_neg hn.ne'] at h
    exact absurd h hds.head?_ne

end IsSignificant

/-! ### Layouts -/

variable {d : Decimal} (hd : IsSignificant d.digits) (negative : Bool)
include hd

theorem isNumber_positional {wholeEnd : Text} (he : IsFraction wholeEnd) :
    IsNumber (signText negative ++ d.positional wholeEnd) := by
  unfold Decimal.positional
  dsimp only
  split_ifs with hplace hlen
  · refine ⟨negative, ['0'], '.' :: (List.replicate (-d.place).toNat '0' ++ d.digits), [], by simp, ?_, ?_, .none⟩
    · exact isNumeral_ofNat 0
    · refine .point (List.append_ne_nil_of_right_ne_nil _ hd.ne_nil) ?_
      exact List.forall_mem_append.mpr ⟨fun _ => isDigit_of_mem_replicate, hd.isDigit⟩
  · exact ⟨negative, d.digits ++ List.replicate (d.place.toNat - d.digits.length) '0', wholeEnd, [], by simp,
      hd.isNumeral_append fun _ => isDigit_of_mem_replicate, he, .none⟩
  · refine ⟨negative, d.digits.take d.place.toNat, '.' :: d.digits.drop d.place.toNat, [], by simp,
      hd.isNumeral_take (by omega), .point ?_ ?_, .none⟩
    · rw [ne_eq, List.drop_eq_nil_iff]
      exact hlen
    · exact fun c hc => hd.isDigit c (List.mem_of_mem_drop hc)

theorem isNumber_exponential : IsNumber (signText negative ++ d.exponential) := by
  have hfraction : IsFraction (if d.digits.drop 1 = [] then [] else '.' :: d.digits.drop 1) := by
    split_ifs with hone
    · exact .none
    · exact .point hone fun c hc => hd.isDigit c (List.mem_of_mem_drop hc)
  have hexponent : IsExponent ((if d.place - 1 < 0 then "e-".toList else "e+".toList) ++
      Text.ofNat (d.place - 1).natAbs) := by
    split_ifs
    · exact .signed (.inr rfl) (isNumeral_ofNat _)
    · exact .signed (.inl rfl) (isNumeral_ofNat _)
  refine ⟨negative, d.digits.take 1, _, _, ?_, hd.isNumeral_take Nat.one_pos, hfraction, hexponent⟩
  simp only [Decimal.exponential, List.append_assoc]

theorem isNumber_written {layout : Layout} (hl : IsFraction layout.wholeEnd) :
    IsNumber (signText negative ++ d.written layout) := by
  unfold Decimal.written
  split_ifs
  · exact isNumber_positional hd negative hl
  · exact isNumber_exponential hd negative

omit hd

/-! ### Finite numbers -/

theorem toInt?_zero (e : ℤ) : (finite negative 0 e).toInt? = some 0 := by
  obtain ⟨n, rfl | rfl⟩ := e.eq_nat_or_neg
  · rw [toInt?_natCast]
    cases negative <;> simp [signed]
  · rw [toInt?_neg_natCast]
    cases negative <;> simp [signed]

/-- A finite number is displayed as an integer, or by its shortest digits. -/
theorem display_finite (m : ℕ) (e : ℤ) : (∃ n, (finite negative m e).display = Text.ofInt n) ∨
    0 < m ∧ (finite negative m e).display =
      signText negative ++ (shortest displayLayout.tie m e).written displayLayout := by
  rcases Nat.eq_zero_or_pos m with rfl | hpos
  · exact .inl ⟨0, display_of_toInt? (toInt?_zero negative e) (Nat.pow_pos (by decide))⟩
  · rw [display]
    split
    · split_ifs
      · exact .inl ⟨_, rfl⟩
      · exact .inr ⟨hpos, rfl⟩
    · exact .inr ⟨hpos, rfl⟩

/-- A finite number is written as an integer, or by its shortest digits. -/
theorem json_finite (m : ℕ) (e : ℤ) : (∃ n, (finite negative m e).json = Text.ofInt n) ∨
    0 < m ∧ (finite negative m e).json = signText negative ++ (shortest jsonLayout.tie m e).written jsonLayout := by
  rcases Nat.eq_zero_or_pos m with rfl | hpos
  · exact .inl ⟨0, json_of_toInt? (toInt?_zero negative e) (by norm_num)⟩
  · rw [json]
    split
    · split_ifs
      · exact .inl ⟨_, rfl⟩
      · exact .inr ⟨hpos, rfl⟩
    · exact .inr ⟨hpos, rfl⟩

variable {x : Binary64} (hfinite : x.isFinite = true) (hx : x.Fits)
include hfinite hx

/-- **The displayed text of a finite number** is a number. -/
theorem isNumber_display : x.display.IsNumber := by
  cases x with
  | finite negative m e =>
    rcases display_finite negative m e with ⟨n, hn⟩ | ⟨hpos, hwritten⟩
    · exact hn ▸ isNumber_ofInt n
    · rw [hwritten]
      exact isNumber_written (isSignificant_shortest displayLayout.tie hpos hx e) negative .none
  | infinite => cases hfinite
  | nan => cases hfinite

/-- **The JSON text of a finite number** is a number. -/
theorem isNumber_json : x.json.IsNumber := by
  cases x with
  | finite negative m e =>
    rcases json_finite negative m e with ⟨n, hn⟩ | ⟨hpos, hwritten⟩
    · exact hn ▸ isNumber_ofInt n
    · have hwholeEnd : IsFraction ['.', '0'] :=
        .point (List.cons_ne_nil '0' []) (List.forall_mem_singleton.mpr rfl)
      rw [hwritten]
      exact isNumber_written (isSignificant_shortest jsonLayout.tie hpos hx e) negative hwholeEnd
  | infinite => cases hfinite
  | nan => cases hfinite

end Binary64

end EditorSettings
