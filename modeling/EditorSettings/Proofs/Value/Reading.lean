import EditorSettings.Value.Raw
import Mathlib.Data.List.TakeWhile
import Mathlib.Tactic.SplitIfs

/-!
# What a value is read from

The cases of reading a value: a JSON scalar of one of its kinds (`Value.scalar?_cases`), a padded integer or any
other text (`Value.ofRaw_cases`).  A JSON number has digits and is finite (`Value.exists_of_jsonNumber?`).
-/

namespace EditorSettings.Value

variable {t : Text}

/-! ### Numbers -/

/-- A number begins with digits, and is computed from a significand and an exponent. -/
theorem exists_of_magnitude? {negative : Bool} {x : Binary64} (h : magnitude? negative t = some x) :
    (∃ c ∈ t, c.isDigit = true) ∧
      ∃ significand exponent, ofParts? negative significand exponent = some x := by
  unfold magnitude? at h
  dsimp only at h
  split_ifs at h with hwhole
  constructor
  · rcases hdigits : (splitDigits t).1 with _ | ⟨c, ds⟩
    · rw [hdigits] at hwhole
      cases hwhole
    · have hc : c ∈ t.takeWhile Char.isDigit := by
        have hmem : c ∈ (splitDigits t).1 := hdigits ▸ List.mem_cons_self
        exact hmem
      exact ⟨c, (List.takeWhile_prefix _).subset hc, List.mem_takeWhile_imp hc⟩
  · split at h
    · cases h
    · split at h
      · cases h
      · exact ⟨_, _, h⟩

/-- **A JSON number** has digits and is finite. -/
theorem exists_of_jsonNumber? {x : Binary64} (h : jsonNumber? t = some x) :
    x.isFinite = true ∧ (∃ c ∈ t, c.isDigit = true) ∧
      ∃ negative significand exponent, ofParts? negative significand exponent = some x := by
  obtain ⟨h, hfinite⟩ := Option.filter_eq_some_iff.mp h
  refine ⟨hfinite, ?_⟩
  split at h
  · obtain ⟨⟨c, hc, hdigit⟩, hx⟩ := exists_of_magnitude? h
    exact ⟨⟨c, List.mem_cons_of_mem _ hc, hdigit⟩, true, hx⟩
  · obtain ⟨hdigit, hx⟩ := exists_of_magnitude? h
    exact ⟨hdigit, false, hx⟩

/-! ### Scalars and raw values -/

/-- **A JSON scalar** is a truth value, a string or a number. -/
theorem scalar?_cases {v : Value} (h : scalar? t = some v) :
    (t = "true".toList ∧ v = bool true) ∨ (t = "false".toList ∧ v = bool false) ∨
      (∃ body s, t = '"' :: body ∧ stringBody? body = some s ∧ v = text s) ∨
      ∃ x, jsonNumber? t = some x ∧ v = number x := by
  unfold scalar? at h
  split_ifs at h with htrue hfalse
  · exact .inl ⟨htrue, (Option.some.inj h).symm⟩
  · exact .inr (.inl ⟨hfalse, (Option.some.inj h).symm⟩)
  · split at h
    · next body =>
      obtain ⟨s, hs, rfl⟩ := Option.map_eq_some_iff.mp h
      exact .inr (.inr (.inl ⟨body, s, rfl, hs, rfl⟩))
    · obtain ⟨x, hx, rfl⟩ := Option.map_eq_some_iff.mp h
      exact .inr (.inr (.inr ⟨x, hx, rfl⟩))

/-- **A raw value** is read as a JSON scalar, as a padded integer, or as a text. -/
theorem ofRaw_cases (key raw : Text) :
    ofJson? raw = some (ofRaw key raw) ∨ (∃ x, paddedInteger? raw = some x ∧ ofRaw key raw = number x) ∨
      ofRaw key raw = text (if key ∈ caselessKeys then Text.lowercase raw else raw) := by
  unfold ofRaw
  split
  · next v hv => exact .inl hv
  · split
    · next x hx => exact .inr (.inl ⟨x, hx, rfl⟩)
    · exact .inr (.inr rfl)

end EditorSettings.Value
