import EditorSettings.Proofs.Decimal
import EditorSettings.Proofs.Glob.Language
import EditorSettings.Proofs.Glob.Tree

/-!
# Integers of a pattern

The two sides of an integer range: how its literals are written between braces, and which texts it holds.

* `ofText?_range`: the literals with two points between them are read as the range.
* `holdsText_iff`: a range within 64 bits holds exactly the canonical texts of its integers, which
  `holdsText_iff_isDecimalOf` says by their looks.
-/

namespace EditorSettings

/-! ### Literals in a pattern -/

theorem isDigit_of_nat? {t : Text} {n : Nat} (h : Text.nat? t = some n) :
    ∀ c ∈ t, c.isDigit = true := by
  rw [Text.nat?] at h
  split at h
  · next hd => exact List.all_eq_true.mp hd.2
  · simp at h

theorem isDigit_or_isSign_of_signedInt? {t : Text} {n : Int} (h : Text.signedInt? t = some n) :
    ∀ c ∈ t, c.isDigit = true ∨ c = '+' ∨ c = '-' := by
  have digits : ∀ {t : Text}, Text.nat? t ≠ none → ∀ c ∈ t, c.isDigit = true ∨ c = '+' ∨ c = '-' := by
    intro t ht c hc
    obtain ⟨m, hm⟩ := Option.ne_none_iff_exists'.mp ht
    exact Or.inl (isDigit_of_nat? hm c hc)
  unfold Text.signedInt? at h
  split at h
  · exact List.forall_mem_cons.mpr ⟨Or.inr (Or.inl rfl), digits fun hn => by simp [hn] at h⟩
  · exact List.forall_mem_cons.mpr ⟨Or.inr (Or.inr rfl), digits fun hn => by simp [hn] at h⟩
  · exact digits fun hn => by simp [hn] at h

/-- Characters that neither the search for braces nor that for points stops at. -/
def IsOrdinary (c : Char) : Prop := c ∉ Glob.markChars ∧ c ≠ '.'

theorem isOrdinary_of_isDigit {c : Char} (h : c.isDigit = true) : IsOrdinary c := by
  constructor
  · intro hm
    have hmarks : (Glob.markChars.any fun d => d.isDigit) = false := by decide
    exact List.any_eq_false.mp hmarks c hm h
  · rintro rfl
    exact absurd h (by decide)

theorem IntegerLiteral.isOrdinary (l : IntegerLiteral) : ∀ c ∈ l.text, IsOrdinary c := by
  intro c hc
  obtain ⟨h, -⟩ := Option.filter_eq_some_iff.mp l.reads
  rcases isDigit_or_isSign_of_signedInt? h c hc with hd | rfl | rfl
  · exact isOrdinary_of_isDigit hd
  · exact ⟨by decide, by decide⟩
  · exact ⟨by decide, by decide⟩

theorem splitAtPoints?_append {u : Text} (v : Text) (hu : ∀ c ∈ u, c ≠ '.') :
    IntegerRange.splitAtPoints? (u ++ '.' :: '.' :: v) = some (u, v) := by
  induction u with
  | nil => rfl
  | cons c u ih =>
    have hc : c ≠ '.' := hu c (by simp)
    rw [List.cons_append, IntegerRange.splitAtPoints?.eq_3 _ _ fun _ h => absurd h hc,
      ih fun d hd => hu d (by simp [hd])]
    rfl

/-- The range between braces is read. -/
theorem ofText?_range (low high : IntegerLiteral) :
    IntegerRange.ofText? (low.text ++ '.' :: '.' :: high.text) = some ⟨low.value, high.value⟩ := by
  rw [IntegerRange.ofText?, splitAtPoints?_append _ fun c hc => (low.isOrdinary c hc).2]
  simp only [low.reads, high.reads]

/-- The inside of a range as written. -/
theorem ordinary_range (low high : IntegerLiteral) :
    ∀ c ∈ low.text ++ '.' :: '.' :: high.text, c ∉ Glob.markChars := by
  intro c hc
  rcases List.mem_append.mp hc with h | h
  · exact (low.isOrdinary c h).1
  · rcases List.mem_cons.mp h with rfl | h
    · decide
    · rcases List.mem_cons.mp h with rfl | h
      · decide
      · exact (high.isOrdinary c h).1

/-! ### Texts in a range -/

theorem fitsInt64_of_le {low high v : Int} (hl : Text.fitsInt64 low = true)
    (hh : Text.fitsInt64 high = true) (h1 : low ≤ v) (h2 : v ≤ high) : Text.fitsInt64 v = true := by
  simp only [Text.fitsInt64, Bool.and_eq_true, decide_eq_true_eq] at hl hh ⊢
  omega

theorem int64?_ofInt {v : Int} (h : Text.fitsInt64 v = true) :
    Text.int64? (Text.ofInt v) = some v := by
  rw [Text.int64?, Text.signedInt?_ofInt, Option.filter_some, if_pos h]

/-- **A range within 64 bits holds the canonical texts of its integers.** -/
theorem holdsText_iff {r : IntegerRange} (hl : Text.fitsInt64 r.low = true)
    (hh : Text.fitsInt64 r.high = true) {t : Text} :
    r.holdsText t = true ↔ ∃ v : Int, r.low ≤ v ∧ v ≤ r.high ∧ t = Text.ofInt v := by
  rw [IntegerRange.holdsText]
  constructor
  · intro h
    split at h
    · next n _ =>
      simp only [IntegerRange.holds, Bool.and_eq_true, beq_iff_eq, decide_eq_true_eq] at h
      exact ⟨n, h.2.1, h.2.2, h.1.symm⟩
    · simp at h
  · rintro ⟨v, h1, h2, rfl⟩
    rw [int64?_ofInt (fitsInt64_of_le hl hh h1 h2)]
    simp [IntegerRange.holds, h1, h2]

theorem IntegerLiteral.fitsInt64 (l : IntegerLiteral) : Text.fitsInt64 l.value = true :=
  (Option.filter_eq_some_iff.mp l.reads).2

theorem isDecimalDigit_of_mem_ofNat {n : Nat} : ∀ c ∈ Text.ofNat n, Text.isDecimalDigit c = true :=
  fun _ hc => Text.isDecimalDigit_of_isDigit
    (Nat.isDigit_of_mem_toDigits (by decide) (by decide) hc)

/-- A canonical text is an optional sign with digits. -/
theorem isSignedDigits_ofInt (v : Int) : Regex.IsSignedDigits (Text.ofInt v) := by
  cases v with
  | ofNat n =>
    exact ⟨[], Text.ofNat n, rfl, Or.inl rfl, Nat.toDigits_ne_nil, isDecimalDigit_of_mem_ofNat⟩
  | negSucc n =>
    exact ⟨['-'], Text.ofNat (n + 1), rfl, Or.inr ⟨'-', by decide, rfl⟩, Nat.toDigits_ne_nil,
      isDecimalDigit_of_mem_ofNat⟩

/-- No range holds the text of an integer beyond 64 bits. -/
theorem holdsText_ofInt_of_not_fits {v : Int} (h : Text.fitsInt64 v = false) (r : IntegerRange) :
    r.holdsText (Text.ofInt v) = false := by
  have hnone : Text.int64? (Text.ofInt v) = none := by
    rw [Text.int64?, Text.signedInt?_ofInt, Option.filter_some, h]
    rfl
  rw [IntegerRange.holdsText, hnone]

/-- **The texts of a range are the canonical decimal forms of its integers**: no empty text, no character but
ASCII digits and a minus sign, and nothing beyond 64 bits. -/
theorem holdsText_iff_isDecimalOf {r : IntegerRange} (hl : Text.fitsInt64 r.low = true)
    (hh : Text.fitsInt64 r.high = true) (t : Text) :
    (r.holdsText t = true ↔ ∃ v : Int, r.low ≤ v ∧ v ≤ r.high ∧ Text.IsDecimalOf v t) ∧
      (r.holdsText t = true → t ≠ [] ∧ ∀ c ∈ t, c.isDigit = true ∨ c = '-') ∧
      ∀ v : Int, Text.fitsInt64 v = false → Text.IsDecimalOf v t → r.holdsText t = false := by
  have hiff : r.holdsText t = true ↔ ∃ v : Int, r.low ≤ v ∧ v ≤ r.high ∧ Text.IsDecimalOf v t := by
    simp only [holdsText_iff hl hh, Text.isDecimalOf_iff]
  refine ⟨hiff, fun h => ?_, fun v hv ht => ?_⟩
  · obtain ⟨v, -, -, ht⟩ := hiff.mp h
    exact ht.isDigit_or_eq_hyphen
  · rw [Text.isDecimalOf_iff.mp ht]
    exact holdsText_ofInt_of_not_fits hv r

/-- All integers of 64 bits. -/
def wholeRange : IntegerRange := ⟨-9223372036854775808, 9223372036854775807⟩

theorem holdsText_iff_isDecimalOf_wholeRange :
    Text.fitsInt64 wholeRange.low = true ∧ Text.fitsInt64 wholeRange.high = true ∧
      wholeRange.holdsText "-9223372036854775808".toList = true ∧
      wholeRange.holdsText "9223372036854775808".toList = false ∧
      wholeRange.holdsText ['-', '0'] = false ∧ wholeRange.holdsText "٣".toList = false := by
  have hl : Text.fitsInt64 wholeRange.low = true := by decide
  have hh : Text.fitsInt64 wholeRange.high = true := by decide
  have least : Text.IsDecimalOf (-9223372036854775808) "-9223372036854775808".toList :=
    Text.isDecimalOf_iff.mpr (by decide +kernel)
  have beyond : Text.IsDecimalOf 9223372036854775808 "9223372036854775808".toList :=
    Text.isDecimalOf_iff.mpr (by decide +kernel)
  refine ⟨hl, hh, ?_, ?_, ?_, ?_⟩
  · exact (holdsText_iff_isDecimalOf hl hh _).1.mpr ⟨_, by decide, by decide, least⟩
  · exact (holdsText_iff_isDecimalOf hl hh _).2.2 _ (by decide) beyond
  · rw [← Bool.not_eq_true, (holdsText_iff_isDecimalOf hl hh _).1]
    rintro ⟨v, -, -, hv⟩
    rcases hv with h | ⟨-, hpos⟩
    · cases h.isDigit '-' List.mem_cons_self
    · cases hpos
  · rw [← Bool.not_eq_true]
    intro h
    rcases ((holdsText_iff_isDecimalOf hl hh _).2.1 h).2 '٣' (by decide) with hd | hd
    · cases hd
    · cases hd

end EditorSettings
