import EditorSettings.Glob.Matching

/-!
# The language of a regular expression

`r.Matches u cs` says that `r` matches the whole text `u` in some way that catches `cs`, whatever other
ways there are; `r.Describes u` asks in addition that every integer caught is in its range.

* `mem_splits`: the listed ways to match a beginning are all ways.
* `isSome_catches?`: a way is found if there is one.
* `describes_of_accepts`: what is accepted is described.
* `accepts_iff_describes`: without integers, what is described is accepted as well.  With integers the
  first way may catch one that is out of range while a later way would not.
-/

namespace EditorSettings

namespace Regex

/-- Decimal digits of any script, one or more, behind an optional sign. -/
def IsSignedDigits (u : Text) : Prop :=
  ∃ sign digits, u = sign ++ digits ∧ (sign = [] ∨ ∃ c, isSign c = true ∧ sign = [c]) ∧
    digits ≠ [] ∧ ∀ c ∈ digits, Text.isDecimalDigit c = true

/-- `r` matches the whole text in some way and catches the listed integers in order. -/
def Matches : Regex → Text → Catches → Prop
  | empty, u, cs => u = [] ∧ cs = []
  | one s, u, cs => (∃ c, s.holds c = true ∧ u = [c]) ∧ cs = []
  | many s, u, cs => (∀ c ∈ u, s.holds c = true) ∧ cs = []
  | integer r, u, cs => IsSignedDigits u ∧ cs = [(r, u)]
  | seq a b, u, cs => ∃ v w ds es, u = v ++ w ∧ cs = ds ++ es ∧ a.Matches v ds ∧ b.Matches w es
  | alt a b, u, cs => a.Matches u cs ∨ b.Matches u cs
  | group a, u, cs => a.Matches u cs

/-- `r` matches the whole text in some way with every integer in its range. -/
def Describes (r : Regex) (u : Text) : Prop :=
  ∃ cs, r.Matches u cs ∧ ∀ c ∈ cs, c.1.holdsText c.2 = true

/-- Whether an expression catches no integer. -/
def catchesNone : Regex → Bool
  | integer _ => false
  | seq a b => a.catchesNone && b.catchesNone
  | alt a b => a.catchesNone && b.catchesNone
  | group a => a.catchesNone
  | _ => true

/-! ### The listed ways are all ways -/

theorem mem_runs {p : Char → Bool} {u rest : Text} : ∀ {t : Text},
    (u, rest) ∈ runs p t ↔ t = u ++ rest ∧ ∀ c ∈ u, p c = true
  | [] => by
    simp only [runs, List.mem_singleton, Prod.mk.injEq]
    constructor
    · rintro ⟨rfl, rfl⟩
      simp
    · rintro ⟨h, -⟩
      exact List.append_eq_nil_iff.mp h.symm
  | c :: t => by
    have hnil : (u, rest) = ([], c :: t) → c :: t = u ++ rest ∧ ∀ d ∈ u, p d = true := by
      rintro h
      obtain ⟨rfl, rfl⟩ := Prod.mk.inj h
      simp
    by_cases hp : p c = true
    · simp only [runs, if_pos hp, List.mem_append, List.mem_map, List.mem_singleton]
      constructor
      · rintro (⟨⟨v, w⟩, hv, he⟩ | h)
        · obtain ⟨rfl, rfl⟩ := Prod.mk.inj he
          obtain ⟨rfl, hall⟩ := mem_runs.mp hv
          exact ⟨rfl, List.forall_mem_cons.mpr ⟨hp, hall⟩⟩
        · exact hnil h
      · rintro ⟨h, hall⟩
        cases u with
        | nil => exact Or.inr (by rw [← List.nil_append rest, ← h])
        | cons d v =>
          obtain ⟨rfl, rfl⟩ := List.cons.inj h
          exact Or.inl ⟨(v, rest), mem_runs.mpr ⟨rfl, fun d hd => hall d (by simp [hd])⟩, rfl⟩
    · simp only [runs, if_neg hp, List.mem_singleton]
      constructor
      · exact hnil
      · rintro ⟨h, hall⟩
        cases u with
        | nil => rw [← List.nil_append rest, ← h]
        | cons d v =>
          obtain ⟨rfl, -⟩ := List.cons.inj h
          exact absurd (hall c (by simp)) hp

theorem mem_digitRuns {u rest t : Text} : (u, rest) ∈ digitRuns t ↔
    t = u ++ rest ∧ u ≠ [] ∧ ∀ c ∈ u, Text.isDecimalDigit c = true := by
  have hruns : (u, rest) ∈ runs Text.isDecimalDigit t ↔
      (u, rest) ∈ digitRuns t ∨ (u, rest) = ([], t) := by
    rw [runs_isDecimalDigit, List.mem_append, List.mem_singleton]
  have hne : (u, rest) ∈ digitRuns t → u ≠ [] := by
    intro h
    cases t with
    | nil => simp [digitRuns] at h
    | cons c t =>
      rw [digitRuns_cons] at h
      split at h
      · obtain ⟨r, -, he⟩ := List.mem_map.mp h
        rw [← (Prod.mk.inj he).1]
        simp
      · simp at h
  constructor
  · intro h
    have hr := mem_runs.mp (hruns.mpr (Or.inl h))
    exact ⟨hr.1, hne h, hr.2⟩
  · rintro ⟨h, hu, hall⟩
    rcases hruns.mp (mem_runs.mpr ⟨h, hall⟩) with hd | he
    · exact hd
    · exact absurd (Prod.mk.inj he).1 hu

theorem isDecimalDigit_eq_false_of_isSign {c : Char} (h : isSign c = true) :
    Text.isDecimalDigit c = false := by
  simp only [isSign, Bool.or_eq_true, beq_iff_eq] at h
  rcases h with rfl | rfl <;> decide

theorem mem_integerRuns {u rest t : Text} :
    (u, rest) ∈ integerRuns t ↔ t = u ++ rest ∧ IsSignedDigits u := by
  cases t with
  | nil =>
    simp only [integerRuns, List.not_mem_nil, false_iff]
    rintro ⟨h, sign, digits, rfl, -, hne, -⟩
    exact hne (List.append_eq_nil_iff.mp (List.append_eq_nil_iff.mp h.symm).1).2
  | cons c t =>
    by_cases hc : isSign c = true
    · simp only [integerRuns, if_pos hc, List.mem_map]
      constructor
      · rintro ⟨⟨v, w⟩, hv, he⟩
        obtain ⟨rfl, rfl⟩ := Prod.mk.inj he
        obtain ⟨rfl, hne, hall⟩ := mem_digitRuns.mp hv
        exact ⟨rfl, [c], v, rfl, Or.inr ⟨c, hc, rfl⟩, hne, hall⟩
      · rintro ⟨h, sign, digits, rfl, hs | ⟨d, -, hs⟩, hne, hall⟩
        · -- without a sign the first character would be a digit
          obtain ⟨d, v, rfl⟩ := List.exists_cons_of_ne_nil hne
          subst hs
          obtain ⟨rfl, -⟩ := List.cons.inj h
          have := hall c (by simp)
          rw [isDecimalDigit_eq_false_of_isSign hc] at this
          exact absurd this (by simp)
        · subst hs
          obtain ⟨rfl, rfl⟩ := List.cons.inj h
          exact ⟨(digits, rest), mem_digitRuns.mpr ⟨rfl, hne, hall⟩, rfl⟩
    · rw [integerRuns, if_neg hc, mem_digitRuns]
      constructor
      · rintro ⟨h, hne, hall⟩
        exact ⟨h, [], u, rfl, Or.inl rfl, hne, hall⟩
      · rintro ⟨h, sign, digits, rfl, rfl | ⟨d, hd, rfl⟩, hne, hall⟩
        · exact ⟨h, hne, hall⟩
        · obtain ⟨rfl, -⟩ := List.cons.inj h
          exact absurd hd hc

/-- **The listed ways are all ways**: to match a beginning of a text is to match a text before a
rest. -/
theorem mem_splits : ∀ {r : Regex} {t : Text} {cs : Catches} {rest : Text},
    (cs, rest) ∈ splits r t ↔ ∃ u, t = u ++ rest ∧ r.Matches u cs
  | empty, t, cs, rest => by
    simp only [splits, List.mem_singleton, Prod.mk.injEq, Matches]
    constructor
    · rintro ⟨rfl, rfl⟩
      exact ⟨[], rfl, rfl, rfl⟩
    · rintro ⟨u, h, rfl, rfl⟩
      exact ⟨rfl, h.symm⟩
  | one s, t, cs, rest => by
    cases t with
    | nil =>
      simp only [splits, List.not_mem_nil, Matches, false_iff]
      rintro ⟨u, h, ⟨c, -, rfl⟩, -⟩
      simp at h
    | cons c t =>
      by_cases hc : s.holds c = true
      · simp only [splits, if_pos hc, List.mem_singleton, Prod.mk.injEq, Matches]
        constructor
        · rintro ⟨rfl, rfl⟩
          exact ⟨[c], rfl, ⟨c, hc, rfl⟩, rfl⟩
        · rintro ⟨u, h, ⟨d, -, rfl⟩, rfl⟩
          exact ⟨rfl, (List.cons.inj h).2.symm⟩
      · simp only [splits, if_neg hc, List.not_mem_nil, Matches, false_iff]
        rintro ⟨u, h, ⟨d, hd, rfl⟩, -⟩
        obtain ⟨rfl, -⟩ := List.cons.inj h
        exact hc hd
  | many s, t, cs, rest => by
    simp only [splits, List.mem_map, Prod.mk.injEq, Matches]
    constructor
    · rintro ⟨⟨u, w⟩, hu, rfl, rfl⟩
      obtain ⟨h, hall⟩ := mem_runs.mp hu
      exact ⟨u, h, hall, rfl⟩
    · rintro ⟨u, h, hall, rfl⟩
      exact ⟨(u, rest), mem_runs.mpr ⟨h, hall⟩, rfl, rfl⟩
  | integer r, t, cs, rest => by
    simp only [splits, List.mem_map, Prod.mk.injEq, Matches]
    constructor
    · rintro ⟨⟨u, w⟩, hu, rfl, rfl⟩
      obtain ⟨h, hd⟩ := mem_integerRuns.mp hu
      exact ⟨u, h, hd, rfl⟩
    · rintro ⟨u, h, hd, rfl⟩
      exact ⟨(u, rest), mem_integerRuns.mpr ⟨h, hd⟩, rfl, rfl⟩
  | seq a b, t, cs, rest => by
    simp only [splits, List.mem_flatMap, List.mem_map, Prod.mk.injEq, Matches]
    constructor
    · rintro ⟨⟨ds, m⟩, ha, ⟨es, w⟩, hb, rfl, rfl⟩
      obtain ⟨u, rfl, hu⟩ := mem_splits.mp ha
      obtain ⟨v, rfl, hv⟩ := mem_splits.mp hb
      exact ⟨u ++ v, by simp, u, v, ds, es, rfl, rfl, hu, hv⟩
    · rintro ⟨w, rfl, u, v, ds, es, rfl, rfl, hu, hv⟩
      exact ⟨(ds, v ++ rest), mem_splits.mpr ⟨u, by simp, hu⟩, (es, rest),
        mem_splits.mpr ⟨v, rfl, hv⟩, rfl, rfl⟩
  | alt a b, t, cs, rest => by
    simp only [splits, List.mem_append, mem_splits, Matches]
    constructor
    · rintro (⟨u, h, hu⟩ | ⟨u, h, hu⟩)
      · exact ⟨u, h, Or.inl hu⟩
      · exact ⟨u, h, Or.inr hu⟩
    · rintro ⟨u, h, hu | hu⟩
      · exact Or.inl ⟨u, h, hu⟩
      · exact Or.inr ⟨u, h, hu⟩
  | group a, t, cs, rest => by
    simp only [splits, Matches]
    exact mem_splits

/-! ### What is found -/

/-- What is caught comes from some way to match the whole text. -/
theorem matches_of_catches? {r : Regex} {t : Text} {cs : Catches} (h : catches? r t = some cs) :
    r.Matches t cs := by
  rw [catches?_eq, firstWay] at h
  obtain ⟨⟨ds, rest⟩, hmem, he⟩ := List.exists_of_findSome?_eq_some h
  rw [atEnd] at he
  split at he
  · next hrest =>
    obtain ⟨u, rfl, hu⟩ := mem_splits.mp hmem
    simp only [Option.map_some, Option.some.injEq, List.append_nil] at he
    simp only at hrest
    rw [← he, hrest, List.append_nil]
    exact hu
  · simp at he

/-- **A way is found if there is one.** -/
theorem isSome_catches? {r : Regex} {t : Text} :
    (catches? r t).isSome = true ↔ ∃ cs, r.Matches t cs := by
  constructor
  · intro h
    obtain ⟨cs, hcs⟩ := Option.isSome_iff_exists.mp h
    exact ⟨cs, matches_of_catches? hcs⟩
  · rintro ⟨cs, h⟩
    rw [catches?_eq, firstWay, List.findSome?_isSome_iff]
    exact ⟨(cs, []), mem_splits.mpr ⟨t, by simp, h⟩, by simp [atEnd]⟩

/-- **What is accepted is described.** -/
theorem describes_of_accepts {r : Regex} {t : Text} (h : r.accepts t = true) : r.Describes t := by
  rw [accepts] at h
  split at h
  · next cs hcs => exact ⟨cs, matches_of_catches? hcs, List.all_eq_true.mp h⟩
  · simp at h

theorem eq_nil_of_matches : ∀ {r : Regex} {t : Text} {cs : Catches}, r.catchesNone = true →
    r.Matches t cs → cs = []
  | empty, _, _, _, h => h.2
  | one _, _, _, _, h => h.2
  | many _, _, _, _, h => h.2
  | integer _, _, _, hr, _ => by simp [catchesNone] at hr
  | seq a b, _, _, hr, h => by
    simp only [catchesNone, Bool.and_eq_true] at hr
    obtain ⟨v, w, ds, es, -, rfl, ha, hb⟩ := h
    rw [eq_nil_of_matches hr.1 ha, eq_nil_of_matches hr.2 hb, List.append_nil]
  | alt a b, _, _, hr, h => by
    simp only [catchesNone, Bool.and_eq_true] at hr
    rcases h with h | h
    · exact eq_nil_of_matches hr.1 h
    · exact eq_nil_of_matches hr.2 h
  | group a, _, _, hr, h => eq_nil_of_matches (r := a) hr h

/-- **Without integers, an expression accepts what it describes.** -/
theorem accepts_iff_describes {r : Regex} (hr : r.catchesNone = true) {t : Text} :
    r.accepts t = true ↔ r.Describes t := by
  refine ⟨describes_of_accepts, ?_⟩
  rintro ⟨cs, h, -⟩
  obtain ⟨ds, hds⟩ := Option.isSome_iff_exists.mp (isSome_catches?.mpr ⟨cs, h⟩)
  have hnil : ds = [] := eq_nil_of_matches hr (matches_of_catches? hds)
  rw [accepts, hds, hnil]
  rfl

/-! ### Descriptions of the parts -/

@[simp] theorem describes_empty {u : Text} : empty.Describes u ↔ u = [] := by
  constructor
  · rintro ⟨cs, ⟨hu, -⟩, -⟩
    exact hu
  · rintro rfl
    exact ⟨[], ⟨rfl, rfl⟩, by simp⟩

@[simp] theorem describes_one {s : CharSet} {u : Text} :
    (one s).Describes u ↔ ∃ c, s.holds c = true ∧ u = [c] := by
  constructor
  · rintro ⟨cs, ⟨hu, -⟩, -⟩
    exact hu
  · intro hu
    exact ⟨[], ⟨hu, rfl⟩, by simp⟩

@[simp] theorem describes_many {s : CharSet} {u : Text} :
    (many s).Describes u ↔ ∀ c ∈ u, s.holds c = true := by
  constructor
  · rintro ⟨cs, ⟨hu, -⟩, -⟩
    exact hu
  · intro hu
    exact ⟨[], ⟨hu, rfl⟩, by simp⟩

@[simp] theorem describes_integer {r : IntegerRange} {u : Text} :
    (integer r).Describes u ↔ IsSignedDigits u ∧ r.holdsText u = true := by
  constructor
  · rintro ⟨cs, ⟨hu, rfl⟩, hall⟩
    exact ⟨hu, hall (r, u) (by simp)⟩
  · rintro ⟨hu, hr⟩
    exact ⟨[(r, u)], ⟨hu, rfl⟩, by simpa using hr⟩

@[simp] theorem describes_seq {a b : Regex} {u : Text} :
    (seq a b).Describes u ↔ ∃ v w, u = v ++ w ∧ a.Describes v ∧ b.Describes w := by
  constructor
  · rintro ⟨cs, ⟨v, w, ds, es, rfl, rfl, ha, hb⟩, hall⟩
    rw [List.forall_mem_append] at hall
    exact ⟨v, w, rfl, ⟨ds, ha, hall.1⟩, ⟨es, hb, hall.2⟩⟩
  · rintro ⟨v, w, rfl, ⟨ds, ha, hds⟩, ⟨es, hb, hes⟩⟩
    exact ⟨ds ++ es, ⟨v, w, ds, es, rfl, rfl, ha, hb⟩, List.forall_mem_append.mpr ⟨hds, hes⟩⟩

@[simp] theorem describes_alt {a b : Regex} {u : Text} :
    (alt a b).Describes u ↔ a.Describes u ∨ b.Describes u := by
  constructor
  · rintro ⟨cs, h | h, hall⟩
    · exact Or.inl ⟨cs, h, hall⟩
    · exact Or.inr ⟨cs, h, hall⟩
  · rintro (⟨cs, h, hall⟩ | ⟨cs, h, hall⟩)
    · exact ⟨cs, Or.inl h, hall⟩
    · exact ⟨cs, Or.inr h, hall⟩

@[simp] theorem describes_group {a : Regex} {u : Text} : (group a).Describes u ↔ a.Describes u :=
  Iff.rfl

@[simp] theorem describes_andThen {a b : Regex} {u : Text} :
    (a.andThen b).Describes u ↔ ∃ v w, u = v ++ w ∧ a.Describes v ∧ b.Describes w := by
  cases a with
  | empty =>
    simp only [andThen, describes_empty]
    constructor
    · intro h
      exact ⟨[], u, rfl, rfl, h⟩
    · rintro ⟨v, w, rfl, rfl, h⟩
      exact h
  | _ => exact describes_seq

theorem catchesNone_andThen {a b : Regex} :
    (a.andThen b).catchesNone = (a.catchesNone && b.catchesNone) := by
  cases a <;> rfl

end Regex

end EditorSettings
