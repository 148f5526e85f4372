import EditorSettings.Proofs.Text
import EditorSettings.Text.LowerCase

/-!
# Lower case is final

Lower-casing a text a second time changes nothing (`lowercase_lowercase`).  The images of a run of capitals
lie outside every run of capitals, or between the capitals of a run that holds every second code point;
this is a condition on two runs, checked for all pairs of them (`apart_of_mem`).  The two letters with a
form of their own become letters that no run holds.

A character of the lower-case form is one of the text or a letter behind `a` that is not blank
(`mem_lowercase`), so lower-casing brings in no ASCII mark, no line end and no blank, and a trimmed text
stays trimmed (`trim_lowercase`).
-/

namespace EditorSettings.Text

/-! ### Runs of capitals and their images -/

namespace CaseRun

/-- The image of the last code point of a run. -/
def lastImage (r : CaseRun) : ℕ := r.image + (r.last - r.first)

/-- Whether the images of `r` are apart from the capitals of `q`: before them, behind them, or between them. -/
def apart (r q : CaseRun) : Bool :=
  decide (r.lastImage < q.first) || decide (q.last < r.image) ||
    (q.step == 2 && (r.step == 2 || r.first == r.last) && (r.image + q.first) % 2 == 1)

theorem holds_iff {r : CaseRun} {n : ℕ} :
    r.holds n = true ↔ r.first ≤ n ∧ n ≤ r.last ∧ (n - r.first) % r.step = 0 := by
  simp [holds, and_assoc]

theorem holds_image {r q : CaseRun} (h : r.apart q = true) {n : ℕ} (hn : r.holds n = true) :
    q.holds (r.image + (n - r.first)) = false := by
  obtain ⟨hfirst, hlast, hr⟩ := holds_iff.mp hn
  rw [← Bool.not_eq_true, holds_iff]
  rintro ⟨hqfirst, hqlast, hq⟩
  simp only [apart, Bool.or_eq_true, Bool.and_eq_true, decide_eq_true_eq, beq_iff_eq] at h
  unfold lastImage at h
  rcases h with (h | h) | ⟨⟨hstep, hr' | hr'⟩, hodd⟩
  · omega
  · omega
  · rw [hr'] at hr
    rw [hstep] at hq
    omega
  · have hn : n = r.first := by omega
    subst hn
    rw [hstep] at hq
    omega

theorem apart_of_mem : ∀ r ∈ caseRuns, ∀ q ∈ caseRuns, r.apart q = true := by
  have hall : (caseRuns.all fun r => caseRuns.all r.apart) = true := by decide +kernel
  simpa only [List.all_eq_true] using hall

/-- The images are code points of characters, not ASCII marks, and none of them is the dotted capital I. -/
theorem image_of_mem : ∀ r ∈ caseRuns,
    (r.lastImage < 0xD800 ∨ 0xE000 ≤ r.image ∧ r.lastImage < 0x110000) ∧ 0x61 ≤ r.image ∧
      (r.lastImage < 'İ'.toNat ∨ 'İ'.toNat < r.image) := by decide +kernel

theorem not_blank_of_mem : ∀ r ∈ caseRuns, ∀ row ∈ blankTable,
    r.lastImage < row.1 ∨ row.2 < r.image := by decide +kernel

end CaseRun

/-! ### Characters in their final form -/

/-- A character that lower-casing keeps wherever it stands. -/
structure IsLower (c : Char) : Prop where
  lowerChar_eq : lowerChar c = c
  ne_dotted : c ≠ 'İ'

/-- A character behind the ASCII marks that is not blank. -/
structure IsLetterLike (c : Char) : Prop where
  le_toNat : 0x61 ≤ c.toNat
  not_blank : isBlank c = false

/-- Digits and the marks before them have no case. -/
theorem isLower_of_toNat_lt {c : Char} (h : c.toNat < 0x41) : IsLower c where
  lowerChar_eq := by
    have hfirst : ∀ r ∈ caseRuns, 0x41 ≤ r.first := by decide +kernel
    have hnone : caseRuns.find? (·.holds c.toNat) = none := by
      rw [List.find?_eq_none]
      intro r hr hholds
      have := hfirst r hr
      have := (CaseRun.holds_iff.mp hholds).1
      omega
    rw [lowerChar, hnone]
  ne_dotted := by
    rintro rfl
    exact absurd h (by decide)

theorem IsLower.lowerAt_eq {c : Char} (h : IsLower c) (before later : Text) :
    lowerAt before c later = [c] := by
  have hsigma : c ≠ 'Σ' := by
    rintro rfl
    exact absurd h.lowerChar_eq (by decide +kernel)
  rw [lowerAt, if_neg hsigma, if_neg h.ne_dotted, h.lowerChar_eq]

/-- A character is its own simple form, or one behind the ASCII marks that is not blank takes its place. -/
theorem lowerChar_spec (c : Char) :
    lowerChar (lowerChar c) = lowerChar c ∧
      (lowerChar c = c ∨ IsLetterLike (lowerChar c) ∧ lowerChar c ≠ 'İ') := by
  cases hc : caseRuns.find? (·.holds c.toNat) with
  | none =>
    have he : lowerChar c = c := by rw [lowerChar, hc]
    exact ⟨by rw [he, he], .inl he⟩
  | some r =>
    have he : lowerChar c = Char.ofNat (r.image + (c.toNat - r.first)) := by rw [lowerChar, hc]
    have hr := List.mem_of_find?_eq_some hc
    have hholds : r.holds c.toNat = true := List.find?_some (p := fun q => CaseRun.holds q c.toNat) hc
    obtain ⟨hfirst, hlast, -⟩ := CaseRun.holds_iff.mp hholds
    obtain ⟨hvalid, hletter, hdotted⟩ := CaseRun.image_of_mem r hr
    have hn : (lowerChar c).toNat = r.image + (c.toNat - r.first) := by
      have hchar : (r.image + (c.toNat - r.first)).isValidChar := by
        unfold CaseRun.lastImage at hvalid
        unfold Nat.isValidChar
        omega
      rw [he, Char.ofNat, dif_pos hchar]
      rfl
    unfold CaseRun.lastImage at hdotted
    refine ⟨?_, .inr ⟨⟨by omega, ?_⟩, ?_⟩⟩
    · have hnone : caseRuns.find? (·.holds (lowerChar c).toNat) = none := by
        rw [List.find?_eq_none]
        intro q hq
        rw [hn, CaseRun.holds_image (CaseRun.apart_of_mem r hr q hq) hholds]
        decide
      rw [lowerChar, hnone]
    · rw [← Bool.not_eq_true, isBlank, inTable_iff]
      rintro ⟨row, hrow, hle⟩
      have := CaseRun.not_blank_of_mem r hr row hrow
      unfold CaseRun.lastImage at this
      omega
    · intro h
      rw [h] at hn
      omega

theorem mem_lowerAt {before later : Text} {c x : Char} (h : x ∈ lowerAt before c later) :
    IsLower x ∧ (x = c ∨ IsLetterLike x) := by
  unfold lowerAt at h
  split_ifs at h with hsigma hend hdotted
  · rw [List.mem_singleton.mp h]
    exact ⟨⟨by decide +kernel, by decide⟩, .inr ⟨by decide, by decide⟩⟩
  · rw [List.mem_singleton.mp h]
    exact ⟨⟨by decide +kernel, by decide⟩, .inr ⟨by decide, by decide⟩⟩
  · rcases List.mem_pair.mp h with rfl | rfl
    · exact ⟨⟨by decide +kernel, by decide⟩, .inr ⟨by decide, by decide⟩⟩
    · exact ⟨⟨by decide +kernel, by decide⟩, .inr ⟨by decide, by decide⟩⟩
  · rw [List.mem_singleton.mp h]
    obtain ⟨hfinal, he | ⟨hletter, hne⟩⟩ := lowerChar_spec c
    · exact ⟨⟨hfinal, by rwa [he]⟩, .inl he⟩
    · exact ⟨⟨hfinal, hne⟩, .inr hletter⟩

/-! ### Texts -/

theorem lowerAt_ne_nil (before : Text) (c : Char) (later : Text) : lowerAt before c later ≠ [] := by
  unfold lowerAt
  split_ifs <;> simp

theorem mem_lowercaseFrom : ∀ {before t : Text} {x : Char}, x ∈ lowercaseFrom before t →
    IsLower x ∧ (x ∈ t ∨ IsLetterLike x)
  | _, [], x, h => absurd h (List.not_mem_nil)
  | before, c :: t, x, h => by
    rw [lowercaseFrom, List.mem_append] at h
    rcases h with h | h
    · obtain ⟨hx, rfl | hl⟩ := mem_lowerAt h
      · exact ⟨hx, .inl List.mem_cons_self⟩
      · exact ⟨hx, .inr hl⟩
    · obtain ⟨hx, hm | hl⟩ := mem_lowercaseFrom h
      · exact ⟨hx, .inl (List.mem_cons_of_mem c hm)⟩
      · exact ⟨hx, .inr hl⟩

/-- **Lower-casing brings in letters only.** -/
theorem mem_lowercase {t : Text} {x : Char} (h : x ∈ lowercase t) :
    IsLower x ∧ (x ∈ t ∨ IsLetterLike x) := mem_lowercaseFrom h

/-- What lower-casing keeps, it keeps in a text. -/
theorem mem_lowercaseFrom_of_isLower {c : Char} (hc : IsLower c) : ∀ {before t : Text}, c ∈ t →
    c ∈ lowercaseFrom before t
  | before, d :: t, h => by
    rw [lowercaseFrom, List.mem_append]
    rcases List.mem_cons.mp h with rfl | h
    · rw [hc.lowerAt_eq]
      exact .inl List.mem_cons_self
    · exact .inr (mem_lowercaseFrom_of_isLower hc h)

theorem mem_lowercase_of_isLower {t : Text} {c : Char} (hc : IsLower c) (h : c ∈ t) : c ∈ lowercase t :=
  mem_lowercaseFrom_of_isLower hc h

theorem lowercaseFrom_eq_self : ∀ (before : Text) {t : Text}, (∀ c ∈ t, IsLower c) →
    lowercaseFrom before t = t
  | _, [], _ => rfl
  | before, c :: t, h => by
    have ih := lowercaseFrom_eq_self (c :: before) fun d hd => h d (List.mem_cons_of_mem c hd)
    rw [lowercaseFrom, (h c List.mem_cons_self).lowerAt_eq, ih, List.singleton_append]

/-- **Lower case is final.** -/
theorem lowercase_lowercase (t : Text) : lowercase (lowercase t) = lowercase t :=
  lowercaseFrom_eq_self [] fun _ hc => (mem_lowercase hc).1

theorem lowercase_ne_nil {t : Text} (h : t ≠ []) : lowercase t ≠ [] := by
  obtain ⟨c, t, rfl⟩ := List.exists_cons_of_ne_nil h
  rw [lowercase, lowercaseFrom]
  exact List.append_ne_nil_of_left_ne_nil (lowerAt_ne_nil [] c t) _

/-- The first character is that of the text or a letter. -/
theorem head?_lowercase {t : Text} {x : Char} (h : x ∈ (lowercase t).head?) :
    x ∈ t.head? ∨ IsLetterLike x := by
  rcases t with _ | ⟨c, t⟩
  · exact absurd h (by simp [lowercase, lowercaseFrom])
  · rw [lowercase, lowercaseFrom, List.head?_append_of_ne_nil _ (lowerAt_ne_nil [] c t)] at h
    obtain ⟨-, rfl | hl⟩ := mem_lowerAt (List.mem_of_mem_head? h)
    · exact .inl rfl
    · exact .inr hl

theorem exists_lowercaseFrom_concat (c : Char) : ∀ before t : Text,
    ∃ u v, lowercaseFrom before (t ++ [c]) = u ++ lowerAt v c []
  | before, [] => ⟨[], before, by simp [lowercaseFrom]⟩
  | before, d :: t => by
    obtain ⟨u, v, h⟩ := exists_lowercaseFrom_concat c (d :: before) t
    exact ⟨lowerAt before d (t ++ [c]) ++ u, v, by rw [List.cons_append, lowercaseFrom, h, List.append_assoc]⟩

/-- The last character is that of the text or a letter. -/
theorem getLast?_lowercase {t : Text} {x : Char} (h : x ∈ (lowercase t).getLast?) :
    x ∈ t.getLast? ∨ IsLetterLike x := by
  cases t using List.reverseRecOn with
  | nil => exact absurd h (by simp [lowercase, lowercaseFrom])
  | append_singleton t c =>
    obtain ⟨u, v, he⟩ := exists_lowercaseFrom_concat c [] t
    rw [lowercase, he, List.getLast?_append_of_ne_nil _ (lowerAt_ne_nil v c [])] at h
    obtain ⟨-, rfl | hl⟩ := mem_lowerAt (List.mem_of_mem_getLast? h)
    · exact .inl (by simp)
    · exact .inr hl

theorem trim_lowercase {t : Text} (h : trim t = t) : trim (lowercase t) = lowercase t := by
  rw [trim_eq_self_iff] at h ⊢
  refine ⟨fun c hc => ?_, fun c hc => ?_⟩
  · rcases head?_lowercase hc with hc | hc
    · exact h.1 c hc
    · exact hc.not_blank
  · rcases getLast?_lowercase hc with hc | hc
    · exact h.2 c hc
    · exact hc.not_blank

/-- A character before `a` is in the lower-case form only if it is in the text. -/
theorem mem_of_mem_lowercase {t : Text} {x : Char} (hx : x.toNat < 0x61) (h : x ∈ lowercase t) : x ∈ t := by
  rcases (mem_lowercase h).2 with h | h
  · exact h
  · exact absurd h.le_toNat (by omega)

end EditorSettings.Text
