import EditorSettings.Text.Blank
import Mathlib.Data.List.DropRight

/-!
# Trimmed texts and the pieces of a text

A text is its own trim if its first and its last character are not blank (`trim_eq_self_iff`); trimming
works at both ends on its own, since it can only shorten.  Pieces are read off a text from the left: what
stands before the first separator is the first piece (`pieces_append_cons`), so texts that are ended by
a separator each are the pieces of their concatenation (`pieces_flatMap`).
-/

namespace EditorSettings

namespace Text

/-! ### Trimming -/

theorem trimStart_suffix (t : Text) : trimStart t <:+ t := List.dropWhile_suffix isBlank

theorem length_trimEnd_le (t : Text) : (trimEnd t).length ≤ t.length :=
  (List.rdropWhile_prefix isBlank t).length_le

/-- Nothing is dropped at the beginning of a text whose first character stays. -/
theorem dropWhile_eq_self_iff {p : Char → Bool} {t : Text} :
    t.dropWhile p = t ↔ ∀ c ∈ t.head?, p c = false := by
  rcases t with _ | ⟨c, t⟩
  · simp
  · simp [List.dropWhile_eq_self_iff]

/-- Nothing is dropped at the end of a text whose last character stays. -/
theorem reverse_dropWhile_reverse_eq_self_iff {p : Char → Bool} {t : Text} :
    (t.reverse.dropWhile p).reverse = t ↔ ∀ c ∈ t.getLast?, p c = false := by
  rw [List.reverse_eq_iff, dropWhile_eq_self_iff, List.head?_reverse]

theorem trimStart_eq_self_iff {t : Text} :
    trimStart t = t ↔ ∀ c ∈ t.head?, isBlank c = false := dropWhile_eq_self_iff

theorem trimEnd_eq_self_iff {t : Text} :
    trimEnd t = t ↔ ∀ c ∈ t.getLast?, isBlank c = false := reverse_dropWhile_reverse_eq_self_iff

/-- What is left behind the leading blanks begins with none. -/
theorem isBlank_of_mem_head?_trimStart {t : Text} : ∀ c ∈ (trimStart t).head?, isBlank c = false :=
  trimStart_eq_self_iff.mp (List.dropWhile_idempotent isBlank t)

/-- **A text is its own trim** if no blank stands at its ends. -/
theorem trim_eq_self_iff {t : Text} :
    trim t = t ↔ (∀ c ∈ t.head?, isBlank c = false) ∧ ∀ c ∈ t.getLast?, isBlank c = false := by
  constructor
  · intro h
    have hlen : t.length ≤ (trimStart t).length := by
      have := length_trimEnd_le (trimStart t)
      rwa [← trim, h] at this
    have hs : trimStart t = t := (trimStart_suffix t).eq_of_length_le hlen
    have he : trimEnd t = t := by rwa [trim, hs] at h
    exact ⟨trimStart_eq_self_iff.mp hs, trimEnd_eq_self_iff.mp he⟩
  · rintro ⟨hs, he⟩
    rw [trim, trimStart_eq_self_iff.mpr hs, trimEnd_eq_self_iff.mpr he]

theorem trimEnd_isPrefix (t : Text) : trimEnd t <+: t := List.rdropWhile_prefix isBlank t

theorem trim_subset (t : Text) : trim t ⊆ t :=
  List.Subset.trans (trimEnd_isPrefix (trimStart t)).subset (trimStart_suffix t).subset

/-- Trimming at the end keeps the first character, if any is left. -/
theorem head?_trimEnd {t : Text} (h : trimEnd t ≠ []) : (trimEnd t).head? = t.head? := by
  obtain ⟨v, hv⟩ := trimEnd_isPrefix t
  conv_rhs => rw [← hv]
  rw [List.head?_append_of_ne_nil _ h]

/-- **A trim is its own trim.** -/
theorem trim_trim (t : Text) : trim (trim t) = trim t := by
  have hend : trimEnd (trim t) = trim t := by
    unfold trim trimEnd
    rw [List.reverse_reverse, List.dropWhile_idempotent]
  have hstart : trimStart (trim t) = trim t := by
    rw [trimStart_eq_self_iff]
    intro c hc
    have hne : trimEnd (trimStart t) ≠ [] := List.ne_nil_of_mem (List.mem_of_mem_head? hc)
    rw [trim, head?_trimEnd hne] at hc
    exact isBlank_of_mem_head?_trimStart c hc
  rw [trim_eq_self_iff]
  exact ⟨trimStart_eq_self_iff.mp hstart, trimEnd_eq_self_iff.mp hend⟩

/-- A text between two characters that are not blank is its own trim. -/
theorem trim_between {c d : Char} (hc : isBlank c = false) (hd : isBlank d = false) (t : Text) :
    trim (c :: (t ++ [d])) = c :: (t ++ [d]) := by
  rw [trim_eq_self_iff, ← List.cons_append, List.getLast?_concat]
  simp [hc, hd]

/-- The trim of a text is empty if the text is blank. -/
theorem trim_eq_nil_iff {t : Text} : trim t = [] ↔ ∀ c ∈ t, isBlank c = true := by
  have hend : trimEnd (trimStart t) = [] ↔ ∀ c ∈ trimStart t, isBlank c = true := List.rdropWhile_eq_nil_iff
  rw [trim, hend]
  constructor
  · intro h
    -- What is left begins with no blank, so nothing is left.
    rcases hs : trimStart t with _ | ⟨c, s⟩
    · exact List.dropWhile_eq_nil_iff.mp hs
    · have hc : isBlank c = false := isBlank_of_mem_head?_trimStart c (by rw [hs]; rfl)
      rw [h c (by rw [hs]; exact List.mem_cons_self)] at hc
      cases hc
  · exact fun h c hc => h c ((trimStart_suffix t).subset hc)

end Text

/-! ### Pieces -/

section Pieces

variable {α : Type} [DecidableEq α] {sep : α}

theorem pieces_of_not_mem : ∀ {p : List α}, sep ∉ p → pieces sep p = [p]
  | [], _ => rfl
  | a :: p, h => by
    have ha : a ≠ sep := fun he => h (he ▸ List.mem_cons_self)
    rw [pieces, if_neg ha, pieces_of_not_mem fun hm => h (List.mem_cons_of_mem a hm)]

theorem subset_of_mem_pieces : ∀ {l p : List α}, p ∈ pieces sep l → p ⊆ l
  | [], p, h => by
    rw [pieces, List.mem_singleton] at h
    exact h ▸ List.Subset.refl []
  | a :: l, p, h => by
    have ih {q : List α} (hq : q ∈ pieces sep l) : q ⊆ l := subset_of_mem_pieces hq
    rw [pieces] at h
    split_ifs at h
    · rcases List.mem_cons.mp h with rfl | h
      · exact List.nil_subset _
      · exact List.subset_cons_of_subset a (ih h)
    · split at h
      · next hnil => exact absurd hnil (pieces_ne_nil sep l)
      · next q qs hq =>
        rw [hq] at ih
        rcases List.mem_cons.mp h with rfl | h
        · exact List.cons_subset_cons a (ih List.mem_cons_self)
        · exact List.subset_cons_of_subset a (ih (List.mem_cons_of_mem q h))

/-- **A separator divides the pieces.** -/
theorem pieces_append (l m : List α) : pieces sep (l ++ sep :: m) = pieces sep l ++ pieces sep m := by
  induction l with
  | nil => simp [pieces]
  | cons a l ih =>
    rw [List.cons_append, pieces, pieces, ih]
    by_cases ha : a = sep
    · rw [if_pos ha, if_pos ha, List.cons_append]
    · rw [if_neg ha, if_neg ha]
      rcases hp : pieces sep l with _ | ⟨p, ps⟩
      · exact absurd hp (pieces_ne_nil sep l)
      · rfl

theorem pieces_append_cons {p : List α} (h : sep ∉ p) (l : List α) :
    pieces sep (p ++ sep :: l) = p :: pieces sep l := by
  rw [pieces_append, pieces_of_not_mem h, List.singleton_append]

/-- **The pieces of a text of ended lines** are the lines and what follows the last one. -/
theorem pieces_flatMap : ∀ {ls : List (List α)}, (∀ p ∈ ls, sep ∉ p) → ∀ l : List α,
    pieces sep (ls.flatMap (· ++ [sep]) ++ l) = ls ++ pieces sep l
  | [], _, _ => rfl
  | p :: ls, h, l => by
    have hp := h p List.mem_cons_self
    have ih := pieces_flatMap (fun q hq => h q (List.mem_cons_of_mem p hq)) l
    rw [List.flatMap_cons, List.append_assoc, List.append_assoc, List.singleton_append,
      pieces_append_cons hp, ih, List.cons_append]

omit [DecidableEq α] in
theorem intercalate_concat : ∀ {ls : List (List α)}, ls ≠ [] →
    [sep].intercalate ls ++ [sep] = ls.flatMap (· ++ [sep])
  | [l], _ => by simp [List.intercalate]
  | l :: m :: ls, _ => by
    have ih := intercalate_concat (List.cons_ne_nil m ls)
    rw [List.flatMap_cons, ← ih]
    simp [List.intercalate]

/-- **Lines with separators between them** are the pieces of their text. -/
theorem pieces_intercalate {ls : List (List α)} (hne : ls ≠ []) (h : ∀ p ∈ ls, sep ∉ p) :
    pieces sep ([sep].intercalate ls) = ls := by
  have hended := pieces_flatMap h []
  rw [List.append_nil, ← intercalate_concat hne, pieces_append] at hended
  exact List.append_cancel_right hended

/-- The first pieces of a text, all of them ended, begin the text with one more separator. -/
theorem flatMap_take_pieces_isPrefix (l : List α) (n : ℕ) :
    ((pieces sep l).take n).flatMap (· ++ [sep]) <+: l ++ [sep] := by
  have hall : (pieces sep l).flatMap (· ++ [sep]) = l ++ [sep] := by
    rw [← intercalate_concat (pieces_ne_nil sep l), intercalate_pieces]
  rw [← hall]
  conv_rhs => rw [← List.take_append_drop n (pieces sep l), List.flatMap_append]
  exact List.prefix_append _ _

end Pieces

end EditorSettings
