import EditorSettings.Text.Basic
import Mathlib.Data.List.Basic

/-!
# Bare characters

A backslash takes the meaning from the next character.  The bare characters of a text are those that keep
theirs: a backslash with a character behind it is dropped together with that character, and a backslash at
the end is bare (`bare`).  A text without a bare backslash is a row of single characters and of pairs of a
backslash and a character (`Paired`), so what follows it is read on its own (`Paired.bare_append`).
-/

namespace EditorSettings.Text

/-- The characters of a text that no backslash takes the meaning from. -/
def bare : Text → Text
  | [] => []
  | ['\\'] => ['\\']
  | '\\' :: _ :: t => bare t
  | c :: t => c :: bare t

/-- **A text without a bare backslash.** -/
inductive Paired : Text → Prop
  /-- The empty text. -/
  | nil : Paired []
  /-- A backslash and another character. -/
  | pair (c : Char) {t : Text} (ht : Paired t) : Paired ('\\' :: c :: t)
  /-- A character of its own. -/
  | single {c : Char} (hc : c ≠ '\\') {t : Text} (ht : Paired t) : Paired (c :: t)

theorem bare_cons {c : Char} (h : c ≠ '\\') (t : Text) : bare (c :: t) = c :: bare t :=
  bare.eq_4 c t (fun he => absurd he h) (fun _ _ he => absurd he h)

/-- A character that takes part in neither reading of a backslash is none. -/
theorem ne_backslash {c : Char} {t : Text} (hend : c = '\\' → t = [] → False)
    (hpair : ∀ d u, c = '\\' → t = d :: u → False) : c ≠ '\\' := by
  rintro rfl
  rcases t with _ | ⟨d, u⟩
  · exact hend rfl rfl
  · exact hpair d u rfl rfl

theorem mem_of_mem_bare {c : Char} {t : Text} (h : c ∈ bare t) : c ∈ t := by
  induction t using bare.induct with
  | case1 => exact h
  | case2 => exact h
  | case3 d t ih => exact List.mem_cons_of_mem _ (List.mem_cons_of_mem _ (ih h))
  | case4 d t h1 h2 ih =>
    rw [bare_cons (ne_backslash h1 h2)] at h
    exact List.mem_cons.mpr ((List.mem_cons.mp h).imp_right ih)

theorem paired_of_not_mem {t : Text} (h : '\\' ∉ bare t) : Paired t := by
  induction t using bare.induct with
  | case1 => exact .nil
  | case2 => exact absurd List.mem_cons_self h
  | case3 c t ih => exact .pair c (ih h)
  | case4 c t h1 h2 ih =>
    have hc := ne_backslash h1 h2
    rw [bare_cons hc, List.mem_cons, not_or] at h
    exact .single hc (ih h.2)

/-- **What follows a text without a bare backslash is read on its own.** -/
theorem Paired.bare_append {s : Text} (h : Paired s) (t : Text) : bare (s ++ t) = bare s ++ bare t := by
  induction h with
  | nil => rfl
  | pair c _ ih => exact ih
  | single hc _ ih => rw [List.cons_append, bare_cons hc, bare_cons hc, ih, List.cons_append]

theorem Paired.not_mem_bare {t : Text} (h : Paired t) : '\\' ∉ bare t := by
  induction h with
  | nil => exact List.not_mem_nil
  | pair c _ ih => exact ih
  | single hc _ ih =>
    rw [bare_cons hc, List.mem_cons, not_or]
    exact ⟨Ne.symm hc, ih⟩

theorem Paired.append {s t : Text} (hs : Paired s) (ht : Paired t) : Paired (s ++ t) := by
  refine paired_of_not_mem ?_
  rw [hs.bare_append, List.mem_append, not_or]
  exact ⟨hs.not_mem_bare, ht.not_mem_bare⟩

/-- What follows a text without a bare backslash has none if the whole has none. -/
theorem Paired.of_append {s t : Text} (hs : Paired s) (h : Paired (s ++ t)) : Paired t := by
  have hmem := h.not_mem_bare
  rw [hs.bare_append, List.mem_append, not_or] at hmem
  exact paired_of_not_mem hmem.2

end EditorSettings.Text
