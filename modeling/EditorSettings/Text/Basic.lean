/-!
# Texts

A text is a list of characters.  This module holds what every reader and printer of the library
shares: the pieces of a list between separators, taking a fixed beginning off, and membership of a
character in a table of code point intervals.

* `pieces sep l` cuts `l` at every `sep`; it has one piece more than `l` has separators.
* `Text.inTable rows c` says that the code point of `c` lies in one of the intervals `rows`.
-/

namespace EditorSettings

/-- A text: its characters in order. -/
abbrev Text := List Char

/-! ### Pieces between separators -/

section Pieces

variable {α : Type} [DecidableEq α]

/-- The pieces of a list between the occurrences of `sep`. -/
def pieces (sep : α) : List α → List (List α)
  | [] => [[]]
  | a :: l =>
    if a = sep then [] :: pieces sep l
    else
      match pieces sep l with
      | [] => [[a]]
      | p :: ps => (a :: p) :: ps

theorem pieces_ne_nil (sep : α) (l : List α) : pieces sep l ≠ [] := by
  cases l with
  | nil => simp [pieces]
  | cons a l =>
    unfold pieces
    split
    · simp
    · split <;> simp

/-- Writing the separators back between the pieces gives the list. -/
theorem intercalate_pieces (sep : α) (l : List α) : [sep].intercalate (pieces sep l) = l := by
  induction l with
  | nil => rfl
  | cons a l ih =>
    unfold pieces
    have hne := pieces_ne_nil sep l
    cases hp : pieces sep l with
    | nil => exact absurd hp hne
    | cons p ps =>
      rw [hp] at ih
      by_cases h : a = sep
      · subst h
        simpa [List.intercalate] using ih
      · cases ps <;> simp_all [List.intercalate]

/-- No piece holds a separator. -/
theorem not_mem_of_mem_pieces (sep : α) (l : List α) : ∀ p ∈ pieces sep l, sep ∉ p := by
  induction l with
  | nil => simp [pieces]
  | cons a l ih =>
    unfold pieces
    split
    · simpa using ih
    · next h =>
      split
      · simpa using fun h' => h h'.symm
      · next p ps hp =>
        rw [hp] at ih
        intro q hq
        rcases List.mem_cons.mp hq with rfl | hq
        · simpa using ⟨fun h' => h h'.symm, ih p (by simp)⟩
        · exact ih q (by simp [hq])

end Pieces

/-! ### Beginnings -/

namespace Text

/-- What follows a given beginning, if the text has that beginning. -/
def after? : Text → Text → Option Text
  | [], t => some t
  | c :: p, d :: t => if c = d then after? p t else none
  | _ :: _, [] => none

theorem after?_eq_some_iff {p t r : Text} : after? p t = some r ↔ t = p ++ r := by
  induction p generalizing t with
  | nil => simp [after?, eq_comm]
  | cons c p ih =>
    cases t with
    | nil => simp [after?]
    | cons d t =>
      by_cases h : c = d
      · subst h
        simp [after?, ih]
      · simp [after?, h, Ne.symm h]

/-! ### Character tables -/

/-- Membership of a character in a table of code point intervals, both ends included. -/
def inTable (rows : List (Nat × Nat)) (c : Char) : Bool :=
  rows.any fun row => decide (row.1 ≤ c.toNat) && decide (c.toNat ≤ row.2)

theorem inTable_iff {rows : List (Nat × Nat)} {c : Char} :
    inTable rows c = true ↔ ∃ row ∈ rows, row.1 ≤ c.toNat ∧ c.toNat ≤ row.2 := by
  simp [inTable]

end Text

end EditorSettings
