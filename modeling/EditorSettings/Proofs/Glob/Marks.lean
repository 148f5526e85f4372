import EditorSettings.Glob.Regex
import Mathlib.Data.Nat.Notation

/-!
# Marks of alternations

Whatever a pattern looks like, its tokens never end an alternation or go on to another branch outside of
one (`Token.marksInside_ofPattern`): the scanner writes such a mark only while it counts an alternation as
open, and it never counts more of them than there are.  So what lies around the tokens is never divided
into branches.  Reading the tokens only adds parts to the outermost level (`Regex.run_stack`), and the
expression of a pattern is a row of parts (`Regex.exists_parts`).
-/

namespace EditorSettings

/-! ### Where marks stand -/

namespace Token

/-- The marks that must stand inside of an alternation. -/
def isInnerMark : Token → Bool
  | .nextBranch => true
  | .closeGroup => true
  | _ => false

/-- The number of open alternations after one more token. -/
def depthAfter (depth : ℕ) : Token → ℕ
  | .openGroup => depth + 1
  | .closeGroup => depth - 1
  | _ => depth

/-- Whether the inner marks of some tokens stand inside of alternations, `depth` of them being open at
the beginning. -/
def marksInside : ℕ → List Token → Bool
  | _, [] => true
  | depth, t :: ts => (!t.isInnerMark || decide (0 < depth)) && marksInside (t.depthAfter depth) ts

theorem depthAfter_le (t : Token) {d e : ℕ} (h : d ≤ e) : t.depthAfter d ≤ t.depthAfter e := by
  cases t <;> simp only [depthAfter] <;> omega

theorem marksInside_cons {d : ℕ} {t : Token} {ts : List Token} :
    marksInside d (t :: ts) = true ↔
      (t.isInnerMark = true → 0 < d) ∧ marksInside (t.depthAfter d) ts = true := by
  rw [marksInside, Bool.and_eq_true, Bool.or_eq_true, Bool.not_eq_true', decide_eq_true_iff]
  cases t.isInnerMark <;> simp

theorem marksInside_mono {ts : List Token} : ∀ {d e : ℕ}, marksInside d ts = true → d ≤ e →
    marksInside e ts = true := by
  induction ts with
  | nil => exact fun _ _ => rfl
  | cons t ts ih =>
    intro d e h hle
    rw [marksInside_cons] at h ⊢
    refine ⟨fun ht => ?_, ih h.2 (depthAfter_le t hle)⟩
    have := h.1 ht
    omega

/-- Tokens with their marks inside may stand inside of any number of alternations. -/
theorem marksInside_append {us : List Token} {e : ℕ} (hu : marksInside e us = true) :
    ∀ {ts : List Token} {d : ℕ}, marksInside d ts = true → marksInside (d + e) (ts ++ us) = true := by
  intro ts
  induction ts with
  | nil => exact fun _ => marksInside_mono hu (by omega)
  | cons t ts ih =>
    intro d h
    rw [marksInside_cons] at h
    rw [List.cons_append, marksInside_cons]
    have hafter : t.depthAfter d + e ≤ t.depthAfter (d + e) := by
      cases t with
      | closeGroup =>
        have := h.1 rfl
        simp only [depthAfter]
        omega
      | _ => simp only [depthAfter]; omega
    exact ⟨fun ht => by have := h.1 ht; omega, marksInside_mono (ih h.2) hafter⟩

/-- **The scanner puts marks inside of alternations.** -/
theorem marksInside_scan (alternates : Bool) (d : ℕ) (t : Text) :
    marksInside d (scan alternates d t) = true := by
  fun_induction scan alternates d t with
  | case1 => rfl
  | case2 => rfl
  | case10 alternates depth t inside rest hg hr ihin ih =>
    -- The inside of literal braces is a pattern of its own and counts from zero.
    have hrest : marksInside depth (literal '}' :: scan alternates depth rest) = true := ih
    have h := marksInside_append hrest ihin
    rw [Nat.zero_add] at h
    exact h
  | case13 alternates depth t ih =>
    rw [marksInside_cons]
    split
    · exact ⟨fun h => absurd h (by decide), ih⟩
    · next hd => exact ⟨fun _ => Nat.pos_of_ne_zero hd, ih⟩
  | case14 alternates depth t ih =>
    rw [marksInside_cons]
    split
    · next hd =>
      rw [hd] at ih ⊢
      exact ⟨fun h => absurd h (by decide), ih⟩
    · next hd => exact ⟨fun _ => Nat.pos_of_ne_zero hd, ih⟩
  | _ => assumption

theorem marksInside_ofPattern (pattern : Text) : marksInside 0 (ofPattern pattern) = true :=
  marksInside_scan (closes pattern) 0 pattern

end Token

namespace Regex

/-! ### The outermost level -/

/-- The levels `inner` inside of the outermost level. -/
def stack (inner : List Level) (outermost : Level) : Level × List Level :=
  match inner with
  | [] => (outermost, [])
  | l :: ls => (l, ls ++ [outermost])

/-- A token that is a part of a branch adds it to the innermost level, or never fits. -/
theorem step_stack_of_part {t : Token}
    (h : ∀ levels, step levels t = (part? t).map fun r => (levels.1.add r, levels.2))
    (inner : List Level) :
    (∀ o, step (stack inner o) t = none) ∨
      ∃ (inner' : List Level) (parts : List Regex), inner'.length = inner.length ∧
        ∀ o, step (stack inner o) t = some (stack inner' (parts.foldl Level.add o)) := by
  cases hp : part? t with
  | none => exact Or.inl fun o => by rw [h, hp, Option.map_none]
  | some r =>
    rcases inner with _ | ⟨l, ls⟩
    · exact Or.inr ⟨[], [r], rfl, fun o => by rw [h, hp]; rfl⟩
    · exact Or.inr ⟨l.add r :: ls, [], rfl, fun o => by rw [h, hp]; rfl⟩

/-- **A token whose mark is inside only adds parts to the outermost level**, whatever that is, or it
never fits. -/
theorem step_stack {inner : List Level} {t : Token} (h : t.isInnerMark = true → 0 < inner.length) :
    (∀ o, step (stack inner o) t = none) ∨
      ∃ (inner' : List Level) (parts : List Regex), inner'.length = t.depthAfter inner.length ∧
        ∀ o, step (stack inner o) t = some (stack inner' (parts.foldl Level.add o)) := by
  cases t with
  | openGroup =>
    refine Or.inr ⟨Level.start :: inner, [], rfl, fun o => ?_⟩
    cases inner <;> rfl
  | nextBranch =>
    obtain ⟨l, ls, rfl⟩ := List.exists_cons_of_length_pos (h rfl)
    exact Or.inr ⟨⟨some l.close, empty⟩ :: ls, [], rfl, fun o => rfl⟩
  | closeGroup =>
    obtain ⟨l, ls, rfl⟩ := List.exists_cons_of_length_pos (h rfl)
    rcases ls with _ | ⟨l₂, ls⟩
    · exact Or.inr ⟨[], [group l.close], rfl, fun o => rfl⟩
    · exact Or.inr ⟨l₂.add (group l.close) :: ls, [], rfl, fun o => rfl⟩
  | _ => exact step_stack_of_part (fun levels => rfl) inner

/-- **Tokens whose marks are inside only add parts to the outermost level.** -/
theorem run_stack : ∀ {ts : List Token} {inner : List Level},
    Token.marksInside inner.length ts = true →
      (∀ o, run (stack inner o) ts = none) ∨
        ∃ (inner' : List Level) (parts : List Regex),
          ∀ o, run (stack inner o) ts = some (stack inner' (parts.foldl Level.add o))
  | [], inner, _ => Or.inr ⟨inner, [], fun o => rfl⟩
  | t :: ts, inner, h => by
    rw [Token.marksInside_cons] at h
    rcases step_stack h.1 with hstep | ⟨inner₁, parts₁, hlen, hstep⟩
    · exact Or.inl fun o => by rw [run, hstep]
    · have hrest : Token.marksInside inner₁.length ts = true := by rw [hlen]; exact h.2
      rcases run_stack hrest with hrun | ⟨inner₂, parts₂, hrun⟩
      · exact Or.inl fun o => by rw [run, hstep]; exact hrun _
      · refine Or.inr ⟨inner₂, parts₁ ++ parts₂, fun o => ?_⟩
        rw [run, hstep, List.foldl_append]
        exact hrun _

/-! ### The parts of an expression -/

/-- Parts one after the other, behind the expression `e`. -/
def inOrder (e : Regex) (parts : List Regex) : Regex := parts.foldl andThen e

theorem foldl_add {before : Option Regex} (parts : List Regex) : ∀ e : Regex,
    parts.foldl Level.add ⟨before, e⟩ = ⟨before, inOrder e parts⟩ := by
  induction parts with
  | nil => exact fun _ => rfl
  | cons r parts ih => exact fun e => ih (e.andThen r)

/-- **The expression of tokens with their marks inside is a row of parts**, and behind another expression
the tokens add the same parts. -/
theorem exists_parts {ts : List Token} (hm : Token.marksInside 0 ts = true) {e₀ r : Regex}
    (h : run (⟨none, e₀⟩, []) ts = some (⟨none, r⟩, [])) :
    ∃ parts : List Regex, r = inOrder e₀ parts ∧
      ∀ e, run (⟨none, e⟩, []) ts = some (⟨none, inOrder e parts⟩, []) := by
  have hm : Token.marksInside ([] : List Level).length ts = true := hm
  rcases run_stack hm with hrun | ⟨inner', parts, hrun⟩
  · exact absurd ((hrun ⟨none, e₀⟩).symm.trans h) (by simp)
  · have h₀ := (hrun ⟨none, e₀⟩).symm.trans h
    rw [foldl_add] at h₀
    rcases inner' with _ | ⟨l, ls⟩
    · have hr : inOrder e₀ parts = r := by simpa [stack] using h₀
      refine ⟨parts, hr.symm, fun e => ?_⟩
      rw [← foldl_add]
      exact hrun ⟨none, e⟩
    · simp [stack] at h₀

/-- Tokens with their marks inside stay in one branch. -/
theorem run_eq_of_tree? {ts : List Token} (hm : Token.marksInside 0 ts = true) {r : Regex}
    (h : tree? ts = some r) : run (⟨none, empty⟩, []) ts = some (⟨none, r⟩, []) := by
  unfold tree? Level.start at h
  have hm : Token.marksInside ([] : List Level).length ts = true := hm
  rcases run_stack hm with hrun | ⟨inner', parts, hrun⟩
  · have h₀ : run (⟨none, empty⟩, []) ts = none := hrun ⟨none, empty⟩
    simp [h₀] at h
  · have h₀ : run (⟨none, empty⟩, []) ts = _ := hrun ⟨none, empty⟩
    rw [foldl_add] at h₀
    rcases inner' with _ | ⟨l, ls⟩
    · simpa [h₀, stack, Level.close] using h
    · simp [h₀, stack] at h

end Regex

end EditorSettings
