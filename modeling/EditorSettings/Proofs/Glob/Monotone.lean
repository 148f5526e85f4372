import EditorSettings.Proofs.Glob.Nesting
import Mathlib.Data.List.Forall2

/-!
# Wider expressions

An expression is within another one that describes no less and is at most two levels deeper (`Regex.Within`).
Sequences, choices and groups are monotone in their parts.  So reading tokens is monotone in the levels they
are read in: from levels within others, every token is read to levels within others (`Regex.step_within`), and
so are all of them (`Regex.run_within`).

The depth of a row is that of its deepest part, and one more if it stands on its own
(`Regex.depthIn_le_rowDepth`).
-/

namespace EditorSettings

open Token

namespace Regex

/-! ### Wider expressions -/

/-- **An expression within another one**: the other one describes no less, and is nested at most two levels
deeper. -/
structure Within (r s : Regex) : Prop where
  describes : ∀ u, r.Describes u → s.Describes u
  depth : ∀ inSeq inAlt, s.depthIn inSeq inAlt ≤ r.depthIn inSeq inAlt + 2
  empty : r = empty ↔ s = empty

theorem Within.refl (r : Regex) : Within r r := ⟨fun _ h => h, fun _ _ => Nat.le_add_right _ _, Iff.rfl⟩

theorem andThen_eq_seq {a : Regex} (ha : a ≠ empty) (b : Regex) : a.andThen b = seq a b := by
  cases a with
  | empty => exact absurd rfl ha
  | _ => rfl

theorem Within.andThen {a a' b b' : Regex} (ha : Within a a') (hb : Within b b') :
    Within (a.andThen b) (a'.andThen b') := by
  by_cases hempty : a = .empty
  · rw [hempty, ha.empty.mp hempty]
    exact hb
  · have hdescribes : ∀ u, (a.andThen b).Describes u → (a'.andThen b').Describes u := by
      intro u h
      obtain ⟨v, w, rfl, hv, hw⟩ := describes_andThen.mp h
      exact describes_andThen.mpr ⟨v, w, rfl, ha.describes v hv, hb.describes w hw⟩
    rw [andThen_eq_seq hempty, andThen_eq_seq (mt ha.empty.mpr hempty)] at hdescribes ⊢
    refine ⟨hdescribes, fun inSeq inAlt => ?_, by simp⟩
    have hda := ha.depth true false
    have hdb := hb.depth true false
    simp only [depthIn]
    split <;> omega

theorem Within.alt {a a' b b' : Regex} (ha : Within a a') (hb : Within b b') :
    Within (alt a b) (alt a' b') where
  describes u h := describes_alt.mpr ((describes_alt.mp h).imp (ha.describes u) (hb.describes u))
  depth inSeq inAlt := by
    have hda := ha.depth false true
    have hdb := hb.depth false true
    simp only [depthIn]
    split <;> omega
  empty := by simp

theorem Within.group {a a' : Regex} (ha : Within a a') : Within (group a) (group a') where
  describes := ha.describes
  depth inSeq inAlt := by
    have hd := ha.depth false false
    simp only [depthIn]
    omega
  empty := by simp

/-- Any run is wider than a run in a name. -/
theorem within_many : Within (many .notSlash) (many .every) :=
  ⟨fun _ _ => describes_many.mpr fun _ _ => rfl, fun _ _ => by simp [depthIn, CharSet.depth], by simp⟩

/-! ### The depth of a row -/

/-- The depth of a row whose parts have the depth `n`, as a part of a longer row (`inSeq`) or on its own. -/
def rowDepth (n : ℕ) (inSeq : Bool) : ℕ := if inSeq then n else n + 1

theorem depthIn_le_rowDepth (r : Regex) (inSeq inAlt : Bool) :
    r.depthIn inSeq inAlt ≤ rowDepth (r.depthIn true false) inSeq := by
  cases r with
  | seq a b =>
    simp only [depthIn, rowDepth]
    split_ifs <;> omega
  | alt a b =>
    simp only [depthIn, rowDepth, Bool.false_eq_true, if_false]
    split_ifs <;> omega
  | _ => cases inSeq <;> simp [depthIn, rowDepth]

theorem depthIn_seq (a b : Regex) (inSeq inAlt : Bool) :
    (seq a b).depthIn inSeq inAlt = rowDepth ((seq a b).depthIn true false) inSeq := by
  cases inSeq
  · simp only [depthIn, rowDepth, Bool.false_eq_true, if_false, if_true]
    omega
  · rfl

theorem le_depthIn_andThen (a b : Regex) :
    a.depthIn true false ≤ (a.andThen b).depthIn true false ∧
      b.depthIn true false ≤ (a.andThen b).depthIn true false := by
  by_cases ha : a = empty
  · subst ha
    exact ⟨Nat.zero_le _, le_rfl⟩
  · rw [andThen_eq_seq ha]
    simp only [depthIn, if_true]
    omega

theorem le_depthIn_inOrder : ∀ (parts : List Regex) (e : Regex),
    e.depthIn true false ≤ (inOrder e parts).depthIn true false
  | [], _ => le_rfl
  | r :: parts, e => (le_depthIn_andThen e r).1.trans (le_depthIn_inOrder parts (e.andThen r))

theorem depthIn_inOrder_le {n : ℕ} : ∀ {parts : List Regex} {e : Regex}, e.depthIn true false ≤ n →
    (∀ r ∈ parts, r.depthIn true false ≤ n) → (inOrder e parts).depthIn true false ≤ n
  | [], _, he, _ => he
  | r :: parts, e, he, h => by
    obtain ⟨hr, hparts⟩ := List.forall_mem_cons.mp h
    exact depthIn_inOrder_le (e := e.andThen r) (depthIn_andThen_le he hr) hparts

theorem andThen_ne_empty {b : Regex} (hb : b ≠ empty) (a : Regex) : a.andThen b ≠ empty := by
  by_cases ha : a = empty
  · subst ha
    exact hb
  · rw [andThen_eq_seq ha]
    nofun

/-- A row of two or more parts is a sequence. -/
theorem exists_inOrder_eq_seq (parts : List Regex) : ∀ a b : Regex,
    ∃ a' b', inOrder (seq a b) parts = seq a' b' := by
  induction parts with
  | nil => exact fun a b => ⟨a, b, rfl⟩
  | cons r parts ih => exact fun a b => ih (seq a b) r

theorem inOrder_ne_empty {e : Regex} (he : e ≠ empty) : ∀ parts : List Regex, inOrder e parts ≠ empty
  | [] => he
  | r :: parts => by
    obtain ⟨a, b, hseq⟩ := exists_inOrder_eq_seq parts e r
    have hrow : inOrder e (r :: parts) = inOrder (e.andThen r) parts := rfl
    rw [hrow, andThen_eq_seq he, hseq]
    nofun

/-! ### Reading wider levels -/

/-- A level within another one: the branches before are, if there are any, and so is the current one. -/
structure Level.Within (l l' : Level) : Prop where
  before : Option.Rel Regex.Within l.before l'.before
  current : Regex.Within l.current l'.current

theorem Level.Within.refl (l : Level) : l.Within l := by
  refine ⟨?_, .refl l.current⟩
  cases l.before with
  | none => exact .none
  | some b => exact .some (.refl b)

theorem Level.Within.close {l l' : Level} (h : l.Within l') : Regex.Within l.close l'.close := by
  obtain ⟨before, current⟩ := l
  obtain ⟨before', current'⟩ := l'
  obtain ⟨hbefore, hcurrent⟩ := h
  cases hbefore with
  | none => exact hcurrent
  | some hb => exact hb.alt hcurrent

theorem Level.Within.add {l l' : Level} (h : l.Within l') {r r' : Regex} (hr : Regex.Within r r') :
    (l.add r).Within (l'.add r') := ⟨h.before, h.current.andThen hr⟩

/-- All levels are within others, the innermost one in the first place. -/
def LevelsWithin (x y : Level × List Level) : Prop := x.1.Within y.1 ∧ List.Forall₂ Level.Within x.2 y.2

theorem LevelsWithin.refl (x : Level × List Level) : LevelsWithin x x :=
  ⟨.refl x.1, List.forall₂_same.mpr fun l _ => .refl l⟩

/-- **One token is read in step**, inside of levels that are within others. -/
theorem step_within {x y x₁ : Level × List Level} {k : Token} (h : LevelsWithin x y)
    (hx : step x k = some x₁) : ∃ y₁, step y k = some y₁ ∧ LevelsWithin x₁ y₁ := by
  obtain ⟨l, ls⟩ := x
  obtain ⟨l', ls'⟩ := y
  obtain ⟨hl, hls⟩ := h
  obtain ⟨r, hr, rfl⟩ | ⟨rfl, rfl⟩ | ⟨rfl, rfl⟩ | ⟨rfl, o, os, rfl, rfl⟩ := step_cases hx
  · exact ⟨_, step_part hr l' ls', hl.add (.refl r), hls⟩
  · exact ⟨_, rfl, .refl _, .cons hl hls⟩
  · exact ⟨_, rfl, ⟨.some hl.close, .refl _⟩, hls⟩
  · obtain ⟨o', os', ho, hos, rfl⟩ := List.forall₂_cons_left_iff.mp hls
    exact ⟨_, rfl, ho.add hl.close.group, hos⟩

/-- **Tokens are read in step** inside of levels that are within others. -/
theorem run_within : ∀ {ts : List Token} {x y x₁ : Level × List Level}, LevelsWithin x y →
    run x ts = some x₁ → ∃ y₁, run y ts = some y₁ ∧ LevelsWithin x₁ y₁
  | [], x, y, x₁, h, hx => by
    cases hx
    exact ⟨y, rfl, h⟩
  | k :: ts, x, y, x₁, h, hx => by
    obtain ⟨x₂, hstep, hx⟩ := run_cons_eq_some_iff.mp hx
    obtain ⟨y₂, hy₂, h₂⟩ := step_within h hstep
    obtain ⟨y₁, hy₁, h₁⟩ := run_within h₂ hx
    exact ⟨y₁, run_cons_eq_some_iff.mpr ⟨y₂, hy₂, hy₁⟩, h₁⟩

end Regex

end EditorSettings
