import EditorSettings.Proofs.Glob.Scanning
import Mathlib.Order.Basic
import Mathlib.Order.Lattice

/-!
# The regular expression of a tree

The tokens of a tree are put together to the regular expression `tree.regex` (`GlobTree.tree?_tokens`),
which describes what the tree denotes (`GlobTree.describes_regex`), catches nothing if there are no
ranges (`GlobTree.catchesNone_regex`), and is at most three levels deeper for each level of choices
(`GlobTree.depth_regex_le`).

All of this goes by recursion on the tree, for an item, for a sequence behind the expression `e` read so
far, and for the further branches of a choice behind the choice `e` read so far.
-/

namespace EditorSettings

open Regex (Level)

mutual

/-- The expression of an item. -/
def GlobItem.regex : GlobItem → Regex
  | .plain c _ => .one (.only c)
  | .escaped c => .one (.only c)
  | .nameChar => .one .notSlash
  | .nameRun => .many .notSlash
  | .anyRun => .many .every
  | .segments => Regex.segmentsRegex
  | .oneOf head first others =>
    .one (.bracket head.negates ⟨(first :: others).map ClassMember.bounds, []⟩)
  | .range low high => .integer ⟨low.value, high.value⟩
  | .choice first second others =>
    .group (GlobTree.choiceFrom
      (.alt (GlobTree.regexFrom .empty first) (GlobTree.regexFrom .empty second)) others)

/-- The expression `e`, then the items of a tree. -/
def GlobTree.regexFrom : Regex → GlobTree → Regex
  | e, [] => e
  | e, i :: is => GlobTree.regexFrom (e.andThen i.regex) is

/-- The choice between `e` and some trees. -/
def GlobTree.choiceFrom : Regex → List GlobTree → Regex
  | e, [] => e
  | e, t :: ts => GlobTree.choiceFrom (.alt e (GlobTree.regexFrom .empty t)) ts

end

/-- The expression of a tree. -/
def GlobTree.regex (tree : GlobTree) : Regex := GlobTree.regexFrom .empty tree

/-! ### From the tokens -/

/-- A token that is no mark of a choice adds its expression to the current branch. -/
theorem Regex.step_part {k : Token} {r : Regex} (hk : Regex.part? k = some r) (l : Level)
    (ls : List Level) : Regex.step (l, ls) k = some (l.add r, ls) := by
  have hstep : Regex.step (l, ls) k = (Regex.part? k).map fun r => (l.add r, ls) := by
    cases k with
    | openGroup => cases hk
    | nextBranch => cases hk
    | closeGroup => cases hk
    | _ => rfl
  rw [hstep, hk, Option.map_some]

/-- **What a token can do.**  It adds its expression to the current branch, or it opens an alternation, ends
a branch or closes the innermost alternation. -/
theorem Regex.step_cases {l : Level} {ls : List Level} {k : Token} {levels : Level × List Level}
    (h : Regex.step (l, ls) k = some levels) :
    (∃ r, Regex.part? k = some r ∧ levels = (l.add r, ls)) ∨
      (k = .openGroup ∧ levels = (Level.start, l :: ls)) ∨
      (k = .nextBranch ∧ levels = (⟨some l.close, .empty⟩, ls)) ∨
      k = .closeGroup ∧ ∃ o os, ls = o :: os ∧ levels = (o.add (.group l.close), os) := by
  cases k with
  | openGroup => exact .inr (.inl ⟨rfl, (Option.some.inj h).symm⟩)
  | nextBranch => exact .inr (.inr (.inl ⟨rfl, (Option.some.inj h).symm⟩))
  | closeGroup =>
    rcases ls with _ | ⟨o, os⟩
    · cases h
    · exact .inr (.inr (.inr ⟨rfl, o, os, rfl, (Option.some.inj h).symm⟩))
  | _ =>
    simp only [Regex.step, Option.map_eq_some_iff] at h
    obtain ⟨r, hr, rfl⟩ := h
    exact .inl ⟨r, hr, rfl⟩

theorem Regex.run_part {k : Token} {r : Regex} (hk : Regex.part? k = some r) (l : Level)
    (ls : List Level) (ks : List Token) :
    Regex.run (l, ls) (k :: ks) = Regex.run (l.add r, ls) ks := by
  rw [Regex.run, Regex.step_part hk]

/-- A token is read, and then the tokens behind it. -/
theorem Regex.run_cons_eq_some_iff {x y : Level × List Level} {k : Token} {ks : List Token} :
    Regex.run x (k :: ks) = some y ↔ ∃ z, Regex.step x k = some z ∧ Regex.run z ks = some y := by
  rw [Regex.run]
  cases Regex.step x k with
  | none => simp
  | some z => simp

/-- The expression is that of the outermost level, the others being closed. -/
theorem Regex.tree?_eq_some_iff {ks : List Token} {r : Regex} :
    Regex.tree? ks = some r ↔ ∃ l, Regex.run (Level.start, []) ks = some (l, []) ∧ r = l.close := by
  constructor
  · intro h
    rw [Regex.tree?] at h
    split at h
    · next l hrun => exact ⟨l, hrun, (Option.some.inj h).symm⟩
    · cases h
  · rintro ⟨l, hrun, rfl⟩
    rw [Regex.tree?, hrun]

theorem Regex.run_openGroup (l : Level) (ls : List Level) (ks : List Token) :
    Regex.run (l, ls) (.openGroup :: ks) = Regex.run (Level.start, l :: ls) ks := rfl

theorem Regex.run_nextBranch (l : Level) (ls : List Level) (ks : List Token) :
    Regex.run (l, ls) (.nextBranch :: ks) = Regex.run (⟨some l.close, .empty⟩, ls) ks := rfl

mutual

theorem GlobItem.run_tokens : ∀ (i : GlobItem) (l : Level) (ls : List Level) (ks : List Token),
    Regex.run (l, ls) (i.tokens ++ ks) = Regex.run (l.add i.regex, ls) ks
  | .plain _ _, l, ls, ks => Regex.run_part rfl l ls ks
  | .escaped _, l, ls, ks => Regex.run_part rfl l ls ks
  | .nameChar, l, ls, ks => Regex.run_part rfl l ls ks
  | .nameRun, l, ls, ks => Regex.run_part rfl l ls ks
  | .anyRun, l, ls, ks => Regex.run_part rfl l ls ks
  | .segments, l, ls, ks => Regex.run_part rfl l ls ks
  | .oneOf head first others, l, ls, ks => by
    refine Regex.run_part ?_ l ls ks
    change (Bracket.reading? ((first :: others).flatMap ClassMember.members)).map _ = _
    rw [Bracket.reading?_members]
    rfl
  | .range _ _, l, ls, ks => Regex.run_part rfl l ls ks
  | .choice first second others, l, ls, ks => by
    simp only [GlobItem.tokens, GlobItem.regex, List.cons_append, List.append_assoc, List.nil_append]
    rw [Regex.run_openGroup, GlobTree.run_tokens first, Regex.run_nextBranch,
      GlobTree.run_tokens second, GlobTree.run_furtherTokens others]
    rfl

/-- **The tokens of a tree extend the current branch by its items.** -/
theorem GlobTree.run_tokens : ∀ (tree : GlobTree) (l : Level) (ls : List Level) (ks : List Token),
    Regex.run (l, ls) (tree.tokens ++ ks) =
      Regex.run (⟨l.before, GlobTree.regexFrom l.current tree⟩, ls) ks
  | [], _, _, _ => rfl
  | i :: is, l, ls, ks => by
    rw [GlobTree.tokens, List.append_assoc, GlobItem.run_tokens i, GlobTree.run_tokens is]
    rfl

/-- The further branches end with the choice between all of them. -/
theorem GlobTree.run_furtherTokens : ∀ (trees : List GlobTree) (l outer : Level) (ls : List Level)
    (ks : List Token),
    Regex.run (l, outer :: ls) (GlobTree.furtherTokens trees ++ .closeGroup :: ks) =
      Regex.run (outer.add (.group (GlobTree.choiceFrom l.close trees)), ls) ks
  | [], _, _, _, _ => rfl
  | tree :: trees, l, outer, ls, ks => by
    simp only [GlobTree.furtherTokens, List.cons_append, List.append_assoc]
    rw [Regex.run_nextBranch, GlobTree.run_tokens tree, GlobTree.run_furtherTokens trees]
    rfl

end

/-- **The tokens of a tree give its expression.** -/
theorem GlobTree.tree?_tokens (tree : GlobTree) : Regex.tree? tree.tokens = some tree.regex := by
  have h := GlobTree.run_tokens tree Level.start [] []
  rw [List.append_nil] at h
  rw [Regex.tree?, h]
  rfl

/-! ### What it describes -/

theorem Regex.describes_only {c : Char} {u : Text} :
    (Regex.one (.only c)).Describes u ↔ u = [c] := by
  rw [Regex.describes_one]
  constructor
  · rintro ⟨d, hd, rfl⟩
    rw [beq_iff_eq.mp hd]
  · rintro rfl
    exact ⟨c, beq_self_eq_true c, rfl⟩

theorem Regex.describes_segmentsRegex {u : Text} :
    Regex.segmentsRegex.Describes u ↔ u = ['/'] ∨ ∃ s, u = '/' :: (s ++ ['/']) := by
  rw [Regex.segmentsRegex, Regex.describes_group, Regex.describes_alt, Regex.describes_only]
  refine or_congr Iff.rfl ?_
  simp only [Regex.describes_seq, Regex.describes_only, Regex.describes_many]
  constructor
  · rintro ⟨_, _, rfl, ⟨_, s, rfl, rfl, -⟩, rfl⟩
    exact ⟨s, by simp⟩
  · rintro ⟨s, rfl⟩
    exact ⟨'/' :: s, ['/'], rfl, ⟨['/'], s, rfl, rfl, fun _ _ => rfl⟩, rfl⟩

/-- A class describes the single characters that it means. -/
theorem describes_oneOf (head : ClassHead) (ms : List ClassMember) {u : Text} :
    (Regex.one (.bracket head.negates ⟨ms.map ClassMember.bounds, []⟩)).Describes u ↔
      ∃ c, (head.negates = true ↔ ¬ ∃ m ∈ ms, m.Lists c) ∧ u = [c] := by
  have hholds : ∀ c, (CharSet.bracket head.negates ⟨ms.map ClassMember.bounds, []⟩).holds c = true ↔
      (head.negates = true ↔ ¬ ∃ m ∈ ms, m.Lists c) := by
    intro c
    rw [← Bracket.lists_intervals_iff, CharSet.holds, bne_iff_ne]
    cases head.negates <;> simp
  rw [Regex.describes_one]
  simp only [hholds]

mutual

theorem GlobItem.describes_regex : ∀ (i : GlobItem) {u : Text}, i.regex.Describes u ↔ i.Denotes u
  | .plain _ _, _ => Regex.describes_only
  | .escaped _, _ => Regex.describes_only
  | .nameChar, u => by
    rw [GlobItem.regex, GlobItem.Denotes, Regex.describes_one]
    simp only [CharSet.holds, bne_iff_ne]
  | .nameRun, u => by
    rw [GlobItem.regex, GlobItem.Denotes, Regex.describes_many]
    simp only [CharSet.holds, bne_iff_ne]
    exact ⟨fun h hm => h '/' hm rfl, fun h c hc he => h (he ▸ hc)⟩
  | .anyRun, u => by
    rw [GlobItem.regex, GlobItem.Denotes, Regex.describes_many]
    exact iff_true_intro fun _ _ => rfl
  | .segments, _ => Regex.describes_segmentsRegex
  | .oneOf head first others, _ => describes_oneOf head (first :: others)
  | .range low high, u => by
    rw [GlobItem.regex, GlobItem.Denotes, Regex.describes_integer,
      holdsText_iff low.fitsInt64 high.fitsInt64]
    refine and_iff_right_of_imp ?_
    rintro ⟨v, -, -, rfl⟩
    exact isSignedDigits_ofInt v
  | .choice first second others, u => by
    rw [GlobItem.regex, GlobItem.Denotes, Regex.describes_group, GlobTree.describes_choiceFrom others,
      Regex.describes_alt, GlobTree.describes_branch first, GlobTree.describes_branch second, or_assoc]

/-- Behind an expression, a tree describes what it denotes. -/
theorem GlobTree.describes_regexFrom : ∀ (tree : GlobTree) (e : Regex) {u : Text},
    (GlobTree.regexFrom e tree).Describes u ↔
      ∃ v w, u = v ++ w ∧ e.Describes v ∧ tree.Denotes w
  | [], e, u => by
    rw [GlobTree.regexFrom]
    constructor
    · intro h
      exact ⟨u, [], by simp, h, rfl⟩
    · rintro ⟨v, w, rfl, hv, hw⟩
      rw [GlobTree.Denotes] at hw
      rwa [hw, List.append_nil]
  | i :: is, e, u => by
    rw [GlobTree.regexFrom, GlobTree.describes_regexFrom is]
    constructor
    · rintro ⟨_, w, rfl, h, hw⟩
      obtain ⟨v, x, rfl, hv, hx⟩ := Regex.describes_andThen.mp h
      exact ⟨v, x ++ w, by simp, hv, x, w, rfl, (GlobItem.describes_regex i).mp hx, hw⟩
    · rintro ⟨v, _, rfl, hv, x, w, rfl, hx, hw⟩
      exact ⟨v ++ x, w, by simp,
        Regex.describes_andThen.mpr ⟨v, x, rfl, hv, (GlobItem.describes_regex i).mpr hx⟩, hw⟩

theorem GlobTree.describes_branch (tree : GlobTree) {u : Text} :
    (GlobTree.regexFrom .empty tree).Describes u ↔ tree.Denotes u := by
  rw [GlobTree.describes_regexFrom tree]
  constructor
  · rintro ⟨v, w, rfl, hv, hw⟩
    rw [Regex.describes_empty] at hv
    rwa [hv, List.nil_append]
  · intro h
    exact ⟨[], u, rfl, Regex.describes_empty.mpr rfl, h⟩

theorem GlobTree.describes_choiceFrom : ∀ (trees : List GlobTree) (e : Regex) {u : Text},
    (GlobTree.choiceFrom e trees).Describes u ↔ e.Describes u ∨ GlobTree.SomeDenotes trees u
  | [], e, u => by
    rw [GlobTree.choiceFrom, GlobTree.SomeDenotes, or_false]
  | tree :: trees, e, u => by
    rw [GlobTree.choiceFrom, GlobTree.SomeDenotes, GlobTree.describes_choiceFrom trees,
      Regex.describes_alt, GlobTree.describes_branch tree, or_assoc]

end

/-- **The expression of a tree describes what the tree denotes.** -/
theorem GlobTree.describes_regex (tree : GlobTree) {u : Text} :
    tree.regex.Describes u ↔ tree.Denotes u := GlobTree.describes_branch tree

/-! ### What it catches -/

mutual

theorem GlobItem.catchesNone_regex : ∀ {i : GlobItem}, i.rangeFree = true →
    i.regex.catchesNone = true
  | .plain _ _, _ => rfl
  | .escaped _, _ => rfl
  | .nameChar, _ => rfl
  | .nameRun, _ => rfl
  | .anyRun, _ => rfl
  | .segments, _ => rfl
  | .oneOf _ _ _, _ => rfl
  | .range _ _, h => by simp [GlobItem.rangeFree] at h
  | .choice first second others, h => by
    simp only [GlobItem.rangeFree, Bool.and_eq_true] at h
    refine GlobTree.catchesNone_choiceFrom h.2 ?_
    rw [Regex.catchesNone, GlobTree.catchesNone_regexFrom h.1.1 rfl,
      GlobTree.catchesNone_regexFrom h.1.2 rfl, Bool.and_self]

theorem GlobTree.catchesNone_regexFrom : ∀ {tree : GlobTree}, tree.rangeFree = true →
    ∀ {e : Regex}, e.catchesNone = true → (GlobTree.regexFrom e tree).catchesNone = true
  | [], _, _, he => he
  | i :: is, h, e, he => by
    simp only [GlobTree.rangeFree, Bool.and_eq_true] at h
    refine GlobTree.catchesNone_regexFrom h.2 ?_
    rw [Regex.catchesNone_andThen, he, GlobItem.catchesNone_regex h.1, Bool.and_self]

theorem GlobTree.catchesNone_choiceFrom : ∀ {trees : List GlobTree},
    GlobTree.allRangeFree trees = true →
      ∀ {e : Regex}, e.catchesNone = true → (GlobTree.choiceFrom e trees).catchesNone = true
  | [], _, _, he => he
  | tree :: trees, h, e, he => by
    simp only [GlobTree.allRangeFree, Bool.and_eq_true] at h
    refine GlobTree.catchesNone_choiceFrom h.2 ?_
    rw [Regex.catchesNone, he, GlobTree.catchesNone_regexFrom h.1 rfl, Bool.and_self]

end

/-- **Without ranges, the expression of a tree catches nothing.** -/
theorem GlobTree.catchesNone_regex {tree : GlobTree} (h : tree.rangeFree = true) :
    tree.regex.catchesNone = true := GlobTree.catchesNone_regexFrom h rfl

/-! ### How deep it is -/

/-- Where an expression stands matters for one level at most. -/
theorem Regex.depthIn_le_succ (r : Regex) (s a s' a' : Bool) :
    r.depthIn s a ≤ 1 + r.depthIn s' a' := by
  cases r with
  | seq x y =>
    simp only [Regex.depthIn]
    split <;> split <;> omega
  | alt x y =>
    simp only [Regex.depthIn]
    split <;> split <;> omega
  | _ => simp only [Regex.depthIn]; omega

theorem Regex.depthIn_andThen_le {e r : Regex} {n : ℕ} (he : e.depthIn true false ≤ n)
    (hr : r.depthIn true false ≤ n) : (e.andThen r).depthIn true false ≤ n := by
  have hseq : (Regex.seq e r).depthIn true false ≤ n := by
    simp only [Regex.depthIn, if_true]
    omega
  cases e with
  | empty => exact hr
  | _ => exact hseq

theorem unionDepth_le (u : List (Char × Char)) : BracketReading.unionDepth u ≤ 1 := by
  unfold BracketReading.unionDepth
  split <;> omega

mutual

theorem GlobItem.depth_regex_le : ∀ (i : GlobItem),
    i.regex.depthIn true false ≤ 3 * i.nesting + 5
  | .plain _ _ => by simp [GlobItem.regex, Regex.depthIn, CharSet.depth]
  | .escaped _ => by simp [GlobItem.regex, Regex.depthIn, CharSet.depth]
  | .nameChar => by simp [GlobItem.regex, Regex.depthIn, CharSet.depth]
  | .nameRun => by simp [GlobItem.regex, Regex.depthIn, CharSet.depth]
  | .anyRun => by simp [GlobItem.regex, Regex.depthIn, CharSet.depth]
  | .segments => by simp [GlobItem.regex, Regex.segmentsRegex, Regex.depthIn, CharSet.depth]
  | .oneOf head first others => by
    have h := unionDepth_le ((first :: others).map ClassMember.bounds)
    simp only [GlobItem.regex, Regex.depthIn, CharSet.depth, BracketReading.depth, List.foldl_nil]
    omega
  | .range _ _ => by simp [GlobItem.regex, Regex.depthIn, Regex.integerDepth]
  | .choice first second others => by
    -- a group, a choice and a sequence lie around the items of a branch
    have h1 := GlobTree.depth_branch_le first
    have h2 := GlobTree.depth_branch_le second
    have hchoice := GlobTree.depth_choiceFrom_le others
      (e := .alt (GlobTree.regexFrom .empty first) (GlobTree.regexFrom .empty second))
      (n := 3 * max (GlobTree.nesting first) (GlobTree.nesting second) + 6) (by
        simp only [Regex.depthIn, if_true]
        omega)
    have hgroup := Regex.depthIn_le_succ (GlobTree.choiceFrom
      (.alt (GlobTree.regexFrom .empty first) (GlobTree.regexFrom .empty second)) others)
      false false false true
    simp only [GlobItem.regex, GlobItem.nesting]
    rw [Regex.depthIn]
    omega

theorem GlobTree.depth_regexFrom_le : ∀ (tree : GlobTree) {e : Regex} {n : ℕ},
    e.depthIn true false ≤ n →
      (GlobTree.regexFrom e tree).depthIn true false ≤ max n (3 * tree.nesting + 5)
  | [], _, _, he => le_trans he (le_max_left _ _)
  | i :: is, e, n, he => by
    have hi := GlobItem.depth_regex_le i
    have h := GlobTree.depth_regexFrom_le is (e := e.andThen i.regex)
      (n := max n (3 * i.nesting + 5)) (Regex.depthIn_andThen_le (by omega) (by omega))
    rw [GlobTree.regexFrom, GlobTree.nesting]
    omega

theorem GlobTree.depth_branch_le (tree : GlobTree) :
    (GlobTree.regexFrom .empty tree).depthIn false true ≤ 3 * tree.nesting + 6 := by
  have h := GlobTree.depth_regexFrom_le tree (e := .empty) (n := 0) (le_refl 0)
  have hle := Regex.depthIn_le_succ (GlobTree.regexFrom .empty tree) false true true false
  omega

theorem GlobTree.depth_choiceFrom_le : ∀ (trees : List GlobTree) {e : Regex} {n : ℕ},
    e.depthIn false true ≤ n →
      (GlobTree.choiceFrom e trees).depthIn false true ≤ max n (3 * GlobTree.maxNestingOf trees + 6)
  | [], _, _, he => le_trans he (le_max_left _ _)
  | tree :: trees, e, n, he => by
    have ht := GlobTree.depth_branch_le tree
    have h := GlobTree.depth_choiceFrom_le trees (e := .alt e (GlobTree.regexFrom .empty tree))
      (n := max n (3 * tree.nesting + 6)) (by
        simp only [Regex.depthIn, if_true]
        omega)
    rw [GlobTree.choiceFrom, GlobTree.maxNestingOf]
    omega

end

/-- **Three levels for each level of choices**, and a few around them. -/
theorem GlobTree.depth_regex_le (tree : GlobTree) : tree.regex.depth ≤ 3 * tree.nesting + 8 := by
  have h := GlobTree.depth_regexFrom_le tree (e := .empty) (n := 0) (le_refl 0)
  rw [Regex.depth, GlobTree.regex]
  omega

end EditorSettings
