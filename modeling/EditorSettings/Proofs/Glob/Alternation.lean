import EditorSettings.Proofs.Glob.Depth
import Mathlib.Tactic.MkIffOfInductiveProp

/-!
# Alternation

The pattern `/{a,b}` of two texts has the tokens of `/a` and of `/b` as the two branches of one alternation
(`Glob.ofPattern_inBraces`), if the marks `{{}` are nowhere in a row.  The first way to match a path along it
is the first way along `a`, or if there is none the first way along `b` (`Regex.catches?_choice`), and the
integers of that way decide alone: the alternation applies if `a` does, or if `a` matches in no way and `b`
applies (`Glob.accepts_inBraces`).  Without ranges in `a`, it applies if one of the branches does, and
without ranges in either their order does not matter.
-/

namespace EditorSettings

namespace Regex

/-! ### The first way along a choice -/

/-- A row behind one character is that character, then the row. -/
theorem catches?_behind (s : CharSet) (parts : List Regex) (t : Text) :
    catches? (inOrder (one s) parts) t = catches? (seq (one s) (inOrder empty parts)) t := by
  rw [catches?_eq, catches?_eq, splits_inOrder, splits]

/-- **The first way along a choice** is the first one along a branch that has one. -/
theorem catches?_choice (s : CharSet) (a b : Regex) (t : Text) :
    catches? (seq (one s) (group (alt a b))) t =
      (catches? (seq (one s) a) t).or (catches? (seq (one s) b) t) := by
  rw [catches?_eq, catches?_eq, catches?_eq, ← firstWay_append]
  rcases t with _ | ⟨c, t⟩
  · rfl
  · cases hc : s.holds c <;> simp [splits, hc]

/-- **A choice accepts what its first branch accepts**, and what the second one does if the first matches in
no way. -/
theorem accepts_choice (s : CharSet) (parts others : List Regex) (t : Text) :
    (seq (one s) (group (alt (inOrder empty parts) (inOrder empty others)))).accepts t = true ↔
      (inOrder (one s) parts).accepts t = true ∨
        (¬∃ cs, (inOrder (one s) parts).Matches t cs) ∧ (inOrder (one s) others).accepts t = true := by
  rw [← isSome_catches?, accepts, accepts, accepts, catches?_choice, ← catches?_behind,
    ← catches?_behind]
  cases catches? (inOrder (one s) parts) t <;> simp

end Regex

namespace Token

/-- What stands behind a text that closes its braces does not matter to them. -/
theorem closesFrom_append_of_closes {s : Text} (hs : s.Paired) (e : ℕ) (t : Text) : ∀ {d : ℕ},
    closesFrom d s = true → closesFrom (d + e) (s ++ t) = closesFrom e t := by
  induction hs with
  | nil =>
    intro d h
    rw [closesFrom, beq_iff_eq] at h
    rw [h, Nat.zero_add, List.nil_append]
  | pair c _ ih =>
    intro d h
    rw [closesFrom] at h
    rw [List.cons_append, List.cons_append, closesFrom, ih h]
  | @single c hb s _ ih =>
    intro d h
    rw [List.cons_append]
    by_cases ho : c = '{'
    · subst ho
      rw [closesFrom] at h ⊢
      rw [Nat.add_right_comm, ih h]
    · by_cases hc : c = '}'
      · subst hc
        rcases d with _ | d
        · rw [closesFrom] at h
          cases h
        · rw [closesFrom] at h
          rw [Nat.add_right_comm, closesFrom, ih h]
      · have hmark : isBraceMark c = false := by simp [isBraceMark, hb, ho, hc]
        rw [closesFrom_cons hmark] at h ⊢
        exact ih h

end Token

namespace Glob

open Regex Token

/-! ### The two branches -/

/-- How deep the braces of a branch may nest. -/
def branchNesting : ℕ := 50

/-- **A branch**: a text whose bare braces balance and nest at most `branchNesting` deep, with every bare
comma inside of them and without a bare bracket, that neither begins with a star nor ends in a bare
backslash. -/
@[mk_iff] structure IsBranch (t : Text) : Prop where
  bracket : '[' ∉ t.bare
  backslash : '\\' ∉ t.bare
  star : t.head? ≠ some '*'
  closes : Token.closes t = true
  nesting : nestingFrom 0 (marks t) ≤ branchNesting
  commas : commasInside 0 (marks t) = true

instance (t : Text) : Decidable (IsBranch t) := decidable_of_iff _ (isBranch_iff t).symm

/-- The pattern of a slash and one of two texts. -/
def inBraces (a b : Text) : Text := '/' :: '{' :: (a ++ ',' :: (b ++ ['}']))

/-- Whether the expression of a glob matches a path, whatever its integers are. -/
def Admits (g : Glob) (path : Text) : Prop := ∃ u cs, path = g.directory ++ u ∧ g.regex.Matches u cs

variable {a b : Text}

theorem marks_inBraces (ha : a.Paired) (hb : b.Paired) :
    marks (inBraces a b) = '{' :: (marks a ++ ',' :: (marks b ++ ['}'])) := by
  rw [inBraces, marks_cons_of_not (by decide) (by decide), marks_cons (by decide) (by decide),
    marks_append ha, marks_cons (by decide) (by decide), marks_append hb]
  rfl

namespace IsBranch

theorem paired (h : IsBranch a) : a.Paired := Text.paired_of_not_mem h.backslash

theorem balanced (h : IsBranch a) (hs : Separate a) : Balanced 0 a :=
  ⟨h.bracket, h.backslash, h.closes, h.commas, hs⟩

/-- Both branches of a separate pattern are separate. -/
theorem balanced_inBraces (ha : IsBranch a) (hb : IsBranch b) (hs : Separate (inBraces a b)) :
    Balanced 0 a ∧ Balanced 0 b := by
  rw [Separate, marks_inBraces ha.paired hb.paired] at hs
  refine ⟨ha.balanced fun hi => hs (hi.trans ?_), hb.balanced fun hi => hs (hi.trans ?_)⟩
  · exact ⟨['{'], ',' :: (marks b ++ ['}']), rfl⟩
  · exact ⟨'{' :: (marks a ++ [',']), ['}'], by simp⟩

end IsBranch

/-- **The first brace opens an alternation.** -/
theorem wordGroup?_inBraces (ha : IsBranch a) (hs : Separate (inBraces a b)) :
    wordGroup? (a ++ ',' :: (b ++ ['}'])) = none := by
  rw [Separate, inBraces, marks_cons_of_not (by decide) (by decide)] at hs
  rw [Option.eq_none_iff_forall_ne_some]
  rintro ⟨inside, rest⟩ hg
  have hmarks := (marks_of_group hs hg).2
  rw [marks_append ha.paired, marks_cons (by decide) (by decide)] at hmarks
  -- The first mark would be a closing brace, and the branch would close a brace that it does not open.
  have hcloses : closesFrom 0 (marks a) = true := by
    rw [← closesFrom_marks ha.paired]
    exact ha.closes
  rcases hm : marks a with _ | ⟨c, m⟩
  · rw [hm] at hmarks
    exact absurd (List.cons.inj hmarks).1 (by decide)
  · rw [hm] at hmarks hcloses
    obtain rfl := (List.cons.inj hmarks).1
    rw [closesFrom] at hcloses
    cases hcloses

theorem closes_inBraces (ha : IsBranch a) (hb : IsBranch b) : closes (inBraces a b) = true := by
  rw [closes, inBraces, closesFrom_cons (by decide), closesFrom,
    closesFrom_append_of_closes ha.paired (0 + 1) _ ha.closes, closesFrom_cons (by decide),
    closesFrom_append_of_closes hb.paired (0 + 1) _ hb.closes]
  rfl

/-- **The tokens of an alternation** are those of its branches between its marks. -/
theorem ofPattern_inBraces (ha : IsBranch a) (hb : IsBranch b) (hs : Separate (inBraces a b)) :
    ofPattern (inBraces a b) = .literal '/' :: .openGroup :: (scan true 0 a ++
      .nextBranch :: (scan true 0 b ++ [.closeGroup])) := by
  obtain ⟨hba, hbb⟩ := ha.balanced_inBraces hb hs
  have hopen := wordGroup?_inBraces ha hs
  have hscana := scan_append hba rfl (branchEnd_comma (b ++ ['}'])) (0 + 1)
  have hend : BranchEnd ['}'] := .inr rfl
  have hscanb := scan_append hbb rfl hend (0 + 1)
  rw [Nat.zero_add] at hscana hscanb
  rw [ofPattern, closes_inBraces ha hb, inBraces, scan_cons (by decide) (fun _ _ h => by cases h),
    scan_openGroup hopen, hscana, scan_nextBranch, hscanb, scan_closeGroup, scan]

/-- **The tokens of a branch on its own.** -/
theorem ofPattern_branch (ha : IsBranch a) : ofPattern ('/' :: a) = .literal '/' :: scan true 0 a := by
  have hstar : '/' = '/' → ∀ s, a ≠ '*' :: '*' :: '/' :: s := by
    rintro - s rfl
    exact ha.star rfl
  rw [ofPattern, closes, closesFrom_cons (by decide), show closesFrom 0 a = true from ha.closes,
    scan_cons (by decide) hstar]

/-! ### The expressions of the branches and of both -/

theorem fits_branch (ha : IsBranch a) (hs : Balanced 0 a) :
    fits branchNesting 0 (scan true 0 a) = true := fits_scan hs rfl ha.nesting

/-- The tokens of two branches fit with one more alternation around them. -/
theorem fits_inBraces {ts us : List Token} (ht : fits branchNesting 0 ts = true)
    (hu : fits branchNesting 0 us = true) :
    fits (branchNesting + 1) 0 (.literal '/' :: .openGroup :: (ts ++
      .nextBranch :: (us ++ [.closeGroup]))) = true := by
  have hclose : fits (branchNesting + 1) 1 [.closeGroup] = true := by decide
  have hsecond : fits (branchNesting + 1) 1 (us ++ [.closeGroup]) = true :=
    fits_append hclose hu (le_refl _)
  have hnext : fits (branchNesting + 1) 1 (.nextBranch :: (us ++ [.closeGroup])) = true := by
    rw [fits_cons]
    exact ⟨rfl, fun _ => Nat.one_pos, by decide, hsecond⟩
  have hfirst : fits (branchNesting + 1) 1 (ts ++ .nextBranch :: (us ++ [.closeGroup])) = true :=
    fits_append hnext ht (le_refl _)
  refine fits_cons_of_isPlain rfl (Nat.zero_le _) ?_
  rw [fits_cons]
  exact ⟨rfl, fun h => absurd h (by decide), by decide, hfirst⟩

/-- The expression of a branch behind a slash. -/
theorem ofTokens?_branch {ts : List Token} (ht : fits branchNesting 0 ts = true) {parts : List Regex}
    (hparts : AddParts ts parts) :
    ofTokens? (.literal '/' :: ts) = some (inOrder (one (.only '/')) parts) := by
  obtain ⟨r, htree, hr⟩ := ofTokens?_of_fits (by decide : branchNesting ≤ maxBound)
    (fits_cons_of_isPlain (k := .literal '/') rfl (Nat.zero_le _) ht)
  have hrun := hparts (Level.start.add (one (.only '/'))) [] []
  rw [List.append_nil] at hrun
  rw [tree?, run_part rfl, hrun, Level.start, Level.add, foldl_add] at htree
  rw [hr]
  exact htree.symm

/-- The expression of an alternation behind a slash. -/
theorem ofTokens?_inBraces {ts us : List Token} (ht : fits branchNesting 0 ts = true)
    (hu : fits branchNesting 0 us = true) {parts others : List Regex}
    (hparts : AddParts ts parts) (hothers : AddParts us others) :
    ofTokens? (.literal '/' :: .openGroup :: (ts ++ .nextBranch :: (us ++ [.closeGroup]))) =
      some (seq (one (.only '/')) (group (alt (inOrder empty parts) (inOrder empty others)))) := by
  obtain ⟨r, htree, hr⟩ := ofTokens?_of_fits (by decide : branchNesting + 1 ≤ maxBound)
    (fits_inBraces ht hu)
  rw [tree?, run_part rfl, run_openGroup, hparts, run_nextBranch, hothers, Level.start, foldl_add,
    foldl_add] at htree
  rw [hr]
  exact htree.symm

/-- What holds of the expressions holds of their globs in one directory. -/
theorem accepts_iff_of_regex {r ra rb : Regex} (h : ∀ u, r.accepts u = true ↔
      ra.accepts u = true ∨ (¬∃ cs, ra.Matches u cs) ∧ rb.accepts u = true)
    (directory p pa pb path : Text) : accepts ⟨directory, p, r⟩ path = true ↔
      accepts ⟨directory, pa, ra⟩ path = true ∨
        ¬Admits ⟨directory, pa, ra⟩ path ∧ accepts ⟨directory, pb, rb⟩ path = true := by
  simp only [accepts_iff, Admits]
  constructor
  · rintro ⟨u, rfl, hu⟩
    rcases (h u).mp hu with hu | ⟨hn, hu⟩
    · exact .inl ⟨u, rfl, hu⟩
    · refine .inr ⟨?_, u, rfl, hu⟩
      rintro ⟨v, cs, hv, hm⟩
      obtain rfl := List.append_cancel_left hv
      exact hn ⟨cs, hm⟩
  · rintro (⟨u, rfl, hu⟩ | ⟨hn, u, rfl, hu⟩)
    · exact ⟨u, rfl, (h u).mpr (.inl hu)⟩
    · exact ⟨u, rfl, (h u).mpr (.inr ⟨fun ⟨cs, hm⟩ => hn ⟨u, cs, rfl, hm⟩, hu⟩)⟩

/-- **The first way along an alternation**: its pattern and those of its branches have expressions, and
the alternation applies if the first branch does, or if that one matches in no way and the second applies. -/
theorem exists_inBraces (ha : IsBranch a) (hb : IsBranch b) (hs : Separate (inBraces a b))
    (directory : Text) :
    ∃ g ga gb, ofPattern? directory (inBraces a b) = some g ∧ ofPattern? directory ('/' :: a) = some ga ∧
      ofPattern? directory ('/' :: b) = some gb ∧ ∀ path, g.accepts path = true ↔
        ga.accepts path = true ∨ ¬ga.Admits path ∧ gb.accepts path = true := by
  obtain ⟨hba, hbb⟩ := ha.balanced_inBraces hb hs
  have hfa := fits_branch ha hba
  have hfb := fits_branch hb hbb
  obtain ⟨parts, hparts⟩ := exists_parts_of_fits hfa
  obtain ⟨others, hothers⟩ := exists_parts_of_fits hfb
  have hboth := ofTokens?_inBraces hfa hfb hparts hothers
  rw [← ofPattern_inBraces ha hb hs] at hboth
  refine ⟨_, _, _, ofPattern?_of_slash hboth directory, ofPattern?_of_slash ?_ directory,
    ofPattern?_of_slash ?_ directory,
    accepts_iff_of_regex (accepts_choice (.only '/') parts others) _ _ _ _⟩
  · rw [ofPattern_branch ha, ofTokens?_branch hfa hparts]
  · rw [ofPattern_branch hb, ofTokens?_branch hfb hothers]

/-- Without ranges, a glob applies to what its expression matches. -/
theorem admits_iff_accepts {directory pattern : Text} {g : Glob}
    (hg : ofPattern? directory pattern = some g)
    (hr : rangesOf (ofPattern (belowDirectory pattern)) = []) (path : Text) :
    g.Admits path ↔ g.accepts path = true := by
  obtain ⟨r, htokens, rfl⟩ := Option.map_eq_some_iff.mp hg
  have hnone : r.catchesNone = true := catchesNone_of_tree? hr (Option.filter_eq_some_iff.mp htokens).1
  simp only [accepts_iff, accepts_iff_describes hnone, Admits]
  constructor
  · rintro ⟨u, cs, rfl, hm⟩
    have hcs : cs = [] := eq_nil_of_matches hnone hm
    exact ⟨u, rfl, cs, hm, by simp [hcs]⟩
  · rintro ⟨u, rfl, cs, hm, -⟩
    exact ⟨u, cs, rfl, hm⟩

/-- **An alternation applies where one of its branches does.**  Of two branches that both match, the first
one counts, so its ranges decide; without ranges the order of the branches does not matter. -/
theorem accepts_inBraces (ha : IsBranch a) (hb : IsBranch b) (hs : Separate (inBraces a b))
    (directory : Text) :
    ∃ g ga gb, ofPattern? directory (inBraces a b) = some g ∧ ofPattern? directory ('/' :: a) = some ga ∧
      ofPattern? directory ('/' :: b) = some gb ∧
      (∀ path, g.accepts path = true ↔
        ga.accepts path = true ∨ ¬ga.Admits path ∧ gb.accepts path = true) ∧
      (rangesOf (ofPattern ('/' :: a)) = [] → ∀ path, g.accepts path = true ↔
        ga.accepts path = true ∨ gb.accepts path = true) ∧
      (rangesOf (ofPattern ('/' :: a)) = [] → rangesOf (ofPattern ('/' :: b)) = [] →
        Separate (inBraces b a) → ∃ g', ofPattern? directory (inBraces b a) = some g' ∧
          ∀ path, g'.accepts path = g.accepts path) := by
  obtain ⟨g, ga, gb, hg, hga, hgb, h⟩ := exists_inBraces ha hb hs directory
  have hfree : ∀ {t : Text} {gt : Glob}, ofPattern? directory ('/' :: t) = some gt →
      rangesOf (ofPattern ('/' :: t)) = [] → ∀ path, gt.Admits path ↔ gt.accepts path = true := by
    intro t gt hgt hr
    rw [← belowDirectory_slash] at hr
    exact admits_iff_accepts hgt hr
  refine ⟨g, ga, gb, hg, hga, hgb, h, fun hra path => ?_, fun hra hrb hs' => ?_⟩
  · rw [h, hfree hga hra]
    tauto
  · obtain ⟨g', gb', ga', hg', hgb', hga', h'⟩ := exists_inBraces hb ha hs' directory
    obtain rfl : gb = gb' := Option.some.inj (hgb.symm.trans hgb')
    obtain rfl : ga = ga' := Option.some.inj (hga.symm.trans hga')
    refine ⟨g', hg', fun path => ?_⟩
    rw [Bool.eq_iff_iff, h, h', hfree hga hra, hfree hgb hrb]
    tauto

/-- An alternation with another one in its second branch. -/
def nestedBranch : Text := "{a,b{c,d}}".toList

theorem accepts_inBraces_nestedBranch :
    IsBranch nestedBranch ∧ IsBranch "x*".toList ∧ Separate (inBraces nestedBranch "x*".toList) ∧
      ∃ g g', ofPattern? "/w/".toList "/{{a,b{c,d}},x*}".toList = some g ∧
        ofPattern? "/w/".toList "/{x*,{a,b{c,d}}}".toList = some g' ∧
        g.accepts "/w/bd".toList = true ∧ g.accepts "/w/x7".toList = true ∧
        g'.accepts "/w/bd".toList = true := by
  have ha : IsBranch nestedBranch := by decide +kernel
  have hb : IsBranch "x*".toList := by decide +kernel
  have hs : Separate (inBraces nestedBranch "x*".toList) := by decide +kernel
  have hs' : Separate (inBraces "x*".toList nestedBranch) := by decide +kernel
  have hra : rangesOf (ofPattern ('/' :: nestedBranch)) = [] := by decide +kernel
  have hrb : rangesOf (ofPattern ('/' :: "x*".toList)) = [] := by decide +kernel
  obtain ⟨g, ga, gb, hg, hga, hgb, -, hor, hswap⟩ := accepts_inBraces ha hb hs "/w/".toList
  obtain ⟨g', hg', haccepts⟩ := hswap hra hrb hs'
  have hfirst : (ofPattern? "/w/".toList ('/' :: nestedBranch)).map (·.accepts "/w/bd".toList) =
      some true := by decide +kernel
  have hsecond : (ofPattern? "/w/".toList ('/' :: "x*".toList)).map (·.accepts "/w/x7".toList) =
      some true := by decide +kernel
  rw [hga] at hfirst
  rw [hgb] at hsecond
  have hbd := (hor hra _).mpr (.inl (Option.some.inj hfirst))
  exact ⟨ha, hb, hs, g, g', hg, hg', hbd, (hor hra _).mpr (.inr (Option.some.inj hsecond)),
    (haccepts _).trans hbd⟩

/-- **Not every alternation applies where its second branch does**: a range of the first branch may match
and decide, and a closing brace in it that comes before the first comma ends the braces of the alternation. -/
theorem exists_branch_not_inBraces :
    (IsBranch "{x,{1..2}}".toList ∧ IsBranch "7".toList ∧
        (ofPattern? "/w".toList "/7".toList).map (·.accepts "/w/7".toList) = some true ∧
        (ofPattern? "/w".toList "/{{x,{1..2}},7}".toList).map (·.accepts "/w/7".toList) =
          some false) ∧
      IsBranch "{also}".toList ∧ IsBranch "this".toList ∧
        (ofPattern? "/w".toList "/this".toList).map (·.accepts "/w/this".toList) = some true ∧
        (ofPattern? "/w".toList "/{{also},this}".toList).map (·.accepts "/w/this".toList) =
          some false := by
  decide +kernel

end Glob

end EditorSettings
