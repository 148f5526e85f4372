import EditorSettings.Proofs.Glob.Nesting
import EditorSettings.Proofs.Glob.Pieces

/-!
# Patterns that look at the last name only

A pattern without a slash stands behind any number of segments.  If it has no two stars in a row either, and
none of its classes holds a slash, then each of its tokens matches texts without slashes only
(`Regex.slashless_of_part?`), and so does its expression.  So it must begin behind the last slash of a path,
and there it matches the last name in the first way that it matches the name at all
(`Regex.catches?_behindSegments`): where the name stands below the directory does not matter
(`Glob.accepts_baseName`).

A negated class, or an interval around the slash, holds a slash and does cross it.
-/

namespace EditorSettings

namespace Bracket

/-- Whether a class holds a character. -/
def holds (b : Bracket) (c : Char) : Bool :=
  (reading? b.members).any fun r => (CharSet.bracket b.negated r).holds c

end Bracket

/-- Whether a token crosses a slash. -/
def Token.crossesSlash : Token → Bool
  | literal c => c == '/'
  | anyRun | segments => true
  | bracket b => b.holds '/'
  | _ => false

theorem Token.crossesSlash_bracket (b : Bracket) : (bracket b).crossesSlash = b.holds '/' := rfl

namespace Regex

/-! ### Expressions that cross no slash -/

/-- The expression matches texts without slashes only. -/
def Slashless (r : Regex) : Prop := ∀ u cs, r.Matches u cs → '/' ∉ u

theorem isKept_slashless : IsKept Slashless where
  empty := by
    rintro u cs ⟨rfl, -⟩
    exact List.not_mem_nil
  andThen := by
    intro a b ha hb u cs h
    cases a with
    | empty => exact hb u cs h
    | _ =>
      obtain ⟨v, w, ds, es, rfl, -, hv, hw⟩ := h
      exact fun hm => (List.mem_append.mp hm).elim (ha v ds hv) (hb w es hw)
  alt := by
    rintro a b ha hb u cs (h | h)
    · exact ha u cs h
    · exact hb u cs h
  group := fun ha => ha

theorem slashless_one {s : CharSet} (hs : s.holds '/' = false) : Slashless (one s) := by
  rintro u cs ⟨⟨c, hc, rfl⟩, -⟩ hm
  obtain rfl := List.mem_singleton.mp hm
  rw [hs] at hc
  cases hc

theorem slashless_many {s : CharSet} (hs : s.holds '/' = false) : Slashless (many s) := by
  rintro u cs ⟨h, -⟩ hm
  have := h '/' hm
  rw [hs] at this
  cases this

theorem slashless_integer (r : IntegerRange) : Slashless (integer r) := by
  rintro u cs ⟨⟨sign, digits, rfl, hsign, -, hdigits⟩, -⟩ hm
  rcases List.mem_append.mp hm with hm | hm
  · rcases hsign with rfl | ⟨c, hc, rfl⟩
    · cases hm
    · obtain rfl := List.mem_singleton.mp hm
      cases hc
  · have := hdigits '/' hm
    cases this

/-- **The expression of a token** that crosses no slash. -/
theorem slashless_of_part? {k : Token} (hk : k.crossesSlash = false) {r : Regex} (h : part? k = some r) :
    r.Slashless := by
  cases k with
  | literal c =>
    cases h
    refine slashless_one ?_
    rw [CharSet.holds, beq_eq_false_iff_ne]
    exact fun he => beq_eq_false_iff_ne.mp hk he.symm
  | nameChar => cases h; exact slashless_one rfl
  | nameRun => cases h; exact slashless_many rfl
  | anyRun => cases hk
  | segments => cases hk
  | bracket b =>
    obtain ⟨reading, hr, rfl⟩ := Option.map_eq_some_iff.mp h
    refine slashless_one ?_
    rw [Token.crossesSlash_bracket, Bracket.holds, hr] at hk
    exact hk
  | integer r => cases h; exact slashless_integer r
  | openGroup => cases h
  | nextBranch => cases h
  | closeGroup => cases h

/-! ### Behind any number of segments -/

/-- The first way is `answer`, if every way has it or none and one has it. -/
theorem firstWay_eq {k : Text → Option Catches} {ways : List (Catches × Text)} {answer : Option Catches}
    (h : ∀ x ∈ ways, (k x.2).map (x.1 ++ ·) = none ∨ (k x.2).map (x.1 ++ ·) = answer)
    (hmem : ∃ x ∈ ways, (k x.2).map (x.1 ++ ·) = answer) : firstWay k ways = answer := by
  obtain ⟨x, hx, he⟩ := hmem
  cases hfirst : firstWay k ways with
  | none =>
    rw [firstWay, List.findSome?_eq_none_iff] at hfirst
    rw [← he, hfirst x hx]
  | some cs =>
    obtain ⟨y, hy, hcs⟩ := List.exists_of_findSome?_eq_some hfirst
    rw [← hcs]
    refine (h y hy).resolve_left ?_
    rw [hcs]
    exact Option.some_ne_none cs

theorem matches_segmentsRegex {p : Text} {cs : Catches} (h : segmentsRegex.Matches p cs) :
    cs = [] ∧ ∃ q, p = q ++ ['/'] := by
  rcases h with ⟨⟨c, hc, rfl⟩, rfl⟩ | ⟨v, w, ds, es, rfl, rfl, ⟨_, _, _, _, -, rfl, ⟨-, rfl⟩, -, rfl⟩,
    ⟨⟨c, hc, rfl⟩, rfl⟩⟩
  · exact ⟨rfl, [], by rw [beq_iff_eq.mp hc]; rfl⟩
  · exact ⟨rfl, v, by rw [beq_iff_eq.mp hc]⟩

/-- Segments match whatever stands between two slashes. -/
theorem segmentsRegex_matches (names : List Text) :
    segmentsRegex.Matches (names.flatMap ('/' :: ·) ++ ['/']) [] := by
  rcases names with _ | ⟨n, names⟩
  · exact .inl ⟨⟨'/', rfl, rfl⟩, rfl⟩
  · refine .inr ⟨'/' :: (n ++ names.flatMap ('/' :: ·)), ['/'], [], [], rfl, rfl, ?_, ⟨'/', rfl, rfl⟩, rfl⟩
    exact ⟨['/'], n ++ names.flatMap ('/' :: ·), [], [], rfl, rfl, ⟨⟨'/', rfl, rfl⟩, rfl⟩, fun _ _ => rfl,
      rfl⟩

/-- What stands behind the last slash of a text. -/
theorem eq_of_append_slash {t t' name name' : Text} (hname : '/' ∉ name) (hname' : '/' ∉ name')
    (h : t ++ '/' :: name = t' ++ '/' :: name') : name = name' := by
  have behind : ∀ {u v w : Text}, '/' ∉ v → '/' :: v = u ++ '/' :: w → v = w := by
    intro u v w hv he
    rcases u with _ | ⟨c, u⟩
    · exact (List.cons.inj he).2
    · rw [(List.cons.inj he).2] at hv
      exact absurd (by simp) hv
  rcases List.append_eq_append_iff.mp h with ⟨u, -, hu⟩ | ⟨u, -, hu⟩
  · exact behind hname hu
  · exact (behind hname' hu).symm

/-- **Behind any number of segments**, an expression that crosses no slash matches the last name in its first
way, however many names stand before it. -/
theorem catches?_behindSegments {parts : List Regex} (hr : Slashless (inOrder empty parts))
    (names : List Text) {name : Text} (hname : '/' ∉ name) :
    catches? (inOrder segmentsRegex parts) (names.flatMap ('/' :: ·) ++ '/' :: name) =
      catches? (inOrder empty parts) name := by
  rw [catches?_eq, splits_inOrder, ← firstWay_flatMap]
  refine firstWay_eq ?_ ?_
  · rintro ⟨cs, rest⟩ hx
    obtain ⟨p, hp, hm⟩ := mem_splits.mp hx
    obtain ⟨rfl, q, rfl⟩ := matches_segmentsRegex hm
    rw [← catches?_eq]
    by_cases hslash : '/' ∈ rest
    · left
      rw [Option.map_eq_none_iff, Option.eq_none_iff_forall_ne_some]
      exact fun cs hcs => hr rest cs (matches_of_catches? hcs) hslash
    · right
      rw [List.append_assoc] at hp
      rw [eq_of_append_slash hname hslash hp]
      simp
  · refine ⟨([], name), mem_splits.mpr ⟨_, ?_, segmentsRegex_matches names⟩, ?_⟩
    · rw [List.append_assoc]
      rfl
    · rw [← catches?_eq]
      simp

end Regex

namespace Token

/-! ### Patterns without slashes -/

/-- **A token of a pattern without slashes** and two stars in a row crosses a slash only if it is a class that
holds one. -/
theorem crossesSlash_of_mem_ofPattern {pattern : Text} (hslash : '/' ∉ pattern)
    (hstars : ¬['*', '*'] <:+: pattern)
    (hclass : ∀ b, bracket b ∈ ofPattern pattern → b.holds '/' = false) {k : Token}
    (hk : k ∈ ofPattern pattern) : k.crossesSlash = false := by
  rcases (areReadFrom_scan (closes pattern) 0 pattern).piece_of_mem hk with rfl | ⟨p, hp, hpiece, -⟩
  · rfl
  · cases k with
    | literal c =>
      have hc : c ∈ p := by
        rcases hp with ⟨rfl, -⟩ | rfl
        · exact List.mem_singleton.mpr rfl
        · simp
      have hne : c ≠ '/' := by
        rintro rfl
        exact hslash (hpiece.subset hc)
      exact beq_eq_false_iff_ne.mpr hne
    | anyRun => exact absurd (hp ▸ hpiece) hstars
    | segments => exact absurd (hpiece.subset (by rw [show p = _ from hp]; decide)) hslash
    | bracket b => exact hclass b hk
    | _ => rfl

/-- A pattern without slashes is read behind any number of segments. -/
theorem ofPattern_belowDirectory {pattern : Text} (h : '/' ∉ pattern) :
    ofPattern (Glob.belowDirectory pattern) = segments :: ofPattern pattern := by
  have hcloses : closes ("/**/".toList ++ pattern) = closes pattern := by
    change closesFrom 0 ('/' :: '*' :: '*' :: '/' :: pattern) = closesFrom 0 pattern
    rw [closesFrom_cons (by decide), closesFrom_cons (by decide), closesFrom_cons (by decide),
      closesFrom_cons (by decide)]
  rw [Glob.belowDirectory, if_pos h, ofPattern, hcloses]
  change scan (closes pattern) 0 ('/' :: '*' :: '*' :: '/' :: pattern) = _
  rw [scan]
  rfl

end Token

namespace Glob

open Regex

/-- **A pattern without a slash looks at the last name of a path only**, wherever below the directory the name
stands, if the pattern has no two stars in a row and none of its classes holds a slash. -/
theorem accepts_baseName {directory pattern : Text} {g : Glob} (hslash : '/' ∉ pattern)
    (hstars : ¬['*', '*'] <:+: pattern)
    (hclass : ∀ b, Token.bracket b ∈ Token.ofPattern pattern → b.holds '/' = false)
    (hg : ofPattern? directory pattern = some g) (names : List Text) {name : Text} (hname : '/' ∉ name) :
    g.accepts (trimSlashes directory ++ names.flatMap ('/' :: ·) ++ '/' :: name) =
      g.accepts (trimSlashes directory ++ '/' :: name) := by
  obtain ⟨hd, htree⟩ := of_ofPattern?_eq_some hg
  have hm := Token.marksInside_ofPattern (belowDirectory pattern)
  have hrun := run_eq_of_tree? hm htree
  rw [Token.ofPattern_belowDirectory hslash] at hm hrun
  -- The expression is that of segments, followed by the parts of the pattern.
  rw [run_part rfl] at hrun
  obtain ⟨parts, hregex, hparts⟩ := exists_parts (Token.marksInside_cons.mp hm).2 hrun
  have hrow : tree? (Token.ofPattern pattern) = some (inOrder empty parts) := by
    rw [tree?, Level.start, hparts]
    rfl
  have hr : Slashless (inOrder empty parts) := by
    refine isKept_slashless.tree? (fun k hk r hpart => slashless_of_part? ?_ hpart) hrow
    exact Token.crossesSlash_of_mem_ofPattern hslash hstars hclass hk
  have hlast : ∀ names : List Text, g.accepts (trimSlashes directory ++ names.flatMap ('/' :: ·) ++
      '/' :: name) = (inOrder empty parts).accepts name := by
    intro names
    rw [accepts, hd, List.append_assoc, Text.after?_eq_some_iff.mpr rfl, hregex]
    change (inOrder segmentsRegex parts).accepts _ = _
    rw [Regex.accepts, Regex.accepts, catches?_behindSegments hr names hname]
  rw [hlast, ← hlast []]
  simp

/-- A pattern with an alternation, an integer range and a class. -/
def versionsOrNames : Text := "\x7bx?,[a-c]*\x7d\x7b1..9\x7d".toList

theorem accepts_baseName_versionsOrNames :
    ∃ g, ofPattern? "/".toList versionsOrNames = some g ∧
      g.accepts "/lib/doc/b7".toList = g.accepts "/b7".toList := by
  have hslash : '/' ∉ versionsOrNames := by decide +kernel
  have hstars : ¬['*', '*'] <:+: versionsOrNames := by decide +kernel
  have hsome : (ofPattern? "/".toList versionsOrNames).isSome = true := by decide +kernel
  have hclasses : (Token.ofPattern versionsOrNames).all
      (fun k => !(k.isBracket && k.crossesSlash)) = true := by decide +kernel
  have hclass : ∀ b, Token.bracket b ∈ Token.ofPattern versionsOrNames → b.holds '/' = false := by
    intro b hb
    have h : (!(true && (Token.bracket b).crossesSlash)) = true := List.all_eq_true.mp hclasses _ hb
    rw [Token.crossesSlash_bracket] at h
    simpa using h
  have hname : '/' ∉ "b7".toList := by decide +kernel
  obtain ⟨g, hg⟩ := Option.isSome_iff_exists.mp hsome
  have h := accepts_baseName hslash hstars hclass hg ["lib".toList, "doc".toList] hname
  have hdeep : trimSlashes "/".toList ++ ["lib".toList, "doc".toList].flatMap ('/' :: ·) ++
      '/' :: "b7".toList = "/lib/doc/b7".toList := by decide +kernel
  have htop : trimSlashes "/".toList ++ '/' :: "b7".toList = "/b7".toList := by decide +kernel
  rw [hdeep, htop] at h
  exact ⟨g, hg, h⟩

/-- **A class that holds a slash crosses it**: a negated class, and an interval around the slash. -/
theorem accepts_class_slash :
    ((ofPattern? "/w".toList "x[!a]y".toList).map fun g =>
        (g.accepts "/w/x/y".toList, g.accepts "/w/y".toList)) = some (true, false) ∧
      ((ofPattern? "/w".toList "x[.-0]y".toList).map fun g =>
        (g.accepts "/w/x/y".toList, g.accepts "/w/y".toList)) = some (true, false) := by
  decide +kernel

end Glob

end EditorSettings
