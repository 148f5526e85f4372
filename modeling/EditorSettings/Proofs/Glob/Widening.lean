import EditorSettings.Proofs.Glob.InStep
import EditorSettings.Proofs.Glob.Monotone
import EditorSettings.Proofs.Glob.Repetition
import EditorSettings.Proofs.Glob.Unbracketed

/-!
# Widened stars

A second star next to a single one widens what it stands for from a run of characters of one name to any
run.  The tokens of the pattern change in this place only (`Token.widens_ofPattern`), but if the star stands
between two slashes, these are now read together with the stars, and what follows may be read differently as
well, up to the end of the stars and slashes there (`Token.Widens.junction`).

In every case the new tokens describe what the old ones did.  Wherever they stand, the expression of the whole
is monotone in them (`Regex.run_within`).  So a widened pattern applies to whatever the pattern applied to
(`Glob.accepts_widened`), if it has an expression at all: segments are nested two levels deeper than a run of
characters.
-/

namespace EditorSettings

open Token

namespace Token

/-! ### Junctions -/

theorem mem_junction : ∀ {n : ℕ} {k : Token}, k ∈ junction n → k = literal '/' ∨ k = segments ∨ k = anyRun
  | 0, _, h => .inl (List.mem_singleton.mp h)
  | 1, _, h => .inr (.inl (List.mem_singleton.mp h))
  | n + 2, k, h => by
    rw [junction, List.mem_cons, List.mem_cons] at h
    rcases h with h | h | h
    · exact .inr (.inl h)
    · exact .inr (.inr h)
    · exact mem_junction h

theorem rangesOf_junction (n : ℕ) : rangesOf (junction n) = [] :=
  List.filterMap_eq_nil_iff.mpr fun k hk => by
    rcases mem_junction hk with rfl | rfl | rfl <;> rfl

/-- A slash, a run in a name and a junction are described by the next junction. -/
theorem describe_junction_of_run {n : ℕ} {u : Text} (h : Describe (literal '/' :: nameRun :: junction n) u) :
    Describe (junction (n + 1)) u := by
  obtain ⟨v, w, rfl, hv, hw⟩ := (describe_cons rfl).mp h
  obtain ⟨x, w, rfl, -, hw⟩ := (describe_cons rfl).mp hw
  rw [Regex.describes_only.mp hv]
  exact describe_junction_of_succ (describe_junction_add_two.mpr ⟨x, w, rfl, hw⟩)

/-! ### Widened tokens -/

/-- **Tokens with one star widened**: a run in a name is now any run, or the slash, the run and the slash
behind it are now segments, together with the pairs of stars that follow. -/
inductive Widens : List Token → List Token → Prop
  /-- A star that is read on its own. -/
  | run : Widens [nameRun] [anyRun]
  /-- A star between two slashes. -/
  | junction (n : ℕ) : Widens (literal '/' :: nameRun :: Token.junction n) (Token.junction (n + 1))
  /-- A star behind a token. -/
  | cons (k : Token) {ts us : List Token} (h : Widens ts us) : Widens (k :: ts) (k :: us)
  /-- A star in front of tokens. -/
  | append {ts us : List Token} (vs : List Token) (h : Widens ts us) : Widens (ts ++ vs) (us ++ vs)

theorem compatible_widens : Compatible Widens := ⟨.cons, .append⟩

variable {alternates : Bool} {d : ℕ} {x y : Text}

/-- A star with no star behind it. -/
theorem widens_scan_star (hy : ∀ s, y ≠ '*' :: s) :
    Widens (scan alternates d ('*' :: y)) (scan alternates d ('*' :: '*' :: y)) := by
  rw [scan_nameRun hy, scan]
  exact .append _ .run

/-- A star with a slash in front of it and no star behind it. -/
theorem widens_scan_slash_star (hy : ∀ s, y ≠ '*' :: s) :
    Widens (scan alternates d ('/' :: '*' :: y)) (scan alternates d ('/' :: '*' :: '*' :: y)) := by
  have hslash : ∀ s, '*' :: y ≠ '*' :: '*' :: '/' :: s := fun s hs => hy ('/' :: s) (List.cons.inj hs).2
  rw [scan_cons (by decide) fun _ => hslash, scan_nameRun hy]
  by_cases h : ∃ s, y = '/' :: s
  · -- The stars and the slash behind them are the first of several pairs of stars.
    obtain ⟨s, rfl⟩ := h
    obtain ⟨n, r, rfl, hr⟩ := exists_starSlashes s
    have hstars : '/' :: '*' :: '*' :: '/' :: (starSlashes n ++ r) = '/' :: (starSlashes (n + 1) ++ r) := rfl
    rw [hstars, scan_starSlashes hr, scan_starSlashes hr]
    exact .append _ (.junction n)
  · have hslash' : ∀ s, '*' :: '*' :: y ≠ '*' :: '*' :: '/' :: s :=
      fun s hs => h ⟨s, (List.cons.inj (List.cons.inj hs).2).2⟩
    rw [scan_cons (by decide) fun _ => hslash', scan]
    exact .cons _ (.append _ .run)

/-- **A single star between two texts**: no bare bracket in front of it, and no bare star next to it. -/
structure SingleStar (x y : Text) : Prop where
  paired : x.Paired
  bracket : '[' ∉ x.bare
  before : ¬Glob.EndsInStar x
  behind : ∀ s, y ≠ '*' :: s

theorem SingleStar.of_append {p x y : Text} (h : SingleStar (p ++ x) y) (hp : p.Paired) : SingleStar x y where
  paired := hp.of_append h.paired
  bracket := fun hx => h.bracket (by rw [hp.bare_append]; exact List.mem_append_right _ hx)
  before := fun hx => h.before (hx.append hp)
  behind := h.behind

/-- The star is widened if the search behind the open braces finds the same with one more star. -/
theorem widens_scan_of_search (h : SingleStar x y)
    (hsearch : ∀ t, SingleStar t y → (∀ c ∈ Glob.marks t, c = '{') →
      SearchedInStep Widens ('*' :: y) ('*' :: '*' :: y) t) :
    Widens (scan alternates d (x ++ '*' :: y)) (scan alternates d (x ++ '*' :: '*' :: y)) := by
  refine related_scan_append compatible_widens (fun _ => widens_scan_star h.behind)
    (fun _ => widens_scan_slash_star h.behind) ⟨h.paired, h.bracket, fun hx => absurd hx h.before, ?_⟩
  rintro u t hu rfl ht
  have hcons : Text.Paired (u ++ ['{']) := hu.append (.single (by decide) .nil)
  refine hsearch t (SingleStar.of_append (p := u ++ ['{']) ?_ hcons) ht
  rwa [List.append_assoc, List.singleton_append]

/-- **One more star widens the tokens.** -/
theorem widens_scan (h : SingleStar x y) :
    Widens (scan alternates d (x ++ '*' :: y)) (scan alternates d (x ++ '*' :: '*' :: y)) := by
  refine widens_scan_of_search h fun t ht _ => ?_
  have hone := wordGroup?_cons (c := '*') (by decide)
  cases hg : wordGroup? y with
  | none =>
    refine .inl ⟨?_, ?_⟩
    · rw [hone, hg, Option.map_none]
    · rw [hone, hone, hg, Option.map_none, Option.map_none]
  | some r =>
    obtain ⟨v, rest⟩ := r
    have hstar : ∀ s, IntegerRange.ofText? (t ++ '*' :: s) = none := fun s =>
      IntegerRange.ofText?_eq_none_of_mem (c := '*') (by simp) (by decide) (by decide)
    have hv : ∀ s, v ≠ '*' :: s := by
      rintro s rfl
      exact ht.behind _ (eq_append_of_wordGroup? hg)
    -- Up to the end of the braces there is no other end, so here the search finds nothing.
    have hinside : Widens (scan false 0 (t ++ '*' :: v)) (scan false 0 (t ++ '*' :: '*' :: v)) := by
      have hnone := wordGroup?_inside hg
      refine widens_scan_of_search ⟨ht.paired, ht.bracket, ht.before, hv⟩ fun _ _ _ => .inl ⟨?_, ?_⟩
      · rw [hone, hnone, Option.map_none]
      · rw [hone, hone, hnone, Option.map_none, Option.map_none]
    refine .inr ⟨'*' :: v, '*' :: '*' :: v, rest, ?_, ?_, hstar v, hstar ('*' :: v), hinside⟩
    · rw [hone, hg, Option.map_some]
    · rw [hone, hone, hg, Option.map_some, Option.map_some]

theorem widens_ofPattern (h : SingleStar x y) :
    Widens (ofPattern (x ++ '*' :: y)) (ofPattern (x ++ '*' :: '*' :: y)) := by
  have hcloses : closes (x ++ '*' :: y) = closes (x ++ '*' :: '*' :: y) := by
    refine closesFrom_append_congr (fun e => ?_) h.paired 0
    rw [closesFrom_cons (by decide), closesFrom_cons (by decide), closesFrom_cons (by decide)]
  rw [ofPattern, ofPattern, hcloses]
  exact widens_scan h

theorem rangesOf_of_widens {ts us : List Token} (h : Widens ts us) : rangesOf us = rangesOf ts := by
  induction h with
  | run => rfl
  | junction n =>
    rw [rangesOf_junction]
    exact (rangesOf_junction n).symm
  | @cons k ts us _ ih =>
    have ih : us.filterMap range? = ts.filterMap range? := ih
    rw [rangesOf, rangesOf, List.filterMap_cons, List.filterMap_cons, ih]
  | append vs _ ih =>
    rw [rangesOf, List.filterMap_append, ← rangesOf, ih, rangesOf, rangesOf, List.filterMap_append]

end Token

namespace Regex

/-! ### Reading widened tokens -/

theorem depth_le_of_mem_junction {n : ℕ} {r : Regex} (h : r ∈ (junction n).filterMap part?) :
    r.depthIn true false ≤ 4 := by
  obtain ⟨k, hk, hr⟩ := List.mem_filterMap.mp h
  rcases mem_junction hk with rfl | rfl | rfl
  · obtain rfl := Option.some.inj hr
    decide
  · obtain rfl := Option.some.inj hr
    decide
  · obtain rfl := Option.some.inj hr
    decide

/-- **The next junction is wider** than a slash, a run in a name and a junction, behind any expression. -/
theorem within_junction (e : Regex) (n : ℕ) :
    Within (inOrder e ((literal '/' :: nameRun :: junction n).filterMap part?))
      (inOrder e ((junction (n + 1)).filterMap part?)) := by
  have hslash := andThen_ne_empty (b := one (.only '/')) (by simp) e
  have hrow : inOrder e ((literal '/' :: nameRun :: junction n).filterMap part?) =
      inOrder (seq (e.andThen (one (.only '/'))) (many .notSlash)) ((junction n).filterMap part?) := by
    rw [← andThen_eq_seq hslash]
    rfl
  obtain ⟨a, b, hseq⟩ := exists_inOrder_eq_seq ((junction n).filterMap part?)
    (e.andThen (one (.only '/'))) (many .notSlash)
  refine ⟨fun u h => ?_, fun inSeq inAlt => ?_, ?_⟩
  · obtain ⟨v, w, rfl, hv, hw⟩ := (describes_inOrder _).mp h
    exact (describes_inOrder _).mpr ⟨v, w, rfl, hv, describe_junction_of_run hw⟩
  · -- The row has the depth of its deepest part, which is that of `e` or at least two.
    have hlow := le_depthIn_inOrder ((junction n).filterMap part?)
      (seq (e.andThen (one (.only '/'))) (many .notSlash))
    have he := (le_depthIn_andThen e (one (.only '/'))).1
    have htwo : max (e.depthIn true false) 2 ≤ (seq a b).depthIn true false := by
      rw [hseq] at hlow
      simp only [depthIn, CharSet.depth, if_true] at hlow he ⊢
      omega
    have hparts : ∀ r ∈ (junction (n + 1)).filterMap part?,
        r.depthIn true false ≤ max (e.depthIn true false) 4 :=
      fun r hr => (depth_le_of_mem_junction hr).trans (le_max_right _ _)
    have hhigh := depthIn_inOrder_le (le_max_left _ _) hparts
    have hle := depthIn_le_rowDepth (inOrder e ((junction (n + 1)).filterMap part?)) inSeq inAlt
    rw [hrow, hseq, depthIn_seq]
    unfold rowDepth at hle ⊢
    split_ifs at hle ⊢ <;> omega
  · have hnext : inOrder e ((junction (n + 1)).filterMap part?) ≠ empty := by
      have hsegments := andThen_ne_empty (b := segmentsRegex) (by simp [segmentsRegex]) e
      cases n with
      | zero => exact inOrder_ne_empty hsegments []
      | succ n => exact inOrder_ne_empty hsegments _
    rw [hrow, hseq]
    exact iff_of_false nofun hnext

/-- **Widened tokens** are read to wider levels. -/
theorem run_of_widens {ts us : List Token} (h : Widens ts us) : ∀ {x x₁ : Level × List Level},
    run x ts = some x₁ → ∃ y₁, run x us = some y₁ ∧ LevelsWithin x₁ y₁ := by
  induction h with
  | run =>
    rintro ⟨l, ls⟩ x₁ hx
    cases hx
    exact ⟨_, rfl, (Level.Within.refl l).add within_many, (LevelsWithin.refl (l, ls)).2⟩
  | junction n =>
    rintro ⟨⟨before, e⟩, ls⟩ x₁ hx
    have hparts : ∀ m, ∀ k ∈ junction m, (part? k).isSome = true := fun m k hk => by
      rcases mem_junction hk with rfl | rfl | rfl <;> rfl
    have hall : ∀ k ∈ literal '/' :: nameRun :: junction n, (part? k).isSome = true :=
      List.forall_mem_cons.mpr ⟨rfl, List.forall_mem_cons.mpr ⟨rfl, hparts n⟩⟩
    rw [run_of_parts hall, foldl_add] at hx
    cases hx
    refine ⟨_, run_of_parts (hparts (n + 1)) _ ls, ?_, (LevelsWithin.refl (⟨before, e⟩, ls)).2⟩
    rw [foldl_add]
    exact ⟨(Level.Within.refl ⟨before, e⟩).before, within_junction e n⟩
  | cons k _ ih =>
    intro x x₁ hx
    obtain ⟨x₂, hstep, hx⟩ := run_cons_eq_some_iff.mp hx
    obtain ⟨y₁, hy₁, h₁⟩ := ih hx
    exact ⟨y₁, run_cons_eq_some_iff.mpr ⟨x₂, hstep, hy₁⟩, h₁⟩
  | append vs _ ih =>
    intro x x₁ hx
    obtain ⟨z, hz, hx⟩ := exists_run_of_run_append hx
    obtain ⟨z', hz', hwithin⟩ := ih hz
    obtain ⟨y₁, hy₁, h₁⟩ := run_within hwithin hx
    exact ⟨y₁, (run_append hz' vs).trans hy₁, h₁⟩

/-- **The expression of widened tokens is wider.** -/
theorem tree?_of_widens {ts us : List Token} (h : Widens ts us) {r : Regex} (hr : tree? ts = some r) :
    ∃ s, tree? us = some s ∧ Within r s := by
  obtain ⟨l, hrun, rfl⟩ := tree?_eq_some_iff.mp hr
  obtain ⟨⟨l', ls'⟩, hrun', hl, hls⟩ := run_of_widens h hrun
  obtain rfl := List.forall₂_nil_left_iff.mp hls
  exact ⟨l'.close, tree?_eq_some_iff.mpr ⟨l', hrun', rfl⟩, hl.close⟩

end Regex

namespace Token

/-! ### From the directory on -/

/-- A slash in front of a text has no range, whatever it is read together with. -/
theorem rangesOf_scan_slash (alternates : Bool) (d : ℕ) (t : Text) :
    rangesOf (scan alternates d ('/' :: t)) = rangesOf (scan alternates d t) := by
  obtain ⟨n, r, rfl, hr⟩ := exists_starSlashes t
  have hjunction : ∀ m, rangesOf (junction m ++ scan alternates d r) = rangesOf (scan alternates d r) := by
    intro m
    rw [rangesOf, List.filterMap_append, ← rangesOf, rangesOf_junction, List.nil_append, ← rangesOf]
  cases n with
  | zero => rw [scan_starSlashes hr, hjunction]; rfl
  | succ n =>
    have hstars : scan alternates d (starSlashes (n + 1) ++ r) =
        anyRun :: scan alternates d ('/' :: (starSlashes n ++ r)) := by
      rw [starSlashes]
      simp only [List.cons_append]
      rw [scan]
    rw [scan_starSlashes hr, hjunction, hstars, scan_starSlashes hr]
    exact (hjunction n).symm

end Token

namespace Glob

theorem rangesOf_belowDirectory (pattern : Text) :
    rangesOf (ofPattern (belowDirectory pattern)) = rangesOf (ofPattern pattern) := by
  rw [ofPattern, (bare_belowDirectory pattern).2.2, ofPattern, belowDirectory_eq]
  generalize closes pattern = alternates
  rcases anchor_eq pattern with he | he | he <;> rw [he]
  · have hstars : scan alternates 0 ('*' :: '*' :: '/' :: pattern) =
        anyRun :: scan alternates 0 ('/' :: pattern) := by
      rw [scan]
    exact (rangesOf_scan_slash _ _ _).trans ((congrArg rangesOf hstars).trans (rangesOf_scan_slash _ _ _))
  · rfl
  · exact rangesOf_scan_slash _ _ _

/-- A single star is one from the directory on. -/
theorem singleStar_anchor {x y : Text} (h : SingleStar x y) (pattern : Text) :
    SingleStar (anchor pattern ++ x) y := by
  have hmem : '\\' ∉ anchor pattern ∧ '[' ∉ anchor pattern := by
    constructor <;> intro hm <;> rcases mem_anchor hm with he | he <;> cases he
  have hp := Text.paired_of_not_mem fun hm => hmem.1 (Text.mem_of_mem_bare hm)
  refine ⟨hp.append h.paired, ?_, fun hstar => ?_, h.behind⟩
  · rw [hp.bare_append, List.mem_append, not_or]
    exact ⟨fun hm => hmem.2 (Text.mem_of_mem_bare hm), h.bracket⟩
  · by_cases hx : x = []
    · have hlast := hstar.1
      rw [hx, List.append_nil] at hlast
      rcases anchor_eq pattern with he | he | he <;> rw [he] at hlast <;> simp at hlast
    · exact h.before (hstar.of_append hp hx)

/-- The tokens of a pattern are widened from the directory on. -/
theorem widens_belowDirectory {x y : Text} (h : SingleStar x y) :
    Widens (ofPattern (belowDirectory (x ++ '*' :: y)))
      (ofPattern (belowDirectory (x ++ '*' :: '*' :: y))) := by
  have hanchor : anchor (x ++ '*' :: '*' :: y) = anchor (x ++ '*' :: y) := by
    refine anchor_congr (by simp) ?_
    cases x <;> rfl
  rw [belowDirectory_eq, belowDirectory_eq, hanchor, ← List.append_assoc, ← List.append_assoc]
  exact widens_ofPattern (singleStar_anchor h _)

/-- **A widened star loses no path.**  The star between `x` and `y` is bare and no bare star is next to it, and
the pattern has no bare bracket and no range.  If it has an expression, so has the pattern with two stars in
this place, unless that one is nested too deeply, which takes an expression less than two levels below the
greatest depth; and then it applies to whatever the pattern applies to. -/
theorem accepts_widened {x y directory : Text} {g : Glob} (hbracket : '[' ∉ Text.bare (x ++ '*' :: y))
    (hback : '\\' ∉ x.bare) (hbefore : ¬EndsInStar x) (hbehind : y.head? ≠ some '*')
    (hranges : rangesOf (ofPattern (x ++ '*' :: y)) = [])
    (hg : ofPattern? directory (x ++ '*' :: y) = some g) :
    (g.regex.depth + 2 ≤ Regex.maxDepth → ∃ g', ofPattern? directory (x ++ '*' :: '*' :: y) = some g') ∧
      ∀ g', ofPattern? directory (x ++ '*' :: '*' :: y) = some g' →
        ∀ path, g.accepts path = true → g'.accepts path = true := by
  have hx := Text.paired_of_not_mem hback
  rw [hx.bare_append, List.mem_append, not_or] at hbracket
  have hy : ∀ s, y ≠ '*' :: s := by
    rintro s rfl
    exact hbehind rfl
  have hwidens := widens_belowDirectory ⟨hx, hbracket.1, hbefore, hy⟩
  obtain ⟨hdirectory, htree⟩ := of_ofPattern?_eq_some hg
  obtain ⟨s, hs, hwithin⟩ := Regex.tree?_of_widens hwidens htree
  refine ⟨fun hdepth => ?_, fun g' hg' path h => ?_⟩
  · have hle : s.depth ≤ Regex.maxDepth := by
      have := hwithin.depth true false
      unfold Regex.depth at hdepth ⊢
      omega
    rw [ofPattern?, Regex.ofTokens?, hs, Option.filter_some, if_pos (decide_eq_true hle)]
    exact ⟨_, rfl⟩
  · obtain ⟨hdirectory', htree'⟩ := of_ofPattern?_eq_some hg'
    obtain rfl := Option.some.inj (hs.symm.trans htree')
    have hnone : rangesOf (ofPattern (belowDirectory (x ++ '*' :: y))) = [] :=
      (rangesOf_belowDirectory _).trans hranges
    have hnone' := (rangesOf_of_widens hwidens).trans hnone
    obtain ⟨u, rfl, hu⟩ := accepts_iff.mp h
    rw [Regex.accepts_iff_describes (Regex.catchesNone_of_tree? hnone htree)] at hu
    refine accepts_iff.mpr ⟨u, by rw [hdirectory, hdirectory'], ?_⟩
    rw [Regex.accepts_iff_describes (Regex.catchesNone_of_tree? hnone' hs)]
    exact hwithin.describes u hu

/-- A star between two slashes in a branch, with a pair of stars behind it. -/
theorem accepts_widened_insideBraces :
    '[' ∉ Text.bare ("/\x7bsrc/".toList ++ '*' :: "/**/a,lib\x7d".toList) ∧
      '\\' ∉ Text.bare "/\x7bsrc/".toList ∧ ¬EndsInStar "/\x7bsrc/".toList ∧
      rangesOf (ofPattern ("/\x7bsrc/".toList ++ '*' :: "/**/a,lib\x7d".toList)) = [] ∧
      ∃ g g', ofPattern? "/w".toList ("/\x7bsrc/".toList ++ '*' :: "/**/a,lib\x7d".toList) = some g ∧
        ofPattern? "/w".toList ("/\x7bsrc/".toList ++ '*' :: '*' :: "/**/a,lib\x7d".toList) = some g' ∧
        g.accepts "/w/src/x/y/a".toList = true ∧ g'.accepts "/w/src/x/y/a".toList = true := by
  have hbracket : '[' ∉ Text.bare ("/\x7bsrc/".toList ++ '*' :: "/**/a,lib\x7d".toList) := by decide
  have hback : '\\' ∉ Text.bare "/\x7bsrc/".toList := by decide
  have hbefore : ¬EndsInStar "/\x7bsrc/".toList := by decide
  have hranges : rangesOf (ofPattern ("/\x7bsrc/".toList ++ '*' :: "/**/a,lib\x7d".toList)) = [] := by
    decide +kernel
  have hglob : (ofPattern? "/w".toList ("/\x7bsrc/".toList ++ '*' :: "/**/a,lib\x7d".toList)).map
      (fun g => (g.accepts "/w/src/x/y/a".toList, decide (g.regex.depth + 2 ≤ Regex.maxDepth))) =
        some (true, true) := by decide +kernel
  obtain ⟨g, hg, hvalues⟩ := Option.map_eq_some_iff.mp hglob
  obtain ⟨haccepts, hdepth⟩ := Prod.mk.inj hvalues
  obtain ⟨hcompiles, hwider⟩ := accepts_widened hbracket hback hbefore (by decide) hranges hg
  obtain ⟨g', hg'⟩ := hcompiles (of_decide_eq_true hdepth)
  exact ⟨hbracket, hback, hbefore, hranges, g, g', hg, hg', haccepts, hwider g' hg' _ haccepts⟩

/-- A star between two slashes behind 122 open braces. -/
def deepBefore : Text := '/' :: ((List.replicate 122 "\x7ba,".toList).flatten ++ "b/".toList)

/-- What is behind this star. -/
def deepBehind : Text := "/c".toList ++ List.replicate 122 '}'

/-- **The greatest depth** is reached with one star here, and exceeded with two. -/
theorem isSome_deep_not_widened :
    '[' ∉ Text.bare (deepBefore ++ '*' :: deepBehind) ∧ '\\' ∉ Text.bare deepBefore ∧
      ¬EndsInStar deepBefore ∧ deepBehind.head? ≠ some '*' ∧
      rangesOf (ofPattern (deepBefore ++ '*' :: deepBehind)) = [] ∧
      (ofPattern? "/w".toList (deepBefore ++ '*' :: deepBehind)).map (·.accepts "/w/a".toList) = some true ∧
      ofPattern? "/w".toList (deepBefore ++ '*' :: '*' :: deepBehind) = none := by
  decide +kernel

end Glob

end EditorSettings
