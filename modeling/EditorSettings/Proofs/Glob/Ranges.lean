import EditorSettings.Proofs.Decimal
import EditorSettings.Proofs.Glob.Ways

/-!
# Patterns with ranges

A pattern may hold integer ranges.  A path is read along it in the first way that there is, and the
ranges are looked at in that reading only (`Glob.accepts_iff_firstReading`).  So they are right whenever
the pattern applies (`Glob.ranges_of_accepts`), while of what the tree of the pattern denotes a path
may be left out if a later reading would be needed (`Glob.exists_denotes_not_accepts`).
-/

namespace EditorSettings

namespace Glob

/-! ### The first reading -/

theorem accepts_append_iff {g : Glob} {u : Text} :
    g.accepts (g.directory ++ u) = true ↔ g.regex.accepts u = true := by
  rw [accepts_iff]
  constructor
  · rintro ⟨v, hv, h⟩
    rwa [List.append_cancel_left hv]
  · exact fun h => ⟨u, rfl, h⟩

/-- The pattern has a regular expression.  It applies to what can be read along the tree if all ranges are
right in the first reading, while the tree denotes what has any reading with all ranges right. -/
def TakesFirst (directory pattern : Text) (tree : GlobTree) : Prop :=
  ∃ g, ofPattern? directory pattern = some g ∧ ∀ u,
    (g.accepts (trimSlashes directory ++ u) = true ↔
      ∃ cs, (tree.readings u).head? = some cs ∧ cs.InRange) ∧
    (tree.Denotes u ↔ ∃ cs ∈ tree.readings u, cs.InRange) ∧
    (tree.Denotes u → (∀ cs ∈ tree.readings u, cs.InRange) →
      g.accepts (trimSlashes directory ++ u) = true)

theorem takesFirst_of_belowDirectory {tree : GlobTree} (hw : tree.WellFormed)
    (ho : tree.choicesOpen = true) {pattern : Text} (hp : belowDirectory pattern = tree.text)
    (directory : Text) : TakesFirst directory pattern tree := by
  refine ⟨_, ofPattern?_text hw ho hp directory, fun u => ?_⟩
  have hfirst : (Glob.mk (trimSlashes directory) tree.text tree.regex).accepts
      (trimSlashes directory ++ u) = true ↔ ∃ cs, (tree.readings u).head? = some cs ∧ cs.InRange :=
    accepts_append_iff.trans GlobTree.accepts_regex_iff
  refine ⟨hfirst, GlobTree.denotes_iff, fun hd hall => ?_⟩
  obtain ⟨ds, hds, -⟩ := GlobTree.denotes_iff.mp hd
  obtain ⟨cs, hcs⟩ := Option.isSome_iff_exists.mp (List.isSome_head?.mpr (List.ne_nil_of_mem hds))
  exact hfirst.mpr ⟨cs, hcs, hall cs (List.mem_of_head? hcs)⟩

/-- **The first reading decides.**  A pattern that is the text of a tree from its directory on applies to
what the first reading along the tree has right, and a pattern that is itself the text of a tree to what
the first reading along the anchored tree has right. -/
theorem accepts_iff_firstReading {tree : GlobTree} (hw : tree.WellFormed)
    (ho : tree.choicesOpen = true) (directory pattern : Text) :
    (belowDirectory pattern = tree.text → TakesFirst directory pattern tree) ∧
      (pattern = tree.text → TakesFirst directory pattern tree.anchored) := by
  refine ⟨fun hp => takesFirst_of_belowDirectory hw ho hp directory, ?_⟩
  rintro rfl
  exact takesFirst_of_belowDirectory (GlobTree.wellFormed_anchored hw)
    ((GlobTree.choicesOpen_anchored tree).trans ho) (GlobTree.text_anchored tree).symm directory

/-- An integer literal of one digit. -/
def digitLiteral (n : Fin 10) : IntegerLiteral where
  text := [Nat.digitChar n]
  value := n
  reads := by revert n; decide

/-- The tree of `{1..9}*`. -/
def digitsThenName : GlobTree := [.range (digitLiteral 1) (digitLiteral 9), .nameRun]

theorem accepts_iff_firstReading_digitsThenName :
    digitsThenName.WellFormed ∧ digitsThenName.choicesOpen = true ∧
      "\x7b1..9\x7d*".toList = digitsThenName.text ∧
      TakesFirst "/w".toList "\x7b1..9\x7d*".toList digitsThenName.anchored := by
  have hw : digitsThenName.WellFormed := ⟨by decide, by decide⟩
  have ho : digitsThenName.choicesOpen = true := by decide
  have hp : "\x7b1..9\x7d*".toList = digitsThenName.text := by decide
  exact ⟨hw, ho, hp, (accepts_iff_firstReading hw ho _ _).2 hp⟩

/-- The tree of `{{1..2},a}`. -/
def rangeFirst : GlobTree :=
  [.choice [.range (digitLiteral 1) (digitLiteral 2)] [.plain 'a' (by decide)] []]

/-- Below `/w`, the tree of `{1..9}*` denotes `/12`, but the range takes both digits at first.  The tree
of `{{1..2},a}` denotes `/1`, but the brace of the range closes the group that stands around it. -/
theorem exists_denotes_not_accepts :
    (digitsThenName.WellFormed ∧ digitsThenName.anchored.Denotes "/12".toList ∧
      (ofPattern? "/w".toList digitsThenName.text).map
        (accepts · (trimSlashes "/w".toList ++ "/12".toList)) = some false) ∧
    rangeFirst.WellFormed ∧ rangeFirst.anchored.Denotes "/1".toList ∧
      (ofPattern? "/w".toList rangeFirst.text).map
        (accepts · (trimSlashes "/w".toList ++ "/1".toList)) = some false := by
  have hdigits : digitsThenName.anchored.Denotes "/12".toList :=
    ⟨['/'], ['1', '2'], rfl, Or.inl rfl, ['1'], ['2'], rfl, ⟨1, by decide, by decide, rfl⟩,
      ['2'], [], rfl, by simp [GlobItem.Denotes], rfl⟩
  have hrange : rangeFirst.anchored.Denotes "/1".toList :=
    ⟨['/'], ['1'], rfl, Or.inl rfl, ['1'], [], rfl,
      Or.inl ⟨['1'], [], rfl, ⟨1, by decide, by decide, rfl⟩, rfl⟩, rfl⟩
  exact ⟨⟨⟨by decide, by decide⟩, hdigits, by decide +kernel⟩, ⟨by decide, by decide⟩, hrange,
    by decide +kernel⟩

/-! ### Ranges that take part -/

/-- All ranges that take part have taken the canonical decimal form of an integer that they hold. -/
def AllDecimal (cs : Catches) : Prop :=
  ∀ c ∈ cs, ∃ v : Int, c.1.low ≤ v ∧ v ≤ c.1.high ∧ Text.IsDecimalOf v c.2

/-- The pattern has a regular expression.  The paths to which it applies lie below the directory, the tree
denotes the rest of each, and all ranges are right in some reading of it. -/
def RangesRight (directory pattern : Text) (tree : GlobTree) : Prop :=
  ∃ g, ofPattern? directory pattern = some g ∧ ∀ path, g.accepts path = true →
    ∃ u, path = trimSlashes directory ++ u ∧ tree.Denotes u ∧ ∃ cs ∈ tree.readings u, AllDecimal cs

theorem allDecimal_of_inRange {cs : Catches} (h : cs.InRange) : AllDecimal cs := by
  intro c hc
  obtain ⟨v, hl, hh, ht⟩ := h c hc
  exact ⟨v, hl, hh, Text.isDecimalOf_iff.mpr ht⟩

theorem rangesRight_of_belowDirectory {tree : GlobTree} (hw : tree.WellFormed)
    (ho : tree.choicesOpen = true) {pattern : Text} (hp : belowDirectory pattern = tree.text)
    (directory : Text) : RangesRight directory pattern tree := by
  refine ⟨_, ofPattern?_text hw ho hp directory, fun path h => ?_⟩
  obtain ⟨u, rfl, hu⟩ := accepts_iff.mp h
  obtain ⟨cs, hcs, hin⟩ := GlobTree.accepts_regex_iff.mp hu
  have hmem : cs ∈ tree.readings u := List.mem_of_head? hcs
  exact ⟨u, rfl, GlobTree.denotes_iff.mpr ⟨cs, hmem, hin⟩, cs, hmem, allDecimal_of_inRange hin⟩

/-- **Ranges are right where a pattern applies.**  With no range in the first branch of a choice, a pattern
that is the text of a tree from its directory on applies only to what the tree denotes with every range
that takes part standing for an integer in it, and a pattern that is itself the text of a tree likewise
for the anchored tree. -/
theorem ranges_of_accepts {tree : GlobTree} (hw : tree.WellFormed) (hl : tree.rangesLate = true)
    (directory pattern : Text) :
    (belowDirectory pattern = tree.text → RangesRight directory pattern tree) ∧
      (pattern = tree.text → RangesRight directory pattern tree.anchored) := by
  have ho := GlobTree.choicesOpen_of_rangesLate hl
  refine ⟨fun hp => rangesRight_of_belowDirectory hw ho hp directory, ?_⟩
  rintro rfl
  exact rangesRight_of_belowDirectory (GlobTree.wellFormed_anchored hw)
    ((GlobTree.choicesOpen_anchored tree).trans ho) (GlobTree.text_anchored tree).symm directory

/-- The tree of `v{a,{2..5}}.{0..9}`. -/
def versionTree : GlobTree :=
  [.plain 'v' (by decide), .choice [.plain 'a' (by decide)] [.range (digitLiteral 2) (digitLiteral 5)] [],
    .plain '.' (by decide), .range (digitLiteral 0) (digitLiteral 9)]

theorem ranges_of_accepts_versionTree :
    versionTree.WellFormed ∧ versionTree.rangesLate = true ∧
      "v\x7ba,\x7b2..5\x7d\x7d.\x7b0..9\x7d".toList = versionTree.text ∧
      RangesRight "/w/".toList "v\x7ba,\x7b2..5\x7d\x7d.\x7b0..9\x7d".toList versionTree.anchored := by
  have hw : versionTree.WellFormed := ⟨by decide, by decide⟩
  have hl : versionTree.rangesLate = true := by decide
  have hp : "v\x7ba,\x7b2..5\x7d\x7d.\x7b0..9\x7d".toList = versionTree.text := by decide
  exact ⟨hw, hl, hp, (ranges_of_accepts hw hl _ _).2 hp⟩

end Glob

end EditorSettings
