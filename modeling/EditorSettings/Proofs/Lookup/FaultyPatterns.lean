import EditorSettings.Proofs.Glob.Monotone
import EditorSettings.Proofs.Lookup.Merging

/-!
# Patterns without an expression

Whether a pattern has a regular expression depends on the pattern alone.  The text of a directory in front
of it is a row of characters that stand for themselves; they are no marks of alternations, so the rest is
read as it is without them (`Regex.tree?_literals`), and they are not nested
(`Glob.isSome_ofTokens?_wholeTokens`).

So a section fails by its pattern, before the target is looked at.  The sections are run through from the
farthest document to the nearest, and the first pattern without an expression decides, whatever the target
and the version are (`PlacedDocument.settings_fail_alike`).
-/

namespace EditorSettings

/-! ### Behind literal characters -/

namespace Regex

/-- **Literal characters in front of tokens** are parts of their own: with and without them the other tokens
have an expression or have none. -/
theorem tree?_literals {ts : List Token} (hm : Token.marksInside 0 ts = true) (p : Text) :
    (tree? (p.map Token.literal ++ ts) = none ∧ tree? ts = none) ∨
      ∃ parts, tree? (p.map Token.literal ++ ts) = some (inOrder (literals p) parts) ∧
        tree? ts = some (inOrder empty parts) := by
  have hm : Token.marksInside ([] : List Level).length ts = true := hm
  have hp : run (⟨none, empty⟩, []) (p.map Token.literal ++ ts) = run (⟨none, literals p⟩, []) ts :=
    run_literals p ts empty
  unfold tree? Level.start
  rw [hp]
  rcases run_stack hm with hrun | ⟨inner, parts, hrun⟩
  · have hrun : ∀ o, run (o, []) ts = none := hrun
    rw [hrun, hrun]
    exact Or.inl ⟨rfl, rfl⟩
  · have hrun : ∀ o, run (o, []) ts = some (stack inner (parts.foldl Level.add o)) := hrun
    rw [hrun, hrun, foldl_add, foldl_add]
    rcases inner with _ | ⟨l, ls⟩
    · exact Or.inr ⟨parts, rfl, rfl⟩
    · -- An alternation is still open at the end, with and without the literals.
      cases ls <;> exact Or.inl ⟨rfl, rfl⟩

theorem depthIn_andThen (a b : Regex) :
    (a.andThen b).depthIn true false = max (a.depthIn true false) (b.depthIn true false) := by
  by_cases ha : a = empty
  · subst ha
    exact (Nat.zero_max _).symm
  · rw [andThen_eq_seq ha]
    rfl

theorem depthIn_inOrder (parts : List Regex) : ∀ e : Regex, (inOrder e parts).depthIn true false =
    max (e.depthIn true false) ((inOrder empty parts).depthIn true false) := by
  induction parts with
  | nil => exact fun e => (Nat.max_zero _).symm
  | cons r parts ih =>
    intro e
    have hcons : inOrder e (r :: parts) = inOrder (e.andThen r) parts := rfl
    have hempty : inOrder empty (r :: parts) = inOrder r parts := rfl
    rw [hcons, hempty, ih, ih r, depthIn_andThen, max_assoc]

theorem depthIn_literals (p : Text) : (literals p).depthIn true false = 0 := by
  refine Nat.le_zero.mp (depthIn_inOrder_le le_rfl fun r hr => ?_)
  obtain ⟨c, -, rfl⟩ := List.mem_map.mp hr
  exact le_rfl

end Regex

namespace Glob

/-- Whether a pattern has no regular expression. -/
def isFaulty (pattern : Text) : Bool := (Regex.ofTokens? (Token.ofPattern (belowDirectory pattern))).isNone

/-- **A pattern has an expression in every directory or in none.** -/
theorem isSome_ofPattern? (directory pattern : Text) :
    (ofPattern? directory pattern).isSome = !isFaulty pattern := by
  rw [ofPattern?, isFaulty, Option.isSome_map, Option.not_isNone]

theorem ofPattern?_eq_none_iff {directory pattern : Text} :
    ofPattern? directory pattern = none ↔ isFaulty pattern = true := by
  rw [ofPattern?, Option.map_eq_none_iff, isFaulty, Option.isNone_iff_eq_none]

/-- The expression text of a directory and a pattern in it is that of the directory, taken literally, and
that of the pattern. -/
theorem sourceOf_wholeTokens (directory pattern : Text) :
    Token.sourceOf (wholeTokens directory pattern) = (trimSlashes directory).flatMap Token.escaped ++
      Token.sourceOf (Token.ofPattern (belowDirectory pattern)) := by
  rw [wholeTokens, Token.sourceOf, List.flatMap_append, List.flatMap_map]
  rfl

/-- **A directory and a pattern have one expression iff the pattern has one**, whatever characters the
directory is made of. -/
theorem isSome_ofTokens?_wholeTokens (directory pattern : Text) :
    (Regex.ofTokens? (wholeTokens directory pattern)).isSome = !isFaulty pattern := by
  have hm := Token.marksInside_ofPattern (belowDirectory pattern)
  unfold wholeTokens isFaulty Regex.ofTokens?
  rw [Option.not_isNone]
  rcases Regex.tree?_literals hm (trimSlashes directory) with ⟨hwhole, hr⟩ | ⟨parts, hwhole, hr⟩
  · rw [hwhole, hr]
  · have hdepth : (Regex.inOrder (Regex.literals (trimSlashes directory)) parts).depth =
        (Regex.inOrder .empty parts).depth := by
      rw [Regex.depth, Regex.depthIn_inOrder, Regex.depthIn_literals, Nat.zero_max, Regex.depth]
    rw [hwhole, hr, Option.filter_some, Option.filter_some, hdepth]
    split_ifs <;> rfl

end Glob

namespace PlacedDocument

/-! ### The first faulty pattern -/

/-- The patterns of documents, the nearest first, each behind the directory of its document without slashes at
its end, in the order in which their sections are written. -/
def patterns (documents : List PlacedDocument) : List (Text × Text) :=
  documents.reverse.flatMap fun d =>
    d.document.headedSections.map fun s => (Glob.trimSlashes d.directory, s.1)

/-- The failure of a pattern behind its directory, if it has no expression. -/
def patternFailure? (p : Text × Text) : Option Failure :=
  if Glob.isFaulty p.2 then some (.invalidPattern p.1 p.2) else none

variable {p : Text × Text}

theorem patternFailure?_eq_some_iff {failure : Failure} :
    patternFailure? p = some failure ↔ Glob.isFaulty p.2 = true ∧ failure = .invalidPattern p.1 p.2 := by
  rw [patternFailure?, Option.ite_none_right_eq_some, Option.some_inj, eq_comm (a := failure)]

theorem patternFailure?_eq_none_iff : patternFailure? p = none ↔ Glob.isFaulty p.2 = false := by
  rw [patternFailure?, ite_eq_right_iff, ← Bool.not_eq_true]
  exact imp_congr_right fun _ => iff_of_false (by simp) id

/-- **A section fails by its pattern alone.** -/
theorem endsWith_writeSection (directory target : Text) (m : Settings) (s : Text × Section) :
    EndsWith (writeSection directory target m s) (patternFailure? (Glob.trimSlashes directory, s.1)) := by
  cases hs : Glob.isFaulty s.1 with
  | true =>
    rw [patternFailure?_eq_some_iff.mpr ⟨hs, rfl⟩]
    rw [EndsWith, writeSection, Glob.ofPattern?_eq_none_iff.mpr hs]
  | false =>
    have hsome := Glob.isSome_ofPattern? directory s.1
    rw [hs] at hsome
    obtain ⟨g, hg⟩ := Option.isSome_iff_exists.mp hsome
    rw [patternFailure?_eq_none_iff.mpr hs, EndsWith, writeSection, hg]
    exact ⟨_, rfl⟩

theorem endsWith_settings (documents : List PlacedDocument) (target : Path) (version : Version) :
    EndsWith (settings documents target version) ((patterns documents).findSome? patternFailure?) := by
  have hwrite : ∀ (m : Settings) (d : PlacedDocument), EndsWith (write target.text m d)
      ((d.document.headedSections.map fun s => (Glob.trimSlashes d.directory, s.1)).findSome?
        patternFailure?) := by
    intro m d
    rw [List.findSome?_map]
    exact EndsWith.foldlM (endsWith_writeSection d.directory target.text) _ m
  rw [patterns, findSome?_flatMap]
  exact (EndsWith.foldlM hwrite documents.reverse OrderedMap.empty).bind_ok _

/-- **Patterns without an expression fail alike for all targets.**  Documents have settings for every target
and version, or they have the same failure for all of these, that of the first pattern without an
expression in the order in which sections are written, in the directory of its document.  Whether a pattern
has an expression does not depend on the directory, even if the directory is made a part of the
expression. -/
theorem settings_fail_alike :
    (∀ documents : List PlacedDocument,
      (∀ (target : Path) (version : Version), ∃ m, settings documents target version = .ok m) ∨
        ∃ earlier p later, patterns documents = earlier ++ p :: later ∧
          (∀ q ∈ earlier, ∀ directory, (Glob.ofPattern? directory q.2).isSome = true) ∧
          (∀ directory, Glob.ofPattern? directory p.2 = none) ∧
          ∀ (target : Path) (version : Version),
            settings documents target version = .error (.invalidPattern p.1 p.2)) ∧
      ∀ directory pattern : Text,
        (∀ other, (Glob.ofPattern? directory pattern).isSome = (Glob.ofPattern? other pattern).isSome) ∧
        (Regex.ofTokens? (Glob.wholeTokens directory pattern)).isSome =
          (Glob.ofPattern? directory pattern).isSome ∧
        Token.sourceOf (Glob.wholeTokens directory pattern) =
          (Glob.trimSlashes directory).flatMap Token.escaped ++
            Token.sourceOf (Token.ofPattern (Glob.belowDirectory pattern)) := by
  refine ⟨fun documents => ?_, fun directory pattern => ⟨fun other => ?_, ?_, ?_⟩⟩
  · have hends := endsWith_settings documents
    cases hfirst : (patterns documents).findSome? patternFailure? with
    | none =>
      rw [hfirst] at hends
      exact Or.inl hends
    | some failure =>
      rw [hfirst] at hends
      obtain ⟨earlier, p, later, heq, hp, hearlier⟩ := List.findSome?_eq_some_iff.mp hfirst
      obtain ⟨hfaulty, rfl⟩ := patternFailure?_eq_some_iff.mp hp
      refine Or.inr ⟨earlier, p, later, heq, fun q hq directory => ?_, fun directory => ?_, hends⟩
      · rw [Glob.isSome_ofPattern?, patternFailure?_eq_none_iff.mp (hearlier q hq), Bool.not_false]
      · exact Glob.ofPattern?_eq_none_iff.mpr hfaulty
  · rw [Glob.isSome_ofPattern?, Glob.isSome_ofPattern?]
  · rw [Glob.isSome_ofTokens?_wholeTokens, Glob.isSome_ofPattern?]
  · exact Glob.sourceOf_wholeTokens directory pattern

/-- Documents with two faulty patterns, the first of them in the farther one, where it does not apply to
files in `/w`. -/
def faultyDocuments : List PlacedDocument :=
  [⟨Path.ofText "/w/.editorconfig".toList,
      ⟨[.preamble, .headed ['*'], .headed "\x7ba,[\x7d]".toList]⟩⟩,
    ⟨Path.ofText "/.editorconfig".toList,
      ⟨[.preamble, .headed "[a".toList, .headed "/v/[--c-b]".toList, .headed "**".toList]⟩⟩]

theorem settings_fail_alike_faultyDocuments :
    patterns faultyDocuments =
        [([], "[a".toList), ([], "/v/[--c-b]".toList), ([], "**".toList), ("/w".toList, ['*']),
          ("/w".toList, "\x7ba,[\x7d]".toList)] ∧
      (∀ (target : Path) (version : Version),
        settings faultyDocuments target version = .error (.invalidPattern [] "/v/[--c-b]".toList)) ∧
      Glob.ofPattern? [] "/v/[--c-b]".toList = none ∧
      (Glob.ofPattern? "/[(".toList "/v/[--c-b]".toList).isSome = false := by
  have hat : settings faultyDocuments (Path.ofText "/w/x".toList) Version.current =
      .error (.invalidPattern [] "/v/[--c-b]".toList) := by decide +kernel
  have hnone : Glob.ofPattern? [] "/v/[--c-b]".toList = none := by decide +kernel
  refine ⟨by decide +kernel, ?_, hnone, ?_⟩
  · rcases settings_fail_alike.1 faultyDocuments with h | ⟨-, p, -, -, -, -, hall⟩
    · obtain ⟨m, hm⟩ := h (Path.ofText "/w/x".toList) Version.current
      rw [hat] at hm
      cases hm
    · have hp := hall (Path.ofText "/w/x".toList) Version.current
      rw [hat] at hp
      rw [← Except.error.inj hp] at hall
      exact hall
  · rw [(settings_fail_alike.2 "/[(".toList "/v/[--c-b]".toList).1 [], hnone, Option.isSome_none]

end PlacedDocument

end EditorSettings
