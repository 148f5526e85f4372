import EditorSettings.Proofs.Glob.Depth

/-!
# Patterns without brackets

A pattern without a bare bracket always has an expression, whatever its braces look like, unless they nest
too deeply.  If they do not balance, there are no alternations at all.  If they do, the scanner may count
fewer of them as open than there are, since it takes braces for a group without a comma that it does not
count; but it never counts more, so no alternation is open where all braces are closed
(`Token.fits_ofPattern`).

The expression text is read on its own here, as text: what is behind a backslash or in a class is passed
over, every other opening parenthesis opens a group, and every other closing one closes the last that is
open (`Regex.openGroups?`).  In the text of tokens that fit, each group is closed and nothing else is
(`Regex.openGroups?_sourceOf`).
-/

namespace EditorSettings

open Token

namespace Regex

/-! ### Open groups of an expression text -/

/-- The number of groups that are open behind an expression text, `depth` of them being open in front of it;
`inClass` says whether it begins inside of a class.  There is none if a parenthesis closes a group and none is
open, or if the text ends in a class or in a bare backslash. -/
def openGroups? : Bool → ℕ → Text → Option ℕ
  | false, depth, [] => some depth
  | true, _, [] => none
  | _, _, ['\\'] => none
  | inClass, depth, '\\' :: _ :: t => openGroups? inClass depth t
  | true, depth, ']' :: t => openGroups? false depth t
  | true, depth, _ :: t => openGroups? true depth t
  | false, depth, '[' :: t => openGroups? true depth t
  | false, depth, '(' :: t => openGroups? false (depth + 1) t
  | false, 0, ')' :: _ => none
  | false, depth + 1, ')' :: t => openGroups? false depth t
  | false, depth, _ :: t => openGroups? false depth t

theorem openGroups?_cons {c : Char} (hb : c ≠ '\\') (hclass : c ≠ '[') (hopen : c ≠ '(') (hclose : c ≠ ')')
    (d : ℕ) (t : Text) : openGroups? false d (c :: t) = openGroups? false d t := by
  rw [openGroups?] <;> intros <;> contradiction

theorem openGroups?_escaped (c : Char) (d : ℕ) (t : Text) :
    openGroups? false d (escaped c ++ t) = openGroups? false d t := by
  unfold escaped
  split
  · rfl
  · next h =>
    have hne : c ≠ '\\' ∧ c ≠ '[' ∧ c ≠ '(' ∧ c ≠ ')' := by
      refine ⟨?_, ?_, ?_, ?_⟩ <;> rintro rfl <;> exact h (by decide)
    exact openGroups?_cons hne.1 hne.2.1 hne.2.2.1 hne.2.2.2 d t

/-- A token that is no class and no mark of an alternation closes the groups that it opens. -/
theorem openGroups?_of_isPlain {k : Token} (hk : k.isPlain = true) (d : ℕ) (t : Text) :
    openGroups? false d (k.source ++ t) = openGroups? false d t := by
  cases k with
  | literal c => exact openGroups?_escaped c d t
  | bracket b => cases hk
  | openGroup => cases hk
  | nextBranch => cases hk
  | closeGroup => cases hk
  | _ => rfl

/-- **The text of one token that fits.** -/
theorem openGroups?_source {k : Token} (hb : k.isBracket = false) {d : ℕ}
    (hm : k.isInnerMark = true → 0 < d) (t : Text) :
    openGroups? false d (k.source ++ t) = openGroups? false (k.depthAfter d) t := by
  cases k with
  | bracket b => cases hb
  | openGroup => rfl
  | nextBranch => rfl
  | closeGroup =>
    obtain ⟨e, rfl⟩ := Nat.exists_eq_succ_of_ne_zero (Nat.pos_iff_ne_zero.mp (hm rfl))
    rfl
  | _ => exact openGroups?_of_isPlain rfl d t

/-- **The text of tokens that fit** closes all groups, and closes none but those that are open. -/
theorem openGroups?_sourceOf {bound : ℕ} : ∀ {ts : List Token} {d : ℕ}, fits bound d ts = true →
    openGroups? false d (sourceOf ts) = some 0
  | [], d, h => by
    rw [fits, beq_iff_eq] at h
    rw [h]
    rfl
  | k :: ts, d, h => by
    rw [fits_cons] at h
    obtain ⟨hb, hm, -, hts⟩ := h
    rw [sourceOf_cons, openGroups?_source hb hm, openGroups?_sourceOf hts]

end Regex

namespace Token

variable {bound : ℕ}

/-- Behind tokens that fit no alternation is open. -/
theorem foldl_depthAfter_of_fits : ∀ {ts : List Token} {d : ℕ}, fits bound d ts = true →
    ts.foldl depthAfter d = 0
  | [], _, h => by rwa [fits, beq_iff_eq] at h
  | k :: ts, d, h => by
    rw [fits_cons] at h
    rw [List.foldl_cons]
    exact foldl_depthAfter_of_fits h.2.2.2

/-- **The tokens of a pattern without brackets fit**, if its braces do not balance or do not nest too
deeply. -/
theorem fits_ofPattern {t : Text} (hb : '[' ∉ t.bare)
    (hn : closes t = true → Glob.nestingFrom 0 (Glob.marks t) ≤ bound) :
    fits bound 0 (ofPattern t) = true := by
  rw [ofPattern]
  cases hc : closes t with
  | true => exact fits_scan_of_nests ⟨hb, hc, hn hc⟩ rfl le_rfl
  | false =>
    have hplain := isPlain_of_mem_scan hb (.inr ⟨rfl, rfl⟩)
    have hfits : fits bound 0 (scan false 0 t ++ []) = true :=
      fits_append_of_isPlain (Nat.zero_le bound) rfl hplain
    rwa [List.append_nil] at hfits

end Token

namespace Glob

/-! ### From the directory on -/

/-- What is put in front of a pattern. -/
def anchor (pattern : Text) : Text :=
  if '/' ∉ pattern then "/**/".toList
  else if pattern.head? = some '/' then []
  else ['/']

theorem belowDirectory_eq (pattern : Text) : belowDirectory pattern = anchor pattern ++ pattern := by
  unfold belowDirectory anchor
  split_ifs <;> rfl

theorem anchor_eq (pattern : Text) :
    anchor pattern = ['/', '*', '*', '/'] ∨ anchor pattern = [] ∨ anchor pattern = ['/'] := by
  unfold anchor
  by_cases hslash : '/' ∉ pattern
  · rw [if_pos hslash]
    exact .inl rfl
  · rw [if_neg hslash]
    by_cases hhead : pattern.head? = some '/'
    · rw [if_pos hhead]
      exact .inr (.inl rfl)
    · rw [if_neg hhead]
      exact .inr (.inr rfl)

theorem mem_anchor {pattern : Text} {c : Char} (h : c ∈ anchor pattern) : c = '/' ∨ c = '*' := by
  rcases anchor_eq pattern with he | he | he <;> rw [he] at h <;> simp at h
  · tauto
  · exact .inl h

theorem anchor_congr {p q : Text} (hslash : '/' ∈ p ↔ '/' ∈ q) (hhead : p.head? = q.head?) :
    anchor p = anchor q := by
  simp only [anchor, hslash, hhead]

/-- Brackets and braces are the same from the directory on. -/
theorem bare_belowDirectory (pattern : Text) :
    ('[' ∈ Text.bare (belowDirectory pattern) ↔ '[' ∈ pattern.bare) ∧
      marks (belowDirectory pattern) = marks pattern ∧
      closes (belowDirectory pattern) = closes pattern := by
  rw [belowDirectory_eq]
  have hmem := fun c (hc : c ∈ anchor pattern) => mem_anchor hc
  generalize anchor pattern = u at hmem
  induction u with
  | nil => exact ⟨Iff.rfl, rfl, rfl⟩
  | cons c u ih =>
    obtain ⟨hc, hrest⟩ := List.forall_mem_cons.mp hmem
    obtain ⟨hbracket, hmarks, hcloses⟩ := ih hrest
    have hne : c ≠ '\\' ∧ c ≠ '[' ∧ isMark c = false ∧ isBraceMark c = false := by
      rcases hc with rfl | rfl <;> decide
    rw [List.cons_append, Text.bare_cons hne.1, List.mem_cons, marks_cons_of_not hne.1 hne.2.2.1, closes,
      closesFrom_cons hne.2.2.2]
    exact ⟨by rw [← hbracket]; simp [Ne.symm hne.2.1], hmarks, hcloses⟩

/-- How deep the braces of a pattern may nest. -/
def maxNesting : ℕ := 60

/-- **A pattern without brackets always has an expression**, if its braces do not balance or do not nest too
deeply.  In the text of the expression every group that is opened is closed, no parenthesis closes a group
where none is open, and at the end no alternation is left open. -/
theorem exists_glob_of_unbracketed {pattern : Text} (hb : '[' ∉ pattern.bare)
    (hn : closes pattern = true → nestingFrom 0 (marks pattern) ≤ maxNesting) (directory : Text) :
    (∃ g, ofPattern? directory pattern = some g) ∧
      Regex.openGroups? false 0 (sourceOf (ofPattern (belowDirectory pattern))) = some 0 ∧
      (ofPattern (belowDirectory pattern)).foldl depthAfter 0 = 0 := by
  obtain ⟨hbracket, hmarks, hcloses⟩ := bare_belowDirectory pattern
  rw [← hbracket] at hb
  rw [← hmarks, ← hcloses] at hn
  have hfits := fits_ofPattern hb hn
  obtain ⟨r, -, hr⟩ := Regex.ofTokens?_of_fits (by decide) hfits
  exact ⟨⟨_, by rw [ofPattern?, hr, Option.map_some]⟩, Regex.openGroups?_sourceOf hfits,
    foldl_depthAfter_of_fits hfits⟩

/-- A brace that ends a group without a comma and would balance another one: its alternation is not
counted. -/
theorem exists_glob_of_unbracketed_swallowedBrace :
    closes "\x7b\x7ba\x7d,\x7bb,c\x7d\x7d".toList = true ∧
    ((∃ g, ofPattern? "/w".toList "\x7b\x7ba\x7d,\x7bb,c\x7d\x7d".toList = some g) ∧
      Regex.openGroups? false 0 (sourceOf (ofPattern
        (belowDirectory "\x7b\x7ba\x7d,\x7bb,c\x7d\x7d".toList))) = some 0 ∧
      (ofPattern (belowDirectory "\x7b\x7ba\x7d,\x7bb,c\x7d\x7d".toList)).foldl depthAfter 0 = 0) ∧
    sourceOf (ofPattern (belowDirectory "\x7b\x7ba\x7d,\x7bb,c\x7d\x7d".toList)) =
      "(?:/|/.*/)\\\x7b\\\x7ba\\\x7d,(?:b|c)\\\x7d".toList :=
  ⟨by decide, exists_glob_of_unbracketed (by decide) (fun _ => by decide) _, by decide +kernel⟩

end Glob

end EditorSettings
