import EditorSettings.Proofs.Glob.TreeRegex

/-!
# The meaning of patterns

A pattern in a directory applies to the paths below that directory that the tree of the pattern denotes
(`Glob.accepts_iff_denotes`).  The tree is that of the pattern as seen from the directory on, with a
slash or any number of segments in front: `tree.anchored`, if `tree` is that of the pattern itself.
-/

namespace EditorSettings

/-! ### Trees from a directory on -/

namespace GlobTree

/-- The tree of a slash before the text of a tree.  With `**` and a slash behind it, the slash makes any
number of segments. -/
def behindSlash : GlobTree → GlobTree
  | .anyRun :: .segments :: is => .segments :: .anyRun :: behindSlash is
  | .anyRun :: .plain c h :: is =>
    if c = '/' then .segments :: is
    else .plain '/' (by decide) :: .anyRun :: .plain c h :: is
  | is => .plain '/' (by decide) :: is

/-- The tree of the text of a tree as seen from its directory on. -/
def anchored (tree : GlobTree) : GlobTree :=
  if '/' ∉ tree.text then .segments :: tree
  else if tree.text.head? = some '/' then tree
  else behindSlash tree

theorem text_behindSlash (tree : GlobTree) : tree.behindSlash.text = '/' :: tree.text := by
  fun_induction behindSlash tree with
  | case1 is ih => simp [GlobTree.text, GlobItem.text, ih]
  | case2 h is => simp [GlobTree.text, GlobItem.text]
  | case3 c h is hc => simp [GlobTree.text, GlobItem.text]
  | case4 is _ _ => simp [GlobTree.text, GlobItem.text]

theorem text_anchored (tree : GlobTree) :
    tree.anchored.text = Glob.belowDirectory tree.text := by
  unfold anchored Glob.belowDirectory
  split_ifs
  · rfl
  · exact text_behindSlash tree
  · rfl

/-- Any number of segments may precede everything. -/
theorem segments_mayPrecede (is : GlobTree) : GlobItem.segments.mayPrecede is = true := by
  rcases is with _ | ⟨i, is⟩
  · rfl
  · cases i <;> rfl

theorem anyRun_mayPrecede_behindSlash (is : GlobTree) :
    GlobItem.anyRun.mayPrecede is.behindSlash = true := by
  fun_cases behindSlash is <;> rfl

theorem separated_behindSlash {tree : GlobTree} (h : tree.separated = true) :
    tree.behindSlash.separated = true := by
  fun_induction behindSlash tree with
  | case1 is ih =>
    simp only [GlobTree.separated, GlobItem.separated, Bool.true_and, Bool.and_eq_true] at h ⊢
    exact ⟨segments_mayPrecede _, anyRun_mayPrecede_behindSlash is, ih h.2.2⟩
  | case2 h' is =>
    simp only [GlobTree.separated, GlobItem.separated, Bool.true_and, Bool.and_eq_true] at h ⊢
    exact ⟨segments_mayPrecede _, h.2.2⟩
  | case3 c h' is hc =>
    simp only [GlobTree.separated, GlobItem.separated, Bool.true_and, Bool.and_eq_true] at h ⊢
    refine ⟨?_, h⟩
    simp [GlobItem.mayPrecede, GlobItem.isStar, GlobItem.beginsWithSlash, hc]
  | case4 is h1 h2 =>
    simp only [GlobTree.separated, GlobItem.separated, Bool.true_and, Bool.and_eq_true]
    refine ⟨?_, h⟩
    rcases is with _ | ⟨i, is⟩
    · rfl
    · cases i with
      | anyRun =>
        rcases is with _ | ⟨j, is⟩
        · rfl
        · cases j with
          | segments => exact absurd rfl (h1 is)
          | plain c hc => exact absurd rfl (h2 c hc is)
          | _ => rfl
      | _ => rfl

theorem nesting_behindSlash (tree : GlobTree) : tree.behindSlash.nesting = tree.nesting := by
  fun_induction behindSlash tree with
  | case1 is ih => simp [GlobTree.nesting, GlobItem.nesting, ih]
  | case2 h is => simp [GlobTree.nesting, GlobItem.nesting]
  | case3 c h is hc => simp [GlobTree.nesting, GlobItem.nesting]
  | case4 is _ _ => simp [GlobTree.nesting, GlobItem.nesting]

theorem rangeFree_behindSlash (tree : GlobTree) : tree.behindSlash.rangeFree = tree.rangeFree := by
  fun_induction behindSlash tree with
  | case1 is ih => simp [GlobTree.rangeFree, GlobItem.rangeFree, ih]
  | case2 h is => simp [GlobTree.rangeFree, GlobItem.rangeFree]
  | case3 c h is hc => simp [GlobTree.rangeFree, GlobItem.rangeFree]
  | case4 is _ _ => simp [GlobTree.rangeFree, GlobItem.rangeFree]

theorem choicesOpen_behindSlash (tree : GlobTree) :
    tree.behindSlash.choicesOpen = tree.choicesOpen := by
  fun_induction behindSlash tree with
  | case1 is ih => simp [GlobTree.choicesOpen, GlobItem.choicesOpen, ih]
  | case2 h is => simp [GlobTree.choicesOpen, GlobItem.choicesOpen]
  | case3 c h is hc => simp [GlobTree.choicesOpen, GlobItem.choicesOpen]
  | case4 is _ _ => simp [GlobTree.choicesOpen, GlobItem.choicesOpen]

/-- **From its directory on, a tree is still well formed.** -/
theorem wellFormed_anchored {tree : GlobTree} (h : tree.WellFormed) : tree.anchored.WellFormed := by
  obtain ⟨hs, hn⟩ := h
  unfold anchored
  split_ifs
  · exact ⟨hs, hn⟩
  · exact ⟨separated_behindSlash hs, (nesting_behindSlash tree).symm ▸ hn⟩
  · refine ⟨?_, ?_⟩
    · simp only [GlobTree.separated, GlobItem.separated, Bool.true_and, Bool.and_eq_true]
      exact ⟨segments_mayPrecede tree, hs⟩
    · simpa [GlobTree.nesting, GlobItem.nesting] using hn

theorem rangeFree_anchored (tree : GlobTree) : tree.anchored.rangeFree = tree.rangeFree := by
  unfold anchored
  split_ifs
  · rfl
  · exact rangeFree_behindSlash tree
  · rfl

theorem choicesOpen_anchored (tree : GlobTree) : tree.anchored.choicesOpen = tree.choicesOpen := by
  unfold anchored
  split_ifs
  · rfl
  · exact choicesOpen_behindSlash tree
  · rfl

/-! ### The glob of a tree -/

theorem ofTokens?_tokens {tree : GlobTree} (hn : tree.nesting ≤ maxNesting) :
    Regex.ofTokens? tree.tokens = some tree.regex := by
  have hdepth := depth_regex_le tree
  have hmax : tree.regex.depth ≤ Regex.maxDepth := by
    unfold maxNesting at hn
    unfold Regex.maxDepth
    omega
  rw [Regex.ofTokens?, tree?_tokens, Option.filter_some, if_pos (decide_eq_true hmax)]

end GlobTree

namespace Glob

theorem accepts_iff {g : Glob} {path : Text} :
    g.accepts path = true ↔ ∃ u, path = g.directory ++ u ∧ g.regex.accepts u = true := by
  rw [accepts]
  split
  · next u hu =>
    rw [Text.after?_eq_some_iff.mp hu]
    simp
  · next hn =>
    simp only [Bool.false_eq_true, false_iff, not_exists, not_and]
    intro u hu
    rw [Text.after?_eq_some_iff.mpr hu] at hn
    simp at hn

/-- **A pattern that is the text of a tree has the expression of the tree.** -/
theorem ofPattern?_text {tree : GlobTree} (hw : tree.WellFormed) (ho : tree.choicesOpen = true)
    {pattern : Text} (hp : belowDirectory pattern = tree.text) (directory : Text) :
    ofPattern? directory pattern = some ⟨trimSlashes directory, tree.text, tree.regex⟩ := by
  rw [ofPattern?, hp, GlobTree.ofPattern_text hw.separated ho,
    GlobTree.ofTokens?_tokens hw.nesting_le, Option.map_some]

/-- The pattern has a regular expression, and applies to the paths below the directory that the tree
denotes. -/
def Means (directory pattern : Text) (tree : GlobTree) : Prop :=
  ∃ g, ofPattern? directory pattern = some g ∧
    ∀ path, g.accepts path = true ↔ ∃ u, path = trimSlashes directory ++ u ∧ tree.Denotes u

theorem means_of_belowDirectory {tree : GlobTree} (hw : tree.WellFormed)
    (hr : tree.rangeFree = true) {pattern : Text} (hp : belowDirectory pattern = tree.text)
    (directory : Text) : Means directory pattern tree := by
  have ho := GlobTree.choicesOpen_of_rangesLate (GlobTree.rangesLate_of_rangeFree hr)
  refine ⟨_, ofPattern?_text hw ho hp directory, fun path => ?_⟩
  rw [accepts_iff]
  simp only [Regex.accepts_iff_describes (GlobTree.catchesNone_regex hr), GlobTree.describes_regex]

/-- **The meaning of patterns.**  A pattern that is the text of a tree from its directory on applies to
what the tree denotes, and a pattern that is itself the text of a tree to what the anchored tree
denotes. -/
theorem accepts_iff_denotes {tree : GlobTree} (hw : tree.WellFormed) (hr : tree.rangeFree = true)
    (directory pattern : Text) :
    (belowDirectory pattern = tree.text → Means directory pattern tree) ∧
      (pattern = tree.text → Means directory pattern tree.anchored) := by
  refine ⟨fun hp => means_of_belowDirectory hw hr hp directory, ?_⟩
  rintro rfl
  exact means_of_belowDirectory (GlobTree.wellFormed_anchored hw)
    ((GlobTree.rangeFree_anchored tree).trans hr) (GlobTree.text_anchored tree).symm directory

/-- The tree of `/lib/**/x{[!\a-\c]*,}`. -/
def libraryTree : GlobTree :=
  [.plain '/' (by decide), .plain 'l' (by decide), .plain 'i' (by decide), .plain 'b' (by decide),
    .segments, .plain 'x' (by decide),
    .choice [.oneOf .bang (.interval 'a' 'c' (by decide)) [], .nameRun] [] []]

theorem accepts_iff_denotes_libraryTree :
    libraryTree.WellFormed ∧ libraryTree.rangeFree = true ∧
      belowDirectory "lib/**/x\x7b[!\\a-\\c]*,\x7d".toList = libraryTree.text ∧
      Means "/w/".toList "lib/**/x\x7b[!\\a-\\c]*,\x7d".toList libraryTree := by
  have hw : libraryTree.WellFormed := ⟨by decide, by decide⟩
  have hr : libraryTree.rangeFree = true := by decide
  have hp : belowDirectory "lib/**/x\x7b[!\\a-\\c]*,\x7d".toList = libraryTree.text := by decide
  exact ⟨hw, hr, hp, (accepts_iff_denotes hw hr _ _).1 hp⟩

end Glob

end EditorSettings
