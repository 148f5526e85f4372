import EditorSettings.Proofs.Glob.Classes
import EditorSettings.Proofs.Glob.Integers
import Mathlib.Data.Nat.Notation

/-!
# Scanning a written tree

The scanner reads the text of a tree from left to right and finds the tokens of the tree
(`GlobTree.ofPattern_text`).  Three things could go wrong, and each has its condition.

* A star or a slash joins what follows it: the tree is separated, and what follows the tree is the end
  of a branch (`BranchEnd`).
* Braces are taken as literal because a closing brace comes before the first comma: the choices of the
  tree are open, so the first brace in the first branch of a choice, if any, is that of a choice, and a
  comma comes first (`GlobTree.wordGroup?_text`).
* Braces do not balance: those of a tree do (`GlobTree.closesFrom_text`).
-/

namespace EditorSettings

/-! ### The tokens of a tree -/

mutual

/-- The tokens of an item. -/
def GlobItem.tokens : GlobItem → List Token
  | .plain c _ => [.literal c]
  | .escaped c => [.literal c]
  | .nameChar => [.nameChar]
  | .nameRun => [.nameRun]
  | .anyRun => [.anyRun]
  | .segments => [.segments]
  | .oneOf head first others =>
    [.bracket ⟨head.negates, (first :: others).flatMap ClassMember.members⟩]
  | .range low high => [.integer ⟨low.value, high.value⟩]
  | .choice first second others =>
    .openGroup :: (GlobTree.tokens first ++ .nextBranch :: (GlobTree.tokens second ++
      (GlobTree.furtherTokens others ++ [.closeGroup])))

/-- The tokens of a tree. -/
def GlobTree.tokens : GlobTree → List Token
  | [] => []
  | i :: is => i.tokens ++ GlobTree.tokens is

/-- The tokens of the further branches of a choice. -/
def GlobTree.furtherTokens : List GlobTree → List Token
  | [] => []
  | t :: ts => .nextBranch :: (GlobTree.tokens t ++ GlobTree.furtherTokens ts)

end

namespace Token

/-! ### Braces of a tree -/

/-- The characters that the search for balanced braces looks at. -/
def isBraceMark (c : Char) : Bool := c == '\\' || c == '{' || c == '}'

/-- The characters that the search for the end of a group looks at. -/
def isGroupMark (c : Char) : Bool := c == '\\' || c == ',' || c == '}'

theorem closesFrom_cons {c : Char} (h : isBraceMark c = false) (d : ℕ) (t : Text) :
    closesFrom d (c :: t) = closesFrom d t := by
  simp only [isBraceMark, Bool.or_eq_false_iff, beq_eq_false_iff_ne] at h
  obtain ⟨⟨hb, ho⟩, hc⟩ := h
  rw [closesFrom] <;> intros <;> contradiction

theorem closesFrom_append {u : Text} (hu : ∀ c ∈ u, c ∉ Glob.markChars) (d : ℕ) (t : Text) :
    closesFrom d (u ++ t) = closesFrom d t := by
  induction u with
  | nil => rfl
  | cons c u ih =>
    have hne := Glob.ne_of_not_mem_markChars (hu c List.mem_cons_self)
    have hc : isBraceMark c = false := by simp [isBraceMark, hne]
    rw [List.cons_append, closesFrom_cons hc, ih fun e he => hu e (List.mem_cons_of_mem c he)]

theorem wordGroup?_cons {c : Char} (h : isGroupMark c = false) (t : Text) :
    wordGroup? (c :: t) = (wordGroup? t).map fun r => (c :: r.1, r.2) := by
  simp only [isGroupMark, Bool.or_eq_false_iff, beq_eq_false_iff_ne] at h
  obtain ⟨⟨hb, hm⟩, hc⟩ := h
  rw [wordGroup?] <;> intros <;> contradiction

theorem wordGroup?_cons_eq_none {c : Char} (hc : isGroupMark c = false) {t : Text}
    (h : wordGroup? t = none) : wordGroup? (c :: t) = none := by
  rw [wordGroup?_cons hc, h, Option.map_none]

/-- Ordinary characters up to a closing brace are a group of their own. -/
theorem wordGroup?_append {u : Text} (hu : ∀ c ∈ u, c ∉ Glob.markChars) (t : Text) :
    wordGroup? (u ++ '}' :: t) = some (u, t) := by
  induction u with
  | nil => rfl
  | cons c u ih =>
    have hne := Glob.ne_of_not_mem_markChars (hu c List.mem_cons_self)
    have hc : isGroupMark c = false := by simp [isGroupMark, hne]
    rw [List.cons_append, wordGroup?_cons hc, ih fun e he => hu e (List.mem_cons_of_mem c he)]
    rfl

end Token

theorem closesFrom_members (d : ℕ) (t : Text) : ∀ ms : List ClassMember,
    Token.closesFrom d (ms.flatMap ClassMember.text ++ t) = Token.closesFrom d t
  | [] => rfl
  | .single c :: ms => by
    simp only [List.flatMap_cons, ClassMember.text, List.cons_append, List.nil_append,
      Token.closesFrom]
    exact closesFrom_members d t ms
  | .interval a b _ :: ms => by
    simp only [List.flatMap_cons, ClassMember.text, List.cons_append, List.nil_append]
    rw [Token.closesFrom, Token.closesFrom_cons rfl, Token.closesFrom]
    exact closesFrom_members d t ms

mutual

theorem GlobItem.closesFrom_text : ∀ (i : GlobItem) (d : ℕ) (t : Text),
    Token.closesFrom d (i.text ++ t) = Token.closesFrom d t
  | .plain c hc, d, t => Token.closesFrom_append (u := [c]) (by simpa using hc) d t
  | .escaped c, d, t => by simp [GlobItem.text, Token.closesFrom]
  | .nameChar, d, t => by simp [GlobItem.text, Token.closesFrom]
  | .nameRun, d, t => by simp [GlobItem.text, Token.closesFrom]
  | .anyRun, d, t => by simp [GlobItem.text, Token.closesFrom]
  | .segments, d, t => by simp [GlobItem.text, Token.closesFrom]
  | .oneOf head first others, d, t => by
    have hhead : ∀ t, Token.closesFrom d (head.text ++ t) = Token.closesFrom d t := by
      intro t
      cases head with
      | listed => rfl
      | bang => exact Token.closesFrom_cons rfl d t
      | caret => exact Token.closesFrom_cons rfl d t
    simp only [GlobItem.text, List.cons_append, List.append_assoc, List.nil_append]
    rw [Token.closesFrom_cons rfl, hhead, closesFrom_members,
      Token.closesFrom_cons rfl]
  | .range low high, d, t => by
    have h := Token.closesFrom_append (ordinary_range low high) (d + 1) ('}' :: t)
    simp only [List.append_assoc, List.cons_append, Token.closesFrom] at h
    simpa [GlobItem.text, Token.closesFrom] using h
  | .choice first second others, d, t => by
    simp only [GlobItem.text, List.cons_append, List.append_assoc, List.nil_append]
    rw [Token.closesFrom, GlobTree.closesFrom_text first,
      Token.closesFrom_cons rfl, GlobTree.closesFrom_text second,
      GlobTree.closesFrom_furtherText others, Token.closesFrom]

/-- **The braces of a tree balance.** -/
theorem GlobTree.closesFrom_text : ∀ (tree : GlobTree) (d : ℕ) (t : Text),
    Token.closesFrom d (tree.text ++ t) = Token.closesFrom d t
  | [], _, _ => rfl
  | i :: is, d, t => by
    rw [GlobTree.text, List.append_assoc, GlobItem.closesFrom_text i, GlobTree.closesFrom_text is]

theorem GlobTree.closesFrom_furtherText : ∀ (trees : List GlobTree) (d : ℕ) (t : Text),
    Token.closesFrom d (GlobTree.furtherText trees ++ t) = Token.closesFrom d t
  | [], _, _ => rfl
  | tree :: trees, d, t => by
    rw [GlobTree.furtherText, List.cons_append, List.append_assoc,
      Token.closesFrom_cons rfl, GlobTree.closesFrom_text tree, GlobTree.closesFrom_furtherText trees]

end

/-! ### A comma before a closing brace -/

theorem wordGroup?_members {t : Text} (h : Token.wordGroup? t = none) : ∀ ms : List ClassMember,
    Token.wordGroup? (ms.flatMap ClassMember.text ++ t) = none
  | [] => h
  | .single c :: ms => by
    simp only [List.flatMap_cons, ClassMember.text, List.cons_append, List.nil_append]
    rw [Token.wordGroup?, wordGroup?_members h ms, Option.map_none]
  | .interval a b _ :: ms => by
    simp only [List.flatMap_cons, ClassMember.text, List.cons_append, List.nil_append]
    have hms := wordGroup?_members h ms
    have hlast : Token.wordGroup? ('\\' :: b :: (ms.flatMap ClassMember.text ++ t)) = none := by
      rw [Token.wordGroup?, hms, Option.map_none]
    rw [Token.wordGroup?, Token.wordGroup?_cons_eq_none rfl hlast, Option.map_none]

mutual

/-- Behind a choice nothing matters, since its comma ends the search. -/
theorem GlobItem.wordGroup?_text : ∀ {i : GlobItem}, i.closesBraces = false → ∀ {t : Text},
    (i.isChoice = false → Token.wordGroup? t = none) → Token.wordGroup? (i.text ++ t) = none
  | .plain c hc, _, t, h => by
    have hne := Glob.ne_of_not_mem_markChars hc
    have hmark : Token.isGroupMark c = false := by simp [Token.isGroupMark, hne]
    exact Token.wordGroup?_cons_eq_none hmark (h rfl)
  | .escaped c, _, t, h => by simp [GlobItem.text, Token.wordGroup?, h rfl]
  | .nameChar, _, t, h => by simp [GlobItem.text, Token.wordGroup?, h rfl]
  | .nameRun, _, t, h => by simp [GlobItem.text, Token.wordGroup?, h rfl]
  | .anyRun, _, t, h => by simp [GlobItem.text, Token.wordGroup?, h rfl]
  | .segments, _, t, h => by simp [GlobItem.text, Token.wordGroup?, h rfl]
  | .oneOf head first others, _, t, h => by
    have hclose : Token.wordGroup? (']' :: t) = none := Token.wordGroup?_cons_eq_none rfl (h rfl)
    have hhead : ∀ {t : Text}, Token.wordGroup? t = none →
        Token.wordGroup? (head.text ++ t) = none := by
      intro t ht
      cases head with
      | listed => exact ht
      | bang => exact Token.wordGroup?_cons_eq_none rfl ht
      | caret => exact Token.wordGroup?_cons_eq_none rfl ht
    simp only [GlobItem.text, List.cons_append, List.append_assoc, List.nil_append]
    exact Token.wordGroup?_cons_eq_none rfl (hhead (wordGroup?_members hclose _))
  | .range _ _, hr, _, _ => by simp [GlobItem.closesBraces] at hr
  | .choice first second others, hr, t, _ => by
    rw [GlobItem.closesBraces] at hr
    simp only [GlobItem.text, List.cons_append, List.append_assoc]
    exact Token.wordGroup?_cons_eq_none rfl
      (GlobTree.wordGroup?_text hr (by rw [Token.wordGroup?]))

/-- **Without a range before the first comma**, no closing brace comes before a comma. -/
theorem GlobTree.wordGroup?_text : ∀ {tree : GlobTree}, tree.closesBraces = false → ∀ {t : Text},
    Token.wordGroup? t = none → Token.wordGroup? (tree.text ++ t) = none
  | [], _, _, h => h
  | i :: is, hr, t, h => by
    simp only [GlobTree.closesBraces, Bool.or_eq_false_iff, Bool.and_eq_false_iff,
      Bool.not_eq_false'] at hr
    rw [GlobTree.text, List.append_assoc]
    refine GlobItem.wordGroup?_text hr.1 fun hi => GlobTree.wordGroup?_text ?_ h
    exact hr.2.resolve_left (by simp [hi])

end

/-! ### What follows an item -/

/-- The end of a branch, or of the pattern. -/
def BranchEnd : Text → Prop
  | [] => True
  | c :: _ => c = ',' ∨ c = '}'

/-- The text does not join the item before it. -/
def GlobItem.ReadBefore (i : GlobItem) (t : Text) : Prop :=
  (i = .nameRun → ∀ s, t ≠ '*' :: s) ∧ (i.isSlash = true → ∀ s, t ≠ '*' :: '*' :: '/' :: s)

theorem branchEnd_comma (t : Text) : BranchEnd (',' :: t) := Or.inl rfl

theorem branchEnd_furtherText (trees : List GlobTree) (t : Text) :
    BranchEnd (GlobTree.furtherText trees ++ '}' :: t) := by
  cases trees with
  | nil => exact Or.inr rfl
  | cons tree trees => exact Or.inl rfl

theorem GlobItem.isStar_of_text {i : GlobItem} {t s : Text} (h : i.text ++ t = '*' :: s) :
    i.isStar = true := by
  cases i with
  | plain c hc =>
    obtain ⟨rfl, -⟩ := List.cons.inj h
    exact absurd (by decide) hc
  | nameRun => rfl
  | anyRun => rfl
  | _ => simp [GlobItem.text] at h

theorem GlobItem.beginsWithSlash_of_text {i : GlobItem} {t s : Text} (h : i.text ++ t = '/' :: s) :
    i.beginsWithSlash = true := by
  cases i with
  | plain c hc =>
    obtain ⟨rfl, -⟩ := List.cons.inj h
    rfl
  | segments => rfl
  | _ => simp [GlobItem.text] at h

/-- Behind a star, the text of a separated tree does not begin with a star. -/
theorem GlobTree.ne_star_cons {i : GlobItem} (hi : i.isStar = true) {is : GlobTree}
    (hp : i.mayPrecede is = true) {t : Text} (ht : BranchEnd t) (s : Text) :
    GlobTree.text is ++ t ≠ '*' :: s := by
  intro h
  cases is with
  | nil =>
    rw [GlobTree.text, List.nil_append] at h
    subst h
    rcases ht with ht | ht <;> exact absurd ht (by decide)
  | cons j is =>
    rw [GlobTree.text, List.append_assoc] at h
    have hj := GlobItem.isStar_of_text h
    cases j <;> simp_all [GlobItem.mayPrecede, GlobItem.isStar]

/-- Behind a slash, it does not begin with two stars and a slash. -/
theorem GlobTree.ne_stars_slash_cons {i : GlobItem} (hi : i.isSlash = true) {is : GlobTree}
    (hp : i.mayPrecede is = true) (hs : GlobTree.separated is = true) {t : Text} (ht : BranchEnd t)
    (s : Text) : GlobTree.text is ++ t ≠ '*' :: '*' :: '/' :: s := by
  intro h
  cases is with
  | nil =>
    rw [GlobTree.text, List.nil_append] at h
    subst h
    rcases ht with ht | ht <;> exact absurd ht (by decide)
  | cons j is =>
    simp only [GlobTree.separated, Bool.and_eq_true] at hs
    rw [GlobTree.text, List.append_assoc] at h
    have hj := GlobItem.isStar_of_text h
    cases j with
    | nameRun => exact GlobTree.ne_star_cons rfl hs.1.2 ht _ (List.cons.inj h).2
    | anyRun =>
      simp only [GlobItem.text, List.cons_append, List.nil_append, List.cons.injEq, true_and] at h
      cases is with
      | nil =>
        rw [GlobTree.text, List.nil_append] at h
        subst h
        rcases ht with ht | ht <;> exact absurd ht (by decide)
      | cons k is =>
        rw [GlobTree.text, List.append_assoc] at h
        have hk := GlobItem.beginsWithSlash_of_text h
        simp [GlobItem.mayPrecede, hi, hk] at hp
    | _ => simp [GlobItem.isStar] at hj

theorem GlobTree.readBefore {i : GlobItem} {is : GlobTree} (hp : i.mayPrecede is = true)
    (hs : GlobTree.separated is = true) {t : Text} (ht : BranchEnd t) :
    i.ReadBefore (GlobTree.text is ++ t) := by
  constructor
  · rintro rfl
    exact GlobTree.ne_star_cons rfl hp ht
  · intro hi
    exact GlobTree.ne_stars_slash_cons hi hp hs ht

/-! ### Scanning -/

namespace Token

/-- A character without a meaning stands for itself, a slash if no two stars and a slash follow. -/
theorem scan_cons_of_ne {c : Char} (hb : c ≠ '\\') (hs : c ≠ '*') (hq : c ≠ '?') (hl : c ≠ '[')
    (ho : c ≠ '{') (hm : c ≠ ',') (hr : c ≠ '}') {t : Text}
    (ht : c = '/' → ∀ s, t ≠ '*' :: '*' :: '/' :: s) (alternates : Bool) (d : ℕ) :
    scan alternates d (c :: t) = literal c :: scan alternates d t := by
  rw [scan] <;> intros <;> first | contradiction | exact ht ‹_› _ ‹_›

theorem scan_cons {c : Char} (hc : c ∉ Glob.markChars) {t : Text}
    (ht : c = '/' → ∀ s, t ≠ '*' :: '*' :: '/' :: s) (alternates : Bool) (d : ℕ) :
    scan alternates d (c :: t) = literal c :: scan alternates d t := by
  obtain ⟨hb, hs, hq, ho, -, hl, hr, hm⟩ := Glob.ne_of_not_mem_markChars hc
  exact scan_cons_of_ne hb hs hq ho hl hm hr ht alternates d

theorem scan_nameRun {t : Text} (ht : ∀ s, t ≠ '*' :: s) (alternates : Bool) (d : ℕ) :
    scan alternates d ('*' :: t) = nameRun :: scan alternates d t := by
  rw [scan]
  exact ht

theorem scan_bracket {t rest : Text} {b : Bracket} (h : Bracket.ofText? t = some (b, rest))
    (alternates : Bool) (d : ℕ) :
    scan alternates d ('[' :: t) = bracket b :: scan alternates d rest := by
  rw [scan]
  split
  · next h' =>
    rw [h] at h'
    obtain ⟨rfl, rfl⟩ := Prod.mk.inj (Option.some.inj h')
    rfl
  · next h' => simp [h] at h'

theorem scan_integer {t inside rest : Text} {r : IntegerRange}
    (h : wordGroup? t = some (inside, rest)) (hr : IntegerRange.ofText? inside = some r)
    (alternates : Bool) (d : ℕ) :
    scan alternates d ('{' :: t) = integer r :: scan alternates d rest := by
  rw [scan]
  split
  · next h' =>
    rw [h] at h'
    obtain ⟨rfl, rfl⟩ := Prod.mk.inj (Option.some.inj h')
    rw [hr]
  · next h' => simp [h] at h'

theorem scan_openGroup {t : Text} (h : wordGroup? t = none) (d : ℕ) :
    scan true d ('{' :: t) = openGroup :: scan true (d + 1) t := by
  rw [scan]
  split
  · next h' => simp [h] at h'
  · simp

theorem scan_nextBranch (alternates : Bool) (d : ℕ) (t : Text) :
    scan alternates (d + 1) (',' :: t) = nextBranch :: scan alternates (d + 1) t := by
  simp [scan]

theorem scan_closeGroup (alternates : Bool) (d : ℕ) (t : Text) :
    scan alternates (d + 1) ('}' :: t) = closeGroup :: scan alternates d t := by
  simp [scan]

end Token

open Token (scan)

mutual

theorem GlobItem.scan_text : ∀ {i : GlobItem}, i.separated = true → i.choicesOpen = true →
    ∀ (d : ℕ) {t : Text}, i.ReadBefore t → scan true d (i.text ++ t) = i.tokens ++ scan true d t
  | .plain c hc, _, _, d, t, hn =>
    Token.scan_cons hc (fun h => hn.2 (by simpa [GlobItem.isSlash] using h)) true d
  | .escaped c, _, _, d, t, _ => by simp [GlobItem.text, GlobItem.tokens, scan]
  | .nameChar, _, _, d, t, _ => by simp [GlobItem.text, GlobItem.tokens, scan]
  | .nameRun, _, _, d, t, hn => Token.scan_nameRun (hn.1 rfl) true d
  | .anyRun, _, _, d, t, _ => by simp [GlobItem.text, GlobItem.tokens, scan]
  | .segments, _, _, d, t, _ => by simp [GlobItem.text, GlobItem.tokens, scan]
  | .oneOf head first others, _, _, d, t, _ => by
    have h := Bracket.ofText?_text head first others t
    simp only [GlobItem.text, List.cons_append, List.append_assoc, List.nil_append]
    rw [Token.scan_bracket h, GlobItem.tokens, List.singleton_append]
  | .range low high, _, _, d, t, _ => by
    have h := Token.wordGroup?_append (ordinary_range low high) t
    simp only [List.cons_append, List.append_assoc] at h
    simp only [GlobItem.text, List.cons_append, List.append_assoc, List.nil_append]
    rw [Token.scan_integer h (ofText?_range low high), GlobItem.tokens, List.singleton_append]
  | .choice first second others, hs, hl, d, t, _ => by
    simp only [GlobItem.separated, Bool.and_eq_true] at hs
    simp only [GlobItem.choicesOpen, Bool.and_eq_true, Bool.not_eq_true'] at hl
    have hopen : ∀ s, Token.wordGroup? (GlobTree.text first ++ ',' :: s) = none := fun s =>
      GlobTree.wordGroup?_text hl.1.1.1 (by rw [Token.wordGroup?])
    simp only [GlobItem.text, GlobItem.tokens, List.cons_append, List.append_assoc, List.nil_append]
    rw [Token.scan_openGroup (hopen _),
      GlobTree.scan_text hs.1.1 hl.1.1.2 (d + 1) (branchEnd_comma _),
      Token.scan_nextBranch,
      GlobTree.scan_text hs.1.2 hl.1.2 (d + 1) (branchEnd_furtherText others t),
      GlobTree.scan_furtherText hs.2 hl.2 d t, Token.scan_closeGroup]

/-- **The scanner finds the tokens of a tree.** -/
theorem GlobTree.scan_text : ∀ {tree : GlobTree}, tree.separated = true → tree.choicesOpen = true →
    ∀ (d : ℕ) {t : Text}, BranchEnd t →
      scan true d (tree.text ++ t) = tree.tokens ++ scan true d t
  | [], _, _, _, _, _ => rfl
  | i :: is, hs, hl, d, t, ht => by
    simp only [GlobTree.separated, Bool.and_eq_true] at hs
    simp only [GlobTree.choicesOpen, Bool.and_eq_true] at hl
    rw [GlobTree.text, GlobTree.tokens, List.append_assoc, List.append_assoc,
      GlobItem.scan_text hs.1.1 hl.1 d (GlobTree.readBefore hs.1.2 hs.2 ht),
      GlobTree.scan_text hs.2 hl.2 d ht]

theorem GlobTree.scan_furtherText : ∀ {trees : List GlobTree}, GlobTree.allSeparated trees = true →
    GlobTree.allChoicesOpen trees = true → ∀ (d : ℕ) (t : Text),
      scan true (d + 1) (GlobTree.furtherText trees ++ '}' :: t) =
        GlobTree.furtherTokens trees ++ scan true (d + 1) ('}' :: t)
  | [], _, _, _, _ => rfl
  | tree :: trees, hs, hl, d, t => by
    simp only [GlobTree.allSeparated, Bool.and_eq_true] at hs
    simp only [GlobTree.allChoicesOpen, Bool.and_eq_true] at hl
    simp only [GlobTree.furtherText, GlobTree.furtherTokens, List.cons_append, List.append_assoc]
    rw [Token.scan_nextBranch,
      GlobTree.scan_text hs.1 hl.1 (d + 1) (branchEnd_furtherText trees t),
      GlobTree.scan_furtherText hs.2 hl.2 d t]

end

/-- **The text of a tree is read as its tokens.** -/
theorem GlobTree.ofPattern_text {tree : GlobTree} (hs : tree.separated = true)
    (hl : tree.choicesOpen = true) : Token.ofPattern tree.text = tree.tokens := by
  have hcloses : Token.closes tree.text = true := by
    have := GlobTree.closesFrom_text tree 0 []
    rw [List.append_nil] at this
    rw [Token.closes, this]
    rfl
  have h := GlobTree.scan_text hs hl 0 (t := []) trivial
  rw [Token.ofPattern, hcloses]
  simpa [scan] using h

end EditorSettings
