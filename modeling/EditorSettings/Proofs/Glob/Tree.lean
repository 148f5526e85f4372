import EditorSettings.Glob.Basic

/-!
# Glob trees

The syntax of patterns as a tree, with the text in which a tree is written and the texts that it denotes.
A tree is a sequence of items; a choice has two or more branches, which are trees again.

* `tree.text` is the pattern, `tree.Denotes u` says that `u` is one of the texts that the pattern means.
* `tree.WellFormed`: no two stars stand side by side, no `**` stands between slashes (which would be
  read as any number of segments), and choices are nested at most `maxNesting` deep.
* `tree.rangeFree`, `tree.rangesLate`: no integer range at all, or none in the first branch of a choice.
* `tree.choicesOpen`: no integer range before the first comma of a choice.  Its closing brace would be
  taken for that of the choice.
-/

namespace EditorSettings

/-! ### Parts of items -/

/-- The characters with a meaning in patterns. -/
def Glob.markChars : Text := "\\*?[]\x7b\x7d,".toList

theorem Glob.ne_of_not_mem_markChars {c : Char} (h : c ∉ markChars) :
    c ≠ '\\' ∧ c ≠ '*' ∧ c ≠ '?' ∧ c ≠ '[' ∧ c ≠ ']' ∧ c ≠ '{' ∧ c ≠ '}' ∧ c ≠ ',' := by
  have he : markChars = ['\\', '*', '?', '[', ']', '{', '}', ','] := by decide
  simpa [he] using h

/-- How a class begins. -/
inductive ClassHead
  /-- `[`, for the characters that are listed. -/
  | listed
  /-- `[!`, for those that are not listed. -/
  | bang
  /-- `[^`, for those that are not listed. -/
  | caret
deriving DecidableEq, Repr

namespace ClassHead

/-- Whether the class stands for the characters that are not listed. -/
def negates : ClassHead → Bool
  | listed => false
  | bang => true
  | caret => true

/-- What is written behind the bracket. -/
def text : ClassHead → Text
  | listed => []
  | bang => ['!']
  | caret => ['^']

end ClassHead

/-- A member of a class. -/
inductive ClassMember
  /-- A character. -/
  | single (c : Char)
  /-- The characters from `first` to `last`. -/
  | interval (first last : Char) (ascends : first ≤ last)

namespace ClassMember

/-- A member as written, with a backslash before every character. -/
def text : ClassMember → Text
  | single c => ['\\', c]
  | interval a b _ => ['\\', a, '-', '\\', b]

/-- Whether a member lists a character. -/
def Lists : ClassMember → Char → Prop
  | single d, c => c = d
  | interval a b _, c => a ≤ c ∧ c ≤ b

end ClassMember

/-- An integer as written: an optional sign with digits, within 64 bits. -/
structure IntegerLiteral where
  /-- The sign and the digits. -/
  text : Text
  /-- The integer. -/
  value : Int
  /-- The text is read as the integer. -/
  reads : Text.int64? text = some value

/-! ### Items and trees -/

/-- An item of a tree. -/
inductive GlobItem
  /-- A character without a meaning of its own. -/
  | plain (c : Char) (ordinary : c ∉ Glob.markChars)
  /-- A character behind a backslash. -/
  | escaped (c : Char)
  /-- `?` -/
  | nameChar
  /-- `*` -/
  | nameRun
  /-- `**` -/
  | anyRun
  /-- Any number of segments, `/**/`. -/
  | segments
  /-- A class. -/
  | oneOf (head : ClassHead) (first : ClassMember) (others : List ClassMember)
  /-- The integers from one to another. -/
  | range (low high : IntegerLiteral)
  /-- A choice between branches. -/
  | choice (first second : List GlobItem) (others : List (List GlobItem))

/-- A sequence of items. -/
abbrev GlobTree := List GlobItem

/-! ### The text of a tree -/

mutual

/-- An item as written. -/
def GlobItem.text : GlobItem → Text
  | .plain c _ => [c]
  | .escaped c => ['\\', c]
  | .nameChar => ['?']
  | .nameRun => ['*']
  | .anyRun => ['*', '*']
  | .segments => ['/', '*', '*', '/']
  | .oneOf head first others =>
    '[' :: (head.text ++ ((first :: others).flatMap ClassMember.text ++ [']']))
  | .range low high => '{' :: (low.text ++ '.' :: '.' :: (high.text ++ ['}']))
  | .choice first second others =>
    '{' :: (GlobTree.text first ++ ',' :: (GlobTree.text second ++
      (GlobTree.furtherText others ++ ['}'])))

/-- A tree as written. -/
def GlobTree.text : GlobTree → Text
  | [] => []
  | i :: is => i.text ++ GlobTree.text is

/-- The further branches of a choice as written, a comma before each. -/
def GlobTree.furtherText : List GlobTree → Text
  | [] => []
  | t :: ts => ',' :: (GlobTree.text t ++ GlobTree.furtherText ts)

end

/-! ### What a tree denotes -/

mutual

/-- The item denotes the text. -/
def GlobItem.Denotes : GlobItem → Text → Prop
  | .plain c _, u => u = [c]
  | .escaped c, u => u = [c]
  | .nameChar, u => ∃ c, c ≠ '/' ∧ u = [c]
  | .nameRun, u => '/' ∉ u
  | .anyRun, _ => True
  | .segments, u => u = ['/'] ∨ ∃ s, u = '/' :: (s ++ ['/'])
  | .oneOf head first others, u =>
    ∃ c, (head.negates = true ↔ ¬ ∃ m ∈ first :: others, m.Lists c) ∧ u = [c]
  | .range low high, u => ∃ v : Int, low.value ≤ v ∧ v ≤ high.value ∧ u = Text.ofInt v
  | .choice first second others, u =>
    GlobTree.Denotes first u ∨ GlobTree.Denotes second u ∨ GlobTree.SomeDenotes others u

/-- The tree denotes the text: its items denote parts of it in order. -/
def GlobTree.Denotes : GlobTree → Text → Prop
  | [], u => u = []
  | i :: is, u => ∃ v w, u = v ++ w ∧ i.Denotes v ∧ GlobTree.Denotes is w

/-- One of the trees denotes the text. -/
def GlobTree.SomeDenotes : List GlobTree → Text → Prop
  | [], _ => False
  | t :: ts, u => GlobTree.Denotes t u ∨ GlobTree.SomeDenotes ts u

end

/-! ### Conditions on trees -/

namespace GlobItem

/-- `*` or `**`. -/
def isStar : GlobItem → Bool
  | nameRun => true
  | anyRun => true
  | _ => false

/-- A slash without a backslash. -/
def isSlash : GlobItem → Bool
  | plain c _ => c == '/'
  | _ => false

/-- An item that is written with a slash at its beginning. -/
def beginsWithSlash : GlobItem → Bool
  | plain c _ => c == '/'
  | segments => true
  | _ => false

/-- Whether an item may stand before others: not one star before another, and not a slash before `**`
with a slash behind it. -/
def mayPrecede (i : GlobItem) : GlobTree → Bool
  | [] => true
  | anyRun :: is => !i.isStar && !(i.isSlash && is.head?.any beginsWithSlash)
  | j :: _ => !(i.isStar && j.isStar)

end GlobItem

mutual

/-- All branches inside the item are separated. -/
def GlobItem.separated : GlobItem → Bool
  | .choice first second others =>
    GlobTree.separated first && GlobTree.separated second && GlobTree.allSeparated others
  | _ => true

/-- Every item of the tree, and inside it, may precede what follows it. -/
def GlobTree.separated : GlobTree → Bool
  | [] => true
  | i :: is => i.separated && i.mayPrecede is && GlobTree.separated is

/-- All of the trees are separated. -/
def GlobTree.allSeparated : List GlobTree → Bool
  | [] => true
  | t :: ts => GlobTree.separated t && GlobTree.allSeparated ts

end

mutual

/-- The depth of nesting of choices in an item. -/
def GlobItem.nesting : GlobItem → Nat
  | .choice first second others =>
    1 + max (GlobTree.nesting first) (max (GlobTree.nesting second) (GlobTree.maxNestingOf others))
  | _ => 0

/-- The depth of nesting of choices. -/
def GlobTree.nesting : GlobTree → Nat
  | [] => 0
  | i :: is => max i.nesting (GlobTree.nesting is)

/-- The greatest depth of nesting of some trees. -/
def GlobTree.maxNestingOf : List GlobTree → Nat
  | [] => 0
  | t :: ts => max (GlobTree.nesting t) (GlobTree.maxNestingOf ts)

end

mutual

/-- The item holds no integer range. -/
def GlobItem.rangeFree : GlobItem → Bool
  | .range _ _ => false
  | .choice first second others =>
    GlobTree.rangeFree first && GlobTree.rangeFree second && GlobTree.allRangeFree others
  | _ => true

/-- The tree holds no integer range. -/
def GlobTree.rangeFree : GlobTree → Bool
  | [] => true
  | i :: is => i.rangeFree && GlobTree.rangeFree is

/-- None of the trees holds an integer range. -/
def GlobTree.allRangeFree : List GlobTree → Bool
  | [] => true
  | t :: ts => GlobTree.rangeFree t && GlobTree.allRangeFree ts

end

mutual

/-- No first branch inside the item holds an integer range. -/
def GlobItem.rangesLate : GlobItem → Bool
  | .choice first second others =>
    GlobTree.rangeFree first && GlobTree.rangesLate second && GlobTree.allRangesLate others
  | _ => true

/-- No first branch of a choice holds an integer range. -/
def GlobTree.rangesLate : GlobTree → Bool
  | [] => true
  | i :: is => i.rangesLate && GlobTree.rangesLate is

/-- The same for all of the trees. -/
def GlobTree.allRangesLate : List GlobTree → Bool
  | [] => true
  | t :: ts => GlobTree.rangesLate t && GlobTree.allRangesLate ts

end

/-- A choice. -/
def GlobItem.isChoice : GlobItem → Bool
  | .choice _ _ _ => true
  | _ => false

mutual

/-- Read from the left, the item holds the closing brace of a range before any comma. -/
def GlobItem.closesBraces : GlobItem → Bool
  | .range _ _ => true
  | .choice first _ _ => GlobTree.closesBraces first
  | _ => false

/-- Read from the left, the tree holds the closing brace of a range before any comma. -/
def GlobTree.closesBraces : GlobTree → Bool
  | [] => false
  | i :: is => i.closesBraces || (!i.isChoice && GlobTree.closesBraces is)

end

mutual

/-- No range comes before the first comma of a choice in the item. -/
def GlobItem.choicesOpen : GlobItem → Bool
  | .choice first second others =>
    !GlobTree.closesBraces first && GlobTree.choicesOpen first && GlobTree.choicesOpen second &&
      GlobTree.allChoicesOpen others
  | _ => true

/-- No range comes before the first comma of a choice. -/
def GlobTree.choicesOpen : GlobTree → Bool
  | [] => true
  | i :: is => i.choicesOpen && GlobTree.choicesOpen is

/-- The same for all of the trees. -/
def GlobTree.allChoicesOpen : List GlobTree → Bool
  | [] => true
  | t :: ts => GlobTree.choicesOpen t && GlobTree.allChoicesOpen ts

end

namespace GlobTree

/-- How deep the choices of a tree may be nested. -/
def maxNesting : Nat := 60

/-- A tree whose text is read as it is meant. -/
structure WellFormed (tree : GlobTree) : Prop where
  /-- No star stands next to another, and no `**` between slashes. -/
  separated : tree.separated = true
  /-- Choices are not nested too deep. -/
  nesting_le : tree.nesting ≤ maxNesting

end GlobTree

/-! ### Ranges -/

mutual

theorem GlobItem.rangesLate_of_rangeFree : ∀ {i : GlobItem}, i.rangeFree = true →
    i.rangesLate = true
  | .plain _ _, _ => rfl
  | .escaped _, _ => rfl
  | .nameChar, _ => rfl
  | .nameRun, _ => rfl
  | .anyRun, _ => rfl
  | .segments, _ => rfl
  | .oneOf _ _ _, _ => rfl
  | .range _ _, _ => rfl
  | .choice first second others, h => by
    simp only [GlobItem.rangeFree, Bool.and_eq_true] at h
    simp only [GlobItem.rangesLate, Bool.and_eq_true]
    exact ⟨⟨h.1.1, GlobTree.rangesLate_of_rangeFree h.1.2⟩,
      GlobTree.allRangesLate_of_allRangeFree h.2⟩

theorem GlobTree.rangesLate_of_rangeFree : ∀ {tree : GlobTree},
    GlobTree.rangeFree tree = true → GlobTree.rangesLate tree = true
  | [], _ => rfl
  | i :: is, h => by
    simp only [GlobTree.rangeFree, Bool.and_eq_true] at h
    simp only [GlobTree.rangesLate, Bool.and_eq_true]
    exact ⟨GlobItem.rangesLate_of_rangeFree h.1, GlobTree.rangesLate_of_rangeFree h.2⟩

theorem GlobTree.allRangesLate_of_allRangeFree : ∀ {trees : List GlobTree},
    GlobTree.allRangeFree trees = true → GlobTree.allRangesLate trees = true
  | [], _ => rfl
  | t :: ts, h => by
    simp only [GlobTree.allRangeFree, Bool.and_eq_true] at h
    simp only [GlobTree.allRangesLate, Bool.and_eq_true]
    exact ⟨GlobTree.rangesLate_of_rangeFree h.1, GlobTree.allRangesLate_of_allRangeFree h.2⟩

end

mutual

theorem GlobItem.closesBraces_of_rangeFree : ∀ {i : GlobItem}, i.rangeFree = true →
    i.closesBraces = false
  | .plain _ _, _ => rfl
  | .escaped _, _ => rfl
  | .nameChar, _ => rfl
  | .nameRun, _ => rfl
  | .anyRun, _ => rfl
  | .segments, _ => rfl
  | .oneOf _ _ _, _ => rfl
  | .range _ _, h => by simp [GlobItem.rangeFree] at h
  | .choice first second others, h => by
    simp only [GlobItem.rangeFree, Bool.and_eq_true] at h
    exact GlobTree.closesBraces_of_rangeFree h.1.1

theorem GlobTree.closesBraces_of_rangeFree : ∀ {tree : GlobTree}, GlobTree.rangeFree tree = true →
    GlobTree.closesBraces tree = false
  | [], _ => rfl
  | i :: is, h => by
    simp only [GlobTree.rangeFree, Bool.and_eq_true] at h
    simp [GlobTree.closesBraces, GlobItem.closesBraces_of_rangeFree h.1,
      GlobTree.closesBraces_of_rangeFree h.2]

end

mutual

theorem GlobItem.choicesOpen_of_rangesLate : ∀ {i : GlobItem}, i.rangesLate = true →
    i.choicesOpen = true
  | .plain _ _, _ => rfl
  | .escaped _, _ => rfl
  | .nameChar, _ => rfl
  | .nameRun, _ => rfl
  | .anyRun, _ => rfl
  | .segments, _ => rfl
  | .oneOf _ _ _, _ => rfl
  | .range _ _, _ => rfl
  | .choice first second others, h => by
    simp only [GlobItem.rangesLate, Bool.and_eq_true] at h
    simp only [GlobItem.choicesOpen, Bool.and_eq_true, Bool.not_eq_true']
    exact ⟨⟨⟨GlobTree.closesBraces_of_rangeFree h.1.1,
      GlobTree.choicesOpen_of_rangesLate (GlobTree.rangesLate_of_rangeFree h.1.1)⟩,
      GlobTree.choicesOpen_of_rangesLate h.1.2⟩, GlobTree.allChoicesOpen_of_allRangesLate h.2⟩

/-- **Ranges outside of first branches** leave all choices open. -/
theorem GlobTree.choicesOpen_of_rangesLate : ∀ {tree : GlobTree},
    GlobTree.rangesLate tree = true → GlobTree.choicesOpen tree = true
  | [], _ => rfl
  | i :: is, h => by
    simp only [GlobTree.rangesLate, Bool.and_eq_true] at h
    simp only [GlobTree.choicesOpen, Bool.and_eq_true]
    exact ⟨GlobItem.choicesOpen_of_rangesLate h.1, GlobTree.choicesOpen_of_rangesLate h.2⟩

theorem GlobTree.allChoicesOpen_of_allRangesLate : ∀ {trees : List GlobTree},
    GlobTree.allRangesLate trees = true → GlobTree.allChoicesOpen trees = true
  | [], _ => rfl
  | t :: ts, h => by
    simp only [GlobTree.allRangesLate, Bool.and_eq_true] at h
    simp only [GlobTree.allChoicesOpen, Bool.and_eq_true]
    exact ⟨GlobTree.choicesOpen_of_rangesLate h.1, GlobTree.allChoicesOpen_of_allRangesLate h.2⟩

end

end EditorSettings
