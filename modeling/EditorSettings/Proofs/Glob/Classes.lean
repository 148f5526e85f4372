import EditorSettings.Proofs.Glob.Tree

/-!
# Written classes

A class whose members are written with backslashes is read as it is meant: the text behind the opening
bracket gives the members (`ofText?_text`), the members give the intervals (`reading?_members`), and the
intervals hold the characters that the members list (`lists_intervals_iff`).
-/

namespace EditorSettings

namespace ClassMember

/-- A member as it is found in a pattern. -/
def members : ClassMember → List BracketMember
  | single c => [⟨c, true⟩]
  | interval a b _ => [⟨a, true⟩, ⟨'-', false⟩, ⟨b, true⟩]

/-- The first and the last character that a member lists. -/
def bounds : ClassMember → Char × Char
  | single c => (c, c)
  | interval a b _ => (a, b)

theorem lists_iff {c : Char} : ∀ {m : ClassMember}, m.Lists c ↔ m.bounds.1 ≤ c ∧ c ≤ m.bounds.2
  | single d => by
    simp only [Lists, bounds]
    constructor
    · rintro rfl
      exact ⟨Nat.le_refl c.toNat, Nat.le_refl c.toNat⟩
    · rintro ⟨h1, h2⟩
      exact Char.le_antisymm h2 h1
  | interval _ _ _ => Iff.rfl

variable (ms : List ClassMember)

/-- No raw hyphen stands at the beginning: the first character has a backslash. -/
theorem isHyphen_of_head? {m : BracketMember} (h : (ms.flatMap members).head? = some m) :
    m.isHyphen = false := by
  match ms with
  | [] => simp at h
  | single c :: ms =>
    simp only [List.flatMap_cons, members, List.cons_append, List.head?_cons, Option.some.injEq] at h
    simp [← h, BracketMember.isHyphen]
  | interval a b _ :: ms =>
    simp only [List.flatMap_cons, members, List.cons_append, List.head?_cons, Option.some.injEq] at h
    simp [← h, BracketMember.isHyphen]

end ClassMember

namespace Bracket

/-! ### Members in a row -/

/-- A member with no hyphen behind it stands alone. -/
theorem isOrdered_cons {m : BracketMember} {ms : List BracketMember}
    (h : ∀ h ∈ ms.head?, h.isHyphen = false) : isOrdered (m :: ms) = isOrdered ms := by
  match ms with
  | [] => simp [isOrdered]
  | [_] => simp [isOrdered]
  | h' :: b :: ms =>
    have := h h' (by simp)
    rw [isOrdered, this]
    simp

/-- A member with no hyphen behind it lists itself. -/
theorem unions?_cons {m : BracketMember} {ms : List BracketMember}
    (h : ∀ h ∈ ms.head?, h.isHyphen = false) :
    unions? (m :: ms) = (unions? ms).map fun r => ((m.char, m.char) :: r.1, r.2) := by
  match ms with
  | [] => simp [unions?]
  | h' :: ms =>
    have := h h' (by simp)
    rw [unions?.eq_def]
    simp [this]

/-- Without a hyphen at the beginning, the unions are the reading. -/
theorem reading?_of_head? {ms : List BracketMember} (h : ∀ m ∈ ms.head?, m.isHyphen = false) :
    reading? ms = (unions? ms).map fun r => ⟨r.1, r.2⟩ := by
  cases ms with
  | nil => rfl
  | cons m ms =>
    have := h m (by simp)
    simp [reading?, this]

variable (ms : List ClassMember)

theorem isOrdered_members : ∀ ms : List ClassMember, isOrdered (ms.flatMap ClassMember.members) = true
  | [] => by simp [isOrdered]
  | .single c :: ms => by
    rw [List.flatMap_cons, ClassMember.members, List.singleton_append,
      isOrdered_cons fun h hh => ClassMember.isHyphen_of_head? ms hh]
    exact isOrdered_members ms
  | .interval a b hab :: ms => by
    rw [List.flatMap_cons, ClassMember.members]
    simp only [List.cons_append, List.nil_append]
    rw [isOrdered, isOrdered_members ms]
    simp [BracketMember.isHyphen, hab]

theorem unions?_members : ∀ ms : List ClassMember,
    unions? (ms.flatMap ClassMember.members) = some (ms.map ClassMember.bounds, [])
  | [] => by simp [unions?]
  | .single c :: ms => by
    rw [List.flatMap_cons, ClassMember.members, List.singleton_append,
      unions?_cons fun h hh => ClassMember.isHyphen_of_head? ms hh, unions?_members ms]
    rfl
  | .interval a b hab :: ms => by
    rw [List.flatMap_cons, ClassMember.members]
    simp only [List.cons_append, List.nil_append]
    rw [unions?, unions?_members ms]
    simp [BracketMember.isHyphen, hab, ClassMember.bounds]

/-- **The members list their intervals.** -/
theorem reading?_members :
    reading? (ms.flatMap ClassMember.members) = some ⟨ms.map ClassMember.bounds, []⟩ := by
  rw [reading?_of_head? fun m hm => ClassMember.isHyphen_of_head? ms hm, unions?_members]
  rfl

/-- The intervals hold what the members list. -/
theorem lists_intervals_iff {c : Char} :
    (BracketReading.mk (ms.map ClassMember.bounds) []).lists c = true ↔ ∃ m ∈ ms, m.Lists c := by
  simp only [BracketReading.lists, Bracket.inUnion, List.any_nil, Bool.not_false, Bool.and_true,
    List.any_map, List.any_eq_true, Function.comp_apply, Bool.and_eq_true, decide_eq_true_eq,
    ClassMember.lists_iff]

/-! ### Members as text -/

theorem members?_text (rest : Text) : ∀ ms : List ClassMember,
    members? (ms.flatMap ClassMember.text ++ ']' :: rest) =
      some (ms.flatMap ClassMember.members, rest)
  | [] => by simp [members?]
  | .single c :: ms => by
    simp only [List.flatMap_cons, ClassMember.text, ClassMember.members, List.cons_append,
      List.nil_append]
    rw [members?, members?_text rest ms]
    rfl
  | .interval a b _ :: ms => by
    simp only [List.flatMap_cons, ClassMember.text, ClassMember.members, List.cons_append,
      List.nil_append]
    rw [members?, members?.eq_6 _ _ (by simp) (by simp) (by simp) (by simp), members?,
      members?_text rest ms]
    rfl

theorem splitNegation_text (head : ClassHead) (t : Text) :
    splitNegation (head.text ++ '\\' :: t) = (head.negates, '\\' :: t) := by
  cases head <;> rfl

/-- **A written class is found**, with its members and the text behind it. -/
theorem ofText?_text (head : ClassHead) (first : ClassMember) (others : List ClassMember)
    (rest : Text) :
    ofText? (head.text ++ ((first :: others).flatMap ClassMember.text ++ ']' :: rest)) =
      some (⟨head.negates, (first :: others).flatMap ClassMember.members⟩, rest) := by
  obtain ⟨t, ht⟩ : ∃ t, (first :: others).flatMap ClassMember.text = '\\' :: t := by
    cases first <;> exact ⟨_, rfl⟩
  have hne : (first :: others).flatMap ClassMember.members ≠ [] := by
    cases first <;> simp [ClassMember.members]
  have hsplit : splitNegation (head.text ++ ((first :: others).flatMap ClassMember.text ++
      ']' :: rest)) = (head.negates, (first :: others).flatMap ClassMember.text ++ ']' :: rest) := by
    rw [ht, List.cons_append, splitNegation_text]
  rw [ofText?, hsplit, members?_text]
  simp only
  rw [if_pos ⟨hne, isOrdered_members _⟩]

end Bracket

end EditorSettings
