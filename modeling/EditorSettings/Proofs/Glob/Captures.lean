import EditorSettings.Proofs.Glob.Pieces
import Mathlib.Data.List.Forall2

/-!
# Capturing groups and ranges

The expression text of a pattern is read on its own here, as text: what is behind a backslash or in a class
is passed over, and every other opening parenthesis begins a group (`Regex.groups`).  A group is capturing
unless a question mark follows its parenthesis (`Regex.captures`).

Tokens are read one by one: the text of a token holds a group only if it begins with it
(`Regex.groups_source_append`), and only that of an integer is capturing.  So the capturing groups of a
pattern and its ranges correspond from left to right, and each of the groups stands where the braces around
the bounds of its range are read (`Regex.captures_ofPattern`).
-/

namespace EditorSettings

open Token

namespace Regex

/-! ### Groups of an expression text -/

/-- The groups of an expression text, each with all that follows it; `inClass` says whether the text begins
inside of a class. -/
def groupsFrom : Bool → Text → List Text
  | _, [] => []
  | _, ['\\'] => []
  | inClass, '\\' :: _ :: t => groupsFrom inClass t
  | true, ']' :: t => groupsFrom false t
  | true, _ :: t => groupsFrom true t
  | false, '[' :: t => groupsFrom true t
  | false, '(' :: t => ('(' :: t) :: groupsFrom false t
  | false, _ :: t => groupsFrom false t

/-- The groups of an expression text from left to right, each with all that follows it. -/
def groups (source : Text) : List Text := groupsFrom false source

/-- Whether a group is capturing. -/
def isCapturing (group : Text) : Bool := !"(?".toList.isPrefixOf group

/-- The capturing groups of an expression text from left to right, each with all that follows it. -/
def captures (source : Text) : List Text := (groups source).filter isCapturing

theorem groupsFrom_pair (inClass : Bool) (c : Char) (t : Text) :
    groupsFrom inClass ('\\' :: c :: t) = groupsFrom inClass t := by
  cases inClass <;> rfl

theorem groupsFrom_class_cons {c : Char} (hb : c ≠ '\\') (hc : c ≠ ']') (t : Text) :
    groupsFrom true (c :: t) = groupsFrom true t := by
  rw [groupsFrom] <;> intros <;> contradiction

theorem groups_cons {c : Char} (hb : c ≠ '\\') (ho : c ≠ '[') (hp : c ≠ '(') (t : Text) :
    groups (c :: t) = groups t := by
  rw [groups, groupsFrom] <;> intros <;> first | rfl | contradiction

/-! ### The text of a token -/

/-- A character that stands for itself begins no group. -/
theorem groups_escaped (c : Char) (t : Text) : groups (escaped c ++ t) = groups t := by
  unfold escaped
  split
  · exact groupsFrom_pair false c t
  · next h =>
    have hne : c ≠ '\\' ∧ c ≠ '[' ∧ c ≠ '(' := by
      refine ⟨?_, ?_, ?_⟩ <;> rintro rfl <;> exact h (by decide)
    exact groups_cons hne.1 hne.2.1 hne.2.2 t

/-- A member of a class is written as a backslash and a character, or as a character that neither ends the
class nor takes the meaning from another one. -/
theorem memberSource_cases (m : BracketMember) :
    memberSource m = ['\\', m.char] ∨ ∃ c, memberSource m = [c] ∧ c ≠ '\\' ∧ c ≠ ']' := by
  unfold memberSource
  split
  · exact .inr ⟨'-', rfl, by decide, by decide⟩
  · unfold escaped
    split
    · exact .inl rfl
    · next h =>
      refine .inr ⟨m.char, rfl, ?_, ?_⟩ <;> intro he <;> rw [he] at h <;> exact h (by decide)

theorem groupsFrom_memberSource (m : BracketMember) (t : Text) :
    groupsFrom true (memberSource m ++ t) = groupsFrom true t := by
  rcases memberSource_cases m with hm | ⟨c, hm, hb, hc⟩
  · rw [hm]
    exact groupsFrom_pair true m.char t
  · rw [hm]
    exact groupsFrom_class_cons hb hc t

/-- The members of a class begin no group, and none of them ends the class. -/
theorem groupsFrom_members (t : Text) : ∀ ms : List BracketMember,
    groupsFrom true (ms.flatMap memberSource ++ ']' :: t) = groups t
  | [] => rfl
  | m :: ms => by
    rw [List.flatMap_cons, List.append_assoc, groupsFrom_memberSource, groupsFrom_members t ms]

theorem source_bracket (b : Bracket) (t : Text) : (Token.bracket b).source ++ t =
    (if b.negated then ['[', '^'] else ['[']) ++ (b.members.flatMap memberSource ++ ']' :: t) := by
  have h : (Token.bracket b).source =
      (if b.negated then ['[', '^'] else ['[']) ++ b.members.flatMap memberSource ++ [']'] := rfl
  rw [h, List.append_assoc, List.append_assoc, List.singleton_append]

theorem groups_bracket (b : Bracket) (t : Text) : groups ((Token.bracket b).source ++ t) = groups t := by
  rw [source_bracket]
  split
  · exact (groupsFrom_class_cons (by decide) (by decide) _).trans (groupsFrom_members t b.members)
  · exact groupsFrom_members t b.members

/-- Whether the text of a token begins a group. -/
def beginsGroup : Token → Bool
  | .segments | .integer _ | .openGroup => true
  | _ => false

/-- **The text of a token holds a group only at its beginning.** -/
theorem groups_source_append (k : Token) (t : Text) :
    groups (k.source ++ t) = (if beginsGroup k then [k.source ++ t] else []) ++ groups t := by
  cases k with
  | literal c => exact groups_escaped c t
  | bracket b => exact groups_bracket b t
  | _ => rfl

/-- Only the group of an integer is capturing. -/
theorem isCapturing_source_append {k : Token} (hk : beginsGroup k = true) (t : Text) :
    isCapturing (k.source ++ t) = k.range?.isSome := by
  cases k with
  | segments => rfl
  | integer r => rfl
  | openGroup => rfl
  | _ => cases hk

/-- A group that does not capture is of the form `(?:...)`. -/
theorem prefix_of_not_isCapturing {k : Token} (hk : beginsGroup k = true) {t : Text}
    (h : isCapturing (k.source ++ t) = false) : "(?:".toList <+: k.source ++ t := by
  cases k with
  | segments => exact ⟨_, rfl⟩
  | integer r => cases h
  | openGroup => exact ⟨_, rfl⟩
  | _ => cases hk

theorem captures_sourceOf_cons (k : Token) (ts : List Token) :
    captures (sourceOf (k :: ts)) =
      (k.range?.map fun _ => sourceOf (k :: ts)).toList ++ captures (sourceOf ts) := by
  rw [sourceOf_cons, captures, groups_source_append, List.filter_append]
  congr 1
  cases hk : beginsGroup k with
  | true =>
    rw [if_pos rfl, List.filter_singleton, isCapturing_source_append hk]
    cases k.range? <;> rfl
  | false =>
    cases k with
    | integer r => cases hk
    | _ => rfl

/-! ### The groups of a pattern -/

/-- Every group of some tokens that does not capture is of the form `(?:...)`. -/
theorem prefix_of_mem_groups : ∀ {ts : List Token} {g : Text}, g ∈ groups (sourceOf ts) →
    isCapturing g = false → "(?:".toList <+: g
  | [], _, hg, _ => absurd hg List.not_mem_nil
  | k :: ts, g, hg, h => by
    rw [sourceOf_cons, groups_source_append, List.mem_append] at hg
    rcases hg with hg | hg
    · split at hg
      · next hk =>
        obtain rfl := List.mem_singleton.mp hg
        exact prefix_of_not_isCapturing hk h
      · exact absurd hg List.not_mem_nil
    · exact prefix_of_mem_groups hg h

/-- The group, with all that follows it, stands in the expression text of a pattern for braces around the
bounds of the range: the tokens before it are read from what stands before these braces, and the tokens
behind it from what stands behind them. -/
def StandsFor (pattern group : Text) (r : IntegerRange) : Prop :=
  ∃ before inside after us vs, pattern = before ++ ('{' :: (inside ++ ['}']) ++ after) ∧
    IntegerRange.ofText? inside = some r ∧ ofPattern pattern = us ++ .integer r :: vs ∧
    AreReadFrom us before ∧ AreReadFrom vs after ∧ group = sourceOf (.integer r :: vs)

theorem standsFor_of_ofPattern {pattern : Text} {us vs : List Token} {r : IntegerRange}
    (h : ofPattern pattern = us ++ .integer r :: vs) :
    StandsFor pattern (sourceOf (.integer r :: vs)) r := by
  have hread : AreReadFrom (us ++ .integer r :: vs) pattern :=
    h ▸ areReadFrom_scan (closes pattern) 0 pattern
  obtain ⟨before, p, after, hp, hus, ⟨inside, rfl, hr⟩, hvs⟩ := hread.split (by simp)
  exact ⟨before, inside, after, us, vs, hp, hr, h, hus, hvs, rfl⟩

/-- The last tokens of a pattern, from the tokens `us` on. -/
theorem forall₂_captures {pattern : Text} : ∀ {vs us : List Token}, ofPattern pattern = us ++ vs →
    List.Forall₂ (StandsFor pattern) (captures (sourceOf vs)) (rangesOf vs)
  | [], _, _ => .nil
  | k :: vs, us, h => by
    have hnext : ofPattern pattern = (us ++ [k]) ++ vs := by rw [h, List.append_assoc, List.singleton_append]
    have ih := forall₂_captures hnext
    rw [captures_sourceOf_cons, rangesOf, List.filterMap_cons]
    cases k with
    | integer r => exact .cons (standsFor_of_ofPattern h) ih
    | _ => exact ih

/-- Every capturing group is that of an integer. -/
theorem prefix_of_mem_captures : ∀ {ts : List Token} {g : Text}, g ∈ captures (sourceOf ts) →
    "([+\\-]?\\d+)".toList <+: g
  | [], _, hg => absurd hg List.not_mem_nil
  | k :: ts, g, hg => by
    rw [captures_sourceOf_cons, List.mem_append] at hg
    rcases hg with hg | hg
    · cases k with
      | integer r =>
        obtain rfl := List.mem_singleton.mp hg
        exact ⟨sourceOf ts, rfl⟩
      | _ => exact absurd hg List.not_mem_nil
    · exact prefix_of_mem_captures hg

/-- **Capturing groups and ranges correspond**: from left to right, each capturing group of the expression
text of a pattern stands for the braces around the bounds of one range.  It is the group of an integer, and
no other group captures. -/
theorem captures_ofPattern (pattern : Text) :
    List.Forall₂ (StandsFor pattern) (captures (sourceOf (ofPattern pattern)))
        (rangesOf (ofPattern pattern)) ∧
      (∀ g ∈ captures (sourceOf (ofPattern pattern)), "([+\\-]?\\d+)".toList <+: g) ∧
      ∀ g ∈ groups (sourceOf (ofPattern pattern)), isCapturing g = false → "(?:".toList <+: g :=
  ⟨forall₂_captures (List.nil_append _).symm, fun _ => prefix_of_mem_captures, fun _ => prefix_of_mem_groups⟩

end Regex

end EditorSettings
