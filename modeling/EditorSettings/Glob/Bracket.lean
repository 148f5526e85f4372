import EditorSettings.Text.Basic

/-!
# Bracket classes

A class `[...]` of a pattern lists characters and intervals of characters; after `!` or `^` it stands for
the characters that are not listed.  Hyphens are read as follows.

* Hyphens at the beginning are listed themselves.
* Two hyphens in a row later on take what follows out of what stands before (`Reading`).
* A hyphen between two members makes an interval, if it is not written with a backslash.
* Any other hyphen is listed.
-/

namespace EditorSettings

/-- A member of a class as written. -/
structure BracketMember where
  /-- The character. -/
  char : Char
  /-- Whether a backslash is before it. -/
  escaped : Bool
deriving DecidableEq, Repr

/-- A class as written. -/
structure Bracket where
  /-- Whether the class stands for the characters that are not listed. -/
  negated : Bool
  /-- The members in order. -/
  members : List BracketMember
deriving DecidableEq, Repr

/-- What a class lists: unions of closed intervals, the later ones taken out of the first one. -/
structure BracketReading where
  /-- The intervals that are listed. -/
  listed : List (Char × Char)
  /-- The unions of intervals that are taken out, in order. -/
  removed : List (List (Char × Char))
deriving DecidableEq, Repr

namespace BracketMember

/-- Whether a member is a hyphen that may make an interval. -/
def isHyphen (m : BracketMember) : Bool := m.char == '-' && !m.escaped

end BracketMember

namespace Bracket

/-! ### Finding a class in a pattern -/

/-- The members up to the closing bracket, and the text behind it.  A slash without a backslash or the
end of the text means that there is no class. -/
def members? : Text → Option (List BracketMember × Text)
  | [] => none
  | ['\\'] => none
  | '\\' :: c :: t => (members? t).map fun r => (⟨c, true⟩ :: r.1, r.2)
  | '/' :: _ => none
  | ']' :: t => some ([], t)
  | c :: t => (members? t).map fun r => (⟨c, false⟩ :: r.1, r.2)

/-- Whether every interval is ascending, three members with a hyphen in the middle being taken as an
interval from left to right. -/
def isOrdered : List BracketMember → Bool
  | a :: h :: b :: ms =>
    if h.isHyphen then decide (a.char ≤ b.char) && isOrdered ms else isOrdered (h :: b :: ms)
  | _ => true
termination_by ms => ms.length

/-- Whether a character after the opening bracket negates the class. -/
def isNegation (c : Char) : Bool := c == '!' || c == '^'

/-- A text without a leading negation, and whether there was one. -/
def splitNegation : Text → Bool × Text
  | [] => (false, [])
  | c :: t => if isNegation c then (true, t) else (false, c :: t)

/-- The class that begins behind an opening bracket, and the text behind it.  A class has members, and
its intervals ascend. -/
def ofText? (t : Text) : Option (Bracket × Text) :=
  match members? (splitNegation t).2 with
  | none => none
  | some (ms, rest) =>
    if ms ≠ [] ∧ isOrdered ms then some (⟨(splitNegation t).1, ms⟩, rest) else none

theorem length_of_members? {t rest : Text} {ms : List BracketMember}
    (h : members? t = some (ms, rest)) : rest.length < t.length := by
  fun_induction members? t generalizing ms rest with
  | case1 => simp at h
  | case2 => simp at h
  | case3 c t ih =>
    obtain ⟨⟨ms', rest'⟩, hr, he⟩ := Option.map_eq_some_iff.mp h
    obtain ⟨-, rfl⟩ := Prod.mk.inj he
    have := ih hr
    simp only [List.length_cons]
    omega
  | case4 => simp at h
  | case5 t =>
    obtain ⟨-, rfl⟩ := Prod.mk.inj (Option.some.inj h)
    simp
  | case6 c t _ _ _ _ ih =>
    obtain ⟨⟨ms', rest'⟩, hr, he⟩ := Option.map_eq_some_iff.mp h
    obtain ⟨-, rfl⟩ := Prod.mk.inj he
    have := ih hr
    simp only [List.length_cons]
    omega

theorem length_splitNegation (t : Text) : (splitNegation t).2.length ≤ t.length := by
  unfold splitNegation
  split
  · exact Nat.le_refl _
  · split
    · simp
    · exact Nat.le_refl _

theorem length_of_ofText? {t rest : Text} {b : Bracket} (h : ofText? t = some (b, rest)) :
    rest.length < t.length := by
  unfold ofText? at h
  have hn := length_splitNegation t
  split at h
  · exact absurd h (by simp)
  · next ms rest' hm =>
    have := length_of_members? hm
    split at h
    · obtain ⟨-, rfl⟩ := Prod.mk.inj (Option.some.inj h)
      omega
    · exact absurd h (by simp)

/-! ### What a class lists -/

/-- The unions of intervals behind the hyphens at the beginning, the first one and the later ones; none
if an interval descends. -/
def unions? (ms : List BracketMember) : Option (List (Char × Char) × List (List (Char × Char))) :=
  match ms with
  | [] => some ([], [])
  | [m] => some ([(m.char, m.char)], [])
  | m :: h :: ms =>
    if h.isHyphen then
      if m.isHyphen then (unions? ms).map fun r => ([], r.1 :: r.2)
      else
        match ms with
        | [] => some ([(m.char, m.char), (h.char, h.char)], [])
        | b :: rest =>
          if b.isHyphen then (unions? (h :: b :: rest)).map fun r => ((m.char, m.char) :: r.1, r.2)
          else if m.char ≤ b.char then (unions? rest).map fun r => ((m.char, b.char) :: r.1, r.2)
          else none
    else (unions? (h :: ms)).map fun r => ((m.char, m.char) :: r.1, r.2)
termination_by ms.length

/-- What the members list; none if an interval descends. -/
def reading? (ms : List BracketMember) : Option BracketReading :=
  (unions? (ms.dropWhile (·.isHyphen))).map fun r =>
    ⟨(ms.takeWhile (·.isHyphen)).map (fun m => (m.char, m.char)) ++ r.1, r.2⟩

/-- Whether a character is in a union of intervals. -/
def inUnion (u : List (Char × Char)) (c : Char) : Bool :=
  u.any fun i => decide (i.1 ≤ c) && decide (c ≤ i.2)

end Bracket

namespace BracketReading

/-- Whether a character is listed. -/
def lists (r : BracketReading) (c : Char) : Bool :=
  Bracket.inUnion r.listed c && !r.removed.any fun u => Bracket.inUnion u c

/-- The depth of a union: two intervals or more lie one level below it. -/
def unionDepth (u : List (Char × Char)) : Nat := if u.length < 2 then 0 else 1

/-- The depth of nesting inside the class: every removal puts what stands before it one level down. -/
def depth (r : BracketReading) : Nat :=
  r.removed.foldl (fun d u => 1 + max d (unionDepth u)) (unionDepth r.listed)

end BracketReading

example : (Bracket.ofText? "a-c--b]x".toList) = some (⟨false, [⟨'a', false⟩, ⟨'-', false⟩, ⟨'c', false⟩,
    ⟨'-', false⟩, ⟨'-', false⟩, ⟨'b', false⟩]⟩, ['x']) := by decide +kernel

example : Bracket.reading? [⟨'a', false⟩, ⟨'-', false⟩, ⟨'c', false⟩, ⟨'-', false⟩, ⟨'-', false⟩,
    ⟨'b', false⟩] = some ⟨[('a', 'c')], [[('b', 'b')]]⟩ := by decide +kernel

end EditorSettings
