import EditorSettings.Glob.Bracket
import EditorSettings.Glob.IntegerRange

/-!
# Tokens of a pattern

A pattern is read from left to right as a list of tokens.

* `?` is one character of a name, `*` a run of them, `**` any run, and `/**/` any number of segments.
* A backslash takes the special meaning from the next character.
* `[...]` is a class (`Bracket.ofText?`).
* Braces without a comma are an integer range or stand for themselves, and their inside is a pattern of
  its own.  Braces with a comma are an alternation, if the braces of the whole pattern balance.

Every token has a regular expression text, `Token.source`; that of a pattern is made of them in order.
-/

namespace EditorSettings

/-- A token of a pattern. -/
inductive Token
  /-- A character that stands for itself. -/
  | literal (c : Char)
  /-- One character other than a slash. -/
  | nameChar
  /-- Any characters other than slashes. -/
  | nameRun
  /-- Any characters. -/
  | anyRun
  /-- A slash, or two slashes with anything between them. -/
  | segments
  /-- One character of a class. -/
  | bracket (b : Bracket)
  /-- An integer in a range. -/
  | integer (r : IntegerRange)
  /-- The beginning of an alternation. -/
  | openGroup
  /-- The end of a branch before another one. -/
  | nextBranch
  /-- The end of an alternation. -/
  | closeGroup
deriving DecidableEq, Repr

namespace Token

/-! ### Braces -/

/-- Whether the braces without a backslash balance, `depth` of them being open. -/
def closesFrom : Nat → Text → Bool
  | depth, [] => depth == 0
  | depth, ['\\'] => depth == 0
  | depth, '\\' :: _ :: t => closesFrom depth t
  | depth, '{' :: t => closesFrom (depth + 1) t
  | 0, '}' :: _ => false
  | depth + 1, '}' :: t => closesFrom depth t
  | depth, _ :: t => closesFrom depth t

/-- Whether the braces without a backslash balance. -/
def closes (t : Text) : Bool := closesFrom 0 t

/-- The inside of braces without a comma, and the text behind them.  A backslash takes the meaning from
the next character. -/
def wordGroup? : Text → Option (Text × Text)
  | [] => none
  | ['\\'] => none
  | '\\' :: c :: t => (wordGroup? t).map fun r => ('\\' :: c :: r.1, r.2)
  | ',' :: _ => none
  | '}' :: t => some ([], t)
  | c :: t => (wordGroup? t).map fun r => (c :: r.1, r.2)

theorem eq_append_of_wordGroup? {t inside rest : Text} (h : wordGroup? t = some (inside, rest)) :
    t = inside ++ '}' :: rest := by
  fun_induction wordGroup? t generalizing inside rest with
  | case1 => simp at h
  | case2 => simp at h
  | case3 c t ih =>
    obtain ⟨⟨inside', rest'⟩, hr, he⟩ := Option.map_eq_some_iff.mp h
    obtain ⟨rfl, rfl⟩ := Prod.mk.inj he
    simp [ih hr]
  | case4 => simp at h
  | case5 t =>
    obtain ⟨rfl, rfl⟩ := Prod.mk.inj (Option.some.inj h)
    rfl
  | case6 c t _ _ _ _ ih =>
    obtain ⟨⟨inside', rest'⟩, hr, he⟩ := Option.map_eq_some_iff.mp h
    obtain ⟨rfl, rfl⟩ := Prod.mk.inj he
    simp [ih hr]

theorem length_of_wordGroup? {t inside rest : Text} (h : wordGroup? t = some (inside, rest)) :
    inside.length < t.length ∧ rest.length < t.length := by
  rw [eq_append_of_wordGroup? h]
  simp only [List.length_append, List.length_cons]
  omega

/-! ### Scanning -/

/-- The tokens of a text inside `depth` alternations.  `alternates` says whether braces with a comma are
alternations. -/
def scan (alternates : Bool) (depth : Nat) (t : Text) : List Token :=
  match t with
  | [] => []
  | ['\\'] => [literal '\\']
  | '\\' :: c :: t => literal c :: scan alternates depth t
  | '*' :: '*' :: t => anyRun :: scan alternates depth t
  | '*' :: t => nameRun :: scan alternates depth t
  | '?' :: t => nameChar :: scan alternates depth t
  | '[' :: t =>
    match _h : Bracket.ofText? t with
    | some (b, rest) => bracket b :: scan alternates depth rest
    | none => literal '[' :: scan alternates depth t
  | '{' :: t =>
    match _h : wordGroup? t with
    | some (inside, rest) =>
      match IntegerRange.ofText? inside with
      | some r => integer r :: scan alternates depth rest
      | none =>
        literal '{' :: scan (closes inside) 0 inside ++ literal '}' :: scan alternates depth rest
    | none =>
      if alternates then openGroup :: scan alternates (depth + 1) t
      else literal '{' :: scan alternates depth t
  | ',' :: t => (if depth = 0 then literal ',' else nextBranch) :: scan alternates depth t
  | '}' :: t => (if depth = 0 then literal '}' else closeGroup) :: scan alternates (depth - 1) t
  | '/' :: '*' :: '*' :: '/' :: t => segments :: scan alternates depth t
  | c :: t => literal c :: scan alternates depth t
termination_by t.length
decreasing_by
  all_goals
    simp only [List.length_cons]
    first
    | omega
    | have hlt := Bracket.length_of_ofText? _h
      omega
    | have hlt := length_of_wordGroup? _h
      omega

/-- The tokens of a pattern. -/
def ofPattern (pattern : Text) : List Token := scan (closes pattern) 0 pattern

/-! ### Regular expression texts -/

/-- The characters with a meaning in regular expressions. -/
def specialChars : Text := "\\.+*?()|[]\x7b\x7d^$#&-~".toList

/-- A character as a regular expression that matches it. -/
def escaped (c : Char) : Text := if c ∈ specialChars then ['\\', c] else [c]

/-- A member of a class in a regular expression. -/
def memberSource (m : BracketMember) : Text := if m.isHyphen then ['-'] else escaped m.char

/-- The regular expression of a token. -/
def source : Token → Text
  | literal c => escaped c
  | nameChar => "[^/]".toList
  | nameRun => "[^/]*".toList
  | anyRun => ".*".toList
  | segments => "(?:/|/.*/)".toList
  | bracket b => (if b.negated then "[^".toList else ['[']) ++ b.members.flatMap memberSource ++ [']']
  | integer _ => "([+\\-]?\\d+)".toList
  | openGroup => "(?:".toList
  | nextBranch => ['|']
  | closeGroup => [')']

/-- The regular expression of some tokens, without anchors. -/
def sourceOf (ts : List Token) : Text := ts.flatMap source

theorem sourceOf_cons (k : Token) (ts : List Token) : sourceOf (k :: ts) = k.source ++ sourceOf ts := rfl

/-- The range of an integer token. -/
def range? : Token → Option IntegerRange
  | integer r => some r
  | _ => none

/-- The integer ranges of some tokens in order, one for each capturing group. -/
def rangesOf (ts : List Token) : List IntegerRange := ts.filterMap range?

end Token

end EditorSettings
