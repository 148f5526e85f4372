import EditorSettings.Glob.Token

/-!
# Regular expressions of patterns

The tree of a list of tokens.  An alternation is a group around its branches, and the tokens between two
marks of an alternation are matched one after the other.

* `Regex.ofTokens?` builds the tree.  There is none if an alternation is not closed, if a class holds a
  descending interval, or if the tree is nested too deeply.
* `Regex.depth` is the depth of nesting: every sequence of two or more parts, every choice, group,
  repetition and class counts one.
-/

namespace EditorSettings

/-! ### Character sets -/

/-- The characters that one place of a text may hold. -/
inductive CharSet
  /-- A single character. -/
  | only (c : Char)
  /-- All characters but the slash. -/
  | notSlash
  /-- All characters. -/
  | every
  /-- The characters that a class lists, or those that it does not list. -/
  | bracket (negated : Bool) (reading : BracketReading)
deriving DecidableEq, Repr

namespace CharSet

/-- Whether a character is in the set. -/
def holds : CharSet → Char → Bool
  | only d, c => c == d
  | notSlash, c => c != '/'
  | every, _ => true
  | bracket negated reading, c => reading.lists c != negated

/-- The depth of nesting of a set. -/
def depth : CharSet → Nat
  | only _ => 0
  | notSlash => 1
  | every => 0
  | bracket _ reading => 1 + reading.depth

end CharSet

/-! ### Trees -/

/-- The regular expressions that patterns need. -/
inductive Regex
  /-- The empty text. -/
  | empty
  /-- One character of a set. -/
  | one (s : CharSet)
  /-- Any number of characters of a set. -/
  | many (s : CharSet)
  /-- An optional sign and digits, caught for a range. -/
  | integer (r : IntegerRange)
  /-- One expression, then another. -/
  | seq (a b : Regex)
  /-- One expression, or else another. -/
  | alt (a b : Regex)
  /-- An expression in parentheses. -/
  | group (a : Regex)
deriving DecidableEq, Repr

namespace Regex

/-- One expression, then another, an empty first one being left out. -/
def andThen : Regex → Regex → Regex
  | empty, b => b
  | a, b => seq a b

/-- The expression of any number of segments. -/
def segmentsRegex : Regex :=
  group (alt (one (.only '/')) (seq (seq (one (.only '/')) (many .every)) (one (.only '/'))))

/-- The depth of nesting of an integer: a group, a sequence, a repetition, a class and its members. -/
def integerDepth : Nat := 5

/-- The depth of nesting of an expression as a part of a longer sequence (`inSeq`) or of a choice with
more branches (`inAlt`). -/
def depthIn (inSeq inAlt : Bool) : Regex → Nat
  | empty => 0
  | one s => s.depth
  | many s => 1 + s.depth
  | integer _ => integerDepth
  | seq a b =>
    let d := max (depthIn true false a) (depthIn true false b)
    if inSeq then d else 1 + d
  | alt a b =>
    let d := max (depthIn false true a) (depthIn false true b)
    if inAlt then d else 1 + d
  | group a => 1 + depthIn false false a

/-- The greatest depth of nesting of a regular expression. -/
def maxDepth : Nat := 250

/-- The depth of nesting of an expression between the anchors and behind the text of a directory: the
outer sequence, the group around the expression, and the sequence in it. -/
def depth (r : Regex) : Nat := 3 + depthIn true false r

/-! ### From tokens -/

/-- An alternation that is being read: the branches before, if any, and the current one. -/
structure Level where
  /-- The choice between the branches before. -/
  before : Option Regex
  /-- The current branch so far. -/
  current : Regex
deriving DecidableEq, Repr

/-- An alternation without tokens. -/
def Level.start : Level := ⟨none, empty⟩

/-- The choice between all branches. -/
def Level.close (l : Level) : Regex :=
  match l.before with
  | none => l.current
  | some a => alt a l.current

/-- The level after a further part of the current branch. -/
def Level.add (l : Level) (r : Regex) : Level := { l with current := l.current.andThen r }

/-- The expression of a token that is no mark of an alternation. -/
def part? : Token → Option Regex
  | .literal c => some (one (.only c))
  | .nameChar => some (one .notSlash)
  | .nameRun => some (many .notSlash)
  | .anyRun => some (many .every)
  | .segments => some segmentsRegex
  | .bracket b => (Bracket.reading? b.members).map fun r => one (.bracket b.negated r)
  | .integer r => some (integer r)
  | _ => none

/-- The innermost level and the levels around it, after one more token. -/
def step (levels : Level × List Level) (t : Token) : Option (Level × List Level) :=
  match t with
  | .openGroup => some (Level.start, levels.1 :: levels.2)
  | .nextBranch => some (⟨some levels.1.close, empty⟩, levels.2)
  | .closeGroup =>
    match levels.2 with
    | [] => none
    | outer :: others => some (outer.add (group levels.1.close), others)
  | t => (part? t).map fun r => (levels.1.add r, levels.2)

/-- The levels after some tokens. -/
def run (levels : Level × List Level) : List Token → Option (Level × List Level)
  | [] => some levels
  | t :: ts =>
    match step levels t with
    | some levels => run levels ts
    | none => none

/-- The expression of some tokens, however deep. -/
def tree? (ts : List Token) : Option Regex :=
  match run (Level.start, []) ts with
  | some (level, []) => some level.close
  | _ => none

/-- The expression of some tokens. -/
def ofTokens? (ts : List Token) : Option Regex := (tree? ts).filter fun r => decide (r.depth ≤ maxDepth)

end Regex

end EditorSettings
