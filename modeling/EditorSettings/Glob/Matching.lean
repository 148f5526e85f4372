import EditorSettings.Glob.Regex
import EditorSettings.Text.Digit

/-!
# Matching

How a regular expression matches a text, and the integers that it catches.  Of several ways to match,
the first one counts: branches in order, and repetitions as long as possible.

* `Regex.splits r t` lists, in order, the ways in which `r` matches a beginning of `t`: what is caught,
  and the rest of the text.
* `Regex.answers r t k` finds for every suffix of `t` the first way to match followed by an answer of
  the continuation `k`, which is given for every suffix as well.  It visits each part of `r` once per
  suffix, where following the ways one by one could take exponentially many steps.
* `catches?_eq` says that the two agree.
-/

namespace EditorSettings

/-- What the integers of an expression catch, in order. -/
abbrev Catches := List (IntegerRange × Text)

namespace Regex

/-! ### Ways to match a beginning -/

/-- The beginnings of a text that consist of characters with a property, the longest first, with their
rests. -/
def runs (p : Char → Bool) : Text → List (Text × Text)
  | [] => [([], [])]
  | c :: t => if p c then (runs p t).map (fun r => (c :: r.1, r.2)) ++ [([], c :: t)] else [([], c :: t)]

/-- The beginnings of a text that consist of one or more digits, the longest first, with their rests. -/
def digitRuns : Text → List (Text × Text)
  | [] => []
  | c :: t => if Text.isDecimalDigit c then (runs Text.isDecimalDigit t).map fun r => (c :: r.1, r.2) else []

/-- The signs of an integer. -/
def isSign (c : Char) : Bool := c == '+' || c == '-'

/-- The beginnings of a text that are an optional sign with digits, the longest first, with their
rests. -/
def integerRuns : Text → List (Text × Text)
  | [] => []
  | c :: t => if isSign c then (digitRuns t).map fun r => (c :: r.1, r.2) else digitRuns (c :: t)

/-- The ways in which an expression matches a beginning of a text, in order: what is caught, and the
rest. -/
def splits : Regex → Text → List (Catches × Text)
  | empty, t => [([], t)]
  | one _, [] => []
  | one s, c :: t => if s.holds c then [([], t)] else []
  | many s, t => (runs s.holds t).map fun r => ([], r.2)
  | integer r, t => (integerRuns t).map fun s => ([(r, s.1)], s.2)
  | seq a b, t => (splits a t).flatMap fun x => (splits b x.2).map fun y => (x.1 ++ y.1, y.2)
  | alt a b, t => splits a t ++ splits b t
  | group a, t => splits a t

/-! ### Answers for all suffixes -/

variable {β : Type}

/-- The first answer of a list, for the whole text. -/
def first (k : List (Option β)) : Option β :=
  match k with
  | a :: _ => a
  | [] => none

/-- One character of a set, then an answer of `k`. -/
def oneAnswers (p : Char → Bool) : Text → List (Option β) → List (Option β)
  | c :: t, _ :: k => (if p c then first k else none) :: oneAnswers p t k
  | _, _ => [none]

/-- As many characters with a property as there can be, then an answer of `k`. -/
def manyAnswers (p : Char → Bool) : Text → List (Option β) → List (Option β)
  | c :: t, a :: k =>
    let later := manyAnswers p t k
    (if p c then (first later).or a else a) :: later
  | _, k => k

/-- Digits, then an answer of `k`, with the digits. -/
def digitAnswers : Text → List (Option β) → List (Option (Text × β))
  | c :: t, _ :: k =>
    let later := digitAnswers t k
    (if Text.isDecimalDigit c then
      ((first later).map fun a => (c :: a.1, a.2)).or ((first k).map fun a => ([c], a))
    else none) :: later
  | _, _ => [none]

/-- An optional sign before digits, given the answers for digits. -/
def signAnswers : Text → List (Option (Text × β)) → List (Option (Text × β))
  | c :: t, a :: k =>
    (if isSign c then (first k).map fun a => (c :: a.1, a.2) else a) :: signAnswers t k
  | _, k => k

/-- For every suffix of a text, the longest first, the first way to match followed by an answer of
`k`. -/
def answers : Regex → Text → List (Option Catches) → List (Option Catches)
  | empty, _, k => k
  | one s, t, k => oneAnswers s.holds t k
  | many s, t, k => manyAnswers s.holds t k
  | integer r, t, k =>
    (signAnswers t (digitAnswers t k)).map (Option.map fun a => (r, a.1) :: a.2)
  | seq a b, t, k => answers a t (answers b t k)
  | alt a b, t, k => List.zipWith Option.or (answers a t k) (answers b t k)
  | group a, t, k => answers a t k

/-- The values of a function on all suffixes of a text, the longest first. -/
def overSuffixes (k : Text → β) : Text → List β
  | [] => [k []]
  | c :: t => k (c :: t) :: overSuffixes k t

/-- The answer of the end of a text: nothing is caught. -/
def atEnd (t : Text) : Option Catches := if t = [] then some [] else none

/-- What the first way to match a whole text catches. -/
def catches? (r : Regex) (t : Text) : Option Catches := first (answers r t (overSuffixes atEnd t))

/-- Whether an expression matches a whole text, the integers that its first way to match catches being
in their ranges. -/
def accepts (r : Regex) (t : Text) : Bool :=
  match catches? r t with
  | some cs => cs.all fun c => c.1.holdsText c.2
  | none => false

/-! ### The answers are those of the first way -/

/-- The first way to match a beginning of a text that is followed by an answer of `k`, with all that is
caught. -/
def firstWay (k : Text → Option Catches) (ways : List (Catches × Text)) : Option Catches :=
  ways.findSome? fun x => (k x.2).map (x.1 ++ ·)

theorem first_overSuffixes (k : Text → Option β) (t : Text) : first (overSuffixes k t) = k t := by
  cases t <;> rfl

theorem oneAnswers_overSuffixes (s : CharSet) (k : Text → Option Catches) (t : Text) :
    oneAnswers s.holds t (overSuffixes k t) =
      overSuffixes (fun u => firstWay k (splits (one s) u)) t := by
  induction t with
  | nil => rfl
  | cons c t ih =>
    simp only [overSuffixes, oneAnswers, ih, first_overSuffixes, splits]
    split <;> simp [firstWay]

theorem firstWay_runs_cons (p : Char → Bool) (k : Text → Option Catches) (c : Char) (t : Text) :
    firstWay k ((runs p (c :: t)).map fun r => ([], r.2)) =
      if p c then (firstWay k ((runs p t).map fun r => ([], r.2))).or (k (c :: t))
      else k (c :: t) := by
  simp only [runs]
  split <;> simp [firstWay, List.findSome?_map, List.findSome?_append, Function.comp_def]

theorem manyAnswers_overSuffixes (s : CharSet) (k : Text → Option Catches) (t : Text) :
    manyAnswers s.holds t (overSuffixes k t) =
      overSuffixes (fun u => firstWay k (splits (many s) u)) t := by
  induction t with
  | nil => simp [overSuffixes, manyAnswers, splits, runs, firstWay]
  | cons c t ih =>
    simp only [overSuffixes, manyAnswers, ih, first_overSuffixes, splits]
    rw [firstWay_runs_cons]

/-- The first of some runs that is followed by an answer of `k`, with the run. -/
def firstRun (k : Text → Option β) (rs : List (Text × Text)) : Option (Text × β) :=
  rs.findSome? fun r => (k r.2).map fun a => (r.1, a)

theorem firstRun_map_cons (k : Text → Option β) (c : Char) (rs : List (Text × Text)) :
    firstRun k (rs.map fun r => (c :: r.1, r.2)) = (firstRun k rs).map fun a => (c :: a.1, a.2) := by
  induction rs with
  | nil => rfl
  | cons r rs ih =>
    simp only [firstRun, List.map_cons, List.findSome?_cons] at ih ⊢
    cases h : k r.2 <;> simp [ih]

theorem runs_isDecimalDigit (t : Text) :
    runs Text.isDecimalDigit t = digitRuns t ++ [([], t)] := by
  cases t with
  | nil => rfl
  | cons c t => simp only [runs, digitRuns]; split <;> simp

theorem digitRuns_cons (c : Char) (t : Text) :
    digitRuns (c :: t) =
      if Text.isDecimalDigit c then (runs Text.isDecimalDigit t).map fun r => (c :: r.1, r.2)
      else [] := rfl

theorem firstRun_append_single (k : Text → Option β) (rs : List (Text × Text)) (t : Text) :
    firstRun k (rs ++ [([], t)]) = (firstRun k rs).or ((k t).map fun a => ([], a)) := by
  simp only [firstRun, List.findSome?_append, List.findSome?_cons, List.findSome?_nil]
  cases k t <;> rfl

theorem digitAnswers_overSuffixes (k : Text → Option β) (t : Text) :
    digitAnswers t (overSuffixes k t) = overSuffixes (fun u => firstRun k (digitRuns u)) t := by
  induction t with
  | nil => rfl
  | cons c t ih =>
    simp only [overSuffixes, digitAnswers, ih, first_overSuffixes]
    congr 1
    rw [digitRuns_cons]
    split
    · rw [firstRun_map_cons, runs_isDecimalDigit, firstRun_append_single]
      cases firstRun k (digitRuns t) <;> cases k t <;> rfl
    · rfl

theorem signAnswers_overSuffixes (k : Text → Option β) (t : Text) :
    signAnswers t (overSuffixes (fun u => firstRun k (digitRuns u)) t) =
      overSuffixes (fun u => firstRun k (integerRuns u)) t := by
  induction t with
  | nil => rfl
  | cons c t ih =>
    simp only [overSuffixes, signAnswers, ih, first_overSuffixes]
    congr 1
    rw [integerRuns]
    split
    · rw [firstRun_map_cons]
    · rfl

theorem map_overSuffixes {γ : Type} (f : β → γ) (k : Text → β) (t : Text) :
    (overSuffixes k t).map f = overSuffixes (fun u => f (k u)) t := by
  induction t with
  | nil => rfl
  | cons c t ih => simp [overSuffixes, ih]

theorem zipWith_overSuffixes (f : β → β → β) (j k : Text → β) (t : Text) :
    List.zipWith f (overSuffixes j t) (overSuffixes k t) =
      overSuffixes (fun u => f (j u) (k u)) t := by
  induction t with
  | nil => rfl
  | cons c t ih => simp [overSuffixes, ih]

theorem firstWay_integer (r : IntegerRange) (k : Text → Option Catches) (rs : List (Text × Text)) :
    (firstRun k rs).map (fun a => (r, a.1) :: a.2) =
      firstWay k (rs.map fun s => ([(r, s.1)], s.2)) := by
  induction rs with
  | nil => rfl
  | cons s rs ih =>
    simp only [firstRun, firstWay, List.map_cons, List.findSome?_cons] at ih ⊢
    cases h : k s.2 <;> simp [ih]

theorem firstWay_append (k : Text → Option Catches) (xs ys : List (Catches × Text)) :
    firstWay k (xs ++ ys) = (firstWay k xs).or (firstWay k ys) := by
  simp [firstWay, List.findSome?_append]

theorem firstWay_map_append (k : Text → Option Catches) (cs : Catches) (ys : List (Catches × Text)) :
    firstWay k (ys.map fun y => (cs ++ y.1, y.2)) = (firstWay k ys).map (cs ++ ·) := by
  induction ys with
  | nil => rfl
  | cons y ys ih =>
    simp only [firstWay, List.map_cons, List.findSome?_cons] at ih ⊢
    cases h : k y.2 <;> simp [ih]

theorem firstWay_flatMap (k : Text → Option Catches) (b : Regex) (xs : List (Catches × Text)) :
    firstWay (fun u => firstWay k (splits b u)) xs =
      firstWay k (xs.flatMap fun x => (splits b x.2).map fun y => (x.1 ++ y.1, y.2)) := by
  induction xs with
  | nil => rfl
  | cons x xs ih =>
    rw [List.flatMap_cons, firstWay_append, firstWay_map_append, ← ih]
    simp only [firstWay, List.findSome?_cons]
    cases List.findSome? (fun x => (k x.2).map (x.1 ++ ·)) (splits b x.2) <;> rfl

/-- The answers for all suffixes are those of the first ways to match them. -/
theorem answers_overSuffixes (r : Regex) (k : Text → Option Catches) (t : Text) :
    answers r t (overSuffixes k t) = overSuffixes (fun u => firstWay k (splits r u)) t := by
  induction r generalizing k with
  | empty => simp [answers, splits, firstWay]
  | one s => exact oneAnswers_overSuffixes s k t
  | many s => exact manyAnswers_overSuffixes s k t
  | integer r =>
    simp only [answers, digitAnswers_overSuffixes, signAnswers_overSuffixes, map_overSuffixes, splits]
    congr 1
    funext u
    exact firstWay_integer r k (integerRuns u)
  | seq a b iha ihb =>
    simp only [answers, splits, ihb, iha]
    congr 1
    funext u
    exact firstWay_flatMap k b (splits a u)
  | alt a b iha ihb =>
    simp only [answers, splits, iha, ihb, zipWith_overSuffixes, firstWay_append]
  | group a ih => simp only [answers, splits, ih]

/-- What is caught is what the first way to match the whole text catches. -/
theorem catches?_eq (r : Regex) (t : Text) : catches? r t = firstWay atEnd (splits r t) := by
  rw [catches?, answers_overSuffixes, first_overSuffixes]

end Regex

end EditorSettings
