import EditorSettings.Proofs.Glob.Directory

/-!
# The ways to read a text along a tree

A tree may be laid along a text in more than one way.  `tree.ways t` lists the ways to do so for a
beginning of `t`: the items one after the other, a star or a range as long as it can be and then shorter
ones, a single slash before slashes farther apart, and branches as they are written.  A range takes any
digits with an optional sign; what it takes is kept, to be looked at later (`Catches.InRange`).

* `GlobTree.splits_regex`: this is the order in which the expression of the tree tries them.
* `GlobTree.accepts_regex_iff`: the first reading of the whole text decides.
* `GlobTree.denotes_iff`: the tree denotes the text if some reading of it has all ranges right.
-/

namespace EditorSettings

/-! ### Beginnings of a text -/

/-- The beginnings of a text with what follows them, the longest first. -/
def beginnings : Text → List (Text × Text)
  | [] => [([], [])]
  | c :: t => (beginnings t).map (fun s => (c :: s.1, s.2)) ++ [([], c :: t)]

/-- The beginnings with a property, nothing being caught. -/
def waysWhere (p : Text → Bool) (t : Text) : List (Catches × Text) :=
  ((beginnings t).filter fun s => p s.1).map fun s => ([], s.2)

/-- A single character with a property. -/
def isOne (p : Char → Bool) : Text → Bool
  | [c] => p c
  | _ => false

/-- Two slashes with anything between them. -/
def isBetweenSlashes : Text → Bool
  | [] => false
  | c :: u => c == '/' && u.getLast? == some '/'

/-- One or more decimal digits. -/
def isDigits (u : Text) : Bool := !u.isEmpty && u.all Text.isDecimalDigit

/-- Decimal digits behind an optional sign. -/
def isSignedDigits : Text → Bool
  | [] => false
  | c :: u => if Regex.isSign c then isDigits u else isDigits (c :: u)

/-- The empty beginning is the last one. -/
theorem exists_beginnings_eq (t : Text) :
    ∃ longer, beginnings t = longer ++ [([], t)] ∧ ∀ s ∈ longer, s.1 ≠ [] := by
  cases t with
  | nil => exact ⟨[], rfl, by simp⟩
  | cons c t =>
    refine ⟨_, rfl, fun s hs => ?_⟩
    obtain ⟨r, -, rfl⟩ := List.mem_map.mp hs
    exact List.cons_ne_nil c r.1

/-- Of two properties that agree on longer beginnings, one may hold for the empty one as well. -/
theorem filter_beginnings_congr {p q : Text → Bool} (h : ∀ u, u ≠ [] → p u = q u) (hq : q [] = false)
    (t : Text) : ((beginnings t).filter fun s => p s.1) =
      ((beginnings t).filter fun s => q s.1) ++ (if p [] then [([], t)] else []) := by
  obtain ⟨longer, ht, hne⟩ := exists_beginnings_eq t
  have hlonger : (longer.filter fun s => p s.1) = longer.filter fun s => q s.1 :=
    List.filter_congr fun s hs => h s.1 (hne s hs)
  rw [ht, List.filter_append, List.filter_append, hlonger]
  cases hp : p [] <;> simp [hp, hq]

theorem filter_beginnings_cons (p : Text → Bool) (c : Char) (t : Text) :
    ((beginnings (c :: t)).filter fun s => p s.1) =
      ((beginnings t).filter fun s => p (c :: s.1)).map (fun s => (c :: s.1, s.2)) ++
        (if p [] then [([], c :: t)] else []) := by
  rw [beginnings, List.filter_append, List.filter_map]
  cases hp : p [] <;> simp [hp, Function.comp_def]

theorem runs_eq_filter (p : Char → Bool) (t : Text) :
    Regex.runs p t = (beginnings t).filter fun s => s.1.all p := by
  induction t with
  | nil => rfl
  | cons c t ih =>
    rw [filter_beginnings_cons fun u => u.all p, Regex.runs, ih]
    cases hp : p c <;> simp [hp]

theorem digitRuns_eq_filter (t : Text) :
    Regex.digitRuns t = (beginnings t).filter fun s => isDigits s.1 := by
  cases t with
  | nil => rfl
  | cons c t =>
    rw [filter_beginnings_cons isDigits, Regex.digitRuns, runs_eq_filter]
    cases hc : Text.isDecimalDigit c <;> simp [isDigits, hc]

theorem integerRuns_eq_filter (t : Text) :
    Regex.integerRuns t = (beginnings t).filter fun s => isSignedDigits s.1 := by
  cases t with
  | nil => rfl
  | cons c t =>
    rw [filter_beginnings_cons isSignedDigits, Regex.integerRuns, digitRuns_eq_filter]
    cases hc : Regex.isSign c
    · rw [digitRuns_eq_filter, filter_beginnings_cons isDigits]
      simp [isSignedDigits, hc, isDigits]
    · simp [isSignedDigits, hc]

/-! ### The ways of a tree -/

instance ClassMember.decidableLists (m : ClassMember) (c : Char) : Decidable (m.Lists c) :=
  match m with
  | .single d => inferInstanceAs (Decidable (c = d))
  | .interval a b _ => inferInstanceAs (Decidable (a ≤ c ∧ c ≤ b))

/-- Whether a class stands for a character. -/
def ClassHead.takes (head : ClassHead) (ms : List ClassMember) (c : Char) : Bool :=
  ms.any (fun m => decide (m.Lists c)) != head.negates

mutual

/-- The ways in which an item stands for a beginning of a text, in the order in which they are tried:
what its ranges take, and the rest of the text. -/
def GlobItem.ways : GlobItem → Text → List (Catches × Text)
  | .plain c _, t => waysWhere (isOne (· == c)) t
  | .escaped c, t => waysWhere (isOne (· == c)) t
  | .nameChar, t => waysWhere (isOne (· != '/')) t
  | .nameRun, t => waysWhere (fun u => u.all (· != '/')) t
  | .anyRun, t => waysWhere (fun _ => true) t
  | .segments, t => waysWhere (isOne (· == '/')) t ++ waysWhere isBetweenSlashes t
  | .oneOf head first others, t => waysWhere (isOne (head.takes (first :: others))) t
  | .range low high, t =>
    ((beginnings t).filter fun s => isSignedDigits s.1).map fun s =>
      ([(⟨low.value, high.value⟩, s.1)], s.2)
  | .choice first second others, t =>
    GlobTree.ways first t ++ GlobTree.ways second t ++ GlobTree.waysOfSome others t

/-- The ways in which a tree stands for a beginning of a text. -/
def GlobTree.ways : GlobTree → Text → List (Catches × Text)
  | [], t => [([], t)]
  | i :: is, t => (i.ways t).flatMap fun x => (GlobTree.ways is x.2).map fun y => (x.1 ++ y.1, y.2)

/-- The ways of some trees, one tree after the other. -/
def GlobTree.waysOfSome : List GlobTree → Text → List (Catches × Text)
  | [], _ => []
  | tree :: trees, t => GlobTree.ways tree t ++ GlobTree.waysOfSome trees t

end

/-! ### The ways of its expression -/

theorem waysWhere_isOne (s : CharSet) (t : Text) :
    waysWhere (isOne s.holds) t = Regex.splits (.one s) t := by
  cases t with
  | nil => rfl
  | cons c t =>
    have hone : ((beginnings t).filter fun r => isOne s.holds (c :: r.1)) =
        if s.holds c then [([], t)] else [] := by
      have hlong : ∀ u : Text, u ≠ [] → isOne s.holds (c :: u) = false := by
        intro u hu
        cases u with
        | nil => exact absurd rfl hu
        | cons d u => rfl
      rw [filter_beginnings_congr (p := fun u => isOne s.holds (c :: u)) hlong rfl,
        List.filter_eq_nil_iff.mpr (by simp), List.nil_append]
      rfl
    -- nothing longer than one character is left
    rw [waysWhere, filter_beginnings_cons (isOne s.holds), hone, Regex.splits]
    cases s.holds c <;> simp [isOne]

theorem waysWhere_all (s : CharSet) (t : Text) :
    waysWhere (fun u => u.all s.holds) t = Regex.splits (.many s) t := by
  rw [waysWhere, Regex.splits, runs_eq_filter]

theorem runs_every (t : Text) : Regex.runs CharSet.every.holds t = beginnings t := by
  rw [runs_eq_filter]
  exact List.filter_eq_self.mpr fun s _ => List.all_eq_true.mpr fun _ _ => rfl

/-- Any run up to a given character, the longest one first. -/
theorem flatMap_beginnings_only (c : Char) (t : Text) :
    ((beginnings t).flatMap fun s => Regex.splits (.one (.only c)) s.2) =
      waysWhere (fun u => u.getLast? == some c) t := by
  induction t with
  | nil => rfl
  | cons d t ih =>
    -- a run that begins with `d` goes on to a later `c`, or ends with `d` itself
    have hlast : ((beginnings t).filter fun s => (d :: s.1).getLast? == some c) =
        ((beginnings t).filter fun s => s.1.getLast? == some c) ++
          (if d == c then [([], t)] else []) := by
      have hlong : ∀ u : Text, u ≠ [] → ((d :: u).getLast? == some c) = (u.getLast? == some c) := by
        intro u hu
        rw [List.getLast?_cons_of_ne_nil hu]
      exact filter_beginnings_congr (p := fun u => (d :: u).getLast? == some c) hlong rfl t
    have hcons : waysWhere (fun u => u.getLast? == some c) (d :: t) =
        waysWhere (fun u => u.getLast? == some c) t ++ (if d == c then [([], t)] else []) := by
      rw [waysWhere, filter_beginnings_cons fun u => u.getLast? == some c, hlast]
      cases d == c <;> simp [waysWhere]
    rw [beginnings, List.flatMap_append, List.flatMap_map, ih, hcons, List.flatMap_singleton]
    rfl

theorem waysWhere_isBetweenSlashes (t : Text) :
    waysWhere isBetweenSlashes t =
      Regex.splits (.seq (.seq (.one (.only '/')) (.many .every)) (.one (.only '/'))) t := by
  cases t with
  | nil => rfl
  | cons c t =>
    by_cases hc : c = '/'
    · subst hc
      have hways : waysWhere isBetweenSlashes ('/' :: t) =
          waysWhere (fun u => u.getLast? == some '/') t := by
        rw [waysWhere, filter_beginnings_cons isBetweenSlashes]
        simp [waysWhere, isBetweenSlashes]
      rw [hways, ← flatMap_beginnings_only]
      simp [Regex.splits, runs_every, CharSet.holds, List.flatMap_map]
    · rw [waysWhere, filter_beginnings_cons isBetweenSlashes]
      simp [isBetweenSlashes, Regex.splits, CharSet.holds, hc]

theorem ClassHead.holds_eq_takes (head : ClassHead) (ms : List ClassMember) :
    (CharSet.bracket head.negates ⟨ms.map ClassMember.bounds, []⟩).holds = head.takes ms := by
  funext c
  rw [CharSet.holds, ClassHead.takes]
  congr 1
  rw [Bool.eq_iff_iff, Bracket.lists_intervals_iff, List.any_eq_true]
  simp

/-! ### Sequences and choices -/

theorem GlobTree.regexFrom_eq_inOrder : ∀ (tree : GlobTree) (e : Regex),
    GlobTree.regexFrom e tree = Regex.inOrder e (tree.map GlobItem.regex)
  | [], _ => rfl
  | i :: is, e => GlobTree.regexFrom_eq_inOrder is (e.andThen i.regex)

/-- What a tree adds to an expression is the same for every expression. -/
theorem GlobTree.splits_regexFrom (tree : GlobTree) (e : Regex) (t : Text) :
    Regex.splits (GlobTree.regexFrom e tree) t =
      (Regex.splits e t).flatMap fun x =>
        (Regex.splits (GlobTree.regexFrom .empty tree) x.2).map fun y => (x.1 ++ y.1, y.2) := by
  simp only [GlobTree.regexFrom_eq_inOrder]
  exact Regex.splits_inOrder _ e t

mutual

theorem GlobItem.splits_regex : ∀ (i : GlobItem) (t : Text), Regex.splits i.regex t = i.ways t
  | .plain c _, t => (waysWhere_isOne (.only c) t).symm
  | .escaped c, t => (waysWhere_isOne (.only c) t).symm
  | .nameChar, t => (waysWhere_isOne .notSlash t).symm
  | .nameRun, t => (waysWhere_all .notSlash t).symm
  | .anyRun, t => by
    have hall : ((beginnings t).filter fun _ => true) = beginnings t :=
      List.filter_eq_self.mpr fun _ _ => rfl
    rw [GlobItem.regex, GlobItem.ways, Regex.splits, runs_every, waysWhere, hall]
  | .segments, t => by
    have hslash : waysWhere (isOne (· == '/')) t = Regex.splits (.one (.only '/')) t :=
      waysWhere_isOne (.only '/') t
    rw [GlobItem.ways, waysWhere_isBetweenSlashes, hslash]
    rfl
  | .oneOf head first others, t => by
    rw [GlobItem.regex, ← waysWhere_isOne, ClassHead.holds_eq_takes, GlobItem.ways]
  | .range low high, t => by
    rw [GlobItem.regex, GlobItem.ways, Regex.splits, integerRuns_eq_filter]
  | .choice first second others, t => by
    rw [GlobItem.regex, GlobItem.ways, Regex.splits, GlobTree.splits_choiceFrom others, Regex.splits,
      GlobTree.splits_branch first, GlobTree.splits_branch second]

theorem GlobTree.splits_branch : ∀ (tree : GlobTree) (t : Text),
    Regex.splits (GlobTree.regexFrom .empty tree) t = tree.ways t
  | [], _ => rfl
  | i :: is, t => by
    rw [GlobTree.regexFrom, Regex.andThen, GlobTree.splits_regexFrom, GlobItem.splits_regex i,
      GlobTree.ways]
    simp only [GlobTree.splits_branch is]

theorem GlobTree.splits_choiceFrom : ∀ (trees : List GlobTree) (e : Regex) (t : Text),
    Regex.splits (GlobTree.choiceFrom e trees) t =
      Regex.splits e t ++ GlobTree.waysOfSome trees t
  | [], e, t => by rw [GlobTree.choiceFrom, GlobTree.waysOfSome, List.append_nil]
  | tree :: trees, e, t => by
    rw [GlobTree.choiceFrom, GlobTree.waysOfSome, GlobTree.splits_choiceFrom trees, Regex.splits,
      GlobTree.splits_branch tree, List.append_assoc]

end

/-- **The expression of a tree tries the ways of the tree.** -/
theorem GlobTree.splits_regex (tree : GlobTree) (t : Text) :
    Regex.splits tree.regex t = tree.ways t := GlobTree.splits_branch tree t

/-! ### Readings of a whole text -/

/-- What the ranges of a tree take in the ways to read a whole text along it, in the order in which these
are tried. -/
def GlobTree.readings (tree : GlobTree) (u : Text) : List Catches :=
  (tree.ways u).filterMap fun x => if x.2 = [] then some x.1 else none

/-- Whether a text is the canonical form of an integer of the range. -/
def IntegerRange.Denotes (r : IntegerRange) (t : Text) : Prop :=
  ∃ v : Int, r.low ≤ v ∧ v ≤ r.high ∧ t = Text.ofInt v

/-- All ranges have taken integers that they hold. -/
def Catches.InRange (cs : Catches) : Prop := ∀ c ∈ cs, c.1.Denotes c.2

theorem GlobTree.mem_readings {tree : GlobTree} {u : Text} {cs : Catches} :
    cs ∈ tree.readings u ↔ tree.regex.Matches u cs := by
  have hways : cs ∈ tree.readings u ↔ (cs, []) ∈ tree.ways u := by
    simp only [readings, List.mem_filterMap]
    constructor
    · rintro ⟨⟨ds, rest⟩, hmem, h⟩
      split_ifs at h with hrest
      obtain rfl := Option.some.inj h
      rwa [show rest = [] from hrest] at hmem
    · exact fun hmem => ⟨_, hmem, rfl⟩
  rw [hways, ← GlobTree.splits_regex, Regex.mem_splits]
  constructor
  · rintro ⟨v, rfl, hv⟩
    rwa [List.append_nil]
  · exact fun h => ⟨u, (List.append_nil u).symm, h⟩

theorem GlobTree.catches?_regex (tree : GlobTree) (u : Text) :
    Regex.catches? tree.regex u = (tree.readings u).head? := by
  rw [Regex.catches?_eq, GlobTree.splits_regex, readings, List.head?_filterMap, Regex.firstWay]
  congr 1
  funext x
  rw [Regex.atEnd]
  split_ifs <;> simp

/-! ### Ranges that take part -/

/-- A range within 64 bits. -/
def IntegerRange.FitsInt64 (r : IntegerRange) : Prop :=
  Text.fitsInt64 r.low = true ∧ Text.fitsInt64 r.high = true

theorem not_mem_of_mem_waysWhere {p : Text → Bool} {t : Text} {x : Catches × Text}
    (h : x ∈ waysWhere p t) (c : IntegerRange × Text) : c ∉ x.1 := by
  obtain ⟨s, -, rfl⟩ := List.mem_map.mp h
  exact List.not_mem_nil

mutual

theorem GlobItem.fitsInt64_of_mem_ways : ∀ {i : GlobItem} {t : Text} {x : Catches × Text},
    x ∈ i.ways t → ∀ c ∈ x.1, c.1.FitsInt64
  | .plain _ _, _, _, h, c, hc => absurd hc (not_mem_of_mem_waysWhere h c)
  | .escaped _, _, _, h, c, hc => absurd hc (not_mem_of_mem_waysWhere h c)
  | .nameChar, _, _, h, c, hc => absurd hc (not_mem_of_mem_waysWhere h c)
  | .nameRun, _, _, h, c, hc =>
    absurd hc (not_mem_of_mem_waysWhere (p := fun u => u.all (· != '/')) h c)
  | .anyRun, _, _, h, c, hc => absurd hc (not_mem_of_mem_waysWhere (p := fun _ => true) h c)
  | .segments, t, x, h, c, hc => by
    rcases List.mem_append.mp h with h | h
    · exact absurd hc (not_mem_of_mem_waysWhere h c)
    · exact absurd hc (not_mem_of_mem_waysWhere h c)
  | .oneOf _ _ _, _, _, h, c, hc => absurd hc (not_mem_of_mem_waysWhere h c)
  | .range low high, t, x, h, c, hc => by
    obtain ⟨s, -, rfl⟩ := List.mem_map.mp h
    obtain rfl := List.mem_singleton.mp hc
    exact ⟨low.fitsInt64, high.fitsInt64⟩
  | .choice first second others, t, x, h, c, hc => by
    rw [GlobItem.ways, List.mem_append, List.mem_append] at h
    rcases h with (h | h) | h
    · exact GlobTree.fitsInt64_of_mem_ways h c hc
    · exact GlobTree.fitsInt64_of_mem_ways h c hc
    · exact GlobTree.fitsInt64_of_mem_waysOfSome h c hc

/-- Ranges that take part are within 64 bits. -/
theorem GlobTree.fitsInt64_of_mem_ways : ∀ {tree : GlobTree} {t : Text} {x : Catches × Text},
    x ∈ tree.ways t → ∀ c ∈ x.1, c.1.FitsInt64
  | [], t, x, h, c, hc => by
    obtain rfl := List.mem_singleton.mp h
    exact absurd hc List.not_mem_nil
  | i :: is, t, x, h, c, hc => by
    obtain ⟨y, hy, h⟩ := List.mem_flatMap.mp h
    obtain ⟨z, hz, rfl⟩ := List.mem_map.mp h
    rcases List.mem_append.mp hc with hc | hc
    · exact GlobItem.fitsInt64_of_mem_ways hy c hc
    · exact GlobTree.fitsInt64_of_mem_ways hz c hc

theorem GlobTree.fitsInt64_of_mem_waysOfSome : ∀ {trees : List GlobTree} {t : Text}
    {x : Catches × Text}, x ∈ GlobTree.waysOfSome trees t → ∀ c ∈ x.1, c.1.FitsInt64
  | [], _, _, h, _, _ => absurd h List.not_mem_nil
  | tree :: trees, t, x, h, c, hc => by
    rcases List.mem_append.mp h with h | h
    · exact GlobTree.fitsInt64_of_mem_ways h c hc
    · exact GlobTree.fitsInt64_of_mem_waysOfSome h c hc

end

theorem GlobTree.inRange_iff {tree : GlobTree} {u : Text} {cs : Catches}
    (h : cs ∈ tree.readings u) : cs.InRange ↔ ∀ c ∈ cs, c.1.holdsText c.2 = true := by
  obtain ⟨x, hx, he⟩ := List.mem_filterMap.mp h
  split_ifs at he
  obtain rfl := Option.some.inj he
  refine forall₂_congr fun c hc => ?_
  obtain ⟨hl, hh⟩ := GlobTree.fitsInt64_of_mem_ways hx c hc
  exact (holdsText_iff hl hh).symm

/-- **The first reading decides** whether the expression of a tree accepts a text. -/
theorem GlobTree.accepts_regex_iff {tree : GlobTree} {u : Text} :
    tree.regex.accepts u = true ↔ ∃ cs, (tree.readings u).head? = some cs ∧ cs.InRange := by
  rw [Regex.accepts, GlobTree.catches?_regex]
  cases h : (tree.readings u).head? with
  | none => simp
  | some cs =>
    have hmem : cs ∈ tree.readings u := List.mem_of_head? h
    simp [GlobTree.inRange_iff hmem]

/-- **A tree denotes what has a reading** with all ranges right, whichever reading that is. -/
theorem GlobTree.denotes_iff {tree : GlobTree} {u : Text} :
    tree.Denotes u ↔ ∃ cs ∈ tree.readings u, cs.InRange := by
  rw [← GlobTree.describes_regex, Regex.Describes]
  refine exists_congr fun cs => ?_
  rw [← GlobTree.mem_readings]
  exact and_congr_right fun hmem => (GlobTree.inRange_iff hmem).symm

end EditorSettings
