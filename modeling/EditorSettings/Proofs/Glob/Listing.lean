import EditorSettings.Proofs.Glob.Semantics
import EditorSettings.Proofs.Text.Bare
import Mathlib.Data.List.Chain
import Mathlib.Tactic.MkIffOfInductiveProp

/-!
# What a class lists

The body of a class is read twice.  Whether it is a class at all is decided by a walk over its members that
takes three members with a bare hyphen in the middle as an interval (`Bracket.isOrdered`); what the class
holds is decided by the expression that is made of it (`Bracket.reading?`).  The two readings agree as long
as no two bare hyphens are adjacent (`Bracket.reading?_of_hyphensApart`): the class then holds the intervals
of the walk (`Bracket.intervals`), so the pattern of a class and that of its negation hold one character
behind a slash that is listed, or that is not (`Glob.accepts_class`).

Two hyphens in a row are one character and the beginning of an interval for the walk, but take what follows
out of what stands before in an expression, and hyphens at the beginning stand for themselves.
-/

namespace EditorSettings

namespace Bracket

/-! ### The members of a body -/

/-- The members of a body, a backslash at its end being one of them. -/
def membersOf : Text → List BracketMember
  | [] => []
  | ['\\'] => [⟨'\\', true⟩]
  | '\\' :: c :: t => ⟨c, true⟩ :: membersOf t
  | c :: t => ⟨c, false⟩ :: membersOf t

/-- **The body of a class.** -/
@[mk_iff] structure IsBody (b : Text) : Prop where
  ne_nil : b ≠ []
  slash : '/' ∉ b.bare
  bracket : ']' ∉ b.bare
  backslash : '\\' ∉ b.bare
  ordered : isOrdered (membersOf b) = true

instance (b : Text) : Decidable (IsBody b) := decidable_of_iff _ (isBody_iff b).symm

theorem membersOf_cons {c : Char} (h : c ≠ '\\') (t : Text) :
    membersOf (c :: t) = ⟨c, false⟩ :: membersOf t :=
  membersOf.eq_4 c t (fun he => absurd he h) (fun _ _ he => absurd he h)

theorem membersOf_ne_nil {b : Text} (h : b ≠ []) : membersOf b ≠ [] := by
  fun_cases membersOf b <;> simp_all

theorem members?_cons {c : Char} (hb : c ≠ '\\') (hs : c ≠ '/') (hr : c ≠ ']') (t : Text) :
    members? (c :: t) = (members? t).map fun r => (⟨c, false⟩ :: r.1, r.2) :=
  members?.eq_6 c t (fun h => absurd h hb) (fun _ _ h => absurd h hb) (fun h => absurd h hs)
    (fun h => absurd h hr)

/-- **A body is found** in front of a closing bracket, with its members. -/
theorem members?_append {b : Text} (hp : Text.Paired b) (hs : '/' ∉ b.bare) (hr : ']' ∉ b.bare)
    (rest : Text) : members? (b ++ ']' :: rest) = some (membersOf b, rest) := by
  induction hp with
  | nil => simp [members?, membersOf]
  | pair c _ ih =>
    rw [List.cons_append, List.cons_append, members?, ih hs hr]
    rfl
  | @single c hc t _ ih =>
    rw [Text.bare_cons hc, List.mem_cons, not_or] at hs hr
    rw [List.cons_append, members?_cons hc (Ne.symm hs.1) (Ne.symm hr.1), ih hs.2 hr.2,
      membersOf_cons hc]
    rfl

theorem ofText?_of_isBody {b : Text} (hb : IsBody b) {t : Text} {negated : Bool} {rest : Text}
    (ht : splitNegation t = (negated, b ++ ']' :: rest)) :
    ofText? t = some (⟨negated, membersOf b⟩, rest) := by
  have hm := members?_append (Text.paired_of_not_mem hb.backslash) hb.slash hb.bracket rest
  rw [ofText?, ht, hm]
  dsimp only
  rw [if_pos ⟨membersOf_ne_nil hb.ne_nil, hb.ordered⟩]

/-! ### The walk -/

/-- The intervals of some members from left to right: three members with a bare hyphen in the middle are
one, and any other member is one of its own. -/
def intervals : List BracketMember → List (Char × Char)
  | [] => []
  | a :: h :: b :: ms =>
    if h.isHyphen then (a.char, b.char) :: intervals ms
    else (a.char, a.char) :: intervals (h :: b :: ms)
  | a :: ms => (a.char, a.char) :: intervals ms
termination_by ms => ms.length

/-- Whether a body lists a character. -/
def Lists (b : Text) (c : Char) : Prop := ∃ i ∈ intervals (membersOf b), i.1 ≤ c ∧ c ≤ i.2

instance (b : Text) (c : Char) : Decidable (Lists b c) :=
  inferInstanceAs (Decidable (∃ i ∈ intervals (membersOf b), i.1 ≤ c ∧ c ≤ i.2))

/-- No two bare hyphens are adjacent. -/
def HyphensApart (ms : List BracketMember) : Prop :=
  ms.IsChain fun m n => ¬(m.isHyphen = true ∧ n.isHyphen = true)

instance (ms : List BracketMember) : Decidable (HyphensApart ms) := by
  unfold HyphensApart; infer_instance

theorem HyphensApart.of_cons {m : BracketMember} {ms : List BracketMember}
    (h : HyphensApart (m :: ms)) : HyphensApart ms := List.IsChain.tail h

/-- A member with no hyphen behind it is an interval of its own. -/
theorem intervals_cons {m : BracketMember} {ms : List BracketMember}
    (h : ∀ h ∈ ms.head?, h.isHyphen = false) :
    intervals (m :: ms) = (m.char, m.char) :: intervals ms := by
  match ms with
  | [] => simp [intervals]
  | [_] => simp [intervals]
  | h' :: b :: ms =>
    have := h h' rfl
    rw [intervals, this]
    simp

/-- **An expression takes the intervals of the walk**, if no two hyphens are adjacent. -/
theorem unions?_of_hyphensApart : ∀ {ms : List BracketMember}, HyphensApart ms →
    isOrdered ms = true → unions? ms = some (intervals ms, [])
  | [], _, _ => by simp [unions?, intervals]
  | [m], _, _ => by simp [unions?, intervals]
  | [m, h], hapart, _ => by
    obtain ⟨hm, -⟩ := List.isChain_cons_cons.mp hapart
    cases hh : h.isHyphen with
    | true =>
      have hm' : m.isHyphen = false := by simpa [hh] using hm
      simp [unions?, intervals, hm', hh]
    | false => simp [unions?, intervals, hh]
  | m :: h :: b :: ms, hapart, ho => by
    obtain ⟨hm, hrest⟩ := List.isChain_cons_cons.mp hapart
    obtain ⟨hb, hms⟩ := List.isChain_cons_cons.mp hrest
    rw [isOrdered] at ho
    cases hh : h.isHyphen with
    | true =>
      -- Neither neighbour of the hyphen is one, so the three are an interval for both.
      have hm' : m.isHyphen = false := by simpa [hh] using hm
      have hb' : b.isHyphen = false := by simpa [hh] using hb
      rw [hh, if_pos rfl, Bool.and_eq_true, decide_eq_true_eq] at ho
      have ih := unions?_of_hyphensApart (HyphensApart.of_cons hms) ho.2
      simp [unions?, intervals, hm', hh, hb', ho.1, ih]
    | false =>
      rw [hh, if_neg Bool.false_ne_true] at ho
      have ih := unions?_of_hyphensApart hrest ho
      have hhead : ∀ h' ∈ (h :: b :: ms).head?, h'.isHyphen = false := by
        rintro h' ⟨⟩
        exact hh
      rw [unions?_cons hhead, ih, intervals_cons hhead, Option.map_some]

/-- **Both readings of a class agree**, if no two hyphens are adjacent. -/
theorem reading?_of_hyphensApart : ∀ {ms : List BracketMember}, HyphensApart ms →
    isOrdered ms = true → reading? ms = some ⟨intervals ms, []⟩
  | [], _, _ => by simp [reading?, unions?, intervals]
  | m :: ms, hapart, ho => by
    cases hm : m.isHyphen with
    | true =>
      -- One hyphen at the beginning stands for itself, and there is no other behind it.
      have hhead : ∀ h ∈ ms.head?, h.isHyphen = false := by
        intro h hh
        obtain ⟨ms', rfl⟩ := List.head?_eq_some_iff.mp hh
        simpa [hm] using (List.isChain_cons_cons.mp hapart).1
      have hd : ms.dropWhile (·.isHyphen) = ms ∧ ms.takeWhile (·.isHyphen) = [] := by
        rcases ms with _ | ⟨h, ms⟩
        · exact ⟨rfl, rfl⟩
        · simp [hhead h rfl]
      rw [isOrdered_cons hhead] at ho
      have hu := unions?_of_hyphensApart hapart.of_cons ho
      simp [reading?, hm, hd.1, hd.2, hu, intervals_cons hhead]
    | false =>
      have hu := unions?_of_hyphensApart hapart ho
      simp [reading?, hm, hu]

theorem lists_intervals {b : Text} {c : Char} :
    (BracketReading.mk (intervals (membersOf b)) []).lists c = true ↔ Lists b c := by
  simp [BracketReading.lists, inUnion, Lists]

end Bracket

namespace Glob

open Regex

/-! ### The pattern of a class -/

/-- The expression of a class behind a slash. -/
def classRegex (negated : Bool) (b : Text) : Regex :=
  seq (one (.only '/')) (one (.bracket negated ⟨Bracket.intervals (Bracket.membersOf b), []⟩))

theorem depth_classRegex_le (negated : Bool) (b : Text) : (classRegex negated b).depth ≤ maxDepth := by
  have h := unionDepth_le (Bracket.intervals (Bracket.membersOf b))
  simp only [classRegex, Regex.depth, depthIn, CharSet.depth, BracketReading.depth, List.foldl_nil,
    if_true, maxDepth]
  omega

theorem accepts_classRegex {negated : Bool} {b u : Text} : (classRegex negated b).accepts u = true ↔
    ∃ c, u = ['/', c] ∧ (Bracket.Lists b c ↔ negated = false) := by
  have hholds : ∀ c, CharSet.holds (.bracket negated ⟨Bracket.intervals (Bracket.membersOf b), []⟩) c =
      true ↔ (Bracket.Lists b c ↔ negated = false) := by
    intro c
    rw [CharSet.holds, ← Bracket.lists_intervals]
    cases negated <;> simp
  rw [accepts_iff_describes (by rfl)]
  constructor
  · rintro ⟨cs, ⟨v, w, x, y, rfl, -, ⟨⟨c, hc, rfl⟩, -⟩, ⟨d, hd, rfl⟩, -⟩, -⟩
    rw [CharSet.holds, beq_iff_eq] at hc
    exact ⟨d, by rw [hc]; rfl, (hholds d).mp hd⟩
  · rintro ⟨d, rfl, hd⟩
    exact ⟨[], ⟨['/'], [d], [], [], rfl, rfl, ⟨⟨'/', by decide, rfl⟩, rfl⟩, ⟨d, (hholds d).mpr hd, rfl⟩,
      rfl⟩, by simp⟩

/-- The glob of a class, whose body stands behind the opening bracket or behind a negation. -/
theorem ofPattern?_class {b : Text} (hb : Bracket.IsBody b)
    (hapart : Bracket.HyphensApart (Bracket.membersOf b)) {t : Text} {negated : Bool}
    (ht : Bracket.splitNegation t = (negated, b ++ [']'])) (directory : Text) :
    ofPattern? directory ('/' :: '[' :: t) =
      some ⟨trimSlashes directory, '/' :: '[' :: t, classRegex negated b⟩ := by
  have hbelow : belowDirectory ('/' :: '[' :: t) = '/' :: '[' :: t := by simp [belowDirectory]
  have hscan : Token.ofPattern ('/' :: '[' :: t) =
      [.literal '/', .bracket ⟨negated, Bracket.membersOf b⟩] := by
    rw [Token.ofPattern, Token.scan_cons (by decide) (by simp),
      Token.scan_bracket (Bracket.ofText?_of_isBody hb ht), Token.scan]
  have htree : tree? [.literal '/', .bracket ⟨negated, Bracket.membersOf b⟩] =
      some (classRegex negated b) := by
    have hpart : part? (.bracket ⟨negated, Bracket.membersOf b⟩) =
        some (one (.bracket negated ⟨Bracket.intervals (Bracket.membersOf b), []⟩)) := by
      change (Bracket.reading? (Bracket.membersOf b)).map _ = _
      rw [Bracket.reading?_of_hyphensApart hapart hb.ordered]
      rfl
    rw [tree?, run_part rfl, run_part hpart]
    rfl
  rw [ofPattern?, hbelow, hscan, ofTokens?, htree, Option.filter_some,
    if_pos (decide_eq_true (depth_classRegex_le negated b)), Option.map_some]

/-- **The pattern of a class holds one character that is listed**, and that of its negation one that is not.
The body must not begin with a negation itself, and no two bare hyphens may be adjacent in it. -/
theorem accepts_class {b : Text} (hb : Bracket.IsBody b)
    (hapart : Bracket.HyphensApart (Bracket.membersOf b)) (directory : Text) :
    ((∀ c ∈ b.head?, Bracket.isNegation c = false) →
      ∃ g, ofPattern? directory ('/' :: '[' :: (b ++ [']'])) = some g ∧ ∀ path,
        g.accepts path = true ↔
          ∃ c, path = trimSlashes directory ++ ['/', c] ∧ Bracket.Lists b c) ∧
      ∃ g, ofPattern? directory ('/' :: '[' :: '!' :: (b ++ [']'])) = some g ∧ ∀ path,
        g.accepts path = true ↔
          ∃ c, path = trimSlashes directory ++ ['/', c] ∧ ¬Bracket.Lists b c := by
  constructor
  · intro hhead
    have ht : Bracket.splitNegation (b ++ [']']) = (false, b ++ [']']) := by
      obtain ⟨c, t, rfl⟩ := List.exists_cons_of_ne_nil hb.ne_nil
      rw [List.cons_append, Bracket.splitNegation, hhead c rfl, if_neg Bool.false_ne_true]
    refine ⟨_, ofPattern?_class hb hapart ht directory, fun path => ?_⟩
    simp only [accepts_iff, accepts_classRegex, iff_true]
    constructor
    · rintro ⟨u, rfl, c, rfl, hc⟩
      exact ⟨c, rfl, hc⟩
    · rintro ⟨c, rfl, hc⟩
      exact ⟨_, rfl, c, rfl, hc⟩
  · refine ⟨_, ofPattern?_class hb hapart (t := '!' :: (b ++ [']'])) rfl directory, fun path => ?_⟩
    simp only [accepts_iff, accepts_classRegex, Bool.true_eq_false, iff_false]
    constructor
    · rintro ⟨u, rfl, c, rfl, hc⟩
      exact ⟨c, rfl, hc⟩
    · rintro ⟨c, rfl, hc⟩
      exact ⟨_, rfl, c, rfl, hc⟩

/-- A body with hyphens that are bare at its beginning, at the end of an interval behind a backslash, and
bare again behind that. -/
def hyphens : Text := "-+-\\--0".toList

theorem accepts_class_hyphens :
    Bracket.IsBody hyphens ∧ Bracket.HyphensApart (Bracket.membersOf hyphens) ∧
      (∃ g, ofPattern? [] "/[-+-\\--0]".toList = some g ∧ g.accepts "/,".toList = true ∧
        g.accepts "/.".toList = false) ∧
      ∃ g, ofPattern? [] "/[!-+-\\--0]".toList = some g ∧ g.accepts "/,".toList = false ∧
        g.accepts "/.".toList = true := by
  have hb : Bracket.IsBody hyphens := by decide +kernel
  have hapart : Bracket.HyphensApart (Bracket.membersOf hyphens) := by decide +kernel
  obtain ⟨hlisted, g', hg', haccepts'⟩ := accepts_class hb hapart []
  have hhead : ∀ c ∈ hyphens.head?, Bracket.isNegation c = false := by
    intro c hc
    obtain rfl : '-' = c := Option.some.inj hc
    rfl
  obtain ⟨g, hg, haccepts⟩ := hlisted hhead
  have hcomma : Bracket.Lists hyphens ',' := by decide +kernel
  have hpoint : ¬Bracket.Lists hyphens '.' := by decide +kernel
  refine ⟨hb, hapart, ⟨g, hg, ?_, ?_⟩, ⟨g', hg', ?_, ?_⟩⟩
  · exact (haccepts _).mpr ⟨',', rfl, hcomma⟩
  · rw [← Bool.not_eq_true, haccepts]
    rintro ⟨c, hc, hl⟩
    obtain rfl : '.' = c := by simpa [trimSlashes] using hc
    exact hpoint hl
  · rw [← Bool.not_eq_true, haccepts']
    rintro ⟨c, hc, hl⟩
    obtain rfl : ',' = c := by simpa [trimSlashes] using hc
    exact hl hcomma
  · exact (haccepts' _).mpr ⟨'.', rfl, hpoint⟩

/-- **With adjacent hyphens the two readings differ**: a character that the walk lists is taken out of the
class, and a class whose intervals ascend for the walk has no expression. -/
theorem exists_lists_not_accepts :
    (Bracket.IsBody "a-c--b".toList ∧ Bracket.Lists "a-c--b".toList 'b' ∧
        (ofPattern? [] "/[a-c--b]".toList).map (·.accepts "/b".toList) = some false) ∧
      Bracket.IsBody "--c-b".toList ∧ Bracket.Lists "--c-b".toList 'a' ∧
        ofPattern? [] "/[--c-b]".toList = none := by
  decide +kernel

end Glob

end EditorSettings
