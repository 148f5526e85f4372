import EditorSettings.Proofs.Glob.Directory

/-!
# Tokens that nest below a bound

Tokens fit below a bound of nesting if they have no class, their marks stand inside of alternations, no more
alternations than the bound are ever open, and none is open at the end (`Token.fits`).  Reading such tokens
never fails: every step keeps the levels small enough for what lies around them (`Regex.run_of_fits`), so
the tokens have an expression if the bound is not above `Regex.maxBound` (`Regex.ofTokens?_of_fits`).
Wherever they stand, they add the same parts to the branch that is being read
(`Regex.exists_parts_of_fits`).

Other properties are kept by the levels however deep the tokens nest: if the expressions of the tokens have
one of them, so has the expression of the whole (`Regex.IsKept.tree?`).  For example, tokens without ranges
catch nothing.
-/

namespace EditorSettings

/-! ### Bounded nesting -/

namespace Token

/-- Whether a token is a class. -/
def isBracket : Token → Bool
  | .bracket _ => true
  | _ => false

/-- Whether tokens without classes close all alternations, `depth` of them being open at the beginning, and
never open more than `bound`. -/
def fits (bound : ℕ) : ℕ → List Token → Bool
  | depth, [] => depth == 0
  | depth, t :: ts => !t.isBracket && (!t.isInnerMark || decide (0 < depth)) &&
      decide (t.depthAfter depth ≤ bound) && fits bound (t.depthAfter depth) ts

variable {bound : ℕ}

theorem fits_cons {d : ℕ} {t : Token} {ts : List Token} : fits bound d (t :: ts) = true ↔
    t.isBracket = false ∧ (t.isInnerMark = true → 0 < d) ∧ t.depthAfter d ≤ bound ∧
      fits bound (t.depthAfter d) ts = true := by
  rw [fits]
  simp only [Bool.and_eq_true, Bool.or_eq_true, Bool.not_eq_true', decide_eq_true_eq, and_assoc]
  cases t.isInnerMark <;> simp

theorem marksInside_of_fits {ts : List Token} : ∀ {d : ℕ}, fits bound d ts = true →
    marksInside d ts = true := by
  induction ts with
  | nil => exact fun _ => rfl
  | cons t ts ih =>
    intro d h
    rw [fits_cons] at h
    rw [marksInside_cons]
    exact ⟨h.2.1, ih h.2.2.2⟩

/-- Tokens that fit may stand inside of further alternations. -/
theorem fits_append {us : List Token} {bound' e : ℕ} (hu : fits bound' e us = true) :
    ∀ {ts : List Token} {d : ℕ}, fits bound d ts = true → bound + e ≤ bound' →
      fits bound' (d + e) (ts ++ us) = true := by
  intro ts
  induction ts with
  | nil =>
    intro d h _
    rw [fits, beq_iff_eq] at h
    rwa [h, Nat.zero_add]
  | cons t ts ih =>
    intro d h hle
    rw [fits_cons] at h
    obtain ⟨hb, hm, hd, hrest⟩ := h
    have hafter : t.depthAfter (d + e) = t.depthAfter d + e := by
      cases t with
      | closeGroup =>
        have := hm rfl
        simp only [depthAfter]
        omega
      | openGroup => simp only [depthAfter]; omega
      | _ => rfl
    rw [List.cons_append, fits_cons, hafter]
    exact ⟨hb, fun ht => by have := hm ht; omega, by omega, ih hrest hle⟩

end Token

namespace Regex

/-! ### Levels of bounded depth -/

/-- A level around which there is room for `n` alternations. -/
structure Level.Fits (n : ℕ) (l : Level) : Prop where
  current : l.current.depthIn true false ≤ 3 * n + 5
  before : ∀ b ∈ l.before, b.depthIn false true ≤ 3 * n + 6

/-- The innermost level and the levels around it, the outermost one with room for `bound` alternations. -/
def LevelsFit (bound : ℕ) : Level → List Level → Prop
  | l, [] => l.Fits bound
  | l, o :: os => l.Fits (bound - (o :: os).length) ∧ LevelsFit bound o os

variable {bound : ℕ}

theorem Level.fits_start (n : ℕ) : Level.start.Fits n :=
  ⟨Nat.zero_le _, fun _ hb => absurd hb (by simp [Level.start])⟩

theorem Level.Fits.add {n : ℕ} {l : Level} (h : l.Fits n) {r : Regex}
    (hr : r.depthIn true false ≤ 3 * n + 5) : (l.add r).Fits n :=
  ⟨depthIn_andThen_le h.current hr, h.before⟩

theorem Level.Fits.depth_close_le {n : ℕ} {l : Level} (h : l.Fits n) :
    l.close.depthIn false true ≤ 3 * n + 6 := by
  have hcurrent := h.current
  have hle := depthIn_le_succ l.current false true true false
  unfold Level.close
  cases hb : l.before with
  | none =>
    dsimp only
    omega
  | some b =>
    have hbefore := h.before b hb
    simp only [depthIn, if_true]
    omega

/-- The branches before a comma are one choice. -/
theorem Level.Fits.next {n : ℕ} {l : Level} (h : l.Fits n) : Level.Fits n ⟨some l.close, empty⟩ := by
  refine ⟨Nat.zero_le _, fun b hb => ?_⟩
  obtain rfl := Option.some.inj hb
  exact h.depth_close_le

/-- A group needs the room of one more alternation. -/
theorem Level.Fits.depth_group_le {n : ℕ} {l : Level} (h : l.Fits n) :
    (group l.close).depthIn true false ≤ 3 * (n + 1) + 5 := by
  have hclose := h.depth_close_le
  have hle := depthIn_le_succ l.close false false false true
  rw [depthIn]
  omega

theorem LevelsFit.head {l : Level} : ∀ {ls : List Level}, LevelsFit bound l ls →
    l.Fits (bound - ls.length)
  | [], h => h
  | _ :: _, h => h.1

/-- The innermost level may be exchanged for another one that fits. -/
theorem LevelsFit.exchange {l l' : Level} : ∀ {ls : List Level}, LevelsFit bound l ls →
    l'.Fits (bound - ls.length) → LevelsFit bound l' ls
  | [], _, h' => h'
  | _ :: _, h, h' => ⟨h', h.2⟩

/-! ### Reading tokens that fit -/

/-- A token that is no mark of an alternation and no class has an expression of small depth. -/
theorem exists_part? {t : Token} (hb : t.isBracket = false) (hm : t.isInnerMark = false)
    (ho : t ≠ .openGroup) : ∃ r, part? t = some r ∧ r.depthIn true false ≤ 5 := by
  cases t with
  | bracket b => cases hb
  | nextBranch => cases hm
  | closeGroup => cases hm
  | openGroup => exact absurd rfl ho
  | literal c => exact ⟨_, rfl, by simp [depthIn, CharSet.depth]⟩
  | nameChar => exact ⟨_, rfl, by simp [depthIn, CharSet.depth]⟩
  | nameRun => exact ⟨_, rfl, by simp [depthIn, CharSet.depth]⟩
  | anyRun => exact ⟨_, rfl, by simp [depthIn, CharSet.depth]⟩
  | segments => exact ⟨_, rfl, by decide⟩
  | integer r => exact ⟨_, rfl, by simp [depthIn, integerDepth]⟩

/-- **One token that fits.** -/
theorem step_of_fits {l : Level} {ls : List Level} {t : Token} (hl : LevelsFit bound l ls)
    (hle : ls.length ≤ bound) (hb : t.isBracket = false) (hm : t.isInnerMark = true → 0 < ls.length)
    (hd : t.depthAfter ls.length ≤ bound) :
    ∃ l' ls', step (l, ls) t = some (l', ls') ∧ ls'.length = t.depthAfter ls.length ∧
      LevelsFit bound l' ls' := by
  by_cases ho : t = .openGroup
  · subst ho
    exact ⟨Level.start, l :: ls, rfl, rfl, Level.fits_start _, hl⟩
  · cases hmark : t.isInnerMark with
    | false =>
      obtain ⟨r, hr, hdepth⟩ := exists_part? hb hmark ho
      have hafter : t.depthAfter ls.length = ls.length := by
        cases t with
        | openGroup => exact absurd rfl ho
        | closeGroup => cases hmark
        | _ => rfl
      exact ⟨l.add r, ls, step_part hr l ls, hafter.symm, hl.exchange (hl.head.add (by omega))⟩
    | true =>
      obtain ⟨o, os, rfl⟩ := List.exists_cons_of_length_pos (hm hmark)
      cases t with
      | nextBranch => exact ⟨⟨some l.close, empty⟩, o :: os, rfl, rfl, hl.exchange hl.head.next⟩
      | closeGroup =>
        refine ⟨o.add (group l.close), os, rfl, rfl, hl.2.exchange (hl.2.head.add ?_)⟩
        have hgroup := hl.1.depth_group_le
        rw [List.length_cons] at hgroup hle
        omega
      | _ => cases hmark

/-- **Tokens that fit** are read, and close all levels. -/
theorem run_of_fits : ∀ {ts : List Token} {l : Level} {ls : List Level}, LevelsFit bound l ls →
    ls.length ≤ bound → Token.fits bound ls.length ts = true →
      ∃ l', run (l, ls) ts = some (l', []) ∧ l'.Fits bound
  | [], l, ls, hl, _, h => by
    rw [Token.fits, beq_iff_eq] at h
    obtain rfl := List.eq_nil_of_length_eq_zero h
    exact ⟨l, rfl, hl⟩
  | t :: ts, l, ls, hl, hle, h => by
    rw [Token.fits_cons] at h
    obtain ⟨hb, hm, hd, hrest⟩ := h
    obtain ⟨l₁, ls₁, hstep, hlen, hl₁⟩ := step_of_fits hl hle hb hm hd
    have hrest₁ : Token.fits bound ls₁.length ts = true := by rwa [hlen]
    obtain ⟨l', hrun, hl'⟩ := run_of_fits hl₁ (by omega) hrest₁
    exact ⟨l', by rw [run, hstep]; exact hrun, hl'⟩

theorem run_start_of_fits {ts : List Token} (h : Token.fits bound 0 ts = true) :
    ∃ l, run (Level.start, []) ts = some (l, []) ∧ l.Fits bound := by
  have hstart : LevelsFit bound Level.start [] := Level.fits_start bound
  exact run_of_fits hstart (Nat.zero_le _) h

/-- The greatest bound below which the depth of tokens is not too great. -/
def maxBound : ℕ := 80

theorem ofTokens?_of_fits (hmax : bound ≤ maxBound) {ts : List Token}
    (h : Token.fits bound 0 ts = true) :
    ∃ r, tree? ts = some r ∧ ofTokens? ts = some r := by
  obtain ⟨l, hrun, hl⟩ := run_start_of_fits h
  have htree : tree? ts = some l.close := by rw [tree?, hrun]
  have hclose := hl.depth_close_le
  have hle := depthIn_le_succ l.close true false false true
  have hdepth : l.close.depth ≤ maxDepth := by
    unfold maxBound at hmax
    unfold depth maxDepth
    omega
  exact ⟨l.close, htree, by rw [ofTokens?, htree, Option.filter_some, if_pos (decide_eq_true hdepth)]⟩

/-! ### What reading keeps -/

/-- A property of expressions that levels keep: every expression that is built of others has it if they do. -/
structure IsKept (P : Regex → Prop) : Prop where
  empty : P empty
  andThen : ∀ {a b : Regex}, P a → P b → P (a.andThen b)
  alt : ∀ {a b : Regex}, P a → P b → P (alt a b)
  group : ∀ {a : Regex}, P a → P (group a)

/-- A property of the expressions of a level. -/
structure Level.All (P : Regex → Prop) (l : Level) : Prop where
  current : P l.current
  before : ∀ b ∈ l.before, P b

variable {P : Regex → Prop}

theorem IsKept.all_start (hP : IsKept P) : Level.start.All P :=
  ⟨hP.empty, fun _ hb => absurd hb (by simp [Level.start])⟩

theorem IsKept.close (hP : IsKept P) {l : Level} (h : l.All P) : P l.close := by
  unfold Level.close
  cases hb : l.before with
  | none => exact h.current
  | some b => exact hP.alt (h.before b hb) h.current

theorem IsKept.add (hP : IsKept P) {l : Level} (h : l.All P) {r : Regex} (hr : P r) : (l.add r).All P :=
  ⟨hP.andThen h.current hr, h.before⟩

/-- **One token keeps the property**, if its expression has it. -/
theorem IsKept.step (hP : IsKept P) {k : Token} (hk : ∀ r, part? k = some r → P r) {l l' : Level}
    {ls ls' : List Level} (h : step (l, ls) k = some (l', ls')) (hl : ∀ m ∈ l :: ls, m.All P) :
    ∀ m ∈ l' :: ls', m.All P := by
  obtain ⟨hinner, houter⟩ := List.forall_mem_cons.mp hl
  obtain ⟨r, hr, he⟩ | ⟨-, he⟩ | ⟨-, he⟩ | ⟨-, o, os, rfl, he⟩ := step_cases h
  · cases he
    exact List.forall_mem_cons.mpr ⟨hP.add hinner (hk r hr), houter⟩
  · cases he
    exact List.forall_mem_cons.mpr ⟨hP.all_start, hl⟩
  · cases he
    refine List.forall_mem_cons.mpr ⟨⟨hP.empty, fun b hb => ?_⟩, houter⟩
    obtain rfl := Option.some.inj hb
    exact hP.close hinner
  · cases he
    obtain ⟨ho, hos⟩ := List.forall_mem_cons.mp houter
    exact List.forall_mem_cons.mpr ⟨hP.add ho (hP.group (hP.close hinner)), hos⟩

theorem IsKept.run (hP : IsKept P) : ∀ {ts : List Token}, (∀ k ∈ ts, ∀ r, part? k = some r → P r) →
    ∀ {l l' : Level} {ls ls' : List Level}, run (l, ls) ts = some (l', ls') → (∀ m ∈ l :: ls, m.All P) →
      ∀ m ∈ l' :: ls', m.All P
  | [], _, _, _, _, _, h, hl => by cases h; exact hl
  | k :: ts, hts, l, l', ls, ls', h, hl => by
    obtain ⟨hk, hts⟩ := List.forall_mem_cons.mp hts
    obtain ⟨levels, hstep, h⟩ := run_cons_eq_some_iff.mp h
    exact hP.run hts h (hP.step hk hstep hl)

/-- **A property that is kept is one of the whole expression**, if those of the tokens have it. -/
theorem IsKept.tree? (hP : IsKept P) {ts : List Token} (hts : ∀ k ∈ ts, ∀ r, part? k = some r → P r)
    {r : Regex} (h : tree? ts = some r) : P r := by
  obtain ⟨l, hrun, rfl⟩ := tree?_eq_some_iff.mp h
  have hall := hP.run hts hrun (List.forall_mem_singleton.mpr hP.all_start)
  exact hP.close (hall l List.mem_cons_self)

/-! ### Tokens without ranges -/

theorem isKept_catchesNone : IsKept fun r => r.catchesNone = true where
  empty := rfl
  andThen ha hb := by rw [catchesNone_andThen, ha, hb, Bool.and_self]
  alt ha hb := by rw [catchesNone, ha, hb, Bool.and_self]
  group ha := ha

theorem catchesNone_of_part? {t : Token} (ht : t.range? = none) {r : Regex} (h : part? t = some r) :
    r.catchesNone = true := by
  cases t with
  | integer r => cases ht
  | bracket b =>
    obtain ⟨reading, -, rfl⟩ := Option.map_eq_some_iff.mp h
    rfl
  | openGroup => cases h
  | nextBranch => cases h
  | closeGroup => cases h
  | _ => cases h; rfl

/-- **Tokens without ranges catch nothing.** -/
theorem catchesNone_of_tree? {ts : List Token} (hts : Token.rangesOf ts = []) {r : Regex}
    (h : tree? ts = some r) : r.catchesNone = true :=
  isKept_catchesNone.tree?
    (fun k hk _ hr => catchesNone_of_part? (List.filterMap_eq_nil_iff.mp hts k hk) hr) h

/-! ### Tokens inside of others -/

/-- Levels that stay outside do not matter. -/
theorem step_frame {l l' : Level} {ls ls' : List Level} {t : Token} (h : step (l, ls) t = some (l', ls'))
    (outer : List Level) : step (l, ls ++ outer) t = some (l', ls' ++ outer) := by
  obtain ⟨r, hr, he⟩ | ⟨rfl, he⟩ | ⟨rfl, he⟩ | ⟨rfl, o, os, rfl, he⟩ := step_cases h
  · cases he
    exact step_part hr l (ls ++ outer)
  · cases he
    rfl
  · cases he
    rfl
  · cases he
    rfl

theorem run_frame : ∀ {ts : List Token} {l l' : Level} {ls ls' : List Level},
    run (l, ls) ts = some (l', ls') → ∀ outer : List Level,
      run (l, ls ++ outer) ts = some (l', ls' ++ outer)
  | [], _, _, _, _, h, _ => by cases h; rfl
  | t :: ts, l, l', ls, ls', h, outer => by
    obtain ⟨levels, hstep, h⟩ := run_cons_eq_some_iff.mp h
    rw [run, step_frame hstep outer]
    exact run_frame h outer

theorem run_append : ∀ {ts : List Token} {levels levels' : Level × List Level},
    run levels ts = some levels' → ∀ us : List Token, run levels (ts ++ us) = run levels' us
  | [], _, _, h, us => by cases h; rfl
  | t :: ts, levels, levels', h, us => by
    obtain ⟨levels₁, hstep, h⟩ := run_cons_eq_some_iff.mp h
    rw [List.cons_append, run, hstep]
    exact run_append h us

/-- A run over two lists of tokens goes through the end of the first one. -/
theorem exists_run_of_run_append : ∀ {ts us : List Token} {x y : Level × List Level},
    run x (ts ++ us) = some y → ∃ z, run x ts = some z ∧ run z us = some y
  | [], _, x, _, h => ⟨x, rfl, h⟩
  | k :: ts, us, x, y, h => by
    rw [List.cons_append] at h
    obtain ⟨x₁, hstep, h⟩ := run_cons_eq_some_iff.mp h
    obtain ⟨z, hz, hy⟩ := exists_run_of_run_append h
    exact ⟨z, run_cons_eq_some_iff.mpr ⟨x₁, hstep, hz⟩, hy⟩

/-- Tokens that are parts of a branch are added to the innermost level. -/
theorem run_of_parts : ∀ {ts : List Token}, (∀ k ∈ ts, (part? k).isSome = true) → ∀ (l : Level)
    (ls : List Level), run (l, ls) ts = some ((ts.filterMap part?).foldl Level.add l, ls)
  | [], _, _, _ => rfl
  | k :: ts, h, l, ls => by
    obtain ⟨hk, hts⟩ := List.forall_mem_cons.mp h
    obtain ⟨r, hr⟩ := Option.isSome_iff_exists.mp hk
    rw [run_part hr, List.filterMap_cons_some hr]
    exact run_of_parts hts (l.add r) ls

/-- The tokens add the parts to the branch that is being read, wherever they stand. -/
def AddParts (ts : List Token) (parts : List Regex) : Prop :=
  ∀ (o : Level) (outer : List Level) (us : List Token),
    run (o, outer) (ts ++ us) = run (parts.foldl Level.add o, outer) us

/-- **Tokens that fit add the same parts** wherever they stand. -/
theorem exists_parts_of_fits {ts : List Token} (h : Token.fits bound 0 ts = true) :
    ∃ parts : List Regex, AddParts ts parts := by
  obtain ⟨l, hrun, -⟩ := run_start_of_fits h
  have hmarks : Token.marksInside ([] : List Level).length ts = true := Token.marksInside_of_fits h
  rcases run_stack hmarks with hnone | ⟨inner', parts, hparts⟩
  · exact absurd ((hnone Level.start).symm.trans hrun) (by simp)
  · -- No alternation is open at the end, so only the outermost level is left.
    have hinner : inner' = [] := by
      have he := (hparts Level.start).symm.trans hrun
      rcases inner' with _ | ⟨l₁, ls₁⟩
      · rfl
      · simp [stack] at he
    subst hinner
    exact ⟨parts, fun o outer us => run_append (run_frame (hparts o) outer) us⟩

end Regex

end EditorSettings
