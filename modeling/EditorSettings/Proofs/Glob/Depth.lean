import EditorSettings.Proofs.Glob.Braces

/-!
# How deep the tokens of a text nest

Wherever the braces of a text close, no more alternations are open than braces (`Token.fits_scan_of_nests`),
and none is left open at the end.  What the scanner takes for a group without a comma closes one brace, but may
open several, so behind it at least as many braces are open as in front of it (`Glob.Nests.of_group`), while
the number of open alternations is the same.  In such a group there are no alternations at all
(`Token.isPlain_of_mem_scan`).
-/

namespace EditorSettings

namespace Glob

/-! ### Braces that close -/

/-- The greatest number of open braces, `depth` being open at the beginning. -/
def nestingFrom : ℕ → Text → ℕ
  | depth, [] => depth
  | depth, c :: t =>
    if c = '{' then nestingFrom (depth + 1) t
    else if c = '}' then max depth (nestingFrom (depth - 1) t)
    else nestingFrom depth t

theorem le_nestingFrom (t : Text) : ∀ d : ℕ, d ≤ nestingFrom d t := by
  induction t with
  | nil => exact fun d => le_refl d
  | cons c t ih =>
    intro d
    have h1 := ih (d + 1)
    have h2 := ih d
    rw [nestingFrom]
    split_ifs <;> omega

/-- **A text that closes `depth` open braces and its own**, nests them up to `bound` at most, and has no bare
bracket. -/
structure Nests (bound depth : ℕ) (t : Text) : Prop where
  bracket : '[' ∉ t.bare
  closes : Token.closesFrom depth t = true
  nesting : nestingFrom depth (marks t) ≤ bound

namespace Nests

variable {bound d : ℕ} {t : Text}

theorem depth_le (h : Nests bound d t) : d ≤ bound := (le_nestingFrom (marks t) d).trans h.nesting

theorem of_pair {c : Char} (h : Nests bound d ('\\' :: c :: t)) : Nests bound d t := by
  obtain ⟨h1, h2, h3⟩ := h
  exact ⟨h1, by rwa [Token.closesFrom] at h2, h3⟩

/-- A character that is no brace does not matter. -/
theorem of_cons {c : Char} (hb : c ≠ '\\') (ho : c ≠ '{') (hc : c ≠ '}') (h : Nests bound d (c :: t)) :
    Nests bound d t := by
  obtain ⟨h1, h2, h3⟩ := h
  rw [Text.bare_cons hb, List.mem_cons, not_or] at h1
  rw [Token.closesFrom_cons (by simp [Token.isBraceMark, hb, ho, hc])] at h2
  refine ⟨h1.2, h2, ?_⟩
  cases hm : isMark c with
  | false => rwa [marks_cons_of_not hb hm] at h3
  | true => rwa [marks_cons hb hm, nestingFrom, if_neg ho, if_neg hc] at h3

theorem of_open (h : Nests bound d ('{' :: t)) : Nests bound (d + 1) t := by
  obtain ⟨h1, h2, h3⟩ := h
  rw [Text.bare_cons (by decide), List.mem_cons, not_or] at h1
  rw [Token.closesFrom] at h2
  rw [marks_cons (by decide) (by decide), nestingFrom, if_pos rfl] at h3
  exact ⟨h1.2, h2, h3⟩

theorem of_close (h : Nests bound d ('}' :: t)) : ∃ e, d = e + 1 ∧ Nests bound e t := by
  obtain ⟨h1, h2, h3⟩ := h
  rw [Text.bare_cons (by decide), List.mem_cons, not_or] at h1
  rw [marks_cons (by decide) (by decide), nestingFrom, if_neg (by decide), if_pos rfl] at h3
  rcases d with _ | e
  · rw [Token.closesFrom] at h2
    cases h2
  · rw [Token.closesFrom] at h2
    exact ⟨e, rfl, h1.2, h2, (le_max_right _ _).trans h3⟩

/-- A text whose marks only open braces leaves at least as many of them open. -/
theorem of_append {u : Text} (hp : u.Paired) (hm : ∀ c ∈ marks u, c = '{') :
    ∀ {d : ℕ}, Nests bound d (u ++ t) → ∃ e, d ≤ e ∧ Nests bound e t := by
  induction hp with
  | nil => exact fun h => ⟨_, le_rfl, h⟩
  | pair c _ ih => exact fun h => ih hm (of_pair h)
  | @single c hb u _ ih =>
    intro d h
    cases hc : isMark c with
    | false =>
      rw [marks_cons_of_not hb hc] at hm
      have hne : c ≠ '{' ∧ c ≠ '}' := by
        constructor <;> rintro rfl <;> exact absurd hc (by decide)
      exact ih hm (of_cons hb hne.1 hne.2 h)
    | true =>
      rw [marks_cons hb hc] at hm
      obtain ⟨rfl, hopens⟩ := List.forall_mem_cons.mp hm
      obtain ⟨e, he, ht⟩ := ih hopens (of_open h)
      exact ⟨e, by omega, ht⟩

/-- **Behind a group without a comma** at least as many braces are open as in front of it. -/
theorem of_group (h : Nests bound d ('{' :: t)) {inside rest : Text}
    (hg : Token.wordGroup? t = some (inside, rest)) :
    '[' ∉ inside.bare ∧ ∃ e, d ≤ e ∧ Nests bound e rest := by
  obtain ⟨hp, hm⟩ := Token.paired_of_wordGroup? hg
  have hopen := h.of_open
  rw [Token.eq_append_of_wordGroup? hg] at hopen
  have hbracket := hopen.bracket
  rw [hp.bare_append, List.mem_append, not_or] at hbracket
  obtain ⟨e, he, hclose⟩ := of_append hp hm hopen
  obtain ⟨e', rfl, hrest⟩ := hclose.of_close
  exact ⟨hbracket.1, e', by omega, hrest⟩

end Nests

end Glob

namespace Token

/-! ### Plain tokens -/

/-- Tokens that are no classes and no marks of alternations. -/
def isPlain : Token → Bool
  | .bracket _ | .openGroup | .nextBranch | .closeGroup => false
  | _ => true

/-- A plain token has an expression. -/
theorem isSome_part?_of_isPlain {k : Token} (hk : k.isPlain = true) : (Regex.part? k).isSome = true := by
  cases k with
  | bracket b => cases hk
  | openGroup => cases hk
  | nextBranch => cases hk
  | closeGroup => cases hk
  | _ => rfl

variable {bound : ℕ}

theorem fits_cons_of_isPlain {k : Token} (hk : k.isPlain = true) {d : ℕ} (hd : d ≤ bound)
    {ts : List Token} (h : fits bound d ts = true) : fits bound d (k :: ts) = true := by
  rw [fits_cons]
  cases k with
  | bracket b => cases hk
  | openGroup => cases hk
  | nextBranch => cases hk
  | closeGroup => cases hk
  | _ => exact ⟨rfl, fun hm => absurd hm Bool.false_ne_true, hd, h⟩

theorem fits_append_of_isPlain {us : List Token} {d : ℕ} (hd : d ≤ bound)
    (hu : fits bound d us = true) : ∀ {ts : List Token}, (∀ k ∈ ts, k.isPlain = true) →
      fits bound d (ts ++ us) = true
  | [], _ => hu
  | k :: _, h => fits_cons_of_isPlain (h k List.mem_cons_self) hd
      (fits_append_of_isPlain hd hu fun j hj => h j (List.mem_cons_of_mem k hj))

/-- **Without bare brackets all tokens are plain** where there are no alternations, and without bare marks
everywhere. -/
theorem isPlain_of_mem_scan {alternates : Bool} {d : ℕ} {t : Text} (hb : '[' ∉ t.bare)
    (hm : Glob.marks t = [] ∨ alternates = false ∧ d = 0) :
    ∀ k ∈ scan alternates d t, k.isPlain = true := by
  have htail : ∀ {c : Char} {u : Text} {P : Prop}, c ≠ '\\' → '[' ∉ Text.bare (c :: u) →
      Glob.marks (c :: u) = [] ∨ P → '[' ∉ u.bare ∧ (Glob.marks u = [] ∨ P) := by
    intro c u P hc hb hm
    rw [Text.bare_cons hc, List.mem_cons, not_or] at hb
    refine ⟨hb.2, hm.imp_left fun hm => ?_⟩
    rw [Glob.marks, Text.bare_cons hc] at hm
    exact List.filter_eq_nil_iff.mpr fun e he =>
      List.filter_eq_nil_iff.mp hm e (List.mem_cons_of_mem c he)
  have hopen : ∀ {c : Char} {u : Text}, c ≠ '\\' → Glob.isMark c = true → Glob.marks (c :: u) ≠ [] :=
    fun hc hmark => by rw [Glob.marks_cons hc hmark]; exact List.cons_ne_nil _ _
  fun_induction scan alternates d t with
  | case1 => exact fun k hk => absurd hk List.not_mem_nil
  | case2 => exact List.forall_mem_singleton.mpr rfl
  | case3 alternates d c t ih => exact List.forall_mem_cons.mpr ⟨rfl, ih hb hm⟩
  | case4 alternates d t ih =>
    obtain ⟨hb, hm⟩ := htail (by decide) hb hm
    obtain ⟨hb, hm⟩ := htail (by decide) hb hm
    exact List.forall_mem_cons.mpr ⟨rfl, ih hb hm⟩
  | case7 => exact absurd List.mem_cons_self hb
  | case8 => exact absurd List.mem_cons_self hb
  | case9 alternates d t inside rest hg range _ ih =>
    obtain ⟨hb, -⟩ := htail (by decide) hb hm
    rw [eq_append_of_wordGroup? hg, (paired_of_wordGroup? hg).1.bare_append, List.mem_append, not_or] at hb
    have hno := hm.resolve_left (hopen (by decide) (by decide))
    exact List.forall_mem_cons.mpr ⟨rfl, ih (htail (by decide) hb.2 (.inr hno)).1 (.inr hno)⟩
  | case10 alternates d t inside rest hg _ ihin ih =>
    obtain ⟨hb, -⟩ := htail (by decide) hb hm
    rw [eq_append_of_wordGroup? hg, (paired_of_wordGroup? hg).1.bare_append, List.mem_append, not_or] at hb
    have hno := hm.resolve_left (hopen (by decide) (by decide))
    have hrest := ih (htail (by decide) hb.2 (.inr hno)).1 (.inr hno)
    have hinside := ihin hb.1 ((Glob.marks_eq_nil_or_of_group hg).imp_right (⟨·, rfl⟩))
    refine List.forall_mem_cons.mpr ⟨rfl, fun k hk => ?_⟩
    rcases List.mem_append.mp hk with hk | hk
    · exact hinside k hk
    · rcases List.mem_cons.mp hk with rfl | hk
      · rfl
      · exact hrest k hk
  | case11 d t _ _ =>
    rcases hm with hm | ⟨hm, -⟩
    · exact absurd hm (hopen (by decide) (by decide))
    · cases hm
  | case13 alternates d t ih =>
    obtain ⟨-, rfl⟩ := hm.resolve_left (hopen (by decide) (by decide))
    obtain ⟨hb, hm⟩ := htail (by decide) hb hm
    exact List.forall_mem_cons.mpr ⟨rfl, ih hb hm⟩
  | case14 alternates d t ih =>
    obtain ⟨-, rfl⟩ := hm.resolve_left (hopen (by decide) (by decide))
    obtain ⟨hb, hm⟩ := htail (by decide) hb hm
    exact List.forall_mem_cons.mpr ⟨rfl, ih hb hm⟩
  | case15 alternates d t ih =>
    obtain ⟨hb, hm⟩ := htail (by decide) hb hm
    obtain ⟨hb, hm⟩ := htail (by decide) hb hm
    obtain ⟨hb, hm⟩ := htail (by decide) hb hm
    obtain ⟨hb, hm⟩ := htail (by decide) hb hm
    exact List.forall_mem_cons.mpr ⟨rfl, ih hb hm⟩
  | case16 alternates d c t h1 h2 _ _ _ _ _ _ _ _ ih =>
    obtain ⟨hb, hm⟩ := htail (Text.ne_backslash h1 h2) hb hm
    exact List.forall_mem_cons.mpr ⟨rfl, ih hb hm⟩
  | case5 alternates d t _ ih | case6 alternates d t ih | case12 alternates d t _ _ ih =>
    obtain ⟨hb, hm⟩ := htail (by decide) hb hm
    exact List.forall_mem_cons.mpr ⟨rfl, ih hb hm⟩

/-! ### Tokens that fit -/

/-- **The tokens of a text whose braces close fit** below the nesting of its braces: no more alternations are
open than braces. -/
theorem fits_scan_of_nests {alternates : Bool} {d D : ℕ} {t : Text} (h : Glob.Nests bound D t)
    (ha : alternates = true) (hd : d ≤ D) : fits bound d (scan alternates d t) = true := by
  have hle := hd.trans h.depth_le
  fun_induction scan alternates d t generalizing D with
  | case1 alternates d =>
    have hD : D = 0 := by simpa [closesFrom] using h.closes
    rw [fits, beq_iff_eq]
    omega
  | case2 alternates d =>
    have hD : D = 0 := by simpa [closesFrom] using h.closes
    refine fits_cons_of_isPlain rfl hle ?_
    rw [fits, beq_iff_eq]
    omega
  | case3 alternates d c t ih => exact fits_cons_of_isPlain rfl hle (ih h.of_pair ha hd hle)
  | case4 alternates d t ih =>
    have ht := (h.of_cons (by decide) (by decide) (by decide)).of_cons (by decide) (by decide) (by decide)
    exact fits_cons_of_isPlain rfl hle (ih ht ha hd hle)
  | case5 alternates d t _ ih =>
    have ht := h.of_cons (by decide) (by decide) (by decide)
    exact fits_cons_of_isPlain rfl hle (ih ht ha hd hle)
  | case6 alternates d t ih =>
    have ht := h.of_cons (by decide) (by decide) (by decide)
    exact fits_cons_of_isPlain rfl hle (ih ht ha hd hle)
  | case7 => exact absurd List.mem_cons_self h.bracket
  | case8 => exact absurd List.mem_cons_self h.bracket
  | case9 alternates d t inside r hg range _ ih =>
    obtain ⟨-, E, hE, hrest⟩ := h.of_group hg
    exact fits_cons_of_isPlain rfl hle (ih hrest ha (hd.trans hE) hle)
  | case10 alternates d t inside r hg _ _ ih =>
    obtain ⟨hinside, E, hE, hrest⟩ := h.of_group hg
    have hr := fits_cons_of_isPlain (k := literal '}') rfl hle (ih hrest ha (hd.trans hE) hle)
    have hplain := isPlain_of_mem_scan hinside ((Glob.marks_eq_nil_or_of_group hg).imp_right (⟨·, rfl⟩))
    exact fits_cons_of_isPlain rfl hle (fits_append_of_isPlain hle hr hplain)
  | case11 d t _ ih =>
    have hle' := (Nat.succ_le_succ hd).trans h.of_open.depth_le
    rw [fits_cons]
    exact ⟨rfl, fun hm => absurd hm Bool.false_ne_true, hle', ih h.of_open ha (by omega) hle'⟩
  | case12 alternates d t _ hnot => exact absurd ha hnot
  | case13 alternates d t ih =>
    have ht := ih (h.of_cons (by decide) (by decide) (by decide)) ha hd hle
    split
    · exact fits_cons_of_isPlain rfl hle ht
    · next hpos => exact fits_cons.mpr ⟨rfl, fun _ => Nat.pos_of_ne_zero hpos, hle, ht⟩
  | case14 alternates d t ih =>
    obtain ⟨E, rfl, hrest⟩ := h.of_close
    have ht := ih hrest ha (by omega) (by omega)
    split
    · next hzero =>
      subst hzero
      exact fits_cons_of_isPlain rfl hle ht
    · next hpos =>
      exact fits_cons.mpr ⟨rfl, fun _ => Nat.pos_of_ne_zero hpos, by simp only [depthAfter]; omega, ht⟩
  | case15 alternates d t ih =>
    have ht := (((h.of_cons (by decide) (by decide) (by decide)).of_cons (by decide) (by decide)
      (by decide)).of_cons (by decide) (by decide) (by decide)).of_cons (by decide) (by decide) (by decide)
    exact fits_cons_of_isPlain rfl hle (ih ht ha hd hle)
  | case16 alternates d c t h1 h2 h3 h4 h5 h6 h7 h8 h9 h10 ih =>
    have ht := h.of_cons (Text.ne_backslash h1 h2) h7 h9
    exact fits_cons_of_isPlain rfl hle (ih ht ha hd hle)

/-- **The tokens of a balanced text fit** below the nesting of its braces. -/
theorem fits_scan {alternates : Bool} {d : ℕ} {t : Text} (h : Glob.Balanced d t)
    (ha : alternates = true) (hn : Glob.nestingFrom d (Glob.marks t) ≤ bound) :
    fits bound d (scan alternates d t) = true :=
  fits_scan_of_nests ⟨h.bracket, h.closes, hn⟩ ha le_rfl

end Token

end EditorSettings
