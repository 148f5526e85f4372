import EditorSettings.Proofs.Glob.Pieces

/-!
# Two texts read in step

Behind the same beginning, two texts are read in step: the tokens of the beginning are the same in front of
both, and what relates the tokens of the texts relates those of the whole (`Token.related_scan_append`).  This
holds of every relation of token lists that further tokens on both sides keep (`Token.Compatible`).

There are two places where the beginning and what follows it are read together.  A slash or a star at the end
of the beginning may be read with what follows, and the search behind an open brace may go on in what follows;
then it must end at the same place in both texts (`Token.SearchedInStep`).
-/

namespace EditorSettings

open Token

namespace Glob

/-! ### A star at the end -/

/-- The last character of a text is a bare star. -/
def EndsInStar (t : Text) : Prop := t.getLast? = some '*' ∧ '\\' ∉ Text.bare t.dropLast

instance (t : Text) : Decidable (EndsInStar t) :=
  inferInstanceAs (Decidable (t.getLast? = some '*' ∧ '\\' ∉ Text.bare t.dropLast))

theorem endsInStar_concat {t : Text} (ht : t.Paired) : EndsInStar (t ++ ['*']) :=
  ⟨List.getLast?_concat, by rw [List.dropLast_concat]; exact ht.not_mem_bare⟩

theorem EndsInStar.exists_eq {t : Text} (h : EndsInStar t) : ∃ u, u.Paired ∧ t = u ++ ['*'] := by
  obtain ⟨hlast, hback⟩ := h
  exact ⟨t.dropLast, Text.paired_of_not_mem hback, (List.dropLast_append_getLast? _ hlast).symm⟩

theorem EndsInStar.append {p t : Text} (hp : p.Paired) (h : EndsInStar t) : EndsInStar (p ++ t) := by
  obtain ⟨u, hu, rfl⟩ := h.exists_eq
  rw [← List.append_assoc]
  exact endsInStar_concat (hp.append hu)

theorem EndsInStar.of_append {p t : Text} (h : EndsInStar (p ++ t)) (hp : p.Paired) (ht : t ≠ []) :
    EndsInStar t := by
  obtain ⟨hlast, hback⟩ := h
  rw [List.getLast?_append_of_ne_nil p ht] at hlast
  rw [List.dropLast_append_of_ne_nil ht, hp.bare_append, List.mem_append, not_or] at hback
  exact ⟨hlast, hback.2⟩

end Glob

namespace Token

/-! ### Related tokens -/

/-- **A relation of token lists** that further tokens on both sides keep. -/
structure Compatible (R : List Token → List Token → Prop) : Prop where
  cons : ∀ (k : Token) {ts us : List Token}, R ts us → R (k :: ts) (k :: us)
  append : ∀ {ts us : List Token} (vs : List Token), R ts us → R (ts ++ vs) (us ++ vs)

variable {R : List Token → List Token → Prop}

theorem Compatible.behind (hR : Compatible R) {ts us : List Token} (h : R ts us) :
    ∀ vs : List Token, R (vs ++ ts) (vs ++ us)
  | [] => h
  | k :: vs => hR.cons k (hR.behind h vs)

/-! ### Texts up to the end of braces -/

/-- **There is no alternation in a group without a comma**: if its braces balance, it has none. -/
theorem scan_inside {t inside rest : Text} (h : wordGroup? t = some (inside, rest)) :
    scan (closes inside) 0 inside = scan false 0 inside := by
  rcases Glob.marks_eq_nil_or_of_group h with hnone | hc
  · refine scan_eq_of_not_mem (openGroup_not_mem_scan fun hbrace => ?_)
    have hmem : '{' ∈ Glob.marks inside := List.mem_filter.mpr ⟨hbrace, rfl⟩
    rw [hnone] at hmem
    exact List.not_mem_nil hmem
  · rw [hc]

/-- There is no other end of the braces in what stands before the end. -/
theorem wordGroup?_inside {t inside rest : Text} (h : wordGroup? t = some (inside, rest)) :
    wordGroup? inside = none :=
  (isInside_of_wordGroup? h).wordGroup?_eq_none

/-- Behind a text whose marks only open braces, the search goes on. -/
theorem wordGroup?_append_of_marks {t : Text} (ht : t.Paired) (h : ∀ c ∈ Glob.marks t, c = '{')
    (s : Text) : wordGroup? (t ++ s) = (wordGroup? s).map fun r => (t ++ r.1, r.2) := by
  induction ht with
  | nil => simp
  | pair c _ ih =>
    rw [List.cons_append, List.cons_append, wordGroup?, ih h, Option.map_map]
    rfl
  | @single c hb t _ ih =>
    have hne : isGroupMark c = false ∧ ∀ e ∈ Glob.marks t, e = '{' := by
      cases hm : Glob.isMark c with
      | true =>
        rw [Glob.marks_cons hb hm] at h
        obtain ⟨rfl, hopen⟩ := List.forall_mem_cons.mp h
        exact ⟨by decide, hopen⟩
      | false =>
        rw [Glob.marks_cons_of_not hb hm] at h
        simp only [Glob.isMark, Bool.or_eq_false_iff, beq_eq_false_iff_ne] at hm
        exact ⟨by simp [isGroupMark, hb, hm], h⟩
    rw [List.cons_append, wordGroup?_cons hne.1, ih hne.2, Option.map_map]
    rfl

/-- **The search behind an open brace and a text `t` ends at the same place** in both texts, or nowhere; and
the texts up to there are read in step. -/
def SearchedInStep (R : List Token → List Token → Prop) (s s' t : Text) : Prop :=
  wordGroup? s = none ∧ wordGroup? s' = none ∨
    ∃ v v' rest, wordGroup? s = some (v, rest) ∧ wordGroup? s' = some (v', rest) ∧
      IntegerRange.ofText? (t ++ v) = none ∧ IntegerRange.ofText? (t ++ v') = none ∧
      R (scan false 0 (t ++ v)) (scan false 0 (t ++ v'))

/-! ### The beginning -/

/-- **A beginning behind which two texts are read in step**: it has no bare bracket and ends in no bare
backslash; in front of a star or a slash it ends in no star; and the search behind its open braces finds the
same in both texts. -/
structure Leads (R : List Token → List Token → Prop) (s s' x : Text) : Prop where
  paired : x.Paired
  bracket : '[' ∉ x.bare
  star : Glob.EndsInStar x → ∀ r ∈ [s, s'], ∀ u, r ≠ '*' :: u ∧ r ≠ '/' :: u
  search : ∀ u t, u.Paired → x = u ++ '{' :: t → (∀ c ∈ Glob.marks t, c = '{') → SearchedInStep R s s' t

variable {s s' : Text}

theorem Leads.of_append {p t : Text} (h : Leads R s s' (p ++ t)) (hp : p.Paired) : Leads R s s' t where
  paired := hp.of_append h.paired
  bracket := fun ht => h.bracket (by rw [hp.bare_append]; exact List.mem_append_right _ ht)
  star := fun ht => h.star (ht.append hp)
  search := fun u t hu ht => h.search (p ++ u) t (hp.append hu) (by rw [ht, List.append_assoc])

theorem Leads.of_cons {c : Char} (hc : c ≠ '\\') {t : Text} (h : Leads R s s' (c :: t)) :
    Leads R s s' t :=
  Leads.of_append (p := [c]) h (.single hc .nil)

/-- A star at the end is read on its own. -/
theorem Leads.append_ne_star {t : Text} (h : Leads R s s' ('*' :: t)) (hn : ∀ u, t ≠ '*' :: u) {r : Text}
    (hr : r ∈ [s, s']) (u : Text) : t ++ r ≠ '*' :: u := by
  intro he
  rcases t with _ | ⟨c, t⟩
  · exact (h.star (Glob.endsInStar_concat .nil) r hr u).1 he
  · exact hn t (by rw [(List.cons.inj he).1])

/-- A slash before the end is read on its own, or it begins segments that end there as well. -/
theorem Leads.append_ne_stars {t : Text} (h : Leads R s s' ('/' :: t)) (ht : t ≠ [])
    (hn : ∀ u, t ≠ '*' :: '*' :: '/' :: u) {r : Text} (hr : r ∈ [s, s']) (u : Text) :
    t ++ r ≠ '*' :: '*' :: '/' :: u := by
  intro he
  have hp : Text.Paired ['/'] := .single (by decide) .nil
  have hp' : Text.Paired ['/', '*'] := .single (by decide) (.single (by decide) .nil)
  match t, ht with
  | [c], _ =>
    simp only [List.cons_append, List.nil_append, List.cons.injEq] at he
    obtain ⟨rfl, he⟩ := he
    exact (h.star (Glob.endsInStar_concat hp) r hr _).1 he
  | [c, c'], _ =>
    simp only [List.cons_append, List.nil_append, List.cons.injEq] at he
    obtain ⟨rfl, rfl, he⟩ := he
    exact (h.star (Glob.endsInStar_concat hp') r hr _).2 he
  | c :: c' :: c'' :: t, _ =>
    simp only [List.cons_append, List.cons.injEq] at he
    obtain ⟨rfl, rfl, rfl, he⟩ := he
    exact hn t rfl

variable {alternates : Bool}

/-- Behind an open brace, the search passes a text whose marks only open further ones. -/
theorem related_scan_brace (hR : Compatible R) {t : Text} (ht : t.Paired)
    (h : ∀ c ∈ Glob.marks t, c = '{') (hsearch : SearchedInStep R s s' t) {d : ℕ}
    (ih : R (scan alternates (if alternates then d + 1 else d) (t ++ s))
      (scan alternates (if alternates then d + 1 else d) (t ++ s'))) :
    R (scan alternates d ('{' :: (t ++ s))) (scan alternates d ('{' :: (t ++ s'))) := by
  have hpass := wordGroup?_append_of_marks ht h
  rcases hsearch with ⟨hnone, hnone'⟩ | ⟨v, v', rest, hv, hv', hr, hr', hinside⟩
  · have hg : wordGroup? (t ++ s) = none := by rw [hpass, hnone, Option.map_none]
    have hg' : wordGroup? (t ++ s') = none := by rw [hpass, hnone', Option.map_none]
    rw [scan_brace_of_none hg, scan_brace_of_none hg']
    exact hR.cons _ ih
  · have hg : wordGroup? (t ++ s) = some (t ++ v, rest) := by rw [hpass, hv, Option.map_some]
    have hg' : wordGroup? (t ++ s') = some (t ++ v', rest) := by rw [hpass, hv', Option.map_some]
    rw [scan_group hg hr, scan_group hg' hr', scan_inside hg, scan_inside hg']
    exact hR.append _ (hR.cons _ hinside)

/-- Behind a brace that no bare closing brace follows before a comma, the search may reach what follows. -/
theorem related_scan_brace_of_none (hR : Compatible R) {t : Text} (hg : wordGroup? t = none)
    (hx : Leads R s s' ('{' :: t)) {d : ℕ}
    (ih : R (scan alternates (if alternates then d + 1 else d) (t ++ s))
      (scan alternates (if alternates then d + 1 else d) (t ++ s'))) :
    R (scan alternates d ('{' :: (t ++ s))) (scan alternates d ('{' :: (t ++ s'))) := by
  have ht := (hx.of_cons (by decide)).paired
  by_cases h : ∀ c ∈ Glob.marks t, c = '{'
  · exact related_scan_brace hR ht h (hx.search [] t .nil rfl h) ih
  · push Not at h
    obtain ⟨c, hc, hne⟩ := h
    have hmark : ',' ∈ Glob.marks t ∨ '}' ∈ Glob.marks t := by
      have hm := Glob.isMark_of_mem_marks hc
      simp only [Glob.isMark, Bool.or_eq_true, beq_iff_eq] at hm
      rcases hm with (rfl | rfl) | rfl
      · exact absurd rfl hne
      · exact .inl hc
      · exact .inr hc
    rw [scan_brace_of_none (wordGroup?_append_of_none ht hmark hg s),
      scan_brace_of_none (wordGroup?_append_of_none ht hmark hg s')]
    exact hR.cons _ ih

/-- **Two texts are read in step** behind the same beginning, if they are read in step on their own and behind
a slash, and the search behind open braces finds the same in both. -/
theorem related_scan_append (hR : Compatible R) {d : ℕ} {x : Text}
    (hs : ∀ d, R (scan alternates d s) (scan alternates d s'))
    (hslash : ∀ d, R (scan alternates d ('/' :: s)) (scan alternates d ('/' :: s')))
    (hx : Leads R s s' x) : R (scan alternates d (x ++ s)) (scan alternates d (x ++ s')) := by
  fun_induction scan alternates d x with
  | case1 => exact hs _
  | case2 => exact absurd hx.paired.not_mem_bare (by decide)
  | case3 _ _ c t ih =>
    have ih := ih hs hslash (hx.of_append (p := ['\\', c]) (.pair c .nil))
    simp only [List.cons_append]
    rw [scan, scan]
    exact hR.cons _ ih
  | case4 _ _ t ih =>
    have ih := ih hs hslash ((hx.of_cons (by decide)).of_cons (by decide))
    simp only [List.cons_append]
    rw [scan, scan]
    exact hR.cons _ ih
  | case5 _ _ t hn ih =>
    have ih := ih hs hslash (hx.of_cons (by decide))
    rw [List.cons_append, List.cons_append, scan_nameRun (hx.append_ne_star hn (by simp)),
      scan_nameRun (hx.append_ne_star hn (by simp))]
    exact hR.cons _ ih
  | case7 => exact absurd List.mem_cons_self hx.bracket
  | case8 => exact absurd List.mem_cons_self hx.bracket
  | case9 _ _ t inside rest hg r hr ih =>
    have hp := (paired_of_wordGroup? hg).1
    rw [eq_append_of_wordGroup? hg] at hx
    have ih := ih hs hslash (((hx.of_cons (by decide)).of_append hp).of_cons (by decide))
    rw [List.cons_append, List.cons_append, scan_integer (wordGroup?_append_of_some hg _) hr,
      scan_integer (wordGroup?_append_of_some hg _) hr]
    exact hR.cons _ ih
  | case10 _ _ t inside rest hg hr _ ih =>
    have hp := (paired_of_wordGroup? hg).1
    rw [eq_append_of_wordGroup? hg] at hx
    have ih := ih hs hslash (((hx.of_cons (by decide)).of_append hp).of_cons (by decide))
    rw [List.cons_append, List.cons_append, scan_group (wordGroup?_append_of_some hg _) hr,
      scan_group (wordGroup?_append_of_some hg _) hr]
    exact hR.behind (hR.cons _ ih) _
  | case11 d t hg ih =>
    exact related_scan_brace_of_none hR hg hx (ih hs hslash (hx.of_cons (by decide)))
  | case12 a d t hg hn ih =>
    obtain rfl := Bool.eq_false_of_not_eq_true hn
    exact related_scan_brace_of_none hR hg hx (ih hs hslash (hx.of_cons (by decide)))
  | case15 _ _ t ih =>
    have ih := ih hs hslash (hx.of_append (p := ['/', '*', '*', '/']) (Text.paired_of_not_mem (by decide)))
    simp only [List.cons_append]
    rw [scan, scan]
    exact hR.cons _ ih
  | case16 a d c t h1 h2 h3 h4 h5 h6 h7 h8 h9 h10 ih =>
    have hb := Text.ne_backslash h1 h2
    have ih := ih hs hslash (hx.of_cons hb)
    by_cases hend : c = '/' ∧ t = []
    · obtain ⟨rfl, rfl⟩ := hend
      exact hslash d
    · have hstars : c = '/' → ∀ r ∈ [s, s'], ∀ u, t ++ r ≠ '*' :: '*' :: '/' :: u := by
        rintro rfl r hr
        exact hx.append_ne_stars (fun ht => hend ⟨rfl, ht⟩) (fun u => h10 u rfl) hr
      rw [List.cons_append, List.cons_append,
        scan_cons_of_ne hb h4 h5 h6 h7 h8 h9 fun hc => hstars hc s (by simp),
        scan_cons_of_ne hb h4 h5 h6 h7 h8 h9 fun hc => hstars hc s' (by simp)]
      exact hR.cons _ ih
  | _ _ _ t ih =>
    have ih := ih hs hslash (hx.of_cons (by decide))
    rw [List.cons_append, List.cons_append, scan, scan]
    exact hR.cons _ ih

/-! ### The balance of braces -/

/-- The balance is the same behind the same beginning. -/
theorem closesFrom_append_congr (hs : ∀ d, closesFrom d s = closesFrom d s') {x : Text} (hx : x.Paired) :
    ∀ d : ℕ, closesFrom d (x ++ s) = closesFrom d (x ++ s') := by
  induction hx with
  | nil => exact hs
  | pair c _ ih =>
    intro d
    simp only [List.cons_append]
    rw [closesFrom, closesFrom, ih]
  | @single c hb t _ ih =>
    intro d
    simp only [List.cons_append]
    by_cases ho : c = '{'
    · rw [ho, closesFrom, closesFrom, ih]
    · by_cases hc : c = '}'
      · rcases d with _ | d
        · rw [hc, closesFrom, closesFrom]
        · rw [hc, closesFrom, closesFrom, ih]
      · have hmark : isBraceMark c = false := by simp [isBraceMark, hb, ho, hc]
        rw [closesFrom_cons hmark, closesFrom_cons hmark, ih]

end Token

end EditorSettings
