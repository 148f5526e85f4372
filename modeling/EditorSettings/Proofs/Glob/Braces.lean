import EditorSettings.Proofs.Glob.Nesting
import EditorSettings.Proofs.Text.Bare

/-!
# Texts with balanced braces

The bare braces and commas of a text are its marks (`Glob.marks`).  A text is balanced inside of `d` open
braces if its marks close these and its own, every comma stands inside of braces, and it has no bare bracket
(`Glob.Balanced`).

The scanner looks for the first bare comma or closing brace behind an opening brace and does not count the
braces before it.  So the marks in a group without a comma only open braces, and none of these is closed there
(`Token.IsInside`).  What the scanner takes for such a group is one only if no brace is opened in it, so the
marks `{{}` in a row are excluded as well.  Then the rest behind such a group is balanced again
(`Glob.Balanced.of_group`), and a balanced text is read on its own: in front of the end of a branch, its
tokens are followed by those of the rest, whatever alternations lie around (`Token.scan_append`).
-/

namespace EditorSettings

namespace Glob

/-! ### Marks -/

/-- The braces and the comma. -/
def isMark (c : Char) : Bool := c == '{' || c == ',' || c == '}'

/-- The bare braces and commas of a text. -/
def marks (t : Text) : Text := t.bare.filter isMark

/-- Whether every comma stands inside of braces, `depth` being open at the beginning. -/
def commasInside : ℕ → Text → Bool
  | _, [] => true
  | depth, c :: t =>
    if c = '{' then commasInside (depth + 1) t
    else if c = '}' then commasInside (depth - 1) t
    else (c != ',' || decide (0 < depth)) && commasInside depth t

theorem marks_append {s : Text} (hs : s.Paired) (t : Text) : marks (s ++ t) = marks s ++ marks t := by
  rw [marks, hs.bare_append, List.filter_append]
  rfl

theorem marks_cons {c : Char} (hb : c ≠ '\\') (hc : isMark c = true) (t : Text) :
    marks (c :: t) = c :: marks t := by
  rw [marks, Text.bare_cons hb, List.filter_cons_of_pos hc]
  rfl

theorem marks_cons_of_not {c : Char} (hb : c ≠ '\\') (hc : isMark c = false) (t : Text) :
    marks (c :: t) = marks t := by
  rw [marks, Text.bare_cons hb, List.filter_cons_of_neg (by simp [hc])]
  rfl

theorem isMark_eq_false {c : Char} (ho : c ≠ '{') (hcomma : c ≠ ',') (hc : c ≠ '}') :
    isMark c = false := by
  simp only [isMark, Bool.or_eq_false_iff, beq_eq_false_iff_ne]
  exact ⟨⟨ho, hcomma⟩, hc⟩

theorem isMark_of_mem_marks {c : Char} {t : Text} (h : c ∈ marks t) : isMark c = true :=
  (List.mem_filter.mp h).2

/-- Whether braces balance depends on the marks only. -/
theorem closesFrom_marks {t : Text} (ht : t.Paired) : ∀ d : ℕ,
    Token.closesFrom d t = Token.closesFrom d (marks t) := by
  induction ht with
  | nil => exact fun _ => rfl
  | pair c _ ih => exact fun d => by rw [Token.closesFrom, ih]; rfl
  | @single c hc t _ ih =>
    intro d
    cases hm : isMark c with
    | false =>
      have hne : c ≠ '{' ∧ c ≠ '}' := by
        constructor <;> rintro rfl <;> exact absurd hm (by decide)
      rw [marks_cons_of_not hc hm, Token.closesFrom_cons (by simp [Token.isBraceMark, hc, hne]), ih]
    | true =>
      rw [marks_cons hc hm]
      simp only [isMark, Bool.or_eq_true, beq_iff_eq] at hm
      rcases hm with (rfl | rfl) | rfl
      · rw [Token.closesFrom, Token.closesFrom, ih]
      · rw [Token.closesFrom_cons (by decide), Token.closesFrom_cons (by decide), ih]
      · rcases d with _ | d
        · rw [Token.closesFrom, Token.closesFrom]
        · rw [Token.closesFrom, Token.closesFrom, ih]

/-! ### Texts without marks -/

/-- A text without bare braces, commas and brackets. -/
structure Plain (t : Text) : Prop where
  marks_eq : marks t = []
  bracket : '[' ∉ t.bare

/-! ### Balanced texts -/

/-- The marks `{{}` are nowhere in a row. -/
def Separate (t : Text) : Prop := ¬['{', '{', '}'] <:+: marks t

instance (t : Text) : Decidable (Separate t) :=
  @instDecidableNot _ (List.instDecidableIsInfixOfDecidableEq ['{', '{', '}'] (marks t))

/-- **A balanced text** inside of `d` open braces. -/
structure Balanced (d : ℕ) (t : Text) : Prop where
  bracket : '[' ∉ t.bare
  backslash : '\\' ∉ t.bare
  closes : Token.closesFrom d t = true
  commas : commasInside d (marks t) = true
  separate : Separate t

namespace Balanced

variable {d : ℕ} {t : Text}

theorem paired (h : Balanced d t) : t.Paired := Text.paired_of_not_mem h.backslash

theorem ne_bracket {c : Char} (hc : c ≠ '\\') (h : Balanced d (c :: t)) : c ≠ '[' := by
  have hb := h.bracket
  rw [Text.bare_cons hc, List.mem_cons, not_or] at hb
  exact Ne.symm hb.1

/-- A pair of a backslash and a character does not matter. -/
theorem of_pair {c : Char} (h : Balanced d ('\\' :: c :: t)) : Balanced d t := by
  obtain ⟨h1, h2, h3, h4, h5⟩ := h
  exact ⟨h1, h2, by rwa [Token.closesFrom] at h3, h4, h5⟩

/-- A character that is no mark does not matter. -/
theorem of_cons {c : Char} (hb : c ≠ '\\') (hc : isMark c = false) (h : Balanced d (c :: t)) :
    Balanced d t := by
  obtain ⟨h1, h2, h3, h4, h5⟩ := h
  rw [Text.bare_cons hb, List.mem_cons, not_or] at h1 h2
  have hp := Text.paired_of_not_mem h2.2
  rw [closesFrom_marks (.single hb hp)] at h3
  rw [Separate] at h5
  rw [marks_cons_of_not hb hc] at h3 h4 h5
  rw [← closesFrom_marks hp] at h3
  exact ⟨h1.2, h2.2, h3, h4, h5⟩

/-- Characters that are no marks do not matter. -/
theorem of_append : ∀ {u : Text}, '\\' ∉ u → u.any isMark = false → Balanced d (u ++ t) → Balanced d t
  | [], _, _, h => h
  | c :: u, hb, hm, h => by
    rw [List.mem_cons, not_or] at hb
    rw [List.any_cons, Bool.or_eq_false_iff] at hm
    exact of_append hb.2 hm.2 (h.of_cons (Ne.symm hb.1) hm.1)

/-- Behind a mark, the number of open braces may be another one. -/
theorem of_mark {c : Char} (hb : c ≠ '\\') (hc : isMark c = true) (h : Balanced d (c :: t)) {e : ℕ}
    (h3 : Token.closesFrom d (c :: t) = true → Token.closesFrom e t = true)
    (h4 : commasInside d (c :: marks t) = true → commasInside e (marks t) = true) : Balanced e t := by
  obtain ⟨h1, h2, hclose, hcomma, hsep⟩ := h
  rw [Text.bare_cons hb, List.mem_cons, not_or] at h1 h2
  rw [Separate] at hsep
  rw [marks_cons hb hc] at hcomma hsep
  exact ⟨h1.2, h2.2, h3 hclose, h4 hcomma, fun hi => hsep (hi.trans (List.suffix_cons c _).isInfix)⟩

/-- Behind an opening brace. -/
theorem of_open (h : Balanced d ('{' :: t)) : Balanced (d + 1) t :=
  h.of_mark (by decide) (by decide) (fun hc => by rwa [Token.closesFrom] at hc) id

/-- Behind a comma, which stands inside of braces. -/
theorem of_comma (h : Balanced d (',' :: t)) : 0 < d ∧ Balanced d t := by
  have hcommas := h.commas
  rw [marks_cons (by decide) (by decide), commasInside] at hcommas
  simp only [Char.reduceEq, if_false, bne_self_eq_false, Bool.false_or, Bool.and_eq_true,
    decide_eq_true_eq] at hcommas
  refine ⟨hcommas.1, h.of_mark (by decide) (by decide) (fun hc => ?_) fun _ => hcommas.2⟩
  rwa [Token.closesFrom_cons (by decide)] at hc

/-- Behind a closing brace, which closes one that is open. -/
theorem of_close (h : Balanced d ('}' :: t)) : ∃ e, d = e + 1 ∧ Balanced e t := by
  have hcloses := h.closes
  rcases d with _ | e
  · rw [Token.closesFrom] at hcloses
    cases hcloses
  · exact ⟨e, rfl, h.of_mark (by decide) (by decide) (fun hc => by rwa [Token.closesFrom] at hc) id⟩

end Balanced

end Glob

/-! ### Groups without a comma -/

namespace Token

/-- The inside of a group without a comma has no bare comma and no bare closing brace. -/
theorem paired_of_wordGroup? {t inside rest : Text} (h : wordGroup? t = some (inside, rest)) :
    inside.Paired ∧ ∀ c ∈ Glob.marks inside, c = '{' := by
  fun_induction wordGroup? t generalizing inside rest with
  | case1 => cases h
  | case2 => cases h
  | case3 c t ih =>
    obtain ⟨⟨inside', rest'⟩, hr, he⟩ := Option.map_eq_some_iff.mp h
    obtain ⟨rfl, rfl⟩ := Prod.mk.inj he
    exact ⟨.pair c (ih hr).1, (ih hr).2⟩
  | case4 => cases h
  | case5 t =>
    obtain ⟨rfl, rfl⟩ := Prod.mk.inj (Option.some.inj h)
    exact ⟨.nil, fun c hc => absurd hc List.not_mem_nil⟩
  | case6 c t h1 h2 hcomma hclose ih =>
    obtain ⟨⟨inside', rest'⟩, hr, he⟩ := Option.map_eq_some_iff.mp h
    obtain ⟨rfl, rfl⟩ := Prod.mk.inj he
    have hb := Text.ne_backslash h1 h2
    refine ⟨.single hb (ih hr).1, fun d hd => ?_⟩
    cases hm : Glob.isMark c with
    | false =>
      rw [Glob.marks_cons_of_not hb hm] at hd
      exact (ih hr).2 d hd
    | true =>
      rw [Glob.marks_cons hb hm] at hd
      rcases List.mem_cons.mp hd with rfl | hd
      · simp only [Glob.isMark, Bool.or_eq_true, beq_iff_eq] at hm
        exact (hm.resolve_right hclose).resolve_right hcomma
      · exact (ih hr).2 d hd

/-- A group without a comma is found. -/
theorem wordGroup?_of_paired {inside : Text} (hp : inside.Paired)
    (hm : ∀ c ∈ Glob.marks inside, c = '{') (rest : Text) :
    wordGroup? (inside ++ '}' :: rest) = some (inside, rest) := by
  induction hp with
  | nil => rfl
  | pair c _ ih =>
    rw [List.cons_append, List.cons_append, wordGroup?, ih hm]
    rfl
  | @single c hb t _ ih =>
    cases hc : Glob.isMark c with
    | false =>
      have hne : c ≠ ',' ∧ c ≠ '}' := by
        constructor <;> rintro rfl <;> exact absurd hc (by decide)
      rw [Glob.marks_cons_of_not hb hc] at hm
      rw [List.cons_append, wordGroup?_cons (by simp [isGroupMark, hb, hne]), ih hm]
      rfl
    | true =>
      rw [Glob.marks_cons hb hc] at hm
      obtain rfl := hm c List.mem_cons_self
      rw [List.cons_append, wordGroup?_cons (by decide), ih fun e he => hm e (List.mem_cons_of_mem _ he)]
      rfl

/-- A group without a comma is found whatever follows. -/
theorem wordGroup?_append_of_some {t inside r : Text} (h : wordGroup? t = some (inside, r)) (rest : Text) :
    wordGroup? (t ++ rest) = some (inside, r ++ rest) := by
  obtain ⟨hp, hm⟩ := paired_of_wordGroup? h
  rw [eq_append_of_wordGroup? h, List.append_assoc, List.cons_append]
  exact wordGroup?_of_paired hp hm (r ++ rest)

/-- A comma comes first whatever follows. -/
theorem wordGroup?_append_of_none {t : Text} (ht : t.Paired) (hne : ',' ∈ Glob.marks t ∨ '}' ∈ Glob.marks t)
    (h : wordGroup? t = none) (rest : Text) : wordGroup? (t ++ rest) = none := by
  induction ht with
  | nil => rcases hne with hne | hne <;> exact absurd hne List.not_mem_nil
  | pair c _ ih =>
    rw [wordGroup?, Option.map_eq_none_iff] at h
    rw [List.cons_append, List.cons_append, wordGroup?, ih hne h, Option.map_none]
  | @single c hb t _ ih =>
    rw [List.cons_append]
    by_cases hcomma : c = ','
    · rw [hcomma, wordGroup?]
    · have hclose : c ≠ '}' := by
        rintro rfl
        rw [wordGroup?] at h
        cases h
      have hmark : isGroupMark c = false := by simp [isGroupMark, hb, hcomma, hclose]
      rw [wordGroup?_cons hmark, Option.map_eq_none_iff] at h
      refine wordGroup?_cons_eq_none hmark (ih ?_ h)
      cases hm : Glob.isMark c with
      | false => rwa [Glob.marks_cons_of_not hb hm] at hne
      | true =>
        rw [Glob.marks_cons hb hm, List.mem_cons, List.mem_cons] at hne
        exact hne.imp (·.resolve_left (Ne.symm hcomma)) (·.resolve_left (Ne.symm hclose))

end Token

namespace Glob

/-- Open braces are closed by a mark. -/
theorem close_mem_of_closesFrom {m : Text} (hm : ∀ c ∈ m, isMark c = true) : ∀ {d : ℕ},
    Token.closesFrom (d + 1) m = true → '}' ∈ m := by
  induction m with
  | nil => intro d h; rw [Token.closesFrom] at h; cases h
  | cons c m ih =>
    intro d h
    have hrest := fun e he => hm e (List.mem_cons_of_mem c he)
    have hc := hm c List.mem_cons_self
    simp only [isMark, Bool.or_eq_true, beq_iff_eq] at hc
    rcases hc with (rfl | rfl) | rfl
    · rw [Token.closesFrom] at h
      exact List.mem_cons_of_mem _ (ih hrest h)
    · rw [Token.closesFrom_cons (by decide)] at h
      exact List.mem_cons_of_mem _ (ih hrest h)
    · exact List.mem_cons_self

/-- The braces in a group without a comma do not balance, or there are none. -/
theorem marks_eq_nil_or_of_group {t inside rest : Text} (hg : Token.wordGroup? t = some (inside, rest)) :
    marks inside = [] ∨ Token.closes inside = false := by
  obtain ⟨hp, hopen⟩ := Token.paired_of_wordGroup? hg
  rw [Token.closes, closesFrom_marks hp, ← Bool.not_eq_true]
  cases hm : marks inside with
  | nil => exact .inl rfl
  | cons c m =>
    -- The first mark opens a brace, which only a closing brace could close.
    refine .inr fun hc => ?_
    obtain rfl := hopen c (by rw [hm]; exact List.mem_cons_self)
    have hmark : ∀ e ∈ m, isMark e = true := fun e he =>
      isMark_of_mem_marks (t := inside) (by rw [hm]; exact List.mem_cons_of_mem _ he)
    rw [Token.closesFrom] at hc
    have hclose := hopen '}' (by rw [hm]; exact List.mem_cons_of_mem _ (close_mem_of_closesFrom hmark hc))
    exact absurd hclose (by decide)

end Glob

namespace Token

/-- **A text like those between literal braces**: its marks only open braces, and it has none if braces may
be alternations. -/
structure IsInside (alternates : Bool) (t : Text) : Prop where
  opens : ∀ c ∈ Glob.marks t, c = '{'
  unmarked : alternates = true → Glob.marks t = []

theorem isInside_of_wordGroup? {t inside rest : Text} (h : wordGroup? t = some (inside, rest)) :
    IsInside (closes inside) inside where
  opens := (paired_of_wordGroup? h).2
  unmarked hc := (Glob.marks_eq_nil_or_of_group h).resolve_right (by rw [hc]; exact Bool.noConfusion)

namespace IsInside

variable {alternates : Bool} {t : Text}

/-- The rest behind a row of characters and pairs is such a text. -/
theorem of_append {p : Text} (hp : p.Paired) (h : IsInside alternates (p ++ t)) : IsInside alternates t := by
  obtain ⟨hopens, hunmarked⟩ := h
  rw [Glob.marks_append hp] at hopens hunmarked
  exact ⟨fun c hc => hopens c (List.mem_append_right _ hc),
    fun ha => (List.append_eq_nil_iff.mp (hunmarked ha)).2⟩

/-- The rest behind a character of its own is such a text. -/
theorem of_cons {c : Char} (hc : c ≠ '\\') (h : IsInside alternates (c :: t)) : IsInside alternates t :=
  h.of_append (p := [c]) (.single hc .nil)

/-- The only mark that such a text can begin with is an opening brace. -/
theorem eq_of_isMark {c : Char} (hc : Glob.isMark c = true) (h : IsInside alternates (c :: t)) : c = '{' := by
  have hb : c ≠ '\\' := by rintro rfl; cases hc
  have hopens := h.opens
  rw [Glob.marks_cons hb hc] at hopens
  exact hopens c List.mem_cons_self

/-- There is no group without a comma in such a text. -/
theorem wordGroup?_eq_none (h : IsInside alternates t) : wordGroup? t = none := by
  rw [Option.eq_none_iff_forall_ne_some]
  rintro ⟨inside, rest⟩ hg
  rw [eq_append_of_wordGroup? hg] at h
  exact absurd ((h.of_append (paired_of_wordGroup? hg).1).eq_of_isMark (by decide)) (by decide)

end IsInside

end Token

namespace Glob

/-- **No brace is opened in a group without a comma**, if the marks `{{}` are nowhere in a row. -/
theorem marks_of_group {t inside rest : Text} (hsep : Separate ('{' :: t))
    (hg : Token.wordGroup? t = some (inside, rest)) :
    marks inside = [] ∧ marks t = '}' :: marks rest := by
  obtain ⟨hp, hopen⟩ := Token.paired_of_wordGroup? hg
  have hmarks : marks t = marks inside ++ '}' :: marks rest := by
    rw [Token.eq_append_of_wordGroup? hg, marks_append hp, marks_cons (by decide) (by decide)]
  have hnone : marks inside = [] := by
    -- A brace in the group, together with those around the group, would be three forbidden marks.
    by_contra hne
    obtain ⟨k, hk⟩ : ∃ k, marks inside = List.replicate (k + 1) '{' := by
      have hlen := List.length_pos_of_ne_nil hne
      refine ⟨(marks inside).length - 1, ?_⟩
      rw [Nat.sub_add_cancel hlen]
      exact List.eq_replicate_of_mem hopen
    have hswap : '{' :: List.replicate k '{' = List.replicate k '{' ++ ['{'] := by
      rw [← List.replicate_succ, List.replicate_succ']
    refine hsep ⟨List.replicate k '{', marks rest, ?_⟩
    rw [marks_cons (by decide) (by decide), hmarks, hk, List.replicate_succ', ← List.cons_append,
      ← List.cons_append, hswap]
    simp
  exact ⟨hnone, by rw [hmarks, hnone, List.nil_append]⟩

namespace Balanced

variable {d : ℕ} {t : Text}

/-- **Behind a group without a comma** the text is balanced again, and no brace is opened in the group. -/
theorem of_group (h : Balanced d ('{' :: t)) {inside rest : Text}
    (hg : Token.wordGroup? t = some (inside, rest)) :
    Plain inside ∧ marks t = '}' :: marks rest ∧ Balanced d rest := by
  obtain ⟨hnone, hmarks⟩ := marks_of_group h.separate hg
  obtain ⟨h1, h2, h3, h4, h5⟩ := h.of_open
  have hbare : t.bare = inside.bare ++ '}' :: rest.bare := by
    rw [Token.eq_append_of_wordGroup? hg, (Token.paired_of_wordGroup? hg).1.bare_append,
      Text.bare_cons (by decide)]
  rw [hbare, List.mem_append, List.mem_cons, not_or, not_or] at h1 h2
  have hrest : rest.Paired := Text.paired_of_not_mem h2.2.2
  rw [closesFrom_marks h.of_open.paired, hmarks, Token.closesFrom, ← closesFrom_marks hrest] at h3
  rw [Separate] at h5
  rw [hmarks] at h4 h5
  exact ⟨⟨hnone, h1.1⟩, hmarks, h1.2.2, h2.2.2, h3, h4,
    fun hi => h5 (hi.trans (List.suffix_cons _ _).isInfix)⟩

end Balanced

end Glob

/-! ### Reading a balanced text on its own -/

namespace Token

/-- A beginning without the first character of what follows a text is one of the text. -/
theorem isPrefix_of_append {rest p : Text} (hr : ∀ c ∈ rest.head?, c ∉ p) {t s : Text}
    (h : t ++ rest = p ++ s) : p <+: t := by
  rcases List.append_eq_append_iff.mp h with ⟨u, hp, hu⟩ | ⟨u, ht, -⟩
  · rcases u with _ | ⟨c, u⟩
    · exact ⟨[], by rw [hp]; simp⟩
    · have hc : c ∉ p := hr c (by rw [hu]; rfl)
      exact absurd (by rw [hp]; simp) hc
  · exact ⟨u, ht.symm⟩

/-- In front of the end of a branch, a beginning without marks is one of the text before. -/
theorem isPrefix_of_branchEnd {rest : Text} (hr : BranchEnd rest) {p : Text} (hcomma : ',' ∉ p)
    (hclose : '}' ∉ p) {t s : Text} (h : t ++ rest = p ++ s) : p <+: t := by
  refine isPrefix_of_append (fun c hc => ?_) h
  obtain ⟨u, rfl⟩ := List.head?_eq_some_iff.mp hc
  rcases hr with rfl | rfl
  · exact hcomma
  · exact hclose

theorem scan_group {t inside rest : Text} (h : wordGroup? t = some (inside, rest))
    (hr : IntegerRange.ofText? inside = none) (alternates : Bool) (d : ℕ) :
    scan alternates d ('{' :: t) =
      literal '{' :: scan (closes inside) 0 inside ++ literal '}' :: scan alternates d rest := by
  rw [scan.eq_8]
  split
  · next h' =>
    rw [h] at h'
    obtain ⟨rfl, rfl⟩ := Prod.mk.inj (Option.some.inj h')
    rw [hr]
  · next h' => simp [h] at h'

/-- **A balanced text is read on its own** in front of the end of a branch, whatever alternations lie
around. -/
theorem scan_append {alternates : Bool} {d : ℕ} {t : Text} (h : Glob.Balanced d t)
    (ha : alternates = true) {rest : Text} (hr : BranchEnd rest) (e : ℕ) :
    scan alternates (d + e) (t ++ rest) = scan alternates d t ++ scan alternates e rest := by
  fun_induction scan alternates d t with
  | case1 alternates d =>
    have hd : d = 0 := by simpa [closesFrom] using h.closes
    rw [hd, Nat.zero_add]
    rfl
  | case2 => exact absurd List.mem_cons_self h.backslash
  | case3 alternates d c t ih =>
    rw [List.cons_append, List.cons_append, scan, ih h.of_pair ha]
    rfl
  | case4 alternates d t ih =>
    have ht : Glob.Balanced d t := h.of_append (u := ['*', '*']) (by decide) (by decide)
    rw [List.cons_append, List.cons_append, scan, ih ht ha]
    rfl
  | case5 alternates d t hn ih =>
    have hstar : ∀ s, t ++ rest ≠ '*' :: s := by
      intro s hs
      obtain ⟨u, hu⟩ := isPrefix_of_branchEnd hr (p := ['*']) (by decide) (by decide) hs
      exact hn u hu.symm
    rw [List.cons_append, scan_nameRun hstar, ih (h.of_cons (by decide) (by decide)) ha]
    rfl
  | case6 alternates d t ih =>
    rw [List.cons_append, scan, ih (h.of_cons (by decide) (by decide)) ha]
    rfl
  | case7 => exact absurd rfl (h.ne_bracket (by decide))
  | case8 => exact absurd rfl (h.ne_bracket (by decide))
  | case9 alternates d t inside r hg range hrange ih =>
    rw [List.cons_append, scan_integer (wordGroup?_append_of_some hg rest) hrange,
      ih (h.of_group hg).2.2 ha]
    rfl
  | case10 alternates d t inside r hg hrange _ ih =>
    rw [List.cons_append, scan_group (wordGroup?_append_of_some hg rest) hrange,
      ih (h.of_group hg).2.2 ha]
    simp
  | case11 d t hg ih =>
    have hopen := h.of_open
    have hclose : '}' ∈ Glob.marks t := by
      refine Glob.close_mem_of_closesFrom (fun c => Glob.isMark_of_mem_marks) (d := d) ?_
      rw [← Glob.closesFrom_marks hopen.paired]
      exact hopen.closes
    rw [List.cons_append, scan_openGroup (wordGroup?_append_of_none hopen.paired (.inr hclose) hg rest),
      Nat.add_right_comm, ih hopen ha]
    rfl
  | case12 alternates d t _ hn => exact absurd ha hn
  | case13 alternates d t ih =>
    obtain ⟨hd, ht⟩ := h.of_comma
    rw [List.cons_append, scan, if_neg (by omega), if_neg (by omega), ih ht ha]
    rfl
  | case14 alternates d t ih =>
    obtain ⟨e', rfl, ht⟩ := h.of_close
    have ih' := ih ht ha
    have he : e' + 1 + e - 1 = e' + 1 - 1 + e := by omega
    rw [List.cons_append, scan, if_neg (by omega), if_neg (by omega), he, ih']
    rfl
  | case15 alternates d t ih =>
    have ht : Glob.Balanced d t := h.of_append (u := ['/', '*', '*', '/']) (by decide) (by decide)
    simp only [List.cons_append]
    rw [scan, ih ht ha]
  | case16 alternates d c t h1 h2 h3 h4 h5 h6 h7 h8 h9 h10 ih =>
    have hb := Text.ne_backslash h1 h2
    have hm := Glob.isMark_eq_false h7 h8 h9
    have hslash : c = '/' → ∀ s, t ++ rest ≠ '*' :: '*' :: '/' :: s := by
      intro hc s hs
      obtain ⟨u, hu⟩ := isPrefix_of_branchEnd hr (p := ['*', '*', '/']) (by decide) (by decide) hs
      exact h10 u hc hu.symm
    rw [List.cons_append, scan_cons_of_ne hb h4 h5 h6 h7 h8 h9 hslash, ih (h.of_cons hb hm) ha,
      List.cons_append]

end Token

end EditorSettings
