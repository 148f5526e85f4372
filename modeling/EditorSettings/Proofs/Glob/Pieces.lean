import EditorSettings.Proofs.Glob.Braces
import EditorSettings.Proofs.Glob.Listing

/-!
# The pieces that tokens are read from

Every token of a pattern is read from a piece of it: a character or a pair of a backslash and a character, a
star or two, a class up to its closing bracket, the braces around the bounds of an integer, and so on
(`Token.IsReadFrom`).  The tokens of a pattern are read from consecutive pieces that make up the whole of it
(`Token.areReadFrom_scan`), those of the inside of literal braces as well.  No piece ends in a bare
backslash, except that a backslash at the end of the pattern is a piece of its own, so the bare characters of
a piece are bare in the pattern (`Token.AreReadFrom.piece_of_mem`).  So there are no alternations without a
bare opening brace, and then it does not matter whether the braces balance (`Token.scan_eq_of_not_mem`).
-/

namespace EditorSettings

namespace Bracket

/-! ### The piece of a class -/

theorem exists_append_of_members? {t rest : Text} {ms : List BracketMember}
    (h : members? t = some (ms, rest)) :
    ∃ u, Text.Paired u ∧ t = u ++ rest ∧ members? u = some (ms, []) := by
  fun_induction members? t generalizing ms rest with
  | case1 => cases h
  | case2 => cases h
  | case3 c t ih =>
    obtain ⟨⟨ms', rest'⟩, hr, he⟩ := Option.map_eq_some_iff.mp h
    obtain ⟨rfl, rfl⟩ := Prod.mk.inj he
    obtain ⟨u, hp, rfl, hu⟩ := ih hr
    exact ⟨'\\' :: c :: u, .pair c hp, rfl, by rw [members?, hu]; rfl⟩
  | case4 => cases h
  | case5 t =>
    obtain ⟨rfl, rfl⟩ := Prod.mk.inj (Option.some.inj h)
    exact ⟨[']'], .single (by decide) .nil, rfl, rfl⟩
  | case6 c t h1 h2 hslash hclose ih =>
    obtain ⟨⟨ms', rest'⟩, hr, he⟩ := Option.map_eq_some_iff.mp h
    obtain ⟨rfl, rfl⟩ := Prod.mk.inj he
    obtain ⟨u, hp, rfl, hu⟩ := ih hr
    have hb := Text.ne_backslash h1 h2
    exact ⟨c :: u, .single hb hp, rfl, by rw [members?_cons hb hslash hclose, hu]; rfl⟩

/-- **A class is read from its own piece**, whatever follows. -/
theorem exists_append_of_ofText? {t rest : Text} {b : Bracket} (h : ofText? t = some (b, rest)) :
    ∃ u, Text.Paired u ∧ t = u ++ rest ∧ ofText? u = some (b, []) := by
  unfold ofText? at h
  split at h
  · cases h
  · next ms rest' hm =>
    split at h
    · next hms =>
      obtain ⟨rfl, rfl⟩ := Prod.mk.inj (Option.some.inj h)
      obtain ⟨u, hp, ht, hu⟩ := exists_append_of_members? hm
      rcases t with _ | ⟨c, t⟩
      · cases hm
      · cases hc : isNegation c with
        | true =>
          rw [splitNegation, hc, if_pos rfl] at ht
          have hb : c ≠ '\\' := by rintro rfl; cases hc
          refine ⟨c :: u, .single hb hp, by rw [show t = u ++ rest' from ht]; rfl, ?_⟩
          simp only [ofText?, splitNegation, hc, if_true, hu]
          rw [if_pos hms]
        | false =>
          rw [splitNegation, hc, if_neg Bool.false_ne_true] at ht
          rcases u with _ | ⟨d, u⟩
          · cases hu
          · obtain ⟨rfl, -⟩ := List.cons.inj ht
            refine ⟨c :: u, hp, ht, ?_⟩
            simp only [ofText?, splitNegation, hc, Bool.false_eq_true, if_false, hu]
            rw [if_pos hms]
    · cases h

end Bracket

namespace IntegerRange

theorem exists_of_splitAtPoints? {t : Text} {parts : Text × Text} (h : splitAtPoints? t = some parts) :
    t = parts.1 ++ '.' :: '.' :: parts.2 := by
  fun_induction splitAtPoints? t generalizing parts with
  | case1 => cases h
  | case2 t => rw [← Option.some.inj h]; rfl
  | case3 c t _ ih =>
    obtain ⟨parts', hp, rfl⟩ := Option.map_eq_some_iff.mp h
    rw [ih hp]
    rfl

/-- The bounds of a range are written with digits, signs and points. -/
theorem isDigit_or_isSign_of_ofText? {t : Text} {r : IntegerRange} (h : ofText? t = some r) :
    ∀ c ∈ t, c.isDigit = true ∨ c ∈ ['+', '-', '.'] := by
  have bound : ∀ {u : Text} {n : Int}, Text.int64? u = some n →
      ∀ c ∈ u, c.isDigit = true ∨ c ∈ ['+', '-', '.'] := by
    intro u n hu c hc
    rcases isDigit_or_isSign_of_signedInt? (Option.filter_eq_some_iff.mp hu).1 c hc with hd | rfl | rfl
    · exact .inl hd
    · exact .inr (by decide)
    · exact .inr (by decide)
  unfold ofText? at h
  split at h
  · cases h
  · next parts hp =>
    split at h
    · next low high hlow hhigh =>
      intro c hc
      rw [exists_of_splitAtPoints? hp, List.mem_append, List.mem_cons, List.mem_cons] at hc
      rcases hc with hc | rfl | rfl | hc
      · exact bound hlow c hc
      · exact .inr (by decide)
      · exact .inr (by decide)
      · exact bound hhigh c hc
    · cases h

/-- Neither a bracket nor a backslash can stand in the bounds of a range. -/
theorem not_mem_of_ofText? {t : Text} {r : IntegerRange} (h : ofText? t = some r) {c : Char}
    (hd : c.isDigit = false) (hs : c ∉ ['+', '-', '.']) : c ∉ t := by
  intro hc
  rcases isDigit_or_isSign_of_ofText? h c hc with h' | h'
  · rw [hd] at h'
    cases h'
  · exact hs h'

theorem ofText?_eq_none_of_mem {t : Text} {c : Char} (h : c ∈ t) (hd : c.isDigit = false)
    (hs : c ∉ ['+', '-', '.']) : ofText? t = none := by
  rw [Option.eq_none_iff_forall_ne_some]
  exact fun r hr => not_mem_of_ofText? hr hd hs h

end IntegerRange

namespace Token

/-! ### Pieces -/

/-- The piece of a pattern that a token is read from. -/
def IsReadFrom : Token → Text → Prop
  | literal c, p => p = [c] ∧ c ≠ '\\' ∨ p = ['\\', c]
  | nameChar, p => p = ['?']
  | nameRun, p => p = ['*']
  | anyRun, p => p = ['*', '*']
  | segments, p => p = ['/', '*', '*', '/']
  | bracket b, p => ∃ t, p = '[' :: t ∧ Bracket.ofText? t = some (b, [])
  | integer r, p => ∃ inside, p = '{' :: (inside ++ ['}']) ∧ IntegerRange.ofText? inside = some r
  | openGroup, p => p = ['{']
  | nextBranch, p => p = [',']
  | closeGroup, p => p = ['}']

/-- **Tokens that are read from consecutive pieces of a text**, a backslash at its end being a piece of its
own. -/
inductive AreReadFrom : List Token → Text → Prop
  /-- No tokens. -/
  | nil : AreReadFrom [] []
  /-- A backslash at the end. -/
  | backslash : AreReadFrom [literal '\\'] ['\\']
  /-- A token and further ones. -/
  | cons {k : Token} {p : Text} (hk : k.IsReadFrom p) {ts : List Token} {t : Text}
    (h : AreReadFrom ts t) : AreReadFrom (k :: ts) (p ++ t)

theorem IsReadFrom.paired : ∀ {k : Token} {p : Text}, k.IsReadFrom p → p.Paired
  | literal _, _, .inl ⟨hp, hc⟩ => hp ▸ .single hc .nil
  | literal c, _, .inr hp => hp ▸ .pair c .nil
  | nameChar, _, hp => hp ▸ Text.paired_of_not_mem (by decide)
  | nameRun, _, hp => hp ▸ Text.paired_of_not_mem (by decide)
  | anyRun, _, hp => hp ▸ Text.paired_of_not_mem (by decide)
  | segments, _, hp => hp ▸ Text.paired_of_not_mem (by decide)
  | bracket b, p, hp => by
    obtain ⟨t, rfl, ht⟩ := hp
    obtain ⟨u, hu, rfl, -⟩ := Bracket.exists_append_of_ofText? ht
    rw [List.append_nil]
    exact .single (by decide) hu
  | integer r, p, hp => by
    obtain ⟨inside, rfl, hr⟩ := hp
    have hmem : '\\' ∉ '{' :: (inside ++ ['}']) := by
      have := IntegerRange.not_mem_of_ofText? hr (c := '\\') (by decide) (by decide)
      simp [this]
    exact Text.paired_of_not_mem fun h => hmem (Text.mem_of_mem_bare h)
  | openGroup, _, hp => hp ▸ Text.paired_of_not_mem (by decide)
  | nextBranch, _, hp => hp ▸ Text.paired_of_not_mem (by decide)
  | closeGroup, _, hp => hp ▸ Text.paired_of_not_mem (by decide)

namespace AreReadFrom

theorem append {ts us : List Token} {t u : Text} (h : AreReadFrom ts t) (hp : t.Paired)
    (hu : AreReadFrom us u) : AreReadFrom (ts ++ us) (t ++ u) := by
  induction h with
  | nil => exact hu
  | backslash => exact absurd hp.not_mem_bare (by decide)
  | cons hk _ ih =>
    rw [List.append_assoc]
    exact .cons hk (ih (hk.paired.of_append hp))

/-- **Every token has its piece**, and what is bare in the piece is bare in the text. -/
theorem piece_of_mem {ts : List Token} {t : Text} (h : AreReadFrom ts t) {k : Token} (hk : k ∈ ts) :
    k = literal '\\' ∨ ∃ p, k.IsReadFrom p ∧ p <:+: t ∧ p.bare ⊆ t.bare := by
  induction h with
  | nil => exact absurd hk List.not_mem_nil
  | backslash => exact .inl (List.mem_singleton.mp hk)
  | @cons j p hj ts t _ ih =>
    have hbare := hj.paired.bare_append t
    rcases List.mem_cons.mp hk with rfl | hk
    · refine .inr ⟨p, hj, (List.prefix_append p t).isInfix, ?_⟩
      rw [hbare]
      exact List.subset_append_left _ _
    · refine (ih hk).imp_right ?_
      rintro ⟨q, hq, hi, hs⟩
      refine ⟨q, hq, hi.trans (List.suffix_append p t).isInfix, ?_⟩
      rw [hbare]
      exact List.Subset.trans hs (List.subset_append_right _ _)

/-- The tokens before and behind a token are read from what stands before and behind its piece. -/
theorem split {k : Token} (hk : k ≠ literal '\\') {vs : List Token} : ∀ {us : List Token} {t : Text},
    AreReadFrom (us ++ k :: vs) t →
      ∃ before p after, t = before ++ (p ++ after) ∧ AreReadFrom us before ∧ k.IsReadFrom p ∧
        AreReadFrom vs after
  | [], _, h => by
    cases h with
    | backslash => exact absurd rfl hk
    | cons hp h => exact ⟨[], _, _, rfl, .nil, hp, h⟩
  | j :: us, t, h => by
    rw [List.cons_append] at h
    generalize htokens : j :: (us ++ k :: vs) = ts at h
    cases h with
    | nil => cases htokens
    | backslash => cases us <;> cases htokens
    | cons hj h =>
      cases htokens
      obtain ⟨before, p, after, rfl, hb, hp, ha⟩ := split hk h
      exact ⟨_, p, after, (List.append_assoc _ _ _).symm, .cons hj hb, hp, ha⟩

end AreReadFrom

/-- **The tokens of a text are read from consecutive pieces of it.** -/
theorem areReadFrom_scan (alternates : Bool) (d : ℕ) (t : Text) :
    AreReadFrom (scan alternates d t) t := by
  fun_induction scan alternates d t with
  | case1 => exact .nil
  | case2 => exact .backslash
  | case3 _ _ c t ih => exact .cons (k := literal c) (p := ['\\', c]) (.inr rfl) ih
  | case4 _ _ t ih => exact .cons (k := anyRun) (p := ['*', '*']) rfl ih
  | case5 _ _ t _ ih => exact .cons (k := nameRun) (p := ['*']) rfl ih
  | case6 _ _ t ih => exact .cons (k := nameChar) (p := ['?']) rfl ih
  | case7 _ _ t b rest hb ih =>
    obtain ⟨u, -, rfl, hu⟩ := Bracket.exists_append_of_ofText? hb
    exact .cons (k := bracket b) (p := '[' :: u) ⟨u, rfl, hu⟩ ih
  | case8 _ _ t _ ih => exact .cons (k := literal '[') (p := ['[']) (.inl ⟨rfl, by decide⟩) ih
  | case9 _ _ t inside rest hg r hr ih =>
    have hpiece : '{' :: t = ('{' :: (inside ++ ['}'])) ++ rest := by
      rw [eq_append_of_wordGroup? hg]
      simp
    rw [hpiece]
    exact .cons (k := integer r) ⟨inside, rfl, hr⟩ ih
  | case10 _ _ t inside rest hg _ ihin ih =>
    -- The inside of literal braces does not end in a bare backslash, so the closing brace is read.
    rw [eq_append_of_wordGroup? hg]
    have hopen := AreReadFrom.cons (k := literal '{') (p := ['{']) (.inl ⟨rfl, by decide⟩) ihin
    have hclose := AreReadFrom.cons (k := literal '}') (p := ['}']) (.inl ⟨rfl, by decide⟩) ih
    have hpaired : Text.Paired (['{'] ++ inside) := .single (by decide) (paired_of_wordGroup? hg).1
    exact hopen.append hpaired hclose
  | case11 _ t _ ih => exact .cons (k := openGroup) (p := ['{']) rfl ih
  | case12 _ _ t _ _ ih => exact .cons (k := literal '{') (p := ['{']) (.inl ⟨rfl, by decide⟩) ih
  | case13 _ d t ih =>
    refine .cons (p := [',']) ?_ ih
    split
    · exact .inl ⟨rfl, by decide⟩
    · rfl
  | case14 _ d t ih =>
    refine .cons (p := ['}']) ?_ ih
    split
    · exact .inl ⟨rfl, by decide⟩
    · rfl
  | case15 _ _ t ih => exact .cons (k := segments) (p := ['/', '*', '*', '/']) rfl ih
  | case16 _ _ c t h1 h2 _ _ _ _ _ _ _ _ ih =>
    exact .cons (k := literal c) (p := [c]) (.inl ⟨rfl, Text.ne_backslash h1 h2⟩) ih

/-! ### Texts without alternations -/

theorem scan_bracket_of_none {t : Text} (h : Bracket.ofText? t = none) (alternates : Bool) (d : ℕ) :
    scan alternates d ('[' :: t) = literal '[' :: scan alternates d t := by
  rw [scan.eq_7]
  split
  · next h' => simp [h] at h'
  · rfl

theorem scan_brace_of_none {t : Text} (h : wordGroup? t = none) (alternates : Bool) (d : ℕ) :
    scan alternates d ('{' :: t) = (if alternates then openGroup else literal '{') ::
      scan alternates (if alternates then d + 1 else d) t := by
  rw [scan.eq_8]
  split
  · next h' => simp [h] at h'
  · cases alternates <;> rfl

/-- Without an alternation it does not matter whether there may be one. -/
theorem scan_eq_of_not_mem {alternates : Bool} {d : ℕ} {t : Text} (h : openGroup ∉ scan alternates d t) :
    scan alternates d t = scan false d t := by
  have hcons : ∀ {k : Token} {ts : List Token}, openGroup ∉ k :: ts → openGroup ∉ ts :=
    fun hk hm => hk (List.mem_cons_of_mem _ hm)
  fun_induction scan alternates d t with
  | case1 => rw [scan]
  | case2 => rw [scan]
  | case3 _ _ c t ih => rw [scan, ih (hcons h)]
  | case5 _ _ t hn ih => rw [scan_nameRun hn, ih (hcons h)]
  | case7 _ _ t b rest hb ih => rw [scan_bracket hb, ih (hcons h)]
  | case8 _ _ t hb ih => rw [scan_bracket_of_none hb, ih (hcons h)]
  | case9 _ _ t inside rest hg r hr ih => rw [scan_integer hg hr, ih (hcons h)]
  | case10 _ _ t inside rest hg hr _ ih =>
    rw [scan_group hg hr, ih fun hm => h (List.mem_append_right _ (List.mem_cons_of_mem _ hm))]
  | case11 => exact absurd List.mem_cons_self h
  | case12 _ _ t hg _ ih =>
    rw [scan_brace_of_none hg, if_neg Bool.false_ne_true, if_neg Bool.false_ne_true, ih (hcons h)]
  | case16 _ d c t h1 h2 _ h4 h5 h6 h7 h8 h9 h10 ih =>
    have hslash : c = '/' → ∀ s, t ≠ '*' :: '*' :: '/' :: s := fun hc s hs => h10 s hc hs
    rw [scan_cons_of_ne (Text.ne_backslash h1 h2) h4 h5 h6 h7 h8 h9 hslash, ih (hcons h)]
  | _ alternates d t ih => rw [scan, ih (hcons h)]

/-- A text without a bare opening brace has no alternation. -/
theorem openGroup_not_mem_scan {alternates : Bool} {d : ℕ} {t : Text} (h : '{' ∉ t.bare) :
    openGroup ∉ scan alternates d t := by
  intro hm
  rcases (areReadFrom_scan alternates d t).piece_of_mem hm with he | ⟨p, rfl, -, hbare⟩
  · cases he
  · exact h (hbare (by decide))

end Token

end EditorSettings
