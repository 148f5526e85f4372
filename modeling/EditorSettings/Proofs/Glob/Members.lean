import EditorSettings.Proofs.Glob.InStep

/-!
# Braces and commas in a class

A brace or a comma in a class stands for itself, with a backslash or without one, but only where the pattern
is read from left to right.  The two searches ahead do not know of classes: whether the braces of the whole
pattern balance (`Token.closes`), and where the first bare comma or closing brace behind an opening brace
stands (`Token.wordGroup?`).  The bare member of a class is a mark for both of them, the escaped one is not.

Two patterns that differ by the backslash are read in step (`Token.related_scan_append`), as long as both
searches find the same in both (`Token.alike_scan_append`).  The search behind a brace reaches the class only
if the text before the class ends in an open brace (`Glob.EndsOpen`).  So the translations are the same if the
balance is the same or does not matter, and the member does not end the braces that are open
(`Glob.sourceOf_bareMember`).
-/

namespace EditorSettings

open Token

namespace Glob

/-! ### The text before a class -/

/-- The last mark of a text opens a brace. -/
def EndsOpen (t : Text) : Prop := (marks t).getLast? = some '{'

instance (t : Text) : Decidable (EndsOpen t) :=
  inferInstanceAs (Decidable ((marks t).getLast? = some '{'))

theorem EndsOpen.append {p t : Text} (hp : p.Paired) (h : EndsOpen t) : EndsOpen (p ++ t) := by
  rw [EndsOpen, marks_append hp, List.getLast?_append, h]
  rfl

/-- A text whose marks only open braces ends open behind another one. -/
theorem endsOpen_cons {t : Text} (h : ∀ c ∈ marks t, c = '{') : EndsOpen ('{' :: t) := by
  rw [EndsOpen, marks_cons (by decide) (by decide)]
  have hlast := List.getLast_mem (List.cons_ne_nil '{' (marks t))
  rw [List.getLast?_eq_some_getLast (List.cons_ne_nil '{' (marks t))]
  rcases List.mem_cons.mp hlast with he | hmem
  · rw [he]
  · rw [h _ hmem]

/-- **The text before a class**: it has no bracket and does not end in a bare backslash, and `P` holds if a
search ahead that begins in it may reach what follows. -/
structure Beginning (P : Prop) (x : Text) : Prop where
  paired : x.Paired
  bracket : '[' ∉ x
  group : EndsOpen x → P

theorem Beginning.of_append {P : Prop} {p t : Text} (h : Beginning P (p ++ t)) (hp : p.Paired) :
    Beginning P t where
  paired := hp.of_append h.paired
  bracket := fun ht => h.bracket (List.mem_append_right p ht)
  group := fun ht => h.group (ht.append hp)

theorem Beginning.of_cons {P : Prop} {c : Char} (hc : c ≠ '\\') {t : Text} (h : Beginning P (c :: t)) :
    Beginning P t :=
  Beginning.of_append (p := [c]) h (.single hc .nil)

end Glob

namespace Token

/-! ### What tokens add to a translation -/

/-- What a token adds to the expression text and to the ranges. -/
def emitted (k : Token) : Text × Option IntegerRange := (k.source, k.range?)

/-- Two lists of tokens add the same. -/
def Alike (ts us : List Token) : Prop := ts.map emitted = us.map emitted

theorem Alike.refl (ts : List Token) : Alike ts ts := rfl

theorem Alike.cons {j k : Token} (hk : j.emitted = k.emitted) {ts us : List Token} (h : Alike ts us) :
    Alike (j :: ts) (k :: us) := by
  rw [Alike, List.map_cons, List.map_cons, hk, h]

theorem Alike.append {ts us ts' us' : List Token} (h : Alike ts us) (h' : Alike ts' us') :
    Alike (ts ++ ts') (us ++ us') := by
  rw [Alike, List.map_append, List.map_append, h, h']

/-- **Tokens that add the same have one translation.** -/
theorem Alike.translation_eq {ts us : List Token} (h : Alike ts us) :
    sourceOf ts = sourceOf us ∧ rangesOf ts = rangesOf us := by
  have hsource : ∀ vs : List Token, sourceOf vs = (vs.map emitted).flatMap Prod.fst := by
    intro vs
    rw [List.flatMap_map]
    rfl
  have hranges : ∀ vs : List Token, rangesOf vs = (vs.map emitted).filterMap Prod.snd := by
    intro vs
    rw [List.filterMap_map]
    rfl
  rw [hsource, hsource, hranges, hranges, h]
  exact ⟨rfl, rfl⟩

/-! ### Reading in step -/

/-- **The search ahead finds the same in both texts**: nothing, or the same end of the braces, the texts up to
there adding the same behind any beginning. -/
def GroupsAlike (s s' : Text) : Prop :=
  wordGroup? s = none ∧ wordGroup? s' = none ∨
    ∃ v v' rest, wordGroup? s = some (v, rest) ∧ wordGroup? s' = some (v', rest) ∧ '[' ∈ v ∧ '[' ∈ v' ∧
      ∀ u, u.Paired → '[' ∉ u → Alike (scan false 0 (u ++ v)) (scan false 0 (u ++ v'))

variable {alternates : Bool} {s s' : Text}

/-- Tokens that add the same are kept by further ones. -/
theorem compatible_alike : Compatible Alike where
  cons := fun _ _ _ h => Alike.cons rfl h
  append := fun vs h => Alike.append h (.refl vs)

/-- A beginning whose open braces reach what the search finds in both texts. -/
theorem leads_of_beginning {x : Text} (hx : Glob.Beginning (GroupsAlike ('[' :: s) ('[' :: s')) x) :
    Leads Alike ('[' :: s) ('[' :: s') x where
  paired := hx.paired
  bracket := fun h => hx.bracket (Text.mem_of_mem_bare h)
  star := fun _ r hr u => by
    simp only [List.mem_cons, List.not_mem_nil, or_false] at hr
    rcases hr with rfl | rfl <;> simp
  search := by
    rintro u t hu rfl ht
    have hopen : Glob.EndsOpen (u ++ '{' :: t) := (Glob.endsOpen_cons ht).append hu
    have htail := (hx.of_append hu).of_cons (by decide)
    rcases hx.group hopen with hnone | ⟨v, v', rest, hv, hv', hm, hm', halike⟩
    · exact .inl hnone
    · have hr := IntegerRange.ofText?_eq_none_of_mem (List.mem_append_right t hm) (by decide) (by decide)
      have hr' := IntegerRange.ofText?_eq_none_of_mem (List.mem_append_right t hm') (by decide) (by decide)
      exact .inr ⟨v, v', rest, hv, hv', hr, hr', halike t htail.paired htail.bracket⟩

/-- **Two texts are read in step** behind the same beginning, if they are read in step on their own and the
search ahead finds the same in both. -/
theorem alike_scan_append {d : ℕ} {x : Text}
    (hs : ∀ d, Alike (scan alternates d ('[' :: s)) (scan alternates d ('[' :: s')))
    (hx : Glob.Beginning (GroupsAlike ('[' :: s) ('[' :: s')) x) :
    Alike (scan alternates d (x ++ '[' :: s)) (scan alternates d (x ++ '[' :: s')) := by
  refine related_scan_append compatible_alike hs (fun d => ?_) (leads_of_beginning hx)
  have hstars : ∀ r u, '[' :: r ≠ '*' :: '*' :: '/' :: u := fun r u => by simp
  rw [scan_cons (by decide) (fun _ => hstars s), scan_cons (by decide) (fun _ => hstars s')]
  exact (hs d).cons rfl

/-! ### A class of one member -/

/-- A class of one member behind its opening bracket. -/
theorem ofText?_bareMember {c : Char} (hc : Glob.isMark c = true) (y : Text) :
    Bracket.ofText? (c :: ']' :: y) = some (⟨false, [⟨c, false⟩]⟩, y) := by
  simp only [Glob.isMark, Bool.or_eq_true, beq_iff_eq] at hc
  rcases hc with (rfl | rfl) | rfl <;>
    simp [Bracket.ofText?, Bracket.splitNegation, Bracket.isNegation, Bracket.members?, Bracket.isOrdered]

theorem ofText?_escapedMember (c : Char) (y : Text) :
    Bracket.ofText? ('\\' :: c :: ']' :: y) = some (⟨false, [⟨c, true⟩]⟩, y) := by
  simp [Bracket.ofText?, Bracket.splitNegation, Bracket.isNegation, Bracket.members?, Bracket.isOrdered]

/-- A member that is a mark adds the same to a translation with a backslash. -/
theorem alike_scan_member {c : Char} (hc : Glob.isMark c = true) (y : Text) (d : ℕ) :
    Alike (scan alternates d ('[' :: c :: ']' :: y)) (scan alternates d ('[' :: '\\' :: c :: ']' :: y)) := by
  rw [scan_bracket (ofText?_bareMember hc y), scan_bracket (ofText?_escapedMember c y)]
  refine (Alike.refl _).cons ?_
  simp only [Glob.isMark, Bool.or_eq_true, beq_iff_eq] at hc
  rcases hc with (rfl | rfl) | rfl <;> rfl

theorem wordGroup?_escapedMember (c : Char) (y : Text) :
    wordGroup? ('[' :: '\\' :: c :: ']' :: y) =
      (wordGroup? y).map fun r => ('[' :: '\\' :: c :: ']' :: r.1, r.2) := by
  rw [wordGroup?_cons (by decide), wordGroup?, wordGroup?_cons (by decide), Option.map_map, Option.map_map]
  rfl

theorem wordGroup?_openMember (y : Text) :
    wordGroup? ('[' :: '{' :: ']' :: y) = (wordGroup? y).map fun r => ('[' :: '{' :: ']' :: r.1, r.2) := by
  rw [wordGroup?_cons (by decide), wordGroup?_cons (by decide), wordGroup?_cons (by decide), Option.map_map,
    Option.map_map]
  rfl

/-- The search ahead passes an opening brace in a class. -/
theorem groupsAlike_openMember (y : Text) :
    GroupsAlike ('[' :: '{' :: ']' :: y) ('[' :: '\\' :: '{' :: ']' :: y) := by
  rw [GroupsAlike, wordGroup?_openMember, wordGroup?_escapedMember]
  rcases hy : wordGroup? y with _ | ⟨v, rest⟩
  · exact .inl ⟨rfl, rfl⟩
  · refine .inr ⟨_, _, rest, rfl, rfl, List.mem_cons_self, List.mem_cons_self, fun u hu hb => ?_⟩
    -- What stands before the end is read in step, since the search finds nothing in it.
    have hnone := wordGroup?_inside hy
    have hgroup : GroupsAlike ('[' :: '{' :: ']' :: v) ('[' :: '\\' :: '{' :: ']' :: v) := by
      refine .inl ⟨?_, ?_⟩
      · rw [wordGroup?_openMember, hnone, Option.map_none]
      · rw [wordGroup?_escapedMember, hnone, Option.map_none]
    exact alike_scan_append (alike_scan_member (by decide) v) ⟨hu, hb, fun _ => hgroup⟩

/-- The search ahead ends at a comma in a class. -/
theorem groupsAlike_commaMember {y : Text} (hy : wordGroup? y = none) :
    GroupsAlike ('[' :: ',' :: ']' :: y) ('[' :: '\\' :: ',' :: ']' :: y) := by
  refine .inl ⟨?_, ?_⟩
  · rw [wordGroup?_cons (by decide), wordGroup?, Option.map_none]
  · rw [wordGroup?_escapedMember, hy, Option.map_none]

end Token

namespace Glob

/-- A class of one bare member between two texts. -/
def bareMember (x : Text) (c : Char) (y : Text) : Text := x ++ '[' :: c :: ']' :: y

/-- A class of one member behind a backslash between two texts. -/
def escapedMember (x : Text) (c : Char) (y : Text) : Text := x ++ '[' :: '\\' :: c :: ']' :: y

/-- A comma in a class does not matter for the balance of braces. -/
theorem closes_commaMember {x : Text} (hx : x.Paired) (y : Text) :
    closes (bareMember x ',' y) = closes (escapedMember x ',' y) := by
  refine closesFrom_append_congr (fun d => ?_) hx 0
  rw [closesFrom_cons (by decide), closesFrom_cons (by decide), closesFrom_cons (by decide),
    closesFrom_cons (by decide), closesFrom, closesFrom_cons (by decide)]

/-- **A brace or a comma in a class is translated the same with a backslash**, if the searches ahead find the
same without it.  If a brace is open in front of the class, the member must open another one, or be a comma
where no closing brace comes before the next comma anyway.  If it is a brace, the braces of both patterns must
balance or those of neither, unless neither pattern has an alternation. -/
theorem sourceOf_bareMember {x y : Text} {c : Char} (hopen : '[' ∉ x) (hback : '\\' ∉ x.bare)
    (hc : isMark c = true) (hgroup : EndsOpen x → c = '{' ∨ c = ',' ∧ wordGroup? y = none)
    (hbalance : c = ',' ∨ closes (bareMember x c y) = closes (escapedMember x c y) ∨
      openGroup ∉ ofPattern (bareMember x c y) ∧ openGroup ∉ ofPattern (escapedMember x c y)) :
    sourceOf (ofPattern (bareMember x c y)) = sourceOf (ofPattern (escapedMember x c y)) ∧
      rangesOf (ofPattern (bareMember x c y)) = rangesOf (ofPattern (escapedMember x c y)) := by
  have hpaired := Text.paired_of_not_mem hback
  have hx : Beginning (GroupsAlike ('[' :: c :: ']' :: y) ('[' :: '\\' :: c :: ']' :: y)) x := by
    refine ⟨hpaired, hopen, fun he => ?_⟩
    rcases hgroup he with rfl | ⟨rfl, hy⟩
    · exact groupsAlike_openMember y
    · exact groupsAlike_commaMember hy
  have halike : ∀ alternates, Alike (scan alternates 0 (bareMember x c y))
      (scan alternates 0 (escapedMember x c y)) := fun _ => alike_scan_append (alike_scan_member hc y) hx
  have hcloses : closes (bareMember x c y) = closes (escapedMember x c y) ∨
      openGroup ∉ ofPattern (bareMember x c y) ∧ openGroup ∉ ofPattern (escapedMember x c y) := by
    rcases hbalance with rfl | h
    · exact .inl (closes_commaMember hpaired y)
    · exact h
  refine Alike.translation_eq ?_
  rcases hcloses with he | ⟨h, h'⟩
  · rw [ofPattern, ofPattern, he]
    exact halike _
  · rw [ofPattern, ofPattern, scan_eq_of_not_mem h, scan_eq_of_not_mem h']
    exact halike false

/-- A comma in a branch of an alternation, and a brace between braces without a comma. -/
theorem sourceOf_bareMember_insideBraces :
    (sourceOf (ofPattern (bareMember "\x7ba,b".toList ',' "c\x7d".toList)) =
        sourceOf (ofPattern (escapedMember "\x7ba,b".toList ',' "c\x7d".toList)) ∧
      rangesOf (ofPattern (bareMember "\x7ba,b".toList ',' "c\x7d".toList)) =
        rangesOf (ofPattern (escapedMember "\x7ba,b".toList ',' "c\x7d".toList))) ∧
      sourceOf (ofPattern (bareMember "\x7ba".toList '{' "b\x7d\x7b1..3\x7d".toList)) =
        sourceOf (ofPattern (escapedMember "\x7ba".toList '{' "b\x7d\x7b1..3\x7d".toList)) ∧
      rangesOf (ofPattern (bareMember "\x7ba".toList '{' "b\x7d\x7b1..3\x7d".toList)) =
        rangesOf (ofPattern (escapedMember "\x7ba".toList '{' "b\x7d\x7b1..3\x7d".toList)) := by
  have hclosed : ¬EndsOpen "\x7ba,b".toList := by decide
  exact ⟨sourceOf_bareMember (by decide) (by decide) (by decide) (fun h => absurd h hclosed) (.inl rfl),
    sourceOf_bareMember (by decide) (by decide) (by decide) (fun _ => .inl rfl)
      (.inr (.inr (by decide +kernel)))⟩

/-- **A bare member may change the meaning of braces elsewhere**: it unbalances those in front of it, it ends
a branch inside of the class, and it makes an alternation of braces without a comma. -/
theorem sourceOf_bareMember_ne :
    (sourceOf (ofPattern (bareMember "\x7ba,b\x7d".toList '{' [])) = "\\\x7ba,b\\\x7d[\\\x7b]".toList ∧
        sourceOf (ofPattern (escapedMember "\x7ba,b\x7d".toList '{' [])) = "(?:a|b)[\\\x7b]".toList) ∧
      (sourceOf (ofPattern (bareMember "\x7ba,".toList '}' [])) = "(?:a|[\\\x7d]".toList ∧
        sourceOf (ofPattern (escapedMember "\x7ba,".toList '}' [])) = "\\\x7ba,[\\\x7d]".toList) ∧
      sourceOf (ofPattern (bareMember "\x7ba".toList ',' "b\x7d".toList)) = "(?:a[,]b)".toList ∧
        sourceOf (ofPattern (escapedMember "\x7ba".toList ',' "b\x7d".toList)) =
          "\\\x7ba[,]b\\\x7d".toList := by
  decide +kernel

end Glob

end EditorSettings
