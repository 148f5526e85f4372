import EditorSettings.Proofs.Glob.Captures
import EditorSettings.Proofs.Glob.Unbracketed

/-!
# Literal braces

Braces without a comma that are no range stand for themselves, and the scanner calls itself on the text
between them.  A single pass over a text calls nothing: it finds tokens, and literal braces with the text
between them (`Token.pass`).  The tokens of a text are those of a pass over it, where the text between
literal braces is read in turn (`Token.scan_eq_flatMap_pass`).

The text between literal braces has no bare comma and no bare closing brace, and its braces do not balance
if there are any (`Token.IsInside`).  The rest behind each token of it is such a text again, so a pass over
it finds no alternation, no range and no literal braces (`Token.IsInside.flat`).  Hence calls are nested one
deep at most: every pattern is read also if calls inside of a call are refused (`Token.ofPatternWithin?`).
-/

namespace EditorSettings

namespace Token

/-! ### A single pass -/

/-- What a pass over a text finds. -/
inductive Found
  /-- A token. -/
  | token (k : Token)
  /-- Literal braces with the text between them. -/
  | braces (inside : Text)
deriving DecidableEq, Repr

/-- What a pass over a text inside `depth` alternations finds.  `alternates` says whether braces with a
comma are alternations. -/
def pass (alternates : Bool) (depth : ℕ) (t : Text) : List Found :=
  match t with
  | [] => []
  | ['\\'] => [.token (literal '\\')]
  | '\\' :: c :: t => .token (literal c) :: pass alternates depth t
  | '*' :: '*' :: t => .token anyRun :: pass alternates depth t
  | '*' :: t => .token nameRun :: pass alternates depth t
  | '?' :: t => .token nameChar :: pass alternates depth t
  | '[' :: t =>
    match _h : Bracket.ofText? t with
    | some (b, rest) => .token (bracket b) :: pass alternates depth rest
    | none => .token (literal '[') :: pass alternates depth t
  | '{' :: t =>
    match _h : wordGroup? t with
    | some (inside, rest) =>
      match IntegerRange.ofText? inside with
      | some r => .token (integer r) :: pass alternates depth rest
      | none => .braces inside :: pass alternates depth rest
    | none =>
      if alternates then .token openGroup :: pass alternates (depth + 1) t
      else .token (literal '{') :: pass alternates depth t
  | ',' :: t => .token (if depth = 0 then literal ',' else nextBranch) :: pass alternates depth t
  | '}' :: t => .token (if depth = 0 then literal '}' else closeGroup) :: pass alternates (depth - 1) t
  | '/' :: '*' :: '*' :: '/' :: t => .token segments :: pass alternates depth t
  | c :: t => .token (literal c) :: pass alternates depth t
termination_by t.length
decreasing_by
  all_goals
    simp only [List.length_cons]
    first
    | omega
    | have hlt := Bracket.length_of_ofText? _h
      omega
    | have hlt := length_of_wordGroup? _h
      omega

namespace Found

/-- The tokens of what is found, the text between literal braces being a pattern of its own. -/
def tokens : Found → List Token
  | token k => [k]
  | braces inside => literal '{' :: ofPattern inside ++ [literal '}']

/-- The text between literal braces. -/
def inside? : Found → Option Text
  | token _ => none
  | braces inside => some inside

/-- The range of braces around its bounds. -/
def range? : Found → Option IntegerRange
  | token k => k.range?
  | braces _ => none

end Found

/-- The texts between the literal braces that a pass over a pattern finds. -/
def insides (pattern : Text) : List Text := (pass (closes pattern) 0 pattern).filterMap Found.inside?

theorem mem_insides {pattern inside : Text} :
    inside ∈ insides pattern ↔ .braces inside ∈ pass (closes pattern) 0 pattern := by
  rw [insides, List.mem_filterMap]
  constructor
  · rintro ⟨f, hf, he⟩
    cases f with
    | token k => cases he
    | braces u =>
      obtain rfl := Option.some.inj he
      exact hf
  · exact fun h => ⟨_, h, rfl⟩

/-- **The tokens of a text are those of a pass over it**, the text between literal braces being read in
turn. -/
theorem scan_eq_flatMap_pass (alternates : Bool) (d : ℕ) (t : Text) :
    scan alternates d t = (pass alternates d t).flatMap Found.tokens := by
  fun_induction pass alternates d t with
  | case1 => rw [scan]; rfl
  | case2 => rw [scan]; rfl
  | case3 _ c t ih => rw [scan, ih]; rfl
  | case5 _ t hn ih => rw [scan_nameRun hn, ih]; rfl
  | case7 _ t b rest hb ih => rw [scan_bracket hb, ih]; rfl
  | case8 _ t hb ih => rw [scan_bracket_of_none hb, ih]; rfl
  | case9 _ t inside rest hg r hr ih => rw [scan_integer hg hr, ih]; rfl
  | case10 _ t inside rest hg hr ih =>
    rw [scan_group hg hr, ih, List.flatMap_cons, Found.tokens, ofPattern, List.append_assoc]
    rfl
  | case11 d t hg ha ih =>
    rw [scan_brace_of_none hg, if_pos ha, if_pos ha, ih]
    rfl
  | case12 d t hg ha ih =>
    rw [scan_brace_of_none hg, if_neg ha, if_neg ha, ih]
    rfl
  | case16 _ c t h1 h2 _ h4 h5 h6 h7 h8 h9 h10 ih =>
    have hslash : c = '/' → ∀ s, t ≠ '*' :: '*' :: '/' :: s := fun hc s hs => h10 s hc hs
    rw [scan_cons_of_ne (Text.ne_backslash h1 h2) h4 h5 h6 h7 h8 h9 hslash, ih]
    rfl
  | _ d t ih => rw [scan, ih]; rfl

theorem ofPattern_eq_flatMap_pass (pattern : Text) :
    ofPattern pattern = (pass (closes pattern) 0 pattern).flatMap Found.tokens :=
  scan_eq_flatMap_pass (closes pattern) 0 pattern

/-- **A text between literal braces** of another one: they are a group without a comma, and no range. -/
def BracedIn (t inside : Text) : Prop :=
  ∃ rest, '{' :: (inside ++ '}' :: rest) <:+ t ∧
    wordGroup? (inside ++ '}' :: rest) = some (inside, rest) ∧ IntegerRange.ofText? inside = none

theorem BracedIn.append {t inside : Text} (h : BracedIn t inside) (p : Text) : BracedIn (p ++ t) inside := by
  obtain ⟨rest, hs, hg⟩ := h
  exact ⟨rest, hs.trans (List.suffix_append p t), hg⟩

/-- **Literal braces that a pass finds stand in the text.** -/
theorem bracedIn_of_mem_pass {alternates : Bool} {d : ℕ} {t inside : Text}
    (h : .braces inside ∈ pass alternates d t) : BracedIn t inside := by
  have behind : ∀ (p : Text) {u : Text} {k : Token} {fs : List Found}, .braces inside ∈ .token k :: fs →
      (.braces inside ∈ fs → BracedIn u inside) → BracedIn (p ++ u) inside := by
    intro p u k fs hmem ih
    exact (ih ((List.mem_cons.mp hmem).resolve_left Found.noConfusion)).append p
  have piece : ∀ u rest : Text, '{' :: (u ++ '}' :: rest) = '{' :: (u ++ ['}']) ++ rest := by simp
  fun_induction pass alternates d t with
  | case1 => exact absurd h List.not_mem_nil
  | case2 => cases List.mem_singleton.mp h
  | case3 _ c t ih => exact behind ['\\', c] h ih
  | case4 _ t ih => exact behind ['*', '*'] h ih
  | case5 _ t _ ih => exact behind ['*'] h ih
  | case6 _ t ih => exact behind ['?'] h ih
  | case7 _ t b rest hb ih =>
    obtain ⟨u, -, rfl, -⟩ := Bracket.exists_append_of_ofText? hb
    exact behind ('[' :: u) h ih
  | case8 _ t _ ih => exact behind ['['] h ih
  | case9 _ t u rest hg r _ ih =>
    obtain rfl := eq_append_of_wordGroup? hg
    rw [piece]
    exact behind _ h ih
  | case10 _ t u rest hg hr ih =>
    obtain rfl := eq_append_of_wordGroup? hg
    rcases List.mem_cons.mp h with he | h
    · cases he
      exact ⟨rest, List.suffix_rfl, hg, hr⟩
    · rw [piece]
      exact (ih h).append _
  | case11 _ t _ _ ih => exact behind ['{'] h ih
  | case12 _ t _ _ ih => exact behind ['{'] h ih
  | case13 _ t ih => exact behind [','] h ih
  | case14 _ t ih => exact behind ['}'] h ih
  | case15 _ t ih => exact behind ['/', '*', '*', '/'] h ih
  | case16 _ c t _ _ _ _ _ _ _ _ _ _ ih => exact behind [c] h ih

/-! ### The text between literal braces -/

/-- Tokens that are read without looking for a closing brace: characters, question marks, stars, segments
and classes, but neither integers nor marks of alternations. -/
def isFlat : Token → Bool
  | literal _ | nameChar | nameRun | anyRun | segments | bracket _ => true
  | integer _ | openGroup | nextBranch | closeGroup => false

namespace IsInside

variable {alternates : Bool} {t : Text}

/-- **A pass over such a text is flat**: it finds characters, stars, question marks, segments and classes,
and no braces of any kind. -/
theorem flat {d : ℕ} (h : IsInside alternates t) :
    ∀ f ∈ pass alternates d t, ∃ k, f = .token k ∧ k.isFlat = true := by
  have step : ∀ {k : Token} {fs : List Found}, k.isFlat = true →
      (∀ f ∈ fs, ∃ k, f = .token k ∧ k.isFlat = true) →
      ∀ f ∈ Found.token k :: fs, ∃ k, f = .token k ∧ k.isFlat = true :=
    fun hk hfs => List.forall_mem_cons.mpr ⟨⟨_, rfl, hk⟩, hfs⟩
  fun_induction pass alternates d t with
  | case1 => exact fun f hf => absurd hf List.not_mem_nil
  | case2 => exact List.forall_mem_singleton.mpr ⟨_, rfl, rfl⟩
  | case3 _ c t ih => exact step rfl (ih (h.of_append (p := ['\\', c]) (.pair c .nil)))
  | case4 _ t ih => exact step rfl (ih ((h.of_cons (by decide)).of_cons (by decide)))
  | case5 _ t _ ih => exact step rfl (ih (h.of_cons (by decide)))
  | case6 _ t ih => exact step rfl (ih (h.of_cons (by decide)))
  | case7 _ t b rest hb ih =>
    -- A class is read up to its closing bracket, so no backslash at its end takes anything from the rest.
    obtain ⟨u, hu, rfl, -⟩ := Bracket.exists_append_of_ofText? hb
    exact step rfl (ih ((h.of_cons (by decide)).of_append hu))
  | case8 _ t _ ih => exact step rfl (ih (h.of_cons (by decide)))
  | case9 _ t inside rest hg _ _ _ =>
    -- A group would need a bare closing brace, here and in the next case.
    rw [(h.of_cons (by decide)).wordGroup?_eq_none] at hg
    cases hg
  | case10 _ t inside rest hg _ _ =>
    rw [(h.of_cons (by decide)).wordGroup?_eq_none] at hg
    cases hg
  | case11 _ t _ ha _ =>
    -- Where braces may be alternations, the text has no bare opening brace.
    have hnone := h.unmarked ha
    rw [Glob.marks_cons (by decide) (by decide)] at hnone
    exact absurd hnone (List.cons_ne_nil _ _)
  | case12 _ t _ _ ih => exact step rfl (ih (h.of_cons (by decide)))
  | case13 => exact absurd (h.eq_of_isMark (by decide)) (by decide)
  | case14 => exact absurd (h.eq_of_isMark (by decide)) (by decide)
  | case15 _ t ih =>
    exact step rfl (ih (h.of_append (p := ['/', '*', '*', '/']) (Text.paired_of_not_mem (by decide))))
  | case16 _ c t h1 h2 _ _ _ _ _ _ _ _ ih => exact step rfl (ih (h.of_cons (Text.ne_backslash h1 h2)))

end IsInside

/-- A pass over the text between literal braces is flat. -/
theorem flat_of_mem_insides {pattern inside : Text} (h : inside ∈ insides pattern) :
    ∀ f ∈ pass (closes inside) 0 inside, ∃ k, f = .token k ∧ k.isFlat = true := by
  obtain ⟨rest, -, hg, -⟩ := bracedIn_of_mem_pass (mem_insides.mp h)
  exact (isInside_of_wordGroup? hg).flat

/-- **There are no literal braces between literal braces.** -/
theorem insides_of_mem_insides {pattern inside : Text} (h : inside ∈ insides pattern) :
    insides inside = [] := by
  rw [insides, List.filterMap_eq_nil_iff]
  intro f hf
  obtain ⟨k, rfl, -⟩ := flat_of_mem_insides h f hf
  rfl

/-- The tokens of the text between literal braces are flat. -/
theorem isFlat_of_mem_insides {pattern inside : Text} (h : inside ∈ insides pattern) :
    ∀ k ∈ ofPattern inside, k.isFlat = true := by
  intro k hk
  rw [ofPattern_eq_flatMap_pass] at hk
  obtain ⟨f, hf, hkf⟩ := List.mem_flatMap.mp hk
  obtain ⟨j, rfl, hj⟩ := flat_of_mem_insides h f hf
  rwa [List.mem_singleton.mp hkf]

/-- Flat tokens have no ranges. -/
theorem rangesOf_of_isFlat {ts : List Token} (h : ∀ k ∈ ts, k.isFlat = true) : rangesOf ts = [] := by
  refine List.filterMap_eq_nil_iff.mpr fun k hk => ?_
  have hflat := h k hk
  cases k with
  | integer r => cases hflat
  | _ => rfl

/-- **The ranges of a pattern are those that a pass over it finds**: those of the texts between literal
braces add nothing. -/
theorem rangesOf_ofPattern (pattern : Text) :
    rangesOf (ofPattern pattern) = (pass (closes pattern) 0 pattern).filterMap Found.range? := by
  have hranges : ∀ f ∈ pass (closes pattern) 0 pattern, rangesOf f.tokens = f.range?.toList := by
    intro f hf
    cases f with
    | token k => cases k <;> rfl
    | braces inside =>
      have hflat := isFlat_of_mem_insides (mem_insides.mpr hf)
      refine rangesOf_of_isFlat (List.forall_mem_append.mpr ⟨?_, List.forall_mem_singleton.mpr rfl⟩)
      exact List.forall_mem_cons.mpr ⟨rfl, hflat⟩
  rw [ofPattern_eq_flatMap_pass, rangesOf, List.filterMap_flatMap, List.filterMap_eq_flatMap_toList]
  exact List.flatMap_congr hranges

/-! ### Nested calls -/

/-- The tokens of what a pass finds, the text between literal braces being read by `read?`; none if it
refuses one of these texts. -/
def tokensBy? (read? : Text → Option (List Token)) : List Found → Option (List Token)
  | [] => some []
  | .token k :: fs => (tokensBy? read? fs).map (k :: ·)
  | .braces inside :: fs =>
    match read? inside, tokensBy? read? fs with
    | some ts, some us => some (literal '{' :: ts ++ literal '}' :: us)
    | _, _ => none

/-- The tokens of a pattern that is read with calls nested at most `n` deep; none if a call is nested
deeper. -/
def ofPatternWithin? : ℕ → Text → Option (List Token)
  | 0, pattern => tokensBy? (fun _ => none) (pass (closes pattern) 0 pattern)
  | n + 1, pattern => tokensBy? (ofPatternWithin? n) (pass (closes pattern) 0 pattern)

theorem tokensBy?_eq {read? : Text → Option (List Token)} : ∀ {fs : List Found},
    (∀ inside, .braces inside ∈ fs → read? inside = some (ofPattern inside)) →
      tokensBy? read? fs = some (fs.flatMap Found.tokens)
  | [], _ => rfl
  | .token k :: fs, h => by
    rw [tokensBy?, tokensBy?_eq fun inside hi => h inside (List.mem_cons_of_mem _ hi)]
    rfl
  | .braces inside :: fs, h => by
    rw [tokensBy?, h inside List.mem_cons_self,
      tokensBy?_eq fun inside hi => h inside (List.mem_cons_of_mem _ hi)]
    simp [Found.tokens]

/-- If every call is refused, no literal braces are read. -/
theorem braces_not_mem_of_tokensBy? {inside : Text} : ∀ {fs : List Found} {ts : List Token},
    tokensBy? (fun _ => none) fs = some ts → .braces inside ∉ fs
  | [], _, _ => List.not_mem_nil
  | .token k :: fs, ts, h => by
    obtain ⟨us, hus, -⟩ := Option.map_eq_some_iff.mp h
    exact List.not_mem_cons_of_ne_of_not_mem Found.noConfusion (braces_not_mem_of_tokensBy? hus)
  | .braces u :: fs, ts, h => by cases h

/-- **Exactly the patterns without literal braces are read without a call.** -/
theorem ofPatternWithin?_zero_iff {pattern : Text} :
    ofPatternWithin? 0 pattern = some (ofPattern pattern) ↔ insides pattern = [] := by
  constructor
  · intro h
    refine List.eq_nil_iff_forall_not_mem.mpr fun inside hi => ?_
    exact braces_not_mem_of_tokensBy? h (mem_insides.mp hi)
  · intro h
    have hnone : ∀ inside, .braces inside ∉ pass (closes pattern) 0 pattern :=
      fun inside hi => List.not_mem_nil (h ▸ mem_insides.mpr hi)
    rw [ofPatternWithin?, tokensBy?_eq fun inside hi => absurd hi (hnone inside), ofPattern_eq_flatMap_pass]

theorem ofPatternWithin?_one (pattern : Text) : ofPatternWithin? 1 pattern = some (ofPattern pattern) := by
  have hread : ∀ inside, .braces inside ∈ pass (closes pattern) 0 pattern →
      ofPatternWithin? 0 inside = some (ofPattern inside) :=
    fun inside hi => ofPatternWithin?_zero_iff.mpr (insides_of_mem_insides (mem_insides.mpr hi))
  rw [ofPatternWithin?, tokensBy?_eq hread, ofPattern_eq_flatMap_pass]

end Token

open Token

namespace Regex

/-! ### The expression text between literal braces -/

theorem openGroups?_class_cons {c : Char} (hb : c ≠ '\\') (hc : c ≠ ']') (d : ℕ) (t : Text) :
    openGroups? true d (c :: t) = openGroups? true d t := by
  rw [openGroups?] <;> intros <;> contradiction

theorem openGroups?_memberSource (m : BracketMember) (d : ℕ) (t : Text) :
    openGroups? true d (memberSource m ++ t) = openGroups? true d t := by
  rcases memberSource_cases m with hm | ⟨c, hm, hb, hc⟩
  · rw [hm]
    rfl
  · rw [hm]
    exact openGroups?_class_cons hb hc d t

/-- The members of a class open no group, and the class is read to its end. -/
theorem openGroups?_members (d : ℕ) (t : Text) : ∀ ms : List BracketMember,
    openGroups? true d (ms.flatMap memberSource ++ ']' :: t) = openGroups? false d t
  | [] => rfl
  | m :: ms => by
    rw [List.flatMap_cons, List.append_assoc, openGroups?_memberSource, openGroups?_members d t ms]

theorem openGroups?_bracket (b : Bracket) (d : ℕ) (t : Text) :
    openGroups? false d ((Token.bracket b).source ++ t) = openGroups? false d t := by
  rw [source_bracket]
  split
  · exact (openGroups?_class_cons (by decide) (by decide) d _).trans (openGroups?_members d t b.members)
  · exact openGroups?_members d t b.members

theorem openGroups?_of_isFlat {k : Token} (hk : k.isFlat = true) (d : ℕ) (t : Text) :
    openGroups? false d (k.source ++ t) = openGroups? false d t := by
  cases k with
  | bracket b => exact openGroups?_bracket b d t
  | integer r => cases hk
  | openGroup => cases hk
  | nextBranch => cases hk
  | closeGroup => cases hk
  | _ => exact openGroups?_of_isPlain rfl d t

/-- **In the text of flat tokens** every class is complete, and every group is closed. -/
theorem openGroups?_sourceOf_of_isFlat : ∀ {ts : List Token}, (∀ k ∈ ts, k.isFlat = true) →
    openGroups? false 0 (sourceOf ts) = some 0
  | [], _ => rfl
  | k :: ts, h => by
    obtain ⟨hk, hts⟩ := List.forall_mem_cons.mp h
    rw [sourceOf_cons, openGroups?_of_isFlat hk, openGroups?_sourceOf_of_isFlat hts]

/-- The only groups in the text of flat tokens are those of segments. -/
theorem prefix_of_mem_groups_of_isFlat : ∀ {ts : List Token}, (∀ k ∈ ts, k.isFlat = true) →
    ∀ g ∈ groups (sourceOf ts), segments.source <+: g
  | [], _ => fun _ hg => absurd hg List.not_mem_nil
  | k :: ts, h => by
    obtain ⟨hk, hts⟩ := List.forall_mem_cons.mp h
    rw [sourceOf_cons, groups_source_append]
    refine List.forall_mem_append.mpr ⟨?_, prefix_of_mem_groups_of_isFlat hts⟩
    cases k with
    | segments => exact List.forall_mem_singleton.mpr (List.prefix_append _ _)
    | integer r => cases hk
    | openGroup => cases hk
    | _ => exact fun g hg => absurd hg List.not_mem_nil

end Regex

namespace Token

/-! ### Reading is flat -/

/-- **A text that is read flat.** -/
structure ReadFlat (t : Text) : Prop where
  /-- Reading it calls nothing. -/
  calls : insides t = []
  /-- Its tokens are characters, stars, question marks, segments and classes. -/
  tokens : ∀ k ∈ ofPattern t, k.isFlat = true
  /-- It has no ranges. -/
  ranges : rangesOf (ofPattern t) = []
  /-- In its expression text every class is complete, and every group is closed. -/
  complete : Regex.openGroups? false 0 (sourceOf (ofPattern t)) = some 0
  /-- The only groups in its expression text are those of segments. -/
  groups : ∀ g ∈ Regex.groups (sourceOf (ofPattern t)), "(?:/|/.*/)".toList <+: g

theorem readFlat_of_mem_insides {pattern inside : Text} (h : inside ∈ insides pattern) : ReadFlat inside where
  calls := insides_of_mem_insides h
  tokens := isFlat_of_mem_insides h
  ranges := rangesOf_of_isFlat (isFlat_of_mem_insides h)
  complete := Regex.openGroups?_sourceOf_of_isFlat (isFlat_of_mem_insides h)
  groups := Regex.prefix_of_mem_groups_of_isFlat (isFlat_of_mem_insides h)

/-- **Literal braces are read flat.**  What is read between literal braces of a pattern calls nothing, opens
no alternation and has no range.  So every pattern is read with calls nested one deep at most, and its
ranges are those that a pass over it finds: the calls add none. -/
theorem literalBraces_readFlat (pattern : Text) :
    (∀ inside ∈ insides pattern, BracedIn pattern inside ∧ ReadFlat inside) ∧
      ofPatternWithin? 1 pattern = some (ofPattern pattern) ∧
      rangesOf (ofPattern pattern) = (pass (closes pattern) 0 pattern).filterMap Found.range? :=
  ⟨fun _ h => ⟨bracedIn_of_mem_pass (mem_insides.mp h), readFlat_of_mem_insides h⟩,
    ofPatternWithin?_one pattern, rangesOf_ofPattern pattern⟩

/-- Literal braces in the second branch of an alternation, with a class, an opening brace and an escaped
closing one between them. -/
def bracedBranch : Text := "\x7bx,\x7b[!a-c]\x7b/**/?\\\x7d*\x7d\x7d\x7d\x7b1..3\x7d".toList

/-- The text between these braces is read flat, although braces with a comma are alternations around it. -/
theorem literalBraces_readFlat_bracedBranch :
    closes bracedBranch = true ∧ "[!a-c]\x7b/**/?\\\x7d*".toList ∈ insides bracedBranch ∧
    (BracedIn bracedBranch "[!a-c]\x7b/**/?\\\x7d*".toList ∧ ReadFlat "[!a-c]\x7b/**/?\\\x7d*".toList) ∧
    (ofPatternWithin? 1 bracedBranch = some (ofPattern bracedBranch) ∧
      rangesOf (ofPattern bracedBranch) =
        (pass (closes bracedBranch) 0 bracedBranch).filterMap Found.range?) ∧
    ofPatternWithin? 0 bracedBranch = none ∧
    sourceOf (ofPattern bracedBranch) =
      "(?:x|\\\x7b[^a-c]\\\x7b(?:/|/.*/)[^/]\\\x7d[^/]*\\\x7d)\\\x7d([+\\-]?\\d+)".toList :=
  ⟨by decide, by decide +kernel, (literalBraces_readFlat bracedBranch).1 _ (by decide +kernel),
    (literalBraces_readFlat bracedBranch).2, by decide +kernel, by decide +kernel⟩

end Token

end EditorSettings
