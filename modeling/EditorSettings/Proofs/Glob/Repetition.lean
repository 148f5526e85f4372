import EditorSettings.Proofs.Glob.Depth
import EditorSettings.Proofs.Glob.Pieces
import Mathlib.Tactic.MkIffOfInductiveProp

/-!
# Repeated segments

Between two slashes, two stars are any number of segments, but the slash at their end is read together with
them and cannot begin further segments.  Two stars and a slash once more are therefore any text and a slash
(`Token.scan_starSlashes`), which at least one more slash must match.  So repeating them keeps what the pattern
matches with a segment in this place and loses what it matches without any (`Glob.accepts_repeated`).

Only the junction of the two texts around the repetitions changes with their number, whatever slashes and
stars stand next to it (`Glob.exists_scan_repeatedSegments`).  What `n` repetitions describe goes down with `n`,
and a further one loses at most what one fewer describes (`Token.describe_junction_succ`).
-/

namespace EditorSettings

namespace Regex

/-- A row describes what comes first, followed by what its parts describe. -/
theorem describes_inOrder (parts : List Regex) : ∀ {e : Regex} {u : Text},
    (inOrder e parts).Describes u ↔
      ∃ v w, u = v ++ w ∧ e.Describes v ∧ (inOrder empty parts).Describes w := by
  induction parts with
  | nil =>
    intro e u
    constructor
    · intro h
      exact ⟨u, [], (List.append_nil u).symm, h, describes_empty.mpr rfl⟩
    · rintro ⟨v, w, rfl, hv, hw⟩
      rw [describes_empty.mp hw, List.append_nil]
      exact hv
  | cons r parts ih =>
    intro e u
    have hcons : inOrder e (r :: parts) = inOrder (e.andThen r) parts := rfl
    have hempty : inOrder empty (r :: parts) = inOrder r parts := rfl
    rw [hcons, hempty, ih]
    constructor
    · rintro ⟨v, w, rfl, hv, hw⟩
      obtain ⟨v, x, rfl, hv, hx⟩ := describes_andThen.mp hv
      exact ⟨v, x ++ w, List.append_assoc v x w, hv, ih.mpr ⟨x, w, rfl, hx, hw⟩⟩
    · rintro ⟨v, w, rfl, hv, hw⟩
      obtain ⟨x, w, rfl, hx, hw⟩ := ih.mp hw
      exact ⟨v ++ x, w, (List.append_assoc v x w).symm, describes_andThen.mpr ⟨v, x, rfl, hv, hx⟩, hw⟩

end Regex

namespace Token

/-! ### What tokens in a row describe -/

/-- The expressions of tokens in a row describe a text. -/
def Describe (ts : List Token) (u : Text) : Prop :=
  (Regex.inOrder .empty (ts.filterMap Regex.part?)).Describes u

theorem describe_append {ts us : List Token} {u : Text} :
    Describe (ts ++ us) u ↔ ∃ v w, u = v ++ w ∧ Describe ts v ∧ Describe us w := by
  rw [Describe, List.filterMap_append, Regex.inOrder, List.foldl_append]
  exact Regex.describes_inOrder _

theorem describe_cons {k : Token} {r : Regex} (hk : Regex.part? k = some r) {ts : List Token} {u : Text} :
    Describe (k :: ts) u ↔ ∃ v w, u = v ++ w ∧ r.Describes v ∧ Describe ts w := by
  rw [Describe, List.filterMap_cons_some hk]
  exact Regex.describes_inOrder (e := r) _

theorem describe_nil {u : Text} : Describe [] u ↔ u = [] := Regex.describes_empty

/-! ### Slashes and pairs of stars -/

/-- Two stars and a slash, `n` times. -/
def starSlashes : ℕ → Text
  | 0 => []
  | n + 1 => '*' :: '*' :: '/' :: starSlashes n

/-- The tokens of a slash with `n` times two stars and a slash behind it. -/
def junction : ℕ → List Token
  | 0 => [literal '/']
  | 1 => [segments]
  | n + 2 => segments :: anyRun :: junction n

theorem starSlashes_add (m n : ℕ) : starSlashes (m + n) = starSlashes m ++ starSlashes n := by
  induction m with
  | zero => rw [Nat.zero_add]; rfl
  | succ m ih => rw [Nat.succ_add, starSlashes, ih]; rfl

/-- **The tokens of repeated stars**, in front of a text that does not go on with them.  A slash that ends
segments does not begin further ones. -/
theorem scan_starSlashes {alternates : Bool} {d : ℕ} {y : Text} (hy : ∀ s, y ≠ '*' :: '*' :: '/' :: s) :
    ∀ n : ℕ, scan alternates d ('/' :: (starSlashes n ++ y)) = junction n ++ scan alternates d y
  | 0 => scan_cons (by decide) (fun _ => hy) alternates d
  | 1 => by
    rw [starSlashes, starSlashes]
    simp only [List.cons_append, List.nil_append]
    rw [scan]
    rfl
  | n + 2 => by
    rw [starSlashes, starSlashes]
    simp only [List.cons_append]
    rw [scan, scan, scan_starSlashes hy n]
    rfl

/-- Every text begins with repeated stars, perhaps none, and goes on without them. -/
theorem exists_starSlashes : ∀ y : Text,
    ∃ n y', y = starSlashes n ++ y' ∧ ∀ s, y' ≠ '*' :: '*' :: '/' :: s := by
  intro y
  by_cases h : ∃ s, y = '*' :: '*' :: '/' :: s
  · obtain ⟨s, rfl⟩ := h
    obtain ⟨n, y', rfl, hy'⟩ := exists_starSlashes s
    exact ⟨n + 1, y', rfl, hy'⟩
  · exact ⟨0, y, rfl, fun s hs => h ⟨s, hs⟩⟩
termination_by y => y.length

/-! ### What repeated stars describe -/

theorem describe_junction_zero {u : Text} : Describe (junction 0) u ↔ u = ['/'] := by
  rw [junction, describe_cons rfl]
  simp only [Regex.describes_only, describe_nil]
  constructor
  · rintro ⟨v, w, rfl, rfl, rfl⟩
    rfl
  · rintro rfl
    exact ⟨['/'], [], rfl, rfl, rfl⟩

/-- Two repetitions more: a slash and any text before. -/
theorem describe_junction_add_two {n : ℕ} {u : Text} :
    Describe (junction (n + 2)) u ↔ ∃ v w, u = '/' :: (v ++ w) ∧ Describe (junction n) w := by
  rw [junction, describe_cons rfl]
  constructor
  · rintro ⟨v, w, rfl, hv, hw⟩
    obtain ⟨x, w, rfl, -, hw⟩ := (describe_cons rfl).mp hw
    rcases Regex.describes_segmentsRegex.mp hv with rfl | ⟨s, rfl⟩
    · exact ⟨x, w, rfl, hw⟩
    · exact ⟨s ++ '/' :: x, w, by simp, hw⟩
  · rintro ⟨v, w, rfl, hw⟩
    have hany : (Regex.many .every).Describes v := Regex.describes_many.mpr fun _ _ => rfl
    exact ⟨['/'], v ++ w, rfl, Regex.describes_segmentsRegex.mpr (.inl rfl),
      (describe_cons rfl).mpr ⟨v, w, rfl, hany, hw⟩⟩

/-- One pair of stars: no repetition or two. -/
theorem describe_junction_one {u : Text} :
    Describe (junction 1) u ↔ Describe (junction 0) u ∨ Describe (junction 2) u := by
  have hsegments : Describe (junction 1) u ↔ Regex.segmentsRegex.Describes u := by
    rw [junction, describe_cons rfl]
    simp only [describe_nil]
    constructor
    · rintro ⟨v, w, rfl, hv, rfl⟩
      rwa [List.append_nil]
    · intro h
      exact ⟨u, [], (List.append_nil u).symm, h, rfl⟩
  rw [hsegments, Regex.describes_segmentsRegex, describe_junction_zero, describe_junction_add_two]
  refine or_congr Iff.rfl ⟨?_, ?_⟩
  · rintro ⟨s, rfl⟩
    exact ⟨s, ['/'], rfl, describe_junction_zero.mpr rfl⟩
  · rintro ⟨v, w, rfl, hw⟩
    exact ⟨v, by rw [describe_junction_zero.mp hw]⟩

/-- **A further repetition describes no more.** -/
theorem describe_junction_of_succ : ∀ {n : ℕ} {u : Text}, Describe (junction (n + 2)) u →
    Describe (junction (n + 1)) u
  | 0, _, h => describe_junction_one.mpr (.inr h)
  | 1, u, h => by
    obtain ⟨v, w, rfl, hw⟩ := describe_junction_add_two.mp h
    rcases describe_junction_one.mp hw with hw | hw
    · exact describe_junction_add_two.mpr ⟨v, w, rfl, hw⟩
    · obtain ⟨x, w', rfl, hw'⟩ := describe_junction_add_two.mp hw
      exact describe_junction_add_two.mpr ⟨v ++ '/' :: x, w', by simp, hw'⟩
  | n + 2, u, h => by
    obtain ⟨v, w, rfl, hw⟩ := describe_junction_add_two.mp h
    exact describe_junction_add_two.mpr ⟨v, w, rfl, describe_junction_of_succ hw⟩

/-- **A further repetition loses** at most what one repetition fewer describes. -/
theorem describe_junction_succ : ∀ {n : ℕ} {u : Text}, Describe (junction (n + 1)) u →
    Describe (junction n) u ∨ Describe (junction (n + 2)) u
  | 0, _, h => describe_junction_one.mp h
  | 1, u, h => by
    obtain ⟨v, w, rfl, hw⟩ := describe_junction_add_two.mp h
    exact .inr (describe_junction_add_two.mpr ⟨v, w, rfl, describe_junction_one.mpr (.inl hw)⟩)
  | n + 2, u, h => by
    obtain ⟨v, w, rfl, hw⟩ := describe_junction_add_two.mp h
    refine (describe_junction_succ hw).imp ?_ ?_
    · exact fun hw => describe_junction_add_two.mpr ⟨v, w, rfl, hw⟩
    · exact fun hw => describe_junction_add_two.mpr ⟨v, w, rfl, hw⟩

/-! ### Texts without brackets and braces -/

/-- A text without bare brackets and braces. -/
@[mk_iff] structure Unbraced (t : Text) : Prop where
  bracket : '[' ∉ t.bare
  opens : '{' ∉ t.bare
  closes : '}' ∉ t.bare

theorem unbraced_append_iff {p t : Text} (hp : p.Paired) :
    Unbraced (p ++ t) ↔ Unbraced p ∧ Unbraced t := by
  simp only [unbraced_iff, hp.bare_append, List.mem_append, not_or]
  tauto

theorem unbraced_of_append {p t : Text} (hp : p.Paired) (ht : Text.Paired (p ++ t))
    (h : Unbraced (p ++ t)) : t.Paired ∧ Unbraced t :=
  ⟨hp.of_append ht, ((unbraced_append_iff hp).mp h).2⟩

theorem unbraced_of_cons {c : Char} (hc : c ≠ '\\') {t : Text} (hp : Text.Paired (c :: t))
    (h : Unbraced (c :: t)) : t.Paired ∧ Unbraced t :=
  unbraced_of_append (p := [c]) (.single hc .nil) hp h

theorem paired_slash : Text.Paired ['/'] := .single (by decide) .nil

theorem unbraced_slash : Unbraced ['/'] := ⟨by decide, by decide, by decide⟩

/-- Tokens without alternations have no marks of them. -/
theorem isInnerMark_eq_false : ∀ {ts : List Token}, marksInside 0 ts = true → openGroup ∉ ts →
    ∀ k ∈ ts, k.isInnerMark = false
  | [], _, _ => fun _ hk => absurd hk List.not_mem_nil
  | k :: ts, h, ho => by
    obtain ⟨hk, hts⟩ := marksInside_cons.mp h
    rw [List.mem_cons, not_or] at ho
    have hmark : k.isInnerMark = false := by
      rw [← Bool.not_eq_true]
      exact fun hm => absurd (hk hm) (lt_irrefl 0)
    have hdepth : k.depthAfter 0 = 0 := by
      cases k with
      | openGroup => exact absurd rfl ho.1
      | _ => rfl
    rw [hdepth] at hts
    exact List.forall_mem_cons.mpr ⟨hmark, isInnerMark_eq_false hts ho.2⟩

/-- **The tokens of a text without brackets and braces** are neither classes nor integers nor marks. -/
theorem isPlain_of_unbraced (alternates : Bool) {t : Text} (h : Unbraced t) :
    ∀ k ∈ scan alternates 0 t, k.isPlain = true ∧ k.range? = none := by
  intro k hk
  have hopen : openGroup ∉ scan alternates 0 t := openGroup_not_mem_scan h.opens
  have hmark := isInnerMark_eq_false (marksInside_scan alternates 0 t) hopen k hk
  rcases (areReadFrom_scan alternates 0 t).piece_of_mem hk with rfl | ⟨p, hp, -, hbare⟩
  · exact ⟨rfl, rfl⟩
  · cases k with
    | bracket b =>
      obtain ⟨u, rfl, -⟩ := hp
      exact absurd (hbare (by rw [Text.bare_cons (by decide)]; exact List.mem_cons_self)) h.bracket
    | integer r =>
      obtain ⟨u, rfl, -⟩ := hp
      exact absurd (hbare (by rw [Text.bare_cons (by decide)]; exact List.mem_cons_self)) h.opens
    | openGroup => exact absurd hk hopen
    | nextBranch => cases hmark
    | closeGroup => cases hmark
    | _ => exact ⟨rfl, rfl⟩

end Token

namespace Glob

open Token

/-- **A pattern without brackets and braces** has an expression, and applies to what its tokens describe. -/
theorem exists_glob_of_unbraced {t : Text} (h : Unbraced ('/' :: t)) (directory : Text) :
    ∃ g, ofPattern? directory ('/' :: t) = some g ∧ ∀ path, g.accepts path = true ↔
      ∃ u, path = trimSlashes directory ++ u ∧ Describe (scan false 0 ('/' :: t)) u := by
  have htokens : ofPattern ('/' :: t) = scan false 0 ('/' :: t) :=
    scan_eq_of_not_mem (openGroup_not_mem_scan h.opens)
  have hplain := isPlain_of_unbraced false h
  have hfits : fits 0 0 (scan false 0 ('/' :: t) ++ []) = true :=
    fits_append_of_isPlain (le_refl 0) rfl fun k hk => (hplain k hk).1
  rw [List.append_nil] at hfits
  obtain ⟨r, htree, hr⟩ := Regex.ofTokens?_of_fits (by decide) hfits
  have hranges : rangesOf (scan false 0 ('/' :: t)) = [] :=
    List.filterMap_eq_nil_iff.mpr fun k hk => (hplain k hk).2
  have hnone := Regex.catchesNone_of_tree? hranges htree
  have hrow : r = Regex.inOrder .empty ((scan false 0 ('/' :: t)).filterMap Regex.part?) := by
    have hrun := Regex.run_of_parts (fun k hk => isSome_part?_of_isPlain (hplain k hk).1) Regex.Level.start []
    rw [Regex.tree?, hrun, Regex.Level.start, Regex.foldl_add] at htree
    exact (Option.some.inj htree).symm
  rw [← htokens] at hr
  refine ⟨_, ofPattern?_of_slash hr directory, fun path => ?_⟩
  simp only [accepts_iff, Regex.accepts_iff_describes hnone]
  rw [hrow]
  rfl

end Glob

namespace Token

/-! ### A slash behind a text -/

/-- Two stars and a slash begin in a text in front of a slash, or end there. -/
theorem eq_of_append_slash_eq_stars {t r s : Text} (h : t ++ '/' :: r = '*' :: '*' :: '/' :: s) :
    t = ['*', '*'] ∨ ∃ s', t = '*' :: '*' :: '/' :: s' := by
  match t with
  | [] => simp at h
  | [c] => simp at h
  | [c, c'] =>
    simp only [List.cons_append, List.cons.injEq] at h
    exact .inl (by rw [h.1, h.2.1])
  | c :: c' :: c'' :: t =>
    simp only [List.cons_append, List.cons.injEq] at h
    exact .inr ⟨t, by rw [h.1, h.2.1, h.2.2.1]⟩

/-- A slash behind a text is read on its own, or it ends segments that begin in the text: whatever follows it
makes a junction with the text. -/
def EndsInJunction (alternates : Bool) (d : ℕ) (t : Text) : Prop :=
  ∃ ts n, ∀ r, scan alternates d (t ++ '/' :: r) = ts ++ scan alternates d ('/' :: (starSlashes n ++ r))

theorem EndsInJunction.cons {alternates : Bool} {d : ℕ} {t t' : Text} (h : EndsInJunction alternates d t)
    {k : Token} (hk : ∀ r, scan alternates d (t' ++ '/' :: r) = k :: scan alternates d (t ++ '/' :: r)) :
    EndsInJunction alternates d t' := by
  obtain ⟨ts, n, hts⟩ := h
  exact ⟨k :: ts, n, fun r => by rw [hk, hts, List.cons_append]⟩

/-- **Every text without brackets and braces ends in a junction**, if it does not end in a bare backslash. -/
theorem endsInJunction_of_unbraced (alternates : Bool) (d : ℕ) {t : Text} (hp : t.Paired)
    (h : Unbraced t) : EndsInJunction alternates d t := by
  fun_induction scan alternates d t with
  | case1 => exact ⟨[], 0, fun r => rfl⟩
  | case2 => exact absurd hp.not_mem_bare (by decide)
  | case3 alternates d c t ih =>
    obtain ⟨hp, h⟩ := unbraced_of_append (p := ['\\', c]) (.pair c .nil) hp h
    exact (ih hp h).cons fun r => by rw [List.cons_append, List.cons_append, scan]
  | case4 alternates d t ih =>
    obtain ⟨hp, h⟩ := unbraced_of_cons (by decide) hp h
    obtain ⟨hp, h⟩ := unbraced_of_cons (by decide) hp h
    exact (ih hp h).cons fun r => by rw [List.cons_append, List.cons_append, scan]
  | case5 alternates d t hn ih =>
    obtain ⟨hp, h⟩ := unbraced_of_cons (by decide) hp h
    have hstar : ∀ r s, t ++ '/' :: r ≠ '*' :: s := by
      intro r s hs
      rcases t with _ | ⟨c, t⟩
      · cases hs
      · exact hn t (by rw [(List.cons.inj hs).1])
    exact (ih hp h).cons fun r => by rw [List.cons_append, scan_nameRun (hstar r)]
  | case6 alternates d t ih =>
    obtain ⟨hp, h⟩ := unbraced_of_cons (by decide) hp h
    exact (ih hp h).cons fun r => by rw [List.cons_append, scan]
  | case13 alternates d t ih =>
    obtain ⟨hp, h⟩ := unbraced_of_cons (by decide) hp h
    exact (ih hp h).cons fun r => by rw [List.cons_append, scan]
  | case15 alternates d t ih =>
    have hstars : Text.Paired ['/', '*', '*', '/'] := Text.paired_of_not_mem (by decide)
    obtain ⟨hp, h⟩ := unbraced_of_append hstars hp h
    refine (ih hp h).cons (k := segments) fun r => ?_
    simp only [List.cons_append]
    rw [scan]
  | case16 alternates d c t h1 h2 h3 h4 h5 h6 h7 h8 h9 h10 ih =>
    by_cases hend : c = '/' ∧ t = ['*', '*']
    · -- The slash behind the text ends segments.
      obtain ⟨rfl, rfl⟩ := hend
      exact ⟨[], 1, fun r => rfl⟩
    · have hb := Text.ne_backslash h1 h2
      obtain ⟨hp, h⟩ := unbraced_of_cons hb hp h
      have hslash : ∀ r, c = '/' → ∀ s, t ++ '/' :: r ≠ '*' :: '*' :: '/' :: s := by
        intro r hc s hs
        rcases eq_of_append_slash_eq_stars hs with ht | ⟨s', ht⟩
        · exact hend ⟨hc, ht⟩
        · exact h10 s' hc ht
      exact (ih hp h).cons fun r => by
        rw [List.cons_append, scan_cons_of_ne hb h4 h5 h6 h7 h8 h9 (hslash r)]
  | case7 => exact absurd List.mem_cons_self h.bracket
  | case8 => exact absurd List.mem_cons_self h.bracket
  | case14 => exact absurd List.mem_cons_self h.closes
  | _ => exact absurd List.mem_cons_self h.opens

end Token

namespace Glob

open Token

/-! ### Repeated segments -/

/-- The pattern of two texts with `n` pairs of stars between slashes behind the first one. -/
def repeatedSegments (n : ℕ) (x y : Text) : Text := '/' :: (x ++ '/' :: (starSlashes n ++ y))

/-- Two stars and a slash have no brackets, no braces and no backslash, however often they are repeated. -/
theorem unbraced_starSlashes : ∀ n : ℕ, Unbraced (starSlashes n) ∧ (starSlashes n).Paired
  | 0 => ⟨⟨by decide, by decide, by decide⟩, .nil⟩
  | n + 1 => by
    obtain ⟨h, hp⟩ := unbraced_starSlashes n
    have hstars : Text.Paired ['*', '*', '/'] := Text.paired_of_not_mem (by decide)
    have hsplit : starSlashes (n + 1) = ['*', '*', '/'] ++ starSlashes n := rfl
    rw [hsplit, unbraced_append_iff hstars]
    exact ⟨⟨⟨by decide, by decide, by decide⟩, h⟩,
      .single (by decide) (.single (by decide) (.single (by decide) hp))⟩

theorem unbraced_repeatedSegments {x y : Text} (hx : Unbraced x) (hp : x.Paired) (hy : Unbraced y)
    (n : ℕ) : Unbraced (repeatedSegments n x y) := by
  obtain ⟨hstars, hpaired⟩ := unbraced_starSlashes n
  have hsplit : repeatedSegments n x y = ['/'] ++ (x ++ (['/'] ++ (starSlashes n ++ y))) := rfl
  rw [hsplit, unbraced_append_iff paired_slash, unbraced_append_iff hp, unbraced_append_iff paired_slash,
    unbraced_append_iff hpaired]
  exact ⟨unbraced_slash, hx, unbraced_slash, hstars, hy⟩

/-- **Repetitions change the junction only**, whatever slashes and stars stand next to it. -/
theorem exists_scan_repeatedSegments {x : Text} (hx : Unbraced x) (hp : x.Paired) (y : Text) :
    ∃ ts us k, ∀ n, scan false 0 (repeatedSegments n x y) = ts ++ (junction (k + n) ++ us) := by
  have hbegin : Unbraced ('/' :: x) := (unbraced_append_iff paired_slash).mpr ⟨unbraced_slash, hx⟩
  obtain ⟨ts, before, hts⟩ := endsInJunction_of_unbraced false 0 (.single (by decide) hp) hbegin
  obtain ⟨behind, y', rfl, hy'⟩ := exists_starSlashes y
  refine ⟨ts, scan false 0 y', before + behind, fun n => ?_⟩
  have hstars : starSlashes before ++ (starSlashes n ++ (starSlashes behind ++ y')) =
      starSlashes (before + behind + n) ++ y' := by
    rw [← List.append_assoc, ← List.append_assoc, ← starSlashes_add, ← starSlashes_add]
    congr 2
    omega
  have h := hts (starSlashes n ++ (starSlashes behind ++ y'))
  rw [hstars, scan_starSlashes hy'] at h
  exact h

theorem describe_between {ts js us : List Token} {u : Text} : Describe (ts ++ (js ++ us)) u ↔
    ∃ v w x, u = v ++ (w ++ x) ∧ Describe ts v ∧ Describe js w ∧ Describe us x := by
  rw [describe_append]
  constructor
  · rintro ⟨v, z, rfl, hv, hz⟩
    obtain ⟨w, x, rfl, hw, hx⟩ := describe_append.mp hz
    exact ⟨v, w, x, rfl, hv, hw, hx⟩
  · rintro ⟨v, w, x, rfl, hv, hw, hx⟩
    exact ⟨v, w ++ x, rfl, hv, describe_append.mpr ⟨w, x, rfl, hw, hx⟩⟩

/-- **Repeated segments** have an expression, and apply to a junction between what is described before and
behind it. -/
theorem exists_glob_repeatedSegments {x y : Text} (hx : Unbraced x) (hp : x.Paired) (hy : Unbraced y)
    (directory : Text) :
    ∃ ts us k, ∀ n, ∃ g, ofPattern? directory (repeatedSegments n x y) = some g ∧ ∀ path,
      g.accepts path = true ↔ ∃ v w z, path = trimSlashes directory ++ (v ++ (w ++ z)) ∧
        Describe ts v ∧ Describe (junction (k + n)) w ∧ Describe us z := by
  obtain ⟨ts, us, k, hscan⟩ := exists_scan_repeatedSegments hx hp y
  refine ⟨ts, us, k, fun n => ?_⟩
  obtain ⟨g, hg, haccepts⟩ := exists_glob_of_unbraced (unbraced_repeatedSegments hx hp hy n) directory
  have hn : scan false 0 ('/' :: (x ++ '/' :: (starSlashes n ++ y))) = _ := hscan n
  rw [hn] at haccepts
  refine ⟨g, hg, fun path => (haccepts path).trans ?_⟩
  constructor
  · rintro ⟨u, rfl, hu⟩
    obtain ⟨v, w, z, rfl, h⟩ := describe_between.mp hu
    exact ⟨v, w, z, rfl, h⟩
  · rintro ⟨v, w, z, rfl, h⟩
    exact ⟨_, rfl, describe_between.mpr ⟨v, w, z, rfl, h⟩⟩

/-- **Repeated segments** match what segments without a repetition match, except what is matched without any
segment. -/
theorem accepts_repeated {x y : Text} (hx : Unbraced x) (hback : '\\' ∉ x.bare) (hy : Unbraced y)
    (directory : Text) :
    ∃ g₀ g₁ g₂, ofPattern? directory (repeatedSegments 0 x y) = some g₀ ∧
      ofPattern? directory (repeatedSegments 1 x y) = some g₁ ∧
      ofPattern? directory (repeatedSegments 2 x y) = some g₂ ∧
      ∀ path, (g₂.accepts path = true → g₁.accepts path = true) ∧
        (g₀.accepts path = false → (g₁.accepts path = true ↔ g₂.accepts path = true)) := by
  obtain ⟨ts, us, k, hglob⟩ :=
    exists_glob_repeatedSegments hx (Text.paired_of_not_mem hback) hy directory
  obtain ⟨g₀, hg₀, h₀⟩ := hglob 0
  obtain ⟨g₁, hg₁, h₁⟩ := hglob 1
  obtain ⟨g₂, hg₂, h₂⟩ := hglob 2
  have hless : ∀ path, g₂.accepts path = true → g₁.accepts path = true := by
    intro path h
    obtain ⟨v, w, z, hpath, hv, hw, hz⟩ := (h₂ path).mp h
    exact (h₁ path).mpr ⟨v, w, z, hpath, hv, describe_junction_of_succ hw, hz⟩
  refine ⟨g₀, g₁, g₂, hg₀, hg₁, hg₂, fun path => ⟨hless path, fun hnot => ⟨fun h => ?_, hless path⟩⟩⟩
  obtain ⟨v, w, z, hpath, hv, hw, hz⟩ := (h₁ path).mp h
  rcases describe_junction_succ hw with hw | hw
  · have haccepts := (h₀ path).mpr ⟨v, w, z, hpath, hv, hw, hz⟩
    rw [hnot] at haccepts
    cases haccepts
  · exact (h₂ path).mpr ⟨v, w, z, hpath, hv, hw, hz⟩

/-- A star next to the repeated segments, which are one segment of the path. -/
theorem accepts_repeated_behindStar :
    Unbraced "a*".toList ∧ '\\' ∉ Text.bare "a*".toList ∧ Unbraced "b".toList ∧
      ∃ g₁ g₂, ofPattern? "/w/".toList "/a*/**/b".toList = some g₁ ∧
        ofPattern? "/w/".toList "/a*/**/**/b".toList = some g₂ ∧ g₁.accepts "/w/a1/c/b".toList = true ∧
        g₂.accepts "/w/a1/c/b".toList = true := by
  have hx : Unbraced "a*".toList := ⟨by decide, by decide, by decide⟩
  have hback : '\\' ∉ Text.bare "a*".toList := by decide
  have hy : Unbraced "b".toList := ⟨by decide, by decide, by decide⟩
  obtain ⟨g₀, g₁, g₂, hg₀, hg₁, hg₂, h⟩ := accepts_repeated hx hback hy "/w/".toList
  have hnone : (ofPattern? "/w/".toList (repeatedSegments 0 "a*".toList "b".toList)).map
      (·.accepts "/w/a1/c/b".toList) = some false := by decide +kernel
  have hone : (ofPattern? "/w/".toList (repeatedSegments 1 "a*".toList "b".toList)).map
      (·.accepts "/w/a1/c/b".toList) = some true := by decide +kernel
  rw [hg₀] at hnone
  rw [hg₁] at hone
  have haccepts := Option.some.inj hone
  exact ⟨hx, hback, hy, g₁, g₂, hg₁, hg₂, haccepts, ((h _).2 (Option.some.inj hnone)).mp haccepts⟩

/-- **Without any segment** in the place of the stars, segments apply and repeated ones do not. -/
theorem accepts_segments_not_repeated :
    (ofPattern? "/w".toList "/a/**/b".toList).map (·.accepts "/w/a/b".toList) = some true ∧
      (ofPattern? "/w".toList "/a/**/**/b".toList).map (·.accepts "/w/a/b".toList) = some false := by
  decide +kernel

end Glob

end EditorSettings
