import EditorSettings.Proofs.Glob.Marks
import EditorSettings.Proofs.Glob.Semantics

/-!
# A pattern in its directory

A directory and a pattern in it can be read as one expression: the characters of the directory, each
standing for itself, then the tokens of the pattern.  Since the marks of the pattern stand inside of
alternations, this is a row that begins with the directory, and it accepts what the pattern accepts behind
the directory (`Glob.accepts_eq_whole`).  The first part of the pattern is a slash, or segments that begin
with one, so every path to which a pattern applies lies below the directory
(`Glob.prefix_of_accepts`).
-/

namespace EditorSettings

namespace Regex

/-! ### Parts in a row -/

theorem splits_andThen (a b : Regex) (t : Text) : splits (a.andThen b) t = splits (seq a b) t := by
  cases a with
  | empty => simp [andThen, splits]
  | _ => rfl

/-- **The ways of a row** are those of what comes first, each followed by the ways of the parts. -/
theorem splits_inOrder (parts : List Regex) : ∀ (e : Regex) (t : Text),
    splits (inOrder e parts) t =
      (splits e t).flatMap fun x =>
        (splits (inOrder empty parts) x.2).map fun y => (x.1 ++ y.1, y.2) := by
  induction parts with
  | nil =>
    intro e t
    simp [inOrder, splits]
  | cons r parts ih =>
    intro e t
    have hcons : inOrder e (r :: parts) = inOrder (e.andThen r) parts := rfl
    have hempty : inOrder empty (r :: parts) = inOrder r parts := rfl
    rw [hcons, hempty, ih (e.andThen r), splits_andThen, splits, List.flatMap_assoc]
    congr 1
    funext x
    rw [ih r, List.flatMap_map, List.map_flatMap]
    simp only [List.map_map, Function.comp_def, List.append_assoc]

theorem exists_matches_of_inOrder {e : Regex} {parts : List Regex} {u : Text} {cs : Catches}
    (h : (inOrder e parts).Matches u cs) : ∃ v w ds, u = v ++ w ∧ e.Matches v ds := by
  have hmem : (cs, []) ∈ splits (inOrder e parts) u := mem_splits.mpr ⟨u, by simp, h⟩
  rw [splits_inOrder, List.mem_flatMap] at hmem
  obtain ⟨⟨ds, rest⟩, hx, -⟩ := hmem
  obtain ⟨v, rfl, hv⟩ := mem_splits.mp hx
  exact ⟨v, rest, ds, rfl, hv⟩

/-- The expression of a text in which every character stands for itself. -/
def literals (t : Text) : Regex := inOrder empty (t.map fun c => one (.only c))

theorem splits_literals (p : Text) : ∀ t : Text,
    splits (literals p) t = (Text.after? p t).toList.map fun rest => ([], rest) := by
  induction p with
  | nil => exact fun t => rfl
  | cons c p ih =>
    intro t
    have hcons : literals (c :: p) = inOrder (one (.only c)) (p.map fun c => one (.only c)) := rfl
    rw [hcons, splits_inOrder]
    rcases t with _ | ⟨d, t⟩
    · rfl
    · unfold literals at ih
      by_cases hd : d = c
      · subst hd
        simp [splits, CharSet.holds, Text.after?, ih]
      · simp [splits, CharSet.holds, Text.after?, hd, Ne.symm hd]

theorem run_literals (p : Text) (ts : List Token) : ∀ e : Regex,
    run (⟨none, e⟩, []) (p.map Token.literal ++ ts) =
      run (⟨none, inOrder e (p.map fun c => one (.only c))⟩, []) ts := by
  induction p with
  | nil => exact fun e => rfl
  | cons c p ih =>
    intro e
    rw [List.map_cons, List.cons_append, run_part rfl, List.map_cons]
    exact ih (e.andThen (one (.only c)))

/-- **Behind literal characters** an expression accepts what it accepts behind them in the text. -/
theorem accepts_literals (p : Text) (parts : List Regex) (t : Text) :
    (inOrder (literals p) parts).accepts t =
      match Text.after? p t with
      | some rest => (inOrder empty parts).accepts rest
      | none => false := by
  have hcatches : catches? (inOrder (literals p) parts) t =
      (Text.after? p t).bind fun rest => catches? (inOrder empty parts) rest := by
    rw [catches?_eq, splits_inOrder, splits_literals]
    cases Text.after? p t with
    | none => rfl
    | some rest => simp [catches?_eq]
  rw [accepts, hcatches]
  cases Text.after? p t <;> rfl

end Regex

namespace Glob

/-! ### One expression -/

/-- What is known of the glob of a pattern. -/
theorem of_ofPattern?_eq_some {directory pattern : Text} {g : Glob}
    (h : ofPattern? directory pattern = some g) : g.directory = trimSlashes directory ∧
      Regex.tree? (Token.ofPattern (belowDirectory pattern)) = some g.regex := by
  obtain ⟨r, hr, rfl⟩ := Option.map_eq_some_iff.mp h
  exact ⟨rfl, (Option.filter_eq_some_iff.mp hr).1⟩

theorem belowDirectory_slash (t : Text) : belowDirectory ('/' :: t) = '/' :: t := by
  simp [belowDirectory]

theorem ofPattern?_of_slash {t : Text} {r : Regex} 
    (h : Regex.ofTokens? (Token.ofPattern ('/' :: t)) = some r) (directory : Text) :
    ofPattern? directory ('/' :: t) = some ⟨trimSlashes directory, '/' :: t, r⟩ := by
  rw [ofPattern?, belowDirectory_slash, h, Option.map_some]

/-- **A directory and a pattern in it are one expression.** -/
theorem accepts_eq_whole {directory pattern : Text} {g : Glob}
    (h : ofPattern? directory pattern = some g) :
    ∃ w, Regex.tree? (wholeTokens directory pattern) = some w ∧
      ∀ path, w.accepts path = g.accepts path := by
  obtain ⟨hd, hr⟩ := of_ofPattern?_eq_some h
  have hm := Token.marksInside_ofPattern (belowDirectory pattern)
  obtain ⟨parts, hparts, hrun⟩ := Regex.exists_parts hm (Regex.run_eq_of_tree? hm hr)
  refine ⟨Regex.inOrder (Regex.literals g.directory) parts, ?_, fun path => ?_⟩
  · have hwhole : Regex.run (Regex.Level.start, []) (wholeTokens directory pattern) = _ :=
      Regex.run_literals (trimSlashes directory) _ .empty
    rw [Regex.tree?, hwhole, hrun, hd]
    rfl
  · rw [Regex.accepts_literals, ← hparts]
    rfl

/-! ### Paths below a directory -/

theorem exists_belowDirectory (pattern : Text) : ∃ t, belowDirectory pattern = '/' :: t := by
  unfold belowDirectory
  by_cases hmem : '/' ∉ pattern
  · rw [if_pos hmem]
    exact ⟨_, rfl⟩
  · rw [if_neg hmem]
    by_cases hhead : pattern.head? = some '/'
    · rw [if_pos hhead]
      exact List.head?_eq_some_iff.mp hhead
    · rw [if_neg hhead]
      exact ⟨pattern, rfl⟩

/-- The tokens of a pattern from its directory on begin with a slash or with segments. -/
theorem exists_ofPattern_belowDirectory (pattern : Text) : ∃ k ts,
    Token.ofPattern (belowDirectory pattern) = k :: ts ∧ (k = .literal '/' ∨ k = .segments) := by
  obtain ⟨t, ht⟩ := exists_belowDirectory pattern
  rw [Token.ofPattern, ht]
  by_cases hs : ∃ s, t = '*' :: '*' :: '/' :: s
  · obtain ⟨s, rfl⟩ := hs
    exact ⟨.segments, _, by rw [Token.scan], Or.inr rfl⟩
  · have hn : ∀ s, t ≠ '*' :: '*' :: '/' :: s := fun s he => hs ⟨s, he⟩
    exact ⟨.literal '/', _, Token.scan_cons (by decide) (fun _ => hn) _ 0, Or.inl rfl⟩

/-- What an expression of a pattern matches begins with a slash. -/
theorem exists_slash_of_accepts {pattern : Text} {r : Regex}
    (h : Regex.tree? (Token.ofPattern (belowDirectory pattern)) = some r) {u : Text}
    (hu : r.accepts u = true) : ∃ t, u = '/' :: t := by
  have hm := Token.marksInside_ofPattern (belowDirectory pattern)
  have hrun := Regex.run_eq_of_tree? hm h
  obtain ⟨k, ts, hk, hslash⟩ := exists_ofPattern_belowDirectory pattern
  obtain ⟨cs, hmatch, -⟩ := Regex.describes_of_accepts hu
  -- The first token is a part of its own, and what follows adds further parts to it.
  have hfirst : ∃ first : Regex, Regex.part? k = some first ∧ Token.marksInside 0 ts = true ∧
      ∀ v ds, first.Matches v ds → ∃ t, v = '/' :: t := by
    rw [hk, Token.marksInside_cons] at hm
    rcases hslash with rfl | rfl
    · refine ⟨_, rfl, hm.2, fun v ds hv => ?_⟩
      obtain ⟨⟨c, hc, rfl⟩, -⟩ := hv
      exact ⟨[], by rw [beq_iff_eq.mp hc]⟩
    · refine ⟨_, rfl, hm.2, fun v ds hv => ?_⟩
      rcases hv with ⟨⟨c, hc, rfl⟩, -⟩ | ⟨_, w, _, _, rfl, -, ⟨_, x, _, _, rfl, -, ⟨⟨c, hc, rfl⟩, -⟩, -⟩, -⟩
      · exact ⟨[], by rw [beq_iff_eq.mp hc]⟩
      · exact ⟨x ++ w, by rw [beq_iff_eq.mp hc]; simp⟩
  obtain ⟨first, hpart, hm', hbegins⟩ := hfirst
  rw [hk, Regex.run_part hpart] at hrun
  obtain ⟨parts, rfl, -⟩ := Regex.exists_parts hm' hrun
  obtain ⟨v, w, ds, rfl, hv⟩ := Regex.exists_matches_of_inOrder hmatch
  obtain ⟨t, rfl⟩ := hbegins v ds hv
  exact ⟨t ++ w, rfl⟩

/-- **A pattern applies to paths below its directory only.** -/
theorem prefix_of_accepts {directory pattern : Text} {g : Glob}
    (h : ofPattern? directory pattern = some g) {path : Text} (hp : g.accepts path = true) :
    trimSlashes directory ++ ['/'] <+: path := by
  obtain ⟨hd, hr⟩ := of_ofPattern?_eq_some h
  obtain ⟨u, rfl, hu⟩ := accepts_iff.mp hp
  obtain ⟨t, rfl⟩ := exists_slash_of_accepts hr hu
  exact ⟨t, by rw [hd, List.append_assoc, List.singleton_append]⟩

end Glob

end EditorSettings
