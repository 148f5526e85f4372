import EditorSettings.Proofs.Document.Parsed

/-!
# A text behind another one

Two texts with a line feed between them are read like one after the other: the second one goes on with the
document that the first one left (`Document.ofText_append`).  Its properties before the first header are
written in the last section of that document, and the other sections follow.

The lines of both texts are those of the whole, except that an empty line at the end of the first text can be
lost, if that text ends with a carriage return (`linesOf_append`).  A line does the same to the document of the
second text and to that of the whole, which differ by what stands before (`IsBehind.extend`).
-/

namespace EditorSettings

/-- The section after properties are written one by one. -/
def Section.setAll (s : Section) (properties : List (Text × Text)) : Section :=
  properties.foldl (fun s p => s.set p.1 p.2) s

theorem Section.setAll_eq (properties : List (Text × Text)) : ∀ s : Section,
    s.setAll properties = ⟨s.pattern, s.properties.setAll properties⟩ := by
  induction properties with
  | nil => exact fun s => rfl
  | cons p properties ih => exact fun s => ih (s.set p.1 p.2)

/-- To write the properties of a map in which a property was written is to write those of the map, then the
property. -/
theorem Section.setAll_set (s : Section) {m : OrderedMap Text} (h : m.keys.Nodup) (key value : Text) :
    s.setAll (m.set key value).entries = (s.setAll m.entries).set key value := by
  rw [setAll_eq, setAll_eq, set, OrderedMap.set, OrderedMap.setAll_setEntry key value h]

namespace Document

/-! ### The lines of both texts -/

/-- A line feed stays one, or becomes one with a carriage return before it. -/
theorem unifyLineEnds_append (a b : Text) :
    ∃ u, (unifyLineEnds a = u ∨ unifyLineEnds a = u ++ ['\n']) ∧
      unifyLineEnds (a ++ '\n' :: b) = u ++ '\n' :: unifyLineEnds b := by
  have hfeed : unifyLineEnds ('\n' :: b) = '\n' :: unifyLineEnds b := by
    rw [unifyLineEnds, if_neg (by decide)]
    rintro t ⟨⟩
  induction a using unifyLineEnds.induct with
  | case1 => exact ⟨[], Or.inl rfl, hfeed⟩
  | case2 t ih =>
    obtain ⟨u, hu, hb⟩ := ih
    refine ⟨'\n' :: u, hu.imp (congrArg _) (congrArg _), ?_⟩
    rw [List.cons_append, List.cons_append, unifyLineEnds, hb, List.cons_append]
  | case3 c t hne ih =>
    by_cases hend : c = '\r' ∧ t = []
    · obtain ⟨rfl, rfl⟩ := hend
      exact ⟨[], Or.inr rfl, rfl⟩
    · obtain ⟨u, hu, hb⟩ := ih
      have hne' : ∀ s, c = '\r' → t ++ '\n' :: b = '\n' :: s → False := by
        rintro s rfl hs
        obtain ⟨d, t, rfl⟩ := List.exists_cons_of_ne_nil fun ht => hend ⟨rfl, ht⟩
        rw [List.cons_append, List.cons.injEq] at hs
        exact hne t rfl (by rw [hs.1])
      refine ⟨(if c = '\r' then '\n' else c) :: u, ?_, ?_⟩
      · rw [unifyLineEnds]
        · exact hu.imp (congrArg _) (congrArg _)
        · exact hne
      · rw [List.cons_append, unifyLineEnds, hb, List.cons_append]
        exact hne'

theorem withoutMark_append (a b : Text) : withoutMark (a ++ '\n' :: b) = withoutMark a ++ '\n' :: b := by
  rcases a with _ | ⟨c, t⟩
  · rfl
  · rw [List.cons_append, withoutMark, withoutMark]
    split_ifs <;> rfl

/-- **The lines of two texts** with a line feed between them. -/
theorem linesOf_append (a : Text) {b : Text} (hb : b.head? ≠ some '\ufeff') :
    ∃ ls, (linesOf a = ls ∨ linesOf a = ls ++ [[]]) ∧ linesOf (a ++ '\n' :: b) = ls ++ linesOf b := by
  obtain ⟨u, hu, happend⟩ := unifyLineEnds_append (withoutMark a) b
  refine ⟨pieces '\n' u, ?_, ?_⟩
  · unfold linesOf
    rcases hu with hu | hu
    · exact Or.inl (congrArg _ hu)
    · right
      rw [hu, pieces_append]
      rfl
  · rw [linesOf, withoutMark_append, happend, pieces_append, linesOf, withoutMark_eq_self hb]

/-! ### The document of the whole -/

/-- **The document `e` is `d` behind other sections**: its sections are `before`, the section `s` with the
properties of the preamble of `d` written into it, and the other sections of `d`. -/
structure IsBehind (before : List Section) (s : Section) (d e : Document) : Prop where
  sections : ∃ m rest, d.sections = ⟨none, m⟩ :: rest ∧ m.keys.Nodup ∧
    e.sections = before ++ s.setAll m.entries :: rest

variable {before : List Section} {s : Section} {d e : Document}

/-- **A line does the same to both documents.** -/
theorem IsBehind.extend (h : IsBehind before s d e) (l : Line) :
    IsBehind before s (d.extend l) (e.extend l) := by
  obtain ⟨m, rest, hd, hm, he⟩ := h.sections
  cases l with
  | silent => exact h
  | header pattern =>
    refine ⟨m, rest ++ [.headed pattern], ?_, hm, ?_⟩
    · rw [Document.extend, push, hd, List.cons_append]
    · rw [Document.extend, push, he, List.append_assoc, List.cons_append]
  | property key value =>
    rw [Document.extend, Document.extend, set, set, hd, he]
    cases rest using List.reverseRecOn with
    | nil =>
      -- The last section is the preamble of `d`, and `s` in the other document.
      refine ⟨m.set key value, [], rfl, OrderedMap.nodup_keys_set hm key value, ?_⟩
      rw [setInLast_concat, Section.setAll_set s hm]
    | append_singleton rest t =>
      refine ⟨m, rest ++ [t.set key value], ?_, hm, ?_⟩
      · rw [← List.cons_append, setInLast_concat, List.cons_append]
      · rw [← List.cons_append, ← List.append_assoc, setInLast_concat, List.append_assoc, List.cons_append]

theorem IsBehind.foldl : ∀ (ls : List Line) {d e : Document}, IsBehind before s d e →
    IsBehind before s (ls.foldl Document.extend d) (ls.foldl Document.extend e)
  | [], _, _, h => h
  | l :: ls, _, _, h => IsBehind.foldl ls (h.extend l)

/-- **A text behind another one goes on with its document.**  If both texts are read, and the second one does
not begin with a byte order mark, then they are read with a line feed between them: the properties of the
second preamble are written one by one into the last section of the first document, and the other sections
of the second document follow. -/
theorem ofText_append {label₁ label₂ a b : Text} {A B : Document} (ha : ofText label₁ a = .ok A)
    (hb : ofText label₂ b = .ok B) (hmark : b.head? ≠ some '\ufeff') (label : Text) :
    ∃ before s p rest, A.sections = before ++ [s] ∧ B.sections = p :: rest ∧ B.preamble? = some p ∧
      ofText label (a ++ '\n' :: b) = .ok ⟨before ++ s.setAll p.properties.entries :: rest⟩ := by
  obtain ⟨before, s, hA⟩ : ∃ before s, A.sections = before ++ [s] := by
    obtain ⟨m, rest, hA, -⟩ := (wellFormed_of_ofText ha).1.exists_eq
    exact (List.eq_nil_or_concat' _).resolve_left (hA ▸ List.cons_ne_nil _ _)
  obtain ⟨raws, hraws, hlines⟩ := linesOf_append a hmark
  have hreadA : readLines label₁ 1 empty raws = .ok A := by
    rcases hraws with hraws | hraws
    · rw [← hraws]
      exact ha
    · rw [← readLines_concat_nil, ← hraws]
      exact ha
  obtain ⟨las, hlas, hfoldA⟩ := readLines_eq_ok_iff.mp hreadA
  obtain ⟨lbs, hlbs, rfl⟩ := readLines_eq_ok_iff.mp hb
  have hbehind : IsBehind before s (lbs.foldl extend empty) (lbs.foldl extend A) :=
    .foldl lbs ⟨∅, [], rfl, List.nodup_nil, hA⟩
  obtain ⟨m, rest, hB, -, he⟩ := hbehind.sections
  refine ⟨before, s, ⟨none, m⟩, rest, hA, hB, ?_, ?_⟩
  · rw [preamble?, hB]
    rfl
  · refine readLines_eq_ok_iff.mpr ⟨las ++ lbs, ?_, ?_⟩
    · rw [hlines]
      exact List.rel_append hlas hlbs
    · rw [List.foldl_append, ← hfoldA, ← he]

/-- A text behind a byte order mark that ends with a carriage return. -/
def returnText : Text := "\ufeffRoot = no\r\n[*]\nKey = 1\nz = 2\r".toList

/-- The document of that text. -/
def returnDocument : Document :=
  ⟨[⟨none, ⟨[("root".toList, "no".toList)]⟩⟩, ⟨some ['*'], ⟨[("key".toList, ['1']), (['z'], ['2'])]⟩⟩]⟩

/-- A text whose preamble repeats a key of the text before. -/
def repeatingText : Text := "KEY : 3\rnew = '4'\n[b]\nkey = 5".toList

/-- The document of this text. -/
def repeatingDocument : Document :=
  ⟨[⟨none, ⟨[("key".toList, ['3']), ("new".toList, ['4'])]⟩⟩, ⟨some ['b'], ⟨[("key".toList, ['5'])]⟩⟩]⟩

theorem ofText_append_returnText_repeatingText :
    ofText [] returnText = .ok returnDocument ∧ ofText [] repeatingText = .ok repeatingDocument ∧
      repeatingText.head? ≠ some '\ufeff' ∧
      (∃ before s p rest, returnDocument.sections = before ++ [s] ∧
        repeatingDocument.sections = p :: rest ∧ repeatingDocument.preamble? = some p ∧
        ofText [] (returnText ++ '\n' :: repeatingText) =
          .ok ⟨before ++ s.setAll p.properties.entries :: rest⟩) ∧
      ofText [] (returnText ++ '\n' :: repeatingText) =
        .ok ⟨[⟨none, ⟨[("root".toList, "no".toList)]⟩⟩,
          ⟨some ['*'], ⟨[("key".toList, ['3']), (['z'], ['2']), ("new".toList, ['4'])]⟩⟩,
          ⟨some ['b'], ⟨[("key".toList, ['5'])]⟩⟩]⟩ := by
  have ha : ofText [] returnText = .ok returnDocument := by decide +kernel
  have hb : ofText [] repeatingText = .ok repeatingDocument := by decide +kernel
  have hmark : repeatingText.head? ≠ some '\ufeff' := by decide
  exact ⟨ha, hb, hmark, ofText_append ha hb hmark [], by decide +kernel⟩

end Document

end EditorSettings
