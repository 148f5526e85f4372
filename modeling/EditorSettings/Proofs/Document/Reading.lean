import EditorSettings.Document.Reading
import EditorSettings.Proofs.Text

/-!
# Reading line by line

How a document grows with its lines.  A text without carriage returns is cut at its line feeds, so a line
feed and ended lines are cut into an empty line, these lines and another empty line (`linesOf_flatMap`).
Lines that say something each are read in a row (`readLines_append`), so lines are read iff none of them is
faulty (`readLines_eq_ok_iff`), and else the first faulty one ends the reading (`readLines_eq_error_iff`).  A
property is written in the last section, and properties in a row are all written there
(`foldl_extend_property`).
-/

namespace EditorSettings

/-! ### What a line says -/

namespace Line

theorem readProperty_append {k : Text} {s : Char} (hk : k.any isSeparator = false)
    (hs : isSeparator s = true) (v : Text) :
    readProperty (k ++ s :: v) = if k.trim = [] then .error (.missingKey (k ++ s :: v))
      else .ok (.property (Text.lowercase k.trim) (withoutQuotes v.trim)) := by
  have hk' : ∀ c ∈ k, (!isSeparator c) = true := by
    intro c hc
    rw [Bool.not_eq_true', ← Bool.not_eq_true]
    exact List.any_eq_false.mp hk c hc
  have hd : ((k ++ s :: v).dropWhile fun c => !isSeparator c) = s :: v := by
    rw [List.dropWhile_append_of_pos hk', List.dropWhile_cons_of_neg (by simp [hs])]
  have ht : ((k ++ s :: v).takeWhile fun c => !isSeparator c) = k := by
    rw [List.takeWhile_append_of_pos hk', List.takeWhile_cons_of_neg (by simp [hs]),
      List.append_nil]
  rw [readProperty, hd, ht]

theorem readProperty_of_forall {t : Text} (h : ∀ c ∈ t, isSeparator c = false) :
    readProperty t = .error (.unrecognized t) := by
  have hdrop : (t.dropWhile fun c => !isSeparator c) = [] := by
    rw [List.dropWhile_eq_nil_iff]
    exact fun c hc => by rw [h c hc, Bool.not_false]
  rw [readProperty, hdrop]

/-- A text has no separator, or there is a first one. -/
theorem exists_first_separator : ∀ t : Text, (∀ c ∈ t, isSeparator c = false) ∨
    ∃ k s v, t = k ++ s :: v ∧ k.any isSeparator = false ∧ isSeparator s = true
  | [] => Or.inl fun _ hc => absurd hc List.not_mem_nil
  | c :: t => by
    cases hc : isSeparator c with
    | true => exact Or.inr ⟨[], c, t, rfl, rfl, hc⟩
    | false =>
      rcases exists_first_separator t with ht | ⟨k, s, v, rfl, hk, hs⟩
      · exact Or.inl (List.forall_mem_cons.mpr ⟨hc, ht⟩)
      · exact Or.inr ⟨c :: k, s, v, rfl, by rw [List.any_cons, hc, hk, Bool.or_false], hs⟩

theorem withoutQuotes_between {c : Char} (hc : isQuote c = true) (t : Text) :
    withoutQuotes (c :: (t ++ [c])) = t := by
  rw [withoutQuotes, List.getLast?_concat, if_pos ⟨hc, rfl⟩, List.dropLast_concat]

end Line

namespace Document

/-! ### Cutting a text into lines -/

theorem withoutMark_eq_self {t : Text} (h : t.head? ≠ some '\ufeff') : withoutMark t = t := by
  rcases t with _ | ⟨c, t⟩
  · rfl
  · rw [withoutMark, if_neg fun hc => h (congrArg some hc)]

/-- What holds no carriage return stays before what follows it. -/
theorem unifyLineEnds_append_of_not_mem {t : Text} (h : '\r' ∉ t) (s : Text) :
    unifyLineEnds (t ++ s) = t ++ unifyLineEnds s := by
  induction t with
  | nil => rfl
  | cons c t ih =>
    have hc : c ≠ '\r' := fun hc => h (hc ▸ List.mem_cons_self)
    rw [List.cons_append, unifyLineEnds, if_neg hc, ih fun hm => h (List.mem_cons_of_mem c hm)]
    · rfl
    · rintro u rfl
      exact absurd rfl hc

theorem unifyLineEnds_eq_self {t : Text} (h : '\r' ∉ t) : unifyLineEnds t = t := by
  have happend := unifyLineEnds_append_of_not_mem h []
  rwa [List.append_nil, unifyLineEnds, List.append_nil] at happend

theorem head?_unifyLineEnds {t : Text} {c : Char} (h : (unifyLineEnds t).head? = some c)
    (hn : c ≠ '\n') : t.head? = some c := by
  cases t using unifyLineEnds.fun_cases with
  | case1 => cases h
  | case2 t => exact absurd (Option.some.inj h).symm hn
  | case3 d t hne =>
    rw [unifyLineEnds] at h
    · split_ifs at h
      · exact absurd (Option.some.inj h).symm hn
      · exact h
    · exact hne

/-- **Ended lines behind a line feed** are the lines of their text, between two empty ones. -/
theorem linesOf_flatMap {ls : List Text} (hn : ∀ l ∈ ls, '\n' ∉ l) (hr : ∀ l ∈ ls, '\r' ∉ l) :
    linesOf ('\n' :: ls.flatMap (· ++ ['\n'])) = [] :: ls ++ [[]] := by
  have hmark : withoutMark ('\n' :: ls.flatMap (· ++ ['\n'])) =
      '\n' :: ls.flatMap (· ++ ['\n']) := by rw [withoutMark, if_neg (by decide)]
  have hreturn : '\r' ∉ '\n' :: ls.flatMap (· ++ ['\n']) := by
    simp only [List.mem_cons, List.mem_flatMap, List.mem_append, List.not_mem_nil, or_false]
    rintro (h | ⟨l, hl, h | h⟩)
    · exact absurd h (by decide)
    · exact hr l hl h
    · exact absurd h (by decide)
  have hpieces := pieces_flatMap hn []
  rw [List.append_nil] at hpieces
  rw [linesOf, hmark, unifyLineEnds_eq_self hreturn, pieces, if_pos rfl, hpieces]
  rfl

/-! ### Lines in a row -/

/-- **Lines that say something each** are read in a row. -/
theorem readLines_append (label : Text) {raws : List Text} {ls : List Line}
    (h : List.Forall₂ (fun raw l => Line.read raw = .ok l) raws ls) (rest : List Text) :
    ∀ (number : ℕ) (d : Document), readLines label number d (raws ++ rest) =
      readLines label (number + raws.length) (ls.foldl extend d) rest := by
  induction h with
  | nil => exact fun number d => rfl
  | @cons raw l raws ls hread _ ih =>
    intro number d
    rw [List.cons_append, readLines, hread]
    dsimp only
    rw [ih, List.foldl_cons, List.length_cons, Nat.add_right_comm, Nat.add_assoc]

/-- **Lines are read without a fault** iff each of them says something; then they extend the document one by
one. -/
theorem readLines_eq_ok_iff {label : Text} {raws : List Text} {number : ℕ} {d e : Document} :
    readLines label number d raws = .ok e ↔
      ∃ ls, List.Forall₂ (fun raw l => Line.read raw = .ok l) raws ls ∧ e = ls.foldl extend d := by
  constructor
  · intro h
    induction raws generalizing number d with
    | nil => exact ⟨[], .nil, (Except.ok.inj h).symm⟩
    | cons raw raws ih =>
      rw [readLines] at h
      split at h
      · cases h
      · next l hl =>
        obtain ⟨ls, hls, rfl⟩ := ih h
        exact ⟨l :: ls, .cons hl hls, rfl⟩
  · rintro ⟨ls, hls, rfl⟩
    have happend := readLines_append label hls [] number d
    rwa [List.append_nil] at happend

/-- An empty line at the end does not matter. -/
theorem readLines_concat_nil {label : Text} : ∀ (raws : List Text) (number : ℕ) (d : Document),
    readLines label number d (raws ++ [[]]) = readLines label number d raws
  | [], _, _ => rfl
  | raw :: raws, number, d => by
    rw [List.cons_append, readLines, readLines]
    split
    · rfl
    · exact readLines_concat_nil raws _ _

/-- **A faulty line behind lines without a fault** ends the reading, whatever follows it. -/
theorem readLines_of_fault {label raw : Text} {before : List Text} {ls : List Line} {f : LineFault}
    (hbefore : List.Forall₂ (fun raw l => Line.read raw = .ok l) before ls)
    (hraw : Line.read raw = .error f) (after : List Text) (number : ℕ) (d : Document) :
    readLines label number d (before ++ raw :: after) =
      .error ⟨label, number + before.length, raw.indentation + 1, f⟩ := by
  rw [readLines_append label hbefore, readLines, hraw]

/-- **Lines are not read** iff one of them is faulty, and the fault is that of the first one. -/
theorem readLines_eq_error_iff {label : Text} {raws : List Text} {number : ℕ} {d : Document}
    {fault : DocumentFault} : readLines label number d raws = .error fault ↔
      ∃ before ls raw after f, raws = before ++ raw :: after ∧
        List.Forall₂ (fun raw l => Line.read raw = .ok l) before ls ∧ Line.read raw = .error f ∧
        fault = ⟨label, number + before.length, raw.indentation + 1, f⟩ := by
  constructor
  · intro h
    induction raws generalizing number d with
    | nil => cases h
    | cons raw raws ih =>
      rw [readLines] at h
      split at h
      · next f hf => exact ⟨[], [], raw, raws, f, rfl, .nil, hf, (Except.error.inj h).symm⟩
      · next l hl =>
        obtain ⟨before, ls, raw', after, f, rfl, hbefore, hf, rfl⟩ := ih h
        refine ⟨raw :: before, l :: ls, raw', after, f, rfl, .cons hl hbefore, hf, ?_⟩
        rw [List.length_cons, Nat.add_right_comm, Nat.add_assoc]
  · rintro ⟨before, ls, raw, after, f, rfl, hbefore, hf, rfl⟩
    exact readLines_of_fault hbefore hf after number d

/-- A fault bears the name under which the lines are read. -/
theorem label_of_readLines {label : Text} {raws : List Text} {number : ℕ} {d : Document}
    {fault : DocumentFault} (h : readLines label number d raws = .error fault) : fault.label = label := by
  obtain ⟨_, _, _, _, _, -, -, -, rfl⟩ := readLines_eq_error_iff.mp h
  rfl

/-- The name of a text without faults does not matter. -/
theorem readLines_eq_ok {label : Text} (label' : Text) {raws : List Text} {number : ℕ} {d e : Document}
    (h : readLines label number d raws = .ok e) : readLines label' number d raws = .ok e :=
  readLines_eq_ok_iff.mpr (readLines_eq_ok_iff.mp h)

theorem setInLast_concat (key value : Text) : ∀ (ss : List Section) (s : Section),
    setInLast key value (ss ++ [s]) = ss ++ [s.set key value]
  | [], _ => rfl
  | [_], _ => rfl
  | s₁ :: s₂ :: ss, s => by
    have ih := setInLast_concat key value (s₂ :: ss) s
    simp only [List.cons_append] at ih ⊢
    rw [setInLast, ih]

/-- **Properties in a row are written in the last section.** -/
theorem foldl_extend_property (ss : List Section) (entries : List (Text × Text)) :
    ∀ s : Section, (entries.map fun p => Line.property p.1 p.2).foldl extend ⟨ss ++ [s]⟩ =
      ⟨ss ++ [⟨s.pattern, s.properties.setAll entries⟩]⟩ := by
  induction entries with
  | nil => exact fun s => rfl
  | cons p entries ih =>
    intro s
    rw [List.map_cons, List.foldl_cons, extend, set, setInLast_concat, ih]
    rfl

end Document

end EditorSettings
