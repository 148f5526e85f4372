import EditorSettings.Proofs.Document.Parsed

/-!
# The first faulty line

`Line.Faulty` says which lines are faulty and what is wrong with them, by their text without surrounding
blanks; reading a line finds just these faults (`Line.read_eq_error_iff`), where the text of the line begins
(`Line.faultyAt_of_read`).

A text is not read iff it has a faulty line, and then the fault is that of the first one.  The lines before
are read as a text of their own, behind the same byte order mark (`Document.ofText_firstLines`), and the lines
behind do not matter (`Document.Locates`).
-/

namespace EditorSettings

namespace Line

/-! ### Faulty lines -/

/-- **What is wrong with a line**, by its text without surrounding blanks. -/
inductive Faulty : Text → LineFault → Prop
  /-- A bracket opens the line and none closes it. -/
  | unclosedHeader {t : Text} (h : ('[' :: t).getLast? ≠ some ']') :
    Faulty ('[' :: t) (.unclosedHeader ('[' :: t))
  /-- There is nothing between the brackets. -/
  | emptyHeader : Faulty ['[', ']'] .emptyHeader
  /-- There is no separator. -/
  | unrecognized {c : Char} {t : Text} (hc : isOpening c = false)
    (h : ∀ d ∈ c :: t, isSeparator d = false) : Faulty (c :: t) (.unrecognized (c :: t))
  /-- There are only blanks before the first separator. -/
  | missingKey {blanks : Text} {s : Char} {value : Text} (h : ∀ c ∈ blanks, Text.isBlank c = true)
    (hs : isSeparator s = true) : Faulty (blanks ++ s :: value) (.missingKey (blanks ++ s :: value))

theorem isOpening_of_isSeparator {c : Char} (h : isSeparator c = true) : isOpening c = false := by
  rw [isSeparator, Bool.or_eq_true, beq_iff_eq, beq_iff_eq] at h
  rcases h with rfl | rfl <;> decide

theorem isOpening_of_isBlank {c : Char} (h : Text.isBlank c = true) : isOpening c = false := by
  rw [← Bool.not_eq_true]
  intro hc
  simp only [isOpening, isCommentMark, Bool.or_eq_true, beq_iff_eq] at hc
  rcases hc with (rfl | rfl) | rfl <;> cases h

theorem isSeparator_of_isBlank {c : Char} (h : Text.isBlank c = true) : isSeparator c = false := by
  rw [← Bool.not_eq_true]
  intro hc
  rw [isSeparator, Bool.or_eq_true, beq_iff_eq, beq_iff_eq] at hc
  rcases hc with rfl | rfl <;> cases h

/-- A faulty line is neither blank nor a comment. -/
theorem Faulty.exists_cons {t : Text} {f : LineFault} (h : Faulty t f) :
    ∃ c s, t = c :: s ∧ isCommentMark c = false := by
  have hopening : ∀ {c : Char}, isOpening c = false → isCommentMark c = false := fun hc =>
    (Bool.or_eq_false_iff.mp hc).1
  cases h with
  | unclosedHeader | emptyHeader => exact ⟨'[', _, rfl, rfl⟩
  | @unrecognized c t hc _ => exact ⟨c, t, rfl, hopening hc⟩
  | @missingKey blanks s value h hs =>
    rcases blanks with _ | ⟨c, blanks⟩
    · exact ⟨s, value, rfl, hopening (isOpening_of_isSeparator hs)⟩
    · exact ⟨c, _, rfl, hopening (isOpening_of_isBlank (h c List.mem_cons_self))⟩

theorem readHeader_eq_error_iff {t : Text} {f : LineFault} :
    readHeader ('[' :: t) t = .error f ↔ Faulty ('[' :: t) f := by
  have hgetLast : ('[' :: t).getLast? = some ']' ↔ t.getLast? = some ']' := by
    cases t <;> simp [List.getLast?_cons_cons]
  constructor
  · intro h
    unfold readHeader at h
    split_ifs at h with hlast hempty
    · have ht : t.dropLast ++ [']'] = t := List.dropLast_append_getLast? ']' hlast
      rw [← Except.error.inj h, ← ht, hempty]
      exact .emptyHeader
    · rw [← Except.error.inj h]
      exact .unclosedHeader (mt hgetLast.mp hlast)
  · intro h
    generalize hline : '[' :: t = line at h
    cases h with
    | unclosedHeader h =>
      obtain rfl := List.tail_eq_of_cons_eq hline
      rw [readHeader, if_neg (mt hgetLast.mpr h)]
    | emptyHeader =>
      obtain rfl := List.tail_eq_of_cons_eq hline
      rfl
    | unrecognized hc h =>
      obtain rfl := List.head_eq_of_cons_eq hline
      cases hc
    | @missingKey blanks s value h hs =>
      rcases blanks with _ | ⟨c, blanks⟩
      · obtain rfl := List.head_eq_of_cons_eq hline
        cases hs
      · obtain rfl := List.head_eq_of_cons_eq hline
        have hblank := h '[' List.mem_cons_self
        cases hblank

theorem readProperty_eq_error_iff {c : Char} {t : Text} (hc : isOpening c = false) {f : LineFault} :
    readProperty (c :: t) = .error f ↔ Faulty (c :: t) f := by
  constructor
  · intro h
    rcases exists_first_separator (c :: t) with hnone | ⟨k, s, v, he, hk, hs⟩
    · rw [readProperty_of_forall hnone] at h
      rw [← Except.error.inj h]
      exact .unrecognized hc hnone
    · rw [he, readProperty_append hk hs] at h
      split_ifs at h with htrim
      rw [← Except.error.inj h, he]
      exact .missingKey (Text.trim_eq_nil_iff.mp htrim) hs
  · intro h
    generalize hline : c :: t = line at h
    cases h with
    | unclosedHeader | emptyHeader =>
      obtain rfl := List.head_eq_of_cons_eq hline
      cases hc
    | unrecognized _ h => exact readProperty_of_forall h
    | @missingKey blanks s value h hs =>
      have hk : blanks.any isSeparator = false :=
        List.any_eq_false.mpr fun d hd => by simp [isSeparator_of_isBlank (h d hd)]
      rw [readProperty_append hk hs, if_pos (Text.trim_eq_nil_iff.mpr h)]

/-- **Reading a line finds what is wrong with it.** -/
theorem read_eq_error_iff {raw : Text} {f : LineFault} : read raw = .error f ↔ Faulty raw.trim f := by
  unfold read
  generalize raw.trim = t
  rcases t with _ | ⟨c, t⟩
  · refine iff_of_false (fun h => by cases h) fun h => ?_
    obtain ⟨_, _, he, -⟩ := h.exists_cons
    cases he
  · rw [readTrimmed]
    split_ifs with hmark hc
    · refine iff_of_false not_false fun h => ?_
      obtain ⟨_, _, he, hnot⟩ := h.exists_cons
      obtain ⟨rfl, -⟩ := List.cons.inj he
      rw [hmark] at hnot
      cases hnot
    · subst hc
      exact readHeader_eq_error_iff
    · exact readProperty_eq_error_iff (by simp [isOpening, hmark, hc])

/-- **A line is faulty from a column on**: there are only blanks before it, it begins neither a blank nor a
comment, and what follows is faulty. -/
structure FaultyAt (raw : Text) (column : ℕ) (fault : LineFault) : Prop where
  column_pos : 0 < column
  blanks : ∀ c ∈ raw.take (column - 1), Text.isBlank c = true
  begins : ∃ c t, raw.drop (column - 1) = c :: t ∧ Text.isBlank c = false ∧ isCommentMark c = false
  faulty : Faulty (Text.trimEnd (raw.drop (column - 1))) fault

theorem take_indentation (t : Text) : t.take t.indentation = t.takeWhile Text.isBlank :=
  List.prefix_iff_eq_take.mp (List.takeWhile_prefix Text.isBlank) |>.symm

theorem drop_indentation (t : Text) : t.drop t.indentation = Text.trimStart t := by
  have h : t.takeWhile Text.isBlank ++ t.trimStart = t := List.takeWhile_append_dropWhile
  conv_lhs => arg 2; rw [← h]
  exact List.drop_left

/-- **A fault is found where the text of a line begins.** -/
theorem faultyAt_of_read {raw : Text} {f : LineFault} (h : read raw = .error f) :
    FaultyAt raw (raw.indentation + 1) f := by
  have hf : Faulty (Text.trimEnd (Text.trimStart raw)) f := read_eq_error_iff.mp h
  rw [← drop_indentation] at hf
  refine ⟨Nat.succ_pos _, ?_, ?_, hf⟩
  · rw [Nat.add_sub_cancel, take_indentation]
    exact fun c hc => List.mem_takeWhile_imp hc
  · rw [Nat.add_sub_cancel]
    obtain ⟨c, s, hc, hmark⟩ := hf.exists_cons
    rw [drop_indentation] at hc ⊢
    have hhead : raw.trimStart.head? = some c := by
      rw [← Text.head?_trimEnd (hc ▸ List.cons_ne_nil c s), hc]
      rfl
    obtain ⟨t, ht⟩ := List.head?_eq_some_iff.mp hhead
    exact ⟨c, t, ht, Text.isBlank_of_mem_head?_trimStart c hhead, hmark⟩

end Line

namespace Document

/-! ### Texts of the first lines -/

/-- The byte order mark with which a text begins, if it does. -/
def markOf : Text → Text
  | [] => []
  | c :: _ => if c = '\ufeff' then [c] else []

/-- What begins like the unified text of another one has the mark of that text put before it. -/
theorem withoutMark_markOf_append {contents t : Text}
    (h : t <+: unifyLineEnds (withoutMark contents) ++ ['\n']) :
    withoutMark (markOf contents ++ t) = t := by
  by_cases hmark : contents.head? = some '\ufeff'
  · obtain ⟨s, rfl⟩ := List.head?_eq_some_iff.mp hmark
    rfl
  · have hnone : markOf contents = [] := by
      rcases contents with _ | ⟨c, s⟩
      · rfl
      · rw [markOf, if_neg fun hc => hmark (congrArg some hc)]
    rw [hnone, List.nil_append]
    rw [withoutMark_eq_self hmark] at h
    refine withoutMark_eq_self fun ht => ?_
    -- The mark would begin the other text as well.
    obtain ⟨s, rfl⟩ := List.head?_eq_some_iff.mp ht
    obtain ⟨v, hv⟩ := h
    rcases hu : unifyLineEnds contents with _ | ⟨c, u⟩
    · rw [hu] at hv
      cases hv
    · rw [hu] at hv
      have hc : unifyLineEnds contents = '\ufeff' :: u := by
        rw [hu, (List.cons.inj hv).1]
      exact hmark (head?_unifyLineEnds (by rw [hc]; rfl) (by decide))

/-- **The lines of a beginning of a text** are those of its own, whether the text has a mark or not. -/
theorem linesOf_markOf_append {contents t : Text}
    (h : t <+: unifyLineEnds (withoutMark contents) ++ ['\n']) :
    linesOf (markOf contents ++ t) = pieces '\n' t := by
  have hreturn : '\r' ∉ t := by
    intro hr
    rcases List.mem_append.mp (h.subset hr) with hu | hn
    · exact carriageReturn_not_mem_unifyLineEnds _ hu
    · cases List.mem_singleton.mp hn
  rw [linesOf, withoutMark_markOf_append h, unifyLineEnds_eq_self hreturn]

/-- Lines with line feeds between them. -/
def joinedLines (ls : List Text) : Text := ['\n'].intercalate ls

/-- Lines with a line feed after each of them. -/
def endedLines (ls : List Text) : Text := ls.flatMap (· ++ ['\n'])

theorem not_mem_of_mem_take_linesOf {contents : Text} {n : ℕ} : ∀ l ∈ (linesOf contents).take n, '\n' ∉ l :=
  fun l hl => not_mem_of_mem_pieces '\n' _ l (List.mem_of_mem_take hl)

theorem linesOf_endedLines (contents : Text) (n : ℕ) :
    linesOf (markOf contents ++ endedLines ((linesOf contents).take n)) =
      (linesOf contents).take n ++ [[]] := by
  have hpieces : pieces '\n' (endedLines ((linesOf contents).take n) ++ []) = _ :=
    pieces_flatMap not_mem_of_mem_take_linesOf []
  rw [List.append_nil] at hpieces
  exact (linesOf_markOf_append (flatMap_take_pieces_isPrefix _ n)).trans hpieces

theorem linesOf_joinedLines {contents : Text} {n : ℕ} (h : (linesOf contents).take n ≠ []) :
    linesOf (markOf contents ++ joinedLines ((linesOf contents).take n)) = (linesOf contents).take n := by
  have hended : joinedLines ((linesOf contents).take n) ++ ['\n'] =
      ((linesOf contents).take n).flatMap (· ++ ['\n']) := intercalate_concat h
  have hbegins : joinedLines ((linesOf contents).take n) <+:
      unifyLineEnds (withoutMark contents) ++ ['\n'] :=
    (List.prefix_append _ ['\n']).trans (hended ▸ flatMap_take_pieces_isPrefix _ n)
  rw [linesOf_markOf_append hbegins]
  exact pieces_intercalate h not_mem_of_mem_take_linesOf

/-- **The first lines of a text are read like a text of their own**, behind the same mark, whether the last of
them is ended or not. -/
theorem ofText_firstLines (label contents : Text) (n : ℕ) :
    ofText label (markOf contents ++ endedLines ((linesOf contents).take n)) =
        readLines label 1 empty ((linesOf contents).take n) ∧
      ofText label (markOf contents ++ joinedLines ((linesOf contents).take n)) =
        readLines label 1 empty ((linesOf contents).take n) := by
  have hended : ofText label (markOf contents ++ endedLines ((linesOf contents).take n)) =
      readLines label 1 empty ((linesOf contents).take n) := by
    rw [ofText, linesOf_endedLines, readLines_concat_nil]
  refine ⟨hended, ?_⟩
  by_cases h : (linesOf contents).take n = []
  · -- Without lines both texts are empty.
    rw [h] at hended ⊢
    exact hended
  · rw [ofText, linesOf_joinedLines h]

/-! ### What a fault says -/

/-- **A fault locates the first faulty line of a text.** -/
structure Locates (label contents : Text) (fault : DocumentFault) : Prop where
  /-- It bears the name of the text. -/
  labelled : fault.label = label
  /-- The text has the line, and it is faulty from the column on. -/
  line : 0 < fault.line ∧ ∃ raw, (linesOf contents)[fault.line - 1]? = some raw ∧
    Line.FaultyAt raw fault.column fault.fault
  /-- The lines before it are read, as a text of their own behind the same mark. -/
  before : ∃ d, ofText label (markOf contents ++ joinedLines ((linesOf contents).take (fault.line - 1))) =
      .ok d ∧
    ofText label (markOf contents ++ endedLines ((linesOf contents).take (fault.line - 1))) = .ok d
  /-- The lines behind it do not matter. -/
  after : ∀ other, (linesOf other).take fault.line = (linesOf contents).take fault.line →
    ofText label other = .error fault

/-- **A text is not read iff it has a faulty line, and its fault locates the first one.** -/
theorem locates_of_ofText (label contents : Text) :
    (∀ fault, ofText label contents = .error fault → Locates label contents fault) ∧
      ((∀ raw ∈ linesOf contents, ∀ f, ¬ Line.Faulty raw.trim f) →
        ∃ d, ofText label contents = .ok d) := by
  constructor
  · intro fault h
    obtain ⟨before, ls, raw, after, f, hlines, hbefore, hf, rfl⟩ := readLines_eq_error_iff.mp h
    have htake : (linesOf contents).take before.length = before := by
      rw [hlines, List.take_left]
    refine ⟨rfl, ⟨Nat.add_pos_left Nat.one_pos _, raw, ?_, Line.faultyAt_of_read hf⟩, ?_, fun other hother => ?_⟩
    · rw [hlines, Nat.add_sub_cancel_left, List.getElem?_append_right le_rfl, Nat.sub_self]
      rfl
    · have hread : readLines label 1 empty before = .ok (ls.foldl extend empty) :=
        readLines_eq_ok_iff.mpr ⟨ls, hbefore, rfl⟩
      have hfirst := ofText_firstLines label contents before.length
      rw [htake, hread] at hfirst
      dsimp only
      rw [Nat.add_sub_cancel_left, htake]
      exact ⟨_, hfirst.2, hfirst.1⟩
    · -- The other text begins with the same lines, the faulty one included.
      have hsame : (linesOf other).take (1 + before.length) = before ++ [raw] := by
        rw [hother, hlines, ← List.singleton_append, ← List.append_assoc]
        exact List.take_left' (by rw [List.length_append, List.length_singleton, Nat.add_comm])
      have hsplit : linesOf other = before ++ raw :: (linesOf other).drop (1 + before.length) := by
        rw [← List.singleton_append, ← List.append_assoc, ← hsame, List.take_append_drop]
      rw [ofText, hsplit]
      exact readLines_of_fault hbefore hf _ 1 empty
  · intro h
    cases hread : ofText label contents with
    | ok d => exact ⟨d, rfl⟩
    | error fault =>
      obtain ⟨before, _, raw, after, f, hlines, -, hf, -⟩ := readLines_eq_error_iff.mp hread
      have hmem : raw ∈ linesOf contents := by simp [hlines]
      exact absurd (Line.read_eq_error_iff.mp hf) (h raw hmem f)

/-- A text behind two marks, with all kinds of line ends, whose third line opens a header. -/
def openHeaderText : Text := "\ufeff\ufeffx = 1\r\n\u3000; [\r\u3000 [ab: c \n[]".toList

/-- A text in which what looks faulty is a comment, a pattern or a value. -/
def oddText : Text := " ;=\r\t[ [] ] \nk:=\r\n\u3000\r# [".toList

theorem locates_of_ofText_openHeaderText_oddText :
    Locates "f".toList openHeaderText ⟨"f".toList, 3, 3, .unclosedHeader "[ab: c".toList⟩ ∧
      linesOf oddText =
        [" ;=".toList, "\t[ [] ] ".toList, "k:=".toList, ['\u3000'], "# [".toList] ∧
      (∀ raw ∈ linesOf oddText, ∀ f, ¬ Line.Faulty raw.trim f) ∧
      ∃ d, ofText "f".toList oddText = .ok d := by
  have hfault : ofText "f".toList openHeaderText =
      .error ⟨"f".toList, 3, 3, .unclosedHeader "[ab: c".toList⟩ := by decide +kernel
  have hread : ∀ raw ∈ linesOf oddText, (Line.read raw).toBool = true := by decide +kernel
  have hodd : ∀ raw ∈ linesOf oddText, ∀ f, ¬ Line.Faulty raw.trim f := by
    intro raw hraw f hf
    have hok := hread raw hraw
    rw [Line.read_eq_error_iff.mpr hf] at hok
    cases hok
  exact ⟨(locates_of_ofText _ _).1 _ hfault, by decide +kernel, hodd,
    (locates_of_ofText "f".toList _).2 hodd⟩

end Document

end EditorSettings
