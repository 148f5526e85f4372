import EditorSettings.Proofs.Document.Reading
import EditorSettings.Proofs.Document.WellFormed
import Mathlib.Data.List.Chain

/-!
# Line ends do not matter

A text of lines is broken into these lines whatever each of them is ended by, a line feed, a carriage return or
a pair of both, and whether a byte order mark stands before them or not (`linesOf_brokenText`).  The one
exception is a carriage return before an empty line that is ended by a line feed: the two are a pair and end
one line.
-/

namespace EditorSettings

/-- What ends a line. -/
inductive LineEnd
  /-- A line feed. -/
  | lineFeed
  /-- A carriage return. -/
  | carriageReturn
  /-- A carriage return and a line feed. -/
  | pair
deriving DecidableEq, Repr

/-- The characters that end a line. -/
def LineEnd.text : LineEnd → Text
  | lineFeed => ['\n']
  | carriageReturn => ['\r']
  | pair => ['\r', '\n']

namespace Document

/-- A text of lines: some that are ended, and a last one. -/
def brokenText (ended : List (Text × LineEnd)) (last : Text) : Text :=
  ended.flatMap (fun l => l.1 ++ l.2.text) ++ last

/-- The same lines ended by line feeds. -/
def endedByFeeds (ended : List (Text × LineEnd)) : List (Text × LineEnd) :=
  ended.map fun l => (l.1, .lineFeed)

/-- **The lines of a text with their ends**: there are no line ends inside of them, and no two ends of theirs
make a pair. -/
@[mk_iff] structure Breaks (ended : List (Text × LineEnd)) (last : Text) : Prop where
  ended_oneLine : ∀ l ∈ ended, l.1.OneLine
  last_oneLine : last.OneLine
  apart : ended.IsChain fun l m => ¬ (l.2 = .carriageReturn ∧ m = ([], .lineFeed))

instance (ended : List (Text × LineEnd)) (last : Text) : Decidable (Breaks ended last) :=
  decidable_of_iff _ (breaks_iff ended last).symm

variable {ended : List (Text × LineEnd)} {last : Text}

theorem brokenText_cons (l : Text × LineEnd) (ended : List (Text × LineEnd)) (last : Text) :
    brokenText (l :: ended) last = l.1 ++ (l.2.text ++ brokenText ended last) := by
  unfold brokenText
  rw [List.flatMap_cons, List.append_assoc, List.append_assoc]

theorem Breaks.tail {l : Text × LineEnd} (h : Breaks (l :: ended) last) : Breaks ended last where
  ended_oneLine m hm := h.ended_oneLine m (List.mem_cons_of_mem l hm)
  last_oneLine := h.last_oneLine
  apart := h.apart.tail

/-- Line feeds make no pairs. -/
theorem Breaks.byFeeds (h : Breaks ended last) : Breaks (endedByFeeds ended) last where
  ended_oneLine := by
    intro m hm
    obtain ⟨l, hl, rfl⟩ := List.mem_map.mp hm
    exact h.ended_oneLine l hl
  last_oneLine := h.last_oneLine
  apart := by
    rw [endedByFeeds, List.isChain_map]
    refine h.apart.imp fun l m _ => ?_
    rintro ⟨⟨⟩, -⟩

/-! ### Unified line ends -/

/-- Every line end becomes a line feed, if what follows does not make it a pair. -/
theorem unifyLineEnds_text (e : LineEnd) {t : Text} (h : e = .carriageReturn → t.head? ≠ some '\n') :
    unifyLineEnds (e.text ++ t) = '\n' :: unifyLineEnds t := by
  cases e with
  | lineFeed =>
    have hfeed : unifyLineEnds (['\n'] ++ t) = ['\n'] ++ unifyLineEnds t :=
      unifyLineEnds_append_of_not_mem (by decide) t
    exact hfeed
  | carriageReturn =>
    rw [LineEnd.text, List.singleton_append, unifyLineEnds, if_pos rfl]
    rintro s - rfl
    exact h rfl rfl
  | pair => rfl

/-- What follows a carriage return begins with no line feed. -/
theorem Breaks.head?_ne_lineFeed {l : Text × LineEnd} (h : Breaks (l :: ended) last)
    (hl : l.2 = .carriageReturn) : (brokenText ended last).head? ≠ some '\n' := by
  intro hhead
  rcases ended with _ | ⟨⟨t, e⟩, ended⟩
  · exact h.last_oneLine.lineFeed (List.mem_of_mem_head? hhead)
  · rw [brokenText_cons] at hhead
    rcases t with _ | ⟨c, t⟩
    · -- The next line is empty, so it is not ended by a line feed.
      have happart := (List.isChain_cons_cons.mp h.apart).1
      cases e with
      | lineFeed => exact happart ⟨hl, rfl⟩
      | carriageReturn | pair => cases hhead
    · have hc : c = '\n' := Option.some.inj hhead
      refine (h.tail.ended_oneLine _ List.mem_cons_self).lineFeed ?_
      rw [hc]
      exact List.mem_cons_self

/-- **Unifying the line ends of lines** ends them by line feeds. -/
theorem unifyLineEnds_brokenText (h : Breaks ended last) :
    unifyLineEnds (brokenText ended last) = brokenText (endedByFeeds ended) last := by
  induction ended with
  | nil => exact unifyLineEnds_eq_self h.last_oneLine.carriageReturn
  | cons l ended ih =>
    have hl := (h.ended_oneLine l List.mem_cons_self).carriageReturn
    rw [brokenText_cons, unifyLineEnds_append_of_not_mem hl, unifyLineEnds_text l.2 h.head?_ne_lineFeed,
      ih h.tail]
    exact (brokenText_cons (l.1, .lineFeed) (endedByFeeds ended) last).symm

/-! ### The byte order mark -/

theorem withoutMark_mark (t : Text) : withoutMark ('\ufeff' :: t) = t := by
  rw [withoutMark, if_pos rfl]

/-- A mark is no line end, so it may be dropped later. -/
theorem unifyLineEnds_withoutMark (t : Text) :
    unifyLineEnds (withoutMark t) = withoutMark (unifyLineEnds t) := by
  by_cases hmark : t.head? = some '\ufeff'
  · obtain ⟨s, rfl⟩ := List.head?_eq_some_iff.mp hmark
    have hmark : unifyLineEnds (['\ufeff'] ++ s) = ['\ufeff'] ++ unifyLineEnds s :=
      unifyLineEnds_append_of_not_mem (by decide) s
    rw [List.singleton_append, List.singleton_append] at hmark
    rw [hmark, withoutMark_mark, withoutMark_mark]
  · rw [withoutMark_eq_self hmark, withoutMark_eq_self fun h => hmark ?_]
    exact head?_unifyLineEnds h (by decide)

/-- Only the first piece of a text loses the mark. -/
theorem pieces_withoutMark (t : Text) :
    pieces '\n' (withoutMark t) = (pieces '\n' t).modifyHead withoutMark := by
  rcases t with _ | ⟨c, t⟩
  · rfl
  · rw [withoutMark, pieces]
    obtain ⟨p, ps, hp⟩ := List.exists_cons_of_ne_nil (pieces_ne_nil '\n' t)
    by_cases hc : c = '\ufeff'
    · subst hc
      rw [if_pos rfl, if_neg (by decide), hp]
      dsimp only
      rw [List.modifyHead_cons, withoutMark_mark]
    · rw [if_neg hc, pieces, hp]
      dsimp only
      split_ifs
      · rfl
      · rw [List.modifyHead_cons, withoutMark, if_neg hc]

/-! ### Lines -/

theorem pieces_brokenText_endedByFeeds (h : Breaks ended last) :
    pieces '\n' (brokenText (endedByFeeds ended) last) = ended.map Prod.fst ++ [last] := by
  have hlines : ∀ p ∈ ended.map Prod.fst, '\n' ∉ p := by
    intro p hp
    obtain ⟨l, hl, rfl⟩ := List.mem_map.mp hp
    exact (h.ended_oneLine l hl).lineFeed
  have hpieces := pieces_flatMap hlines last
  rw [pieces_of_not_mem h.last_oneLine.lineFeed, List.flatMap_map] at hpieces
  rw [← hpieces, brokenText, endedByFeeds, List.flatMap_map]
  rfl

/-- **The lines of a text are the lines that it was made of**, the first one without a byte order mark. -/
theorem linesOf_brokenText (h : Breaks ended last) :
    linesOf (brokenText ended last) = (ended.map Prod.fst ++ [last]).modifyHead withoutMark := by
  rw [linesOf, unifyLineEnds_withoutMark, pieces_withoutMark, unifyLineEnds_brokenText h,
    pieces_brokenText_endedByFeeds h]

/-- A byte order mark before the lines is not part of them. -/
theorem linesOf_mark_brokenText (h : Breaks ended last) :
    linesOf ('\ufeff' :: brokenText ended last) = ended.map Prod.fst ++ [last] := by
  rw [linesOf, withoutMark_mark, unifyLineEnds_brokenText h, pieces_brokenText_endedByFeeds h]

/-- **What ends the lines of a text does not matter**, and neither does a byte order mark before them: the
text is read like the one in which every line is ended by a line feed, to the same document or the same
fault. -/
theorem ofText_brokenText (h : Breaks ended last) (label : Text) :
    ofText label (brokenText ended last) = ofText label (brokenText (endedByFeeds ended) last) ∧
      ((∀ l ∈ (ended.map Prod.fst ++ [last]).head?, l.head? ≠ some '\ufeff') →
        ofText label ('\ufeff' :: brokenText ended last) =
          ofText label (brokenText (endedByFeeds ended) last)) := by
  have hfirst : (endedByFeeds ended).map Prod.fst = ended.map Prod.fst := by
    rw [endedByFeeds, List.map_map]
    rfl
  have hfeeds := linesOf_brokenText h.byFeeds
  rw [hfirst] at hfeeds
  unfold ofText
  refine ⟨by rw [hfeeds, linesOf_brokenText h], fun hmark => ?_⟩
  rw [hfeeds, linesOf_mark_brokenText h]
  rcases hlines : ended.map Prod.fst ++ [last] with _ | ⟨l, ls⟩
  · rfl
  · rw [hlines] at hmark
    rw [List.modifyHead_cons, withoutMark_eq_self (hmark l rfl)]

/-- Lines with runs of line ends of every kind, the seventh of which is faulty. -/
def mixedEnds : List (Text × LineEnd) :=
  [("root = true".toList, .carriageReturn), ([], .pair), ([], .lineFeed), ([], .carriageReturn),
    ("[*]".toList, .carriageReturn), ("k = \ufeff".toList, .pair)]

theorem ofText_brokenText_mixedEnds :
    Breaks mixedEnds "\u3000 k".toList ∧
      brokenText mixedEnds "\u3000 k".toList = "root = true\r\r\n\n\r[*]\rk = \ufeff\r\n\u3000 k".toList ∧
      ofText [] (brokenText mixedEnds "\u3000 k".toList) =
        ofText [] (brokenText (endedByFeeds mixedEnds) "\u3000 k".toList) ∧
      ofText [] ('\ufeff' :: brokenText mixedEnds "\u3000 k".toList) =
        ofText [] (brokenText (endedByFeeds mixedEnds) "\u3000 k".toList) ∧
      ofText [] (brokenText (endedByFeeds mixedEnds) "\u3000 k".toList) =
        .error ⟨[], 7, 3, .unrecognized ['k']⟩ := by
  have h : Breaks mixedEnds "\u3000 k".toList := by decide +kernel
  obtain ⟨hends, hmark⟩ := ofText_brokenText h []
  exact ⟨h, by decide +kernel, hends, hmark (by decide +kernel), by decide +kernel⟩

end Document

end EditorSettings
