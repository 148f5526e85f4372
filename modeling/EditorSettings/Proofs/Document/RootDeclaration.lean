import EditorSettings.Proofs.Document.Canonical
import EditorSettings.Proofs.Text.LowerCase

/-!
# Where a document declares that it is a root

`Line.Declares` says which lines declare a property, by their text without surrounding blanks; reading a line
finds just these properties (`Line.read_eq_property_iff`).

The preamble of a document that is read holds the declarations of the lines before the first header, written
one after the other (`Document.head?_foldl_extend`).  So the last one of them that declares `root` says whether
the document is a root, and no line from the first header on has a say (`Document.declaresRoot_iff`).
-/

namespace EditorSettings

namespace Line

/-! ### Lines that declare a property -/

/-- **A value without the quotes around it**: without one pair of equal ones, if it has any. -/
inductive Unquotes : Text → Text → Prop
  /-- Two equal quotes enclose the value. -/
  | quoted {c : Char} {t : Text} (hc : isQuote c = true) : Unquotes (c :: (t ++ [c])) t
  /-- No quotes enclose it. -/
  | bare {t : Text} (h : ∀ c s, isQuote c = true → t ≠ c :: (s ++ [c])) : Unquotes t t

theorem unquotes_iff {t v : Text} : Unquotes t v ↔ v = withoutQuotes t := by
  constructor
  · intro h
    cases h with
    | quoted hc => rw [withoutQuotes_between hc]
    | bare h =>
      rcases t with _ | ⟨c, t⟩
      · rfl
      · rw [withoutQuotes, if_neg]
        rintro ⟨hc, hlast⟩
        exact h c t.dropLast hc (by rw [List.dropLast_append_getLast? c hlast])
  · rintro rfl
    rcases t with _ | ⟨c, t⟩
    · exact .bare fun _ _ _ he => by cases he
    · rw [withoutQuotes]
      split_ifs with hquoted
      · have ht : t.dropLast ++ [c] = t := List.dropLast_append_getLast? c hquoted.2
        conv => arg 1; rw [← ht]
        exact .quoted hquoted.1
      · refine .bare fun d s hd he => hquoted ?_
        obtain ⟨rfl, rfl⟩ := List.cons.inj he
        exact ⟨hd, List.getLast?_concat⟩

/-- **A line declares the value of a property.** -/
structure Declares (raw key value : Text) : Prop where
  /-- The line is neither a comment nor a header. -/
  begins : ∀ c ∈ raw.trim.head?, isOpening c = false
  /-- What stands before the first separator is the key, with blanks and in any case; what follows it is the
  value, with blanks and perhaps in quotes. -/
  parts : ∃ (k : Text) (s : Char) (v : Text), raw.trim = k ++ s :: v ∧ k.any isSeparator = false ∧ isSeparator s = true ∧
    key = Text.lowercase k.trim ∧ Unquotes v.trim value
  /-- There is a key. -/
  key_ne_nil : key ≠ []

/-- A line opens a section. -/
def opensSection (raw : Text) : Bool := raw.trim.head? == some '['

theorem readProperty_eq_ok {t : Text} {l : Line} (h : readProperty t = .ok l) :
    ∃ (k : Text) (s : Char) (v : Text), t = k ++ s :: v ∧ k.any isSeparator = false ∧
      isSeparator s = true ∧ k.trim ≠ [] ∧ l = .property (Text.lowercase k.trim) (withoutQuotes v.trim) := by
  rcases exists_first_separator t with hnone | ⟨k, s, v, rfl, hk, hs⟩
  · rw [readProperty_of_forall hnone] at h
    cases h
  · rw [readProperty_append hk hs] at h
    split_ifs at h with hne
    exact ⟨k, s, v, rfl, hk, hs, hne, (Except.ok.inj h).symm⟩

/-- **What lines say**: nothing, or they open a section, or they declare a property. -/
theorem read_cases {raw : Text} {l : Line} (h : read raw = .ok l) :
    (l = .silent ∧ opensSection raw = false) ∨ (∃ pattern, l = .header pattern ∧ opensSection raw = true) ∨
      ∃ key value, l = .property key value ∧ opensSection raw = false ∧ Declares raw key value := by
  unfold read at h
  unfold opensSection
  rcases hraw : raw.trim with _ | ⟨c, t⟩
  · rw [hraw, readTrimmed] at h
    exact .inl ⟨(Except.ok.inj h).symm, rfl⟩
  · rw [hraw, readTrimmed] at h
    rw [List.head?_cons]
    split_ifs at h with hmark hc
    · refine .inl ⟨(Except.ok.inj h).symm, ?_⟩
      rw [beq_eq_false_iff_ne]
      rintro ⟨⟩
      cases hmark
    · subst hc
      unfold readHeader at h
      split_ifs at h
      exact .inr (.inl ⟨t.dropLast, (Except.ok.inj h).symm, beq_self_eq_true _⟩)
    · obtain ⟨k, s, v, ht, hk, hs, hne, rfl⟩ := readProperty_eq_ok h
      refine .inr (.inr ⟨_, _, rfl, ?_, ?_, ?_, Text.lowercase_ne_nil hne⟩)
      · rw [beq_eq_false_iff_ne]
        exact fun he => hc (Option.some.inj he)
      · rw [hraw]
        rintro _ ⟨⟩
        simp [isOpening, hmark, hc]
      · exact ⟨k, s, v, hraw.trans ht, hk, hs, rfl, unquotes_iff.mpr rfl⟩

/-- **Reading a line finds the property that it declares.** -/
theorem read_eq_property_iff {raw key value : Text} :
    read raw = .ok (.property key value) ↔ Declares raw key value := by
  constructor
  · intro h
    rcases read_cases h with ⟨he, -⟩ | ⟨_, he, -⟩ | ⟨_, _, he, -, hd⟩
    · cases he
    · cases he
    · cases he
      exact hd
  · rintro ⟨hopen, ⟨k, s, v, hraw, hk, hs, rfl, hv⟩, hne⟩
    have htrim : k.trim ≠ [] := by
      intro hnil
      rw [hnil] at hne
      exact hne rfl
    obtain ⟨c, t, hct⟩ := List.exists_cons_of_ne_nil (l := k ++ s :: v) (by simp)
    rw [read, hraw, hct, readTrimmed_of_not_opening (hopen c (by rw [hraw, hct]; rfl)), ← hct,
      readProperty_append hk hs, if_neg htrim, unquotes_iff.mp hv]

/-- The key and the value of the property that a line declares. -/
def declared? (raw : Text) : Option (Text × Text) :=
  match read raw with
  | .ok (.property key value) => some (key, value)
  | _ => none

theorem declared?_eq_some_iff {raw key value : Text} :
    declared? raw = some (key, value) ↔ Declares raw key value := by
  rw [← read_eq_property_iff, declared?]
  split
  · next h => simp [h]
  · next h =>
    simp only [reduceCtorEq, false_iff]
    exact h key value

end Line

namespace Document

/-! ### The preamble of a document that is read -/

/-- The lines before the first header. -/
def preambleLines (contents : Text) : List Text :=
  (linesOf contents).takeWhile fun raw => !Line.opensSection raw

/-- The first section stays as it is when another one is open. -/
theorem head?_foldl_extend_of_headed (s : Section) : ∀ (ls : List Line) (t : Section) (ss : List Section),
    (ls.foldl extend ⟨s :: t :: ss⟩).sections.head? = some s
  | [], _, _ => rfl
  | .silent :: ls, t, ss => head?_foldl_extend_of_headed s ls t ss
  | .header pattern :: ls, t, ss => head?_foldl_extend_of_headed s ls t (ss ++ [.headed pattern])
  | .property key value :: ls, t, [] => head?_foldl_extend_of_headed s ls (t.set key value) []
  | .property key value :: ls, t, u :: ss =>
    head?_foldl_extend_of_headed s ls t (setInLast key value (u :: ss))

/-- **The preamble holds what the lines before the first header declare**, written one after the other. -/
theorem head?_foldl_extend {raws : List Text} {ls : List Line}
    (h : List.Forall₂ (fun raw l => Line.read raw = .ok l) raws ls) :
    ∀ m : OrderedMap Text, (ls.foldl extend ⟨[⟨none, m⟩]⟩).sections.head? = some ⟨none,
      m.setAll ((raws.takeWhile fun raw => !Line.opensSection raw).filterMap Line.declared?)⟩ := by
  induction h with
  | nil => exact fun m => rfl
  | @cons raw l raws ls hread _ ih =>
    intro m
    rcases Line.read_cases hread with ⟨rfl, hopens⟩ | ⟨pattern, rfl, hopens⟩ | ⟨key, value, rfl, hopens, -⟩
    · have hnone : Line.declared? raw = none := by rw [Line.declared?, hread]
      rw [List.takeWhile_cons_of_pos (by simp [hopens]), List.filterMap_cons_none hnone]
      exact ih m
    · -- From here on the lines belong to other sections.
      rw [List.takeWhile_cons_of_neg (by simp [hopens])]
      exact head?_foldl_extend_of_headed ⟨none, m⟩ ls (.headed pattern) []
    · have hsome : Line.declared? raw = some (key, value) := by rw [Line.declared?, hread]
      rw [List.takeWhile_cons_of_pos (by simp [hopens]), List.filterMap_cons_some hsome]
      exact ih (m.set key value)

/-- **The last line that declares a key** gives its value. -/
theorem lastValue?_filterMap_declared? {raws : List Text} {key value : Text} :
    OrderedMap.lastValue? key (raws.filterMap Line.declared?) = some value ↔
      ∃ before raw after, raws = before ++ raw :: after ∧ Line.Declares raw key value ∧
        ∀ later ∈ after, ∀ v, ¬ Line.Declares later key v := by
  rw [OrderedMap.lastValue?_eq_some_iff]
  constructor
  · rintro ⟨_, _, hsplit, hkey⟩
    obtain ⟨before, rest, rfl, -, hrest⟩ := List.filterMap_eq_append_iff.mp hsplit
    obtain ⟨silent, raw, after, rfl, -, hraw, rfl⟩ := List.filterMap_eq_cons_iff.mp hrest
    refine ⟨before ++ silent, raw, after, by simp, Line.declared?_eq_some_iff.mp hraw, fun later hl v hd => ?_⟩
    have hmem := List.mem_filterMap.mpr ⟨later, hl, Line.declared?_eq_some_iff.mpr hd⟩
    exact hkey (List.mem_map_of_mem hmem)
  · rintro ⟨before, raw, after, rfl, hraw, hafter⟩
    refine ⟨before.filterMap Line.declared?, after.filterMap Line.declared?, ?_, fun hkey => ?_⟩
    · rw [List.filterMap_append, List.filterMap_cons_some (Line.declared?_eq_some_iff.mpr hraw)]
    · obtain ⟨⟨k, v⟩, hmem, rfl⟩ := List.mem_map.mp hkey
      obtain ⟨later, hl, hd⟩ := List.mem_filterMap.mp hmem
      exact hafter later hl v (Line.declared?_eq_some_iff.mp hd)

/-- A document is a root if the lines before its first header leave `root` with the value `true`. -/
theorem declaresRoot_eq {label contents : Text} {d : Document} (h : ofText label contents = .ok d) :
    d.declaresRoot =
      (OrderedMap.lastValue? "root".toList ((preambleLines contents).filterMap Line.declared?)).any
        (·.sameIgnoringAsciiCase "true".toList) := by
  obtain ⟨ls, hls, rfl⟩ := readLines_eq_ok_iff.mp h
  have hhead := head?_foldl_extend hls OrderedMap.empty
  have hpreamble : preamble? (ls.foldl extend empty) = some ⟨none,
      OrderedMap.empty.setAll ((preambleLines contents).filterMap Line.declared?)⟩ := by
    rw [preamble?]
    exact (congrArg _ hhead).trans rfl
  rw [declaresRoot, hpreamble, Option.bind_some, Section.get?, OrderedMap.get?_setAll,
    OrderedMap.get?_empty, Option.or_none]
  cases OrderedMap.lastValue? "root".toList ((preambleLines contents).filterMap Line.declared?) <;> rfl

/-- **Only the preamble can declare a root, and its last word counts.**  A document that is read is a root iff
among the lines before the first header one declares `root`, and the last such line declares `true`, in any
case of its letters.  What stands from the first header on does not matter. -/
theorem declaresRoot_iff {label contents : Text} {d : Document} (h : ofText label contents = .ok d) :
    (d.declaresRoot = true ↔
      ∃ before raw after value, preambleLines contents = before ++ raw :: after ∧
        Line.Declares raw "root".toList value ∧
        (∀ later ∈ after, ∀ v, ¬ Line.Declares later "root".toList v) ∧
        value.map Char.toLower = "true".toList) ∧
      ∀ {label' contents' : Text} {d' : Document}, ofText label' contents' = .ok d' →
        preambleLines contents' = preambleLines contents → d'.declaresRoot = d.declaresRoot := by
  constructor
  · have htrue : "true".toList.map Char.toLower = "true".toList := by decide
    rw [declaresRoot_eq h, Option.any_eq_true]
    simp only [Text.sameIgnoringAsciiCase, beq_iff_eq, htrue, lastValue?_filterMap_declared?]
    constructor
    · rintro ⟨value, ⟨before, raw, after, hlines, hraw, hafter⟩, hvalue⟩
      exact ⟨before, raw, after, value, hlines, hraw, hafter, hvalue⟩
    · rintro ⟨before, raw, after, value, hlines, hraw, hafter, hvalue⟩
      exact ⟨value, ⟨before, raw, after, hlines, hraw, hafter⟩, hvalue⟩
  · intro label' contents' d' h' hlines
    rw [declaresRoot_eq h', declaresRoot_eq h, hlines]

/-- A text that takes its first word back before the first header, and again behind it. -/
def wordsText : Text :=
  "\ufeff Root = no\r; root = no\nx = root = no\n\tROOT : 'tRuE'\n\n[root]\nroot = no".toList

/-- The document of that text. -/
def wordsDocument : Document :=
  ⟨[⟨none, ⟨[("root".toList, "tRuE".toList), (['x'], "root = no".toList)]⟩⟩,
    ⟨some "root".toList, ⟨[("root".toList, "no".toList)]⟩⟩]⟩

/-- A text that says the same before the first header. -/
def sameWordsText : Text := " Root = no\n; root = no\nx = root = no\n\tROOT : 'tRuE'\n\n[]]\n[*]".toList

/-- The document of this text. -/
def sameWordsDocument : Document :=
  ⟨[⟨none, ⟨[("root".toList, "tRuE".toList), (['x'], "root = no".toList)]⟩⟩, ⟨some [']'], ∅⟩, ⟨some ['*'], ∅⟩]⟩

theorem declaresRoot_iff_wordsText_sameWordsText :
    ofText [] wordsText = .ok wordsDocument ∧ wordsDocument.declaresRoot = true ∧
      ofText [] sameWordsText = .ok sameWordsDocument ∧
      sameWordsDocument.declaresRoot = wordsDocument.declaresRoot := by
  have h : ofText [] wordsText = .ok wordsDocument := by decide +kernel
  have h' : ofText [] sameWordsText = .ok sameWordsDocument := by decide +kernel
  obtain ⟨hroot, hsame⟩ := declaresRoot_iff h
  refine ⟨h, hroot.mpr ?_, h', hsame h' (by decide +kernel)⟩
  refine ⟨[" Root = no".toList, "; root = no".toList, "x = root = no".toList], "\tROOT : 'tRuE'".toList, [[]],
    "tRuE".toList, by decide +kernel, Line.read_eq_property_iff.mp (by decide +kernel), ?_, by decide +kernel⟩
  intro later hl v hd
  have hread : Line.read [] = .ok (.property "root".toList v) :=
    Line.read_eq_property_iff.mpr (List.mem_singleton.mp hl ▸ hd)
  cases hread

end Document

end EditorSettings
