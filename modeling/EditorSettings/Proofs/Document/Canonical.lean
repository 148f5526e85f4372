import EditorSettings.Proofs.Document.Reading
import EditorSettings.Proofs.Document.WellFormed
import EditorSettings.Proofs.OrderedMap

/-!
# The canonical text of a document

A document is written line by line: a line feed, then for every section its header, if it has one, and its
properties with their values between double quotes.  The quotes keep the blanks of a value, and what
stands between the brackets of a header is never looked into, so a canonical line says again what was
written (`read_text`) and a well-formed document is read back from its canonical text
(`ofText_canonicalText`).  The leading line feed keeps a byte order mark that begins a key.
-/

namespace EditorSettings

namespace Line

/-- A line as it is written. -/
def text : Line → Text
  | silent => []
  | header pattern => '[' :: (pattern ++ [']'])
  | property key value => key ++ '=' :: '"' :: (value ++ ['"'])

theorem oneLine_text : ∀ {l : Line}, l.WellFormed → l.text.OneLine
  | silent, _ => ⟨List.not_mem_nil, List.not_mem_nil⟩
  | header pattern, h => by
    obtain ⟨-, hn, hr⟩ := h
    constructor <;> simp [text, hn, hr]
  | property key value, h => by
    obtain ⟨hk, hn, hr⟩ := h
    have hkn := hk.oneLine.lineFeed
    have hkr := hk.oneLine.carriageReturn
    constructor <;> simp [text, hn, hr, hkn, hkr]

theorem readTrimmed_of_not_opening {c : Char} (h : isOpening c = false) (t : Text) :
    readTrimmed (c :: t) = readProperty (c :: t) := by
  rw [isOpening, Bool.or_eq_false_iff, beq_eq_false_iff_ne] at h
  rw [readTrimmed, if_neg (by simp [h.1]), if_neg h.2]

theorem read_header {pattern : Text} (h : pattern ≠ []) :
    read (header pattern).text = .ok (header pattern) := by
  have hmark : isCommentMark '[' = false := by decide
  rw [read, text, Text.trim_between (by decide) (by decide), readTrimmed, hmark,
    if_neg Bool.false_ne_true, if_pos rfl, readHeader, List.getLast?_concat, if_pos rfl,
    List.dropLast_concat, if_neg h]

theorem read_property {key : Text} (h : IsKey key) (value : Text) :
    read (property key value).text = .ok (property key value) := by
  obtain ⟨c, k, rfl⟩ := List.exists_cons_of_ne_nil h.ne_nil
  have hblank := (Text.trim_eq_self_iff.mp h.trim_eq).1 c rfl
  have hopening : isOpening c = false := h.opening
  have htrim : Text.trim (property (c :: k) value).text = (property (c :: k) value).text := by
    have he : (property (c :: k) value).text = c :: (k ++ '=' :: '"' :: value ++ ['"']) := by
      simp [text]
    rw [he]
    exact Text.trim_between hblank (by decide) _
  have hread : readTrimmed (property (c :: k) value).text =
      readProperty (property (c :: k) value).text := readTrimmed_of_not_opening hopening _
  rw [read, htrim, hread, text, readProperty_append h.separator (by decide), h.trim_eq,
    if_neg h.ne_nil, h.lowercase_eq, Text.trim_between (by decide) (by decide),
    withoutQuotes_between (by decide)]

/-- **A line that is written says what it said.** -/
theorem read_text : ∀ {l : Line}, l.WellFormed → read l.text = .ok l
  | silent, _ => rfl
  | header _, h => read_header h.1
  | property _ value, h => read_property h.1 value

end Line

/-! ### Sections -/

namespace Section

/-- The lines of a section: its header, if it has one, then its properties. -/
def lines (s : Section) : List Line :=
  s.pattern.toList.map .header ++ s.properties.entries.map fun p => .property p.1 p.2

theorem wellFormed_of_mem_lines {s : Section} (h : s.WellFormed) : ∀ l ∈ s.lines, l.WellFormed := by
  intro l hl
  unfold lines at hl
  simp only [List.mem_append, List.mem_map, Option.mem_toList] at hl
  rcases hl with ⟨p, hp, rfl⟩ | ⟨p, hp, rfl⟩
  · exact h.pattern p hp
  · exact h.properties p hp

end Section

namespace Document

theorem foldl_extend_entries (ss : List Section) (pattern : Option Text) {m : OrderedMap Text}
    (h : m.keys.Nodup) :
    (m.entries.map fun p => Line.property p.1 p.2).foldl extend ⟨ss ++ [⟨pattern, ∅⟩]⟩ =
      ⟨ss ++ [⟨pattern, m⟩]⟩ := by
  rw [foldl_extend_property]
  dsimp only
  rw [show (∅ : OrderedMap Text).setAll m.entries = m from OrderedMap.setAll_entries h]

/-- The lines of a section under a header append it to a document. -/
theorem foldl_extend_section (ss : List Section) {s : Section} (h : s.WellFormed)
    (hp : s.pattern.isSome = true) : s.lines.foldl extend ⟨ss⟩ = ⟨ss ++ [s]⟩ := by
  obtain ⟨pattern, m⟩ := s
  obtain ⟨p, rfl⟩ := Option.isSome_iff_exists.mp hp
  rw [Section.lines, Option.toList_some, List.map_singleton, List.singleton_append,
    List.foldl_cons]
  exact foldl_extend_entries ss (some p) h.nodup

theorem foldl_extend_sections : ∀ {rest : List Section}, (∀ s ∈ rest, s.WellFormed) →
    (∀ s ∈ rest, s.pattern.isSome = true) → ∀ ss : List Section,
      (rest.flatMap Section.lines).foldl extend ⟨ss⟩ = ⟨ss ++ rest⟩
  | [], _, _, ss => by rw [List.append_nil]; rfl
  | s :: rest, h, hp, ss => by
    have hs := foldl_extend_section ss (h s List.mem_cons_self) (hp s List.mem_cons_self)
    have ih := foldl_extend_sections (fun t ht => h t (List.mem_cons_of_mem s ht))
      (fun t ht => hp t (List.mem_cons_of_mem s ht)) (ss ++ [s])
    rw [List.flatMap_cons, List.foldl_append, hs, ih, List.append_assoc, List.singleton_append]

/-! ### Documents -/

/-- The lines of a document, in order. -/
def lines (d : Document) : List Line := d.sections.flatMap Section.lines

/-- **The canonical text of a document**: an empty line, then its lines, all of them ended. -/
def canonicalText (d : Document) : Text :=
  (Line.silent :: d.lines).flatMap fun l => l.text ++ ['\n']

theorem WellFormed.wellFormed_of_mem_lines {d : Document} (h : d.WellFormed) :
    ∀ l ∈ d.lines, l.WellFormed := by
  intro l hl
  obtain ⟨s, hs, hl⟩ := List.mem_flatMap.mp hl
  exact Section.wellFormed_of_mem_lines (h.sections s hs) l hl

theorem linesOf_canonicalText {d : Document} (h : d.WellFormed) :
    linesOf d.canonicalText = [] :: d.lines.map Line.text ++ [[]] := by
  have he : d.canonicalText = '\n' :: (d.lines.map Line.text).flatMap (· ++ ['\n']) := by
    rw [canonicalText, List.flatMap_cons, List.flatMap_map]
    rfl
  have hl : ∀ t ∈ d.lines.map Line.text, t.OneLine := by
    intro t ht
    obtain ⟨l, hl, rfl⟩ := List.mem_map.mp ht
    exact Line.oneLine_text (h.wellFormed_of_mem_lines l hl)
  rw [he]
  exact linesOf_flatMap (fun t ht => (hl t ht).lineFeed) fun t ht => (hl t ht).carriageReturn

/-- The lines of a well-formed document make it from an empty one. -/
theorem foldl_extend_lines {d : Document} (h : d.WellFormed) : d.lines.foldl extend empty = d := by
  obtain ⟨m, rest, hd, hp⟩ := h.exists_eq
  have hs := h.sections
  rw [hd, List.forall_mem_cons] at hs
  have hfirst : (Section.lines ⟨none, m⟩).foldl extend empty = ⟨[⟨none, m⟩]⟩ :=
    foldl_extend_entries [] none hs.1.nodup
  have hrest := foldl_extend_sections hs.2 hp [⟨none, m⟩]
  rw [lines, hd, List.flatMap_cons, List.foldl_append, hfirst, hrest, List.singleton_append, ← hd]

/-- **A well-formed document is read back from its canonical text**, whatever its name is. -/
theorem ofText_canonicalText {d : Document} (h : d.WellFormed) (label : Text) :
    ofText label d.canonicalText = .ok d := by
  have hread : List.Forall₂ (fun raw l => Line.read raw = .ok l)
      ([] :: d.lines.map Line.text) (Line.silent :: d.lines) := by
    refine List.Forall₂.cons rfl ?_
    rw [List.forall₂_map_left_iff, List.forall₂_same]
    exact fun l hl => Line.read_text (h.wellFormed_of_mem_lines l hl)
  rw [ofText, linesOf_canonicalText h, readLines_append label hread, List.foldl_cons, extend,
    foldl_extend_lines h]
  rfl

/-- A document with quotes, brackets, separators, comment characters and blanks where they may stand. -/
def markedDocument : Document :=
  ⟨[⟨none, ⟨[("root".toList, " TRUE ".toList), ("\ufeffkey".toList, "\"a\" = b ; #c".toList)]⟩⟩,
    ⟨some " ]=[;# ".toList, ⟨[("a]b c".toList, []), ("x".toList, ['"'])]⟩⟩,
    ⟨some ['*'], ∅⟩]⟩

theorem ofText_canonicalText_markedDocument :
    markedDocument.WellFormed ∧
      ofText "f".toList markedDocument.canonicalText = .ok markedDocument ∧
      markedDocument.canonicalText =
        ("\nroot=\" TRUE \"\n\ufeffkey=\"\"a\" = b ; #c\"\n" ++
          "[ ]=[;# ]\na]b c=\"\"\nx=\"\"\"\n[*]\n").toList := by
  have h : markedDocument.WellFormed := by decide +kernel
  exact ⟨h, ofText_canonicalText h "f".toList, by decide +kernel⟩

end Document

end EditorSettings
