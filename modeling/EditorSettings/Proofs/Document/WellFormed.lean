import EditorSettings.Document.Reading
import Mathlib.Data.List.Nodup
import Mathlib.Tactic.MkIffOfInductiveProp

/-!
# Well-formed documents

What every document that is read satisfies, and what a document needs for its canonical text to be read
back: a preamble, then sections under patterns, each section with distinct keys.  Keys are trimmed and in
lower case and hold no separator; patterns and values are free, except that they stay on one line.
-/

namespace EditorSettings

/-- A text on one line. -/
@[mk_iff] structure Text.OneLine (t : Text) : Prop where
  lineFeed : '\n' ∉ t
  carriageReturn : '\r' ∉ t

instance (t : Text) : Decidable t.OneLine := decidable_of_iff _ (Text.oneLine_iff t).symm

/-- The characters with which the line of a property cannot begin. -/
def Line.isOpening (c : Char) : Bool := isCommentMark c || c == '['

/-- **The key of a property**, in the form in which it is kept. -/
@[mk_iff] structure Line.IsKey (k : Text) : Prop where
  ne_nil : k ≠ []
  trim_eq : k.trim = k
  lowercase_eq : Text.lowercase k = k
  oneLine : k.OneLine
  separator : k.any isSeparator = false
  opening : k.head?.any isOpening = false

instance (k : Text) : Decidable (Line.IsKey k) := decidable_of_iff _ (Line.isKey_iff k).symm

/-- What a line can say: patterns are not empty, keys are in their kept form, and all is on one line. -/
def Line.WellFormed : Line → Prop
  | silent => True
  | header pattern => pattern ≠ [] ∧ pattern.OneLine
  | property key value => IsKey key ∧ value.OneLine

/-- A section whose pattern and properties come from lines, with distinct keys. -/
@[mk_iff] structure Section.WellFormed (s : Section) : Prop where
  pattern : ∀ p ∈ s.pattern, p ≠ [] ∧ p.OneLine
  nodup : s.properties.keys.Nodup
  properties : ∀ p ∈ s.properties.entries, Line.IsKey p.1 ∧ p.2.OneLine

instance (s : Section) : Decidable s.WellFormed := decidable_of_iff _ (Section.wellFormed_iff s).symm

/-- **Well-formed documents**: the first section, and only the first, has no pattern. -/
@[mk_iff] structure Document.WellFormed (d : Document) : Prop where
  preamble : ∃ s ∈ d.sections.head?, s.pattern = none
  headed : ∀ s ∈ d.sections.tail, s.pattern.isSome = true
  sections : ∀ s ∈ d.sections, s.WellFormed

instance (d : Document) : Decidable d.WellFormed := decidable_of_iff _ (Document.wellFormed_iff d).symm

theorem Document.WellFormed.exists_eq {d : Document} (h : d.WellFormed) :
    ∃ (m : OrderedMap Text) (rest : List Section), d.sections = ⟨none, m⟩ :: rest ∧
      ∀ s ∈ rest, s.pattern.isSome = true := by
  obtain ⟨s, hs, hp⟩ := h.preamble
  have hd : d.sections = s :: d.sections.tail := List.eq_cons_of_mem_head? hs
  refine ⟨s.properties, d.sections.tail, ?_, h.headed⟩
  rw [← hp]
  exact hd

end EditorSettings
