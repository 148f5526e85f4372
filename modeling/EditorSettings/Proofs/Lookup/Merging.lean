import EditorSettings.Lookup.Documents
import EditorSettings.Proofs.Lookup.Steps
import EditorSettings.Proofs.OrderedMap

/-!
# The last write wins

The settings from some documents, the nearest first, are those of one long list of writes: from the
farthest document to the nearest, in a document the sections that apply from top to bottom, in a section
the properties in order (`writes`).  Of these, every key keeps its first place and its last value
(`settings_eq_lastWrites`).  Both the sections of a document and the documents themselves are folded, so
the step is the same for both (`foldlM_setAll`).
-/

namespace EditorSettings

/-- The writes of the properties of a section, in order. -/
def Section.writes (s : Section) : List (Text × Value) :=
  s.properties.entries.map fun p => (Text.lowercase p.1, Value.ofRaw (Text.lowercase p.1) p.2)

theorem Settings.writeSection_eq (m : Settings) (s : Section) :
    m.writeSection s = m.setAll s.writes := by
  rw [writeSection, OrderedMap.setAll, Section.writes, List.foldl_map]
  rfl

namespace PlacedDocument

/-- Whether a pattern in a directory has a regular expression and applies to a target. -/
def applies (directory target pattern : Text) : Bool :=
  (Glob.ofPattern? directory pattern).any fun g => g.accepts target

/-- The sections under a header that apply to a target, in order. -/
def sectionsFor (target : Text) (d : PlacedDocument) : List Section :=
  (d.document.headedSections.filter fun s => applies d.directory target s.1).map Prod.snd

/-- The writes from documents, the nearest first, to the settings of a target: from the farthest document
to the nearest. -/
def writes (target : Text) (documents : List PlacedDocument) : List (Text × Value) :=
  documents.reverse.flatMap fun d => (d.sectionsFor target).flatMap Section.writes

/-- Every pattern of the document has a regular expression. -/
def Compiles (d : PlacedDocument) : Prop :=
  ∀ s ∈ d.document.headedSections, (Glob.ofPattern? d.directory s.1).isSome = true

/-- Steps that succeed with some writes each succeed together with all of them in a row. -/
theorem foldlM_setAll {α : Type} {f : Settings → α → Except Failure Settings}
    {w : α → List (Text × Value)} : ∀ {l : List α},
    (∀ a ∈ l, ∀ m : Settings, f m a = .ok (m.setAll (w a))) →
      ∀ m : Settings, l.foldlM f m = .ok (m.setAll (l.flatMap w))
  | [], _, _ => rfl
  | a :: l, h, m => by
    have hl := foldlM_setAll (l := l) fun b hb => h b (List.mem_cons_of_mem a hb)
    rw [List.foldlM_cons, h a List.mem_cons_self m, List.flatMap_cons, OrderedMap.setAll_append]
    exact hl _

theorem writeSection_eq {directory : Text} {s : Text × Section}
    (h : (Glob.ofPattern? directory s.1).isSome = true) (target : Text) (m : Settings) :
    writeSection directory target m s =
      .ok (m.setAll (if applies directory target s.1 then s.2.writes else [])) := by
  obtain ⟨g, hg⟩ := Option.isSome_iff_exists.mp h
  unfold writeSection applies
  rw [hg]
  simp only [Option.any_some, Settings.writeSection_eq]
  split_ifs <;> rfl

theorem flatMap_sectionsFor (target : Text) (d : PlacedDocument) :
    (d.document.headedSections.flatMap fun s =>
      if applies d.directory target s.1 then s.2.writes else []) =
      (d.sectionsFor target).flatMap Section.writes := by
  unfold sectionsFor
  induction d.document.headedSections with
  | nil => rfl
  | cons s rest ih =>
    rw [List.flatMap_cons, ih, List.filter_cons]
    split_ifs <;> simp

theorem write_eq {d : PlacedDocument} (h : d.Compiles) (target : Text) (m : Settings) :
    write target m d = .ok (m.setAll ((d.sectionsFor target).flatMap Section.writes)) := by
  rw [← flatMap_sectionsFor]
  exact foldlM_setAll (fun s hs m => writeSection_eq (h s hs) target m) m

theorem foldlM_write_eq {documents : List PlacedDocument} (h : ∀ d ∈ documents, d.Compiles)
    (target : Text) :
    documents.reverse.foldlM (write target) OrderedMap.empty =
      .ok (OrderedMap.lastWrites (writes target documents)) := by
  rw [← OrderedMap.setAll_empty]
  exact foldlM_setAll (fun d hd m => write_eq (h d (List.mem_reverse.mp hd)) target m) _

/-- A document writes by its path and its sections under a header. -/
theorem write_congr {d e : PlacedDocument} (hp : d.path = e.path)
    (hs : d.document.headedSections = e.document.headedSections) (target : Text) (m : Settings) :
    write target m d = write target m e := by
  unfold write directory
  rw [hp, hs]

theorem foldlM_write_congr (target : Text) {ds es : List PlacedDocument}
    (h : (ds.map fun d => (d.path, d.document.headedSections)) =
      es.map fun d => (d.path, d.document.headedSections)) (m : Settings) :
    ds.foldlM (write target) m = es.foldlM (write target) m := by
  rw [← List.forall₂_eq_eq_eq, List.forall₂_map_left_iff, List.forall₂_map_right_iff] at h
  refine foldlM_congr (h.imp fun d e he m => ?_) m
  exact write_congr (Prod.mk.inj he).1 (Prod.mk.inj he).2 target m

/-- **The last write wins.**  The settings are those of the distinct keys of all writes in the order of
their first occurrences, each with its last value, with the sizes completed; preambles do not matter. -/
theorem settings_eq_lastWrites {documents : List PlacedDocument} (h : ∀ d ∈ documents, d.Compiles)
    (target : Path) (version : Version) :
    settings documents target version =
        .ok (Settings.complete version (OrderedMap.lastWrites (writes target.text documents))) ∧
      ∀ others : List PlacedDocument,
        (others.map fun d => (d.path, d.document.headedSections)) =
          (documents.map fun d => (d.path, d.document.headedSections)) →
        settings others target version = settings documents target version := by
  constructor
  · rw [settings, foldlM_write_eq h]
    rfl
  · intro others ho
    have hrev : (others.reverse.map fun d => (d.path, d.document.headedSections)) =
        (documents.reverse.map fun d => (d.path, d.document.headedSections)) := by
      rw [List.map_reverse, List.map_reverse, ho]
    rw [settings, foldlM_write_congr target.text hrev, settings]

/-- A document in `/a/b` and one in `/a`, both with the size of an indentation for every file. -/
def twoSizes : List PlacedDocument :=
  [⟨Path.ofText "/a/b/.editorconfig".toList,
      ⟨[.preamble, ⟨some ['*'], ⟨[("indent_size".toList, ['2'])]⟩⟩]⟩⟩,
    ⟨Path.ofText "/a/.editorconfig".toList,
      ⟨[.preamble, ⟨some ['*'], ⟨[("indent_size".toList, ['8']), ("charset".toList, "latin1".toList)]⟩⟩]⟩⟩]

theorem settings_eq_lastWrites_twoSizes :
    (∀ d ∈ twoSizes, d.Compiles) ∧
      settings twoSizes (Path.ofText "/a/b/x".toList) Version.current =
        .ok (Settings.complete Version.current
          (OrderedMap.lastWrites (writes "/a/b/x".toList twoSizes))) ∧
      (OrderedMap.lastWrites (writes "/a/b/x".toList twoSizes)).entries =
        [("indent_size".toList, .number (Binary64.ofInt 2)), ("charset".toList, .text "latin1".toList)] := by
  have hc : ∀ d ∈ twoSizes, d.Compiles := by
    unfold Compiles
    decide +kernel
  refine ⟨hc, ?_, by decide +kernel⟩
  have h := (settings_eq_lastWrites hc (Path.ofText "/a/b/x".toList) Version.current).1
  rwa [show (Path.ofText "/a/b/x".toList).text = "/a/b/x".toList by decide +kernel] at h

end PlacedDocument

end EditorSettings
