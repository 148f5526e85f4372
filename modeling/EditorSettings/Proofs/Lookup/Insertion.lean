import EditorSettings.Proofs.Lookup.Gathering
import EditorSettings.Proofs.Lookup.Merging
import EditorSettings.Proofs.Lookup.Selection

/-!
# Documents that change nothing

A document that is no root, whose patterns have regular expressions, and of which no section applies to the
target may stand anywhere among the documents of a look-up: the settings, their order and the failure stay
the same (`Settings.ofTexts_insert`).  Such a document does not end the reading, so either it is not read or
it is read at its place (`throughRoot_insert`), and its step of the fold returns what it is given
(`IsIdle.write_eq`).
-/

namespace EditorSettings

open EditorSettings.Path

namespace PlacedDocument

/-! ### Idle documents -/

/-- The document is no root, its patterns have regular expressions, and none of its sections applies to
the target. -/
structure IsIdle (target : Text) (d : PlacedDocument) : Prop where
  not_root : d.document.declaresRoot = false
  not_accepts : ∀ s ∈ d.document.headedSections, ∃ g : Glob,
    Glob.ofPattern? d.directory s.1 = some g ∧ g.accepts target = false

variable {target : Text} {d : PlacedDocument}

theorem isIdle_iff : d.IsIdle target ↔ d.document.declaresRoot = false ∧
    d.document.headedSections.all
      (fun s => (Glob.ofPattern? d.directory s.1).any fun g => !g.accepts target) = true := by
  simp only [List.all_eq_true, Option.any_eq_true, Bool.not_eq_true']
  exact ⟨fun h => ⟨h.not_root, h.not_accepts⟩, fun h => ⟨h.1, h.2⟩⟩

instance : Decidable (d.IsIdle target) := decidable_of_iff _ isIdle_iff.symm

theorem IsIdle.compiles (h : d.IsIdle target) : d.Compiles := fun s hs => by
  obtain ⟨g, hg, -⟩ := h.not_accepts s hs
  rw [hg]
  rfl

theorem IsIdle.sectionsFor_eq_nil (h : d.IsIdle target) : d.sectionsFor target = [] := by
  unfold sectionsFor
  rw [List.map_eq_nil_iff, List.filter_eq_nil_iff]
  intro s hs
  obtain ⟨g, hg, hnot⟩ := h.not_accepts s hs
  rw [applies, hg, Option.any_some, hnot]
  exact Bool.false_ne_true

/-- **An idle document writes nothing**, and does not fail. -/
theorem IsIdle.write_eq (h : d.IsIdle target) (m : Settings) : write target m d = .ok m := by
  rw [PlacedDocument.write_eq h.compiles, h.sectionsFor_eq_nil]
  rfl

theorem settings_insert {target : Path} (h : d.IsIdle target.text) (before after : List PlacedDocument)
    (version : Version) :
    settings (before ++ d :: after) target version = settings (before ++ after) target version := by
  unfold settings
  rw [List.reverse_append, List.reverse_append, List.reverse_cons, List.append_assoc,
    List.singleton_append, foldlM_insert h.write_eq]

/-! ### Texts that are read -/

/-- **A document that is no root is read at its place or not at all.** -/
theorem throughRoot_insert {f : StoredText} {document : Document}
    (hf : Document.ofText f.path.text f.contents = .ok document)
    (hroot : document.declaresRoot = false) (before after : List StoredText) :
    throughRoot (before ++ f :: after) = throughRoot (before ++ after) ∨
      ∃ ds es, throughRoot (before ++ after) = .ok (ds ++ es) ∧
        throughRoot (before ++ f :: after) = .ok (ds ++ ⟨f.path, document⟩ :: es) := by
  by_cases hends : ∀ g ∈ before, g.endsReading = false
  · obtain ⟨ds, -, hrest⟩ := throughRoot_append hends
    rw [hrest, hrest, throughRoot_of_not_root hf hroot]
    cases throughRoot after with
    | error failure => exact Or.inl rfl
    | ok es => exact Or.inr ⟨ds, es, rfl, rfl⟩
  · -- the reading ends before the place of the document
    obtain ⟨g, hg, hend⟩ : ∃ g ∈ before, g.endsReading = true := by simpa using hends
    obtain ⟨earlier, later, rfl⟩ := List.append_of_mem hg
    left
    rw [List.append_assoc, List.append_assoc, List.cons_append, List.cons_append]
    exact (throughRoot_append_endsReading hend _ _).trans (throughRoot_append_endsReading hend _ _).symm

end PlacedDocument

theorem Request.settings_insert {r : Request} {f : StoredText} {document : Document}
    (hf : Document.ofText f.path.text f.contents = .ok document)
    (h : PlacedDocument.IsIdle r.target.text ⟨f.path, document⟩) (before after : List StoredText) :
    r.settings (before ++ f :: after) = r.settings (before ++ after) := by
  unfold Request.settings
  rcases PlacedDocument.throughRoot_insert hf h.not_root before after with heq | ⟨ds, es, hout, hin⟩
  · rw [heq]
  · rw [hin, hout]
    exact PlacedDocument.settings_insert h ds es r.version

/-! ### Texts at hand -/

namespace Settings

variable {current : Option Path}

/-- **A document that changes nothing may stand anywhere among texts at hand.**  The text is that of a
document that is no root, whose patterns all have regular expressions, and of which no section applies to
the target; so is the empty text of a document that is missing. -/
theorem ofTexts_insert {target : Path} {options : Options} {before after : List StoredText}
    {f : StoredText} {document : Document} (hbefore : ∀ g ∈ before, g.path.isAbsolute = true)
    (hafter : ∀ g ∈ after, g.path.isAbsolute = true) (ha : f.path.isAbsolute = true)
    (hf : Document.ofText f.path.text f.contents = .ok document)
    (h : ∀ t : Path, target.absolute current = .ok t →
      PlacedDocument.IsIdle t.text ⟨f.path.normalForm, document⟩) :
    ofTexts current target (before ++ f :: after) options =
      ofTexts current target (before ++ after) options := by
  cases hr : Request.of current target options with
  | error failure => rw [ofTexts_of_error hr, ofTexts_of_error hr]
  | ok r =>
    have ht := (Request.of_eq_ok_iff.mp hr).2.2.1
    have hall : ∀ g ∈ before ++ after, g.path.isAbsolute = true :=
      List.forall_mem_append.mpr ⟨hbefore, hafter⟩
    have hall' : ∀ g ∈ before ++ f :: after, g.path.isAbsolute = true :=
      List.forall_mem_append.mpr ⟨hbefore, List.forall_mem_cons.mpr ⟨ha, hafter⟩⟩
    have hdocument : Document.ofText f.normal.path.text f.normal.contents = .ok document :=
      Document.readLines_eq_ok _ hf
    rw [ofTexts_of_ok hr hall', ofTexts_of_ok hr hall, List.map_append, List.map_append, List.map_cons]
    exact Request.settings_insert hdocument (h _ ht) _ _

/-- Texts above `/w/a/t`, of which the farthest is not read. -/
def aroundTexts : List StoredText × List StoredText :=
  ([⟨ofText "/w/a/.ec".toList, "[*]
x = u
".toList⟩],
    [⟨ofText "/w/.ec".toList, "root = true
[*]
z = w
".toList⟩, ⟨ofText "/.ec".toList, "[*".toList⟩])

/-- A text beside the directories above `/w/a/t`, with a section for other files. -/
def besideText : StoredText := ⟨ofText "/w/./b/.ec".toList, "; others
[*.c]
y = v
".toList⟩

/-- The document of `besideText`. -/
def besideDocument : Document := ⟨[.preamble, ⟨some "*.c".toList, ⟨[(['y'], ['v'])]⟩⟩]⟩

theorem ofTexts_insert_besideText :
    (∀ g ∈ aroundTexts.1, g.path.isAbsolute = true) ∧ (∀ g ∈ aroundTexts.2, g.path.isAbsolute = true) ∧
      besideText.path.isAbsolute = true ∧
      Document.ofText besideText.path.text besideText.contents = .ok besideDocument ∧
      (∀ t : Path, (ofText "/w/a/t".toList).absolute none = .ok t →
        PlacedDocument.IsIdle t.text ⟨besideText.path.normalForm, besideDocument⟩) ∧
      ofTexts none (ofText "/w/a/t".toList) (aroundTexts.1 ++ aroundTexts.2) {} =
        .ok ⟨[(['z'], .text ['w']), (['x'], .text ['u'])]⟩ ∧
      ofTexts none (ofText "/w/a/t".toList) (aroundTexts.1 ++ besideText :: aroundTexts.2) {} =
        .ok ⟨[(['z'], .text ['w']), (['x'], .text ['u'])]⟩ := by
  have hbefore : ∀ g ∈ aroundTexts.1, g.path.isAbsolute = true := by decide +kernel
  have hafter : ∀ g ∈ aroundTexts.2, g.path.isAbsolute = true := by decide +kernel
  have ha : besideText.path.isAbsolute = true := by decide +kernel
  have hf : Document.ofText besideText.path.text besideText.contents = .ok besideDocument := by
    decide +kernel
  have h : ∀ t : Path, (ofText "/w/a/t".toList).absolute none = .ok t →
      PlacedDocument.IsIdle t.text ⟨besideText.path.normalForm, besideDocument⟩ := by
    intro t ht
    have hsame : (ofText "/w/a/t".toList).absolute none = .ok (ofText "/w/a/t".toList) := by
      decide +kernel
    obtain rfl := Except.ok.inj (hsame.symm.trans ht)
    decide +kernel
  have hout : ofTexts none (ofText "/w/a/t".toList) (aroundTexts.1 ++ aroundTexts.2) {} =
      .ok ⟨[(['z'], .text ['w']), (['x'], .text ['u'])]⟩ := by decide +kernel
  exact ⟨hbefore, hafter, ha, hf, h, hout, (ofTexts_insert hbefore hafter ha hf h).trans hout⟩

end Settings

end EditorSettings
