import EditorSettings.Lookup.Documents
import EditorSettings.Proofs.Document.Reading
import Mathlib.Data.List.Forall2

/-!
# The documents that take part

Texts are read one by one, the nearest first.  The reading ends at the first text that is faulty or whose
document declares itself the root (`endsReading`): what is before it is read as it stands
(`throughRoot_append`), the text itself decides between a fault and the documents so far, and what is
after it does not matter (`throughRoot_eq`).
-/

namespace EditorSettings

/-- Whether no text is read after this one: it is faulty, or its document declares itself the root. -/
def StoredText.endsReading (f : StoredText) : Bool :=
  match Document.ofText f.path.text f.contents with
  | .ok d => d.declaresRoot
  | .error _ => true

/-- A text and the document that it describes, at the same path. -/
structure StoredText.Describes (f : StoredText) (d : PlacedDocument) : Prop where
  document : Document.ofText f.path.text f.contents = .ok d.document
  path : d.path = f.path

namespace PlacedDocument

variable {f : StoredText}

/-! ### One text -/

theorem throughRoot_of_fault {fault : DocumentFault}
    (h : Document.ofText f.path.text f.contents = .error fault) (fs : List StoredText) :
    throughRoot (f :: fs) = .error (.faultyDocument fault) := by
  rw [throughRoot, StoredText.document, h]
  rfl

theorem throughRoot_of_root {d : Document} (h : Document.ofText f.path.text f.contents = .ok d)
    (hr : d.declaresRoot = true) (fs : List StoredText) : throughRoot (f :: fs) = .ok [⟨f.path, d⟩] := by
  rw [throughRoot, StoredText.document, h]
  change (if d.declaresRoot = true then Except.ok [_] else _) = _
  rw [if_pos hr]

theorem throughRoot_of_not_root {d : Document}
    (h : Document.ofText f.path.text f.contents = .ok d) (hr : d.declaresRoot = false)
    (fs : List StoredText) :
    throughRoot (f :: fs) = (throughRoot fs).map (⟨f.path, d⟩ :: ·) := by
  rw [throughRoot, StoredText.document, h]
  change (if d.declaresRoot = true then Except.ok [_] else _) = _
  rw [if_neg (by simp [hr])]
  cases throughRoot fs <;> rfl

theorem exists_of_not_endsReading (h : f.endsReading = false) :
    ∃ d, Document.ofText f.path.text f.contents = .ok d ∧ d.declaresRoot = false := by
  unfold StoredText.endsReading at h
  split at h
  · next d hd => exact ⟨d, hd, h⟩
  · cases h

/-! ### Texts in a row -/

/-- **Texts that do not end the reading** are read as they stand, whatever follows them. -/
theorem throughRoot_append : ∀ {before : List StoredText}, (∀ f ∈ before, f.endsReading = false) →
    ∃ ds, List.Forall₂ StoredText.Describes before ds ∧
      ∀ rest, throughRoot (before ++ rest) = (throughRoot rest).map (ds ++ ·)
  | [], _ => by
    refine ⟨[], List.Forall₂.nil, fun rest => ?_⟩
    rw [List.nil_append]
    cases throughRoot rest <;> rfl
  | f :: before, h => by
    obtain ⟨d, hd, hr⟩ := exists_of_not_endsReading (h f List.mem_cons_self)
    obtain ⟨ds, hds, hrest⟩ := throughRoot_append fun g hg => h g (List.mem_cons_of_mem f hg)
    refine ⟨⟨f.path, d⟩ :: ds, List.Forall₂.cons ⟨hd, rfl⟩ hds, fun rest => ?_⟩
    rw [List.cons_append, throughRoot_of_not_root hd hr, hrest]
    cases throughRoot rest <;> rfl

/-- What is after a text that ends the reading does not matter. -/
theorem throughRoot_endsReading (h : f.endsReading = true) (fs gs : List StoredText) :
    throughRoot (f :: fs) = throughRoot (f :: gs) := by
  cases hf : Document.ofText f.path.text f.contents with
  | error fault => rw [throughRoot_of_fault hf, throughRoot_of_fault hf]
  | ok d =>
    have hr : d.declaresRoot = true := by rwa [StoredText.endsReading, hf] at h
    rw [throughRoot_of_root hf hr, throughRoot_of_root hf hr]

/-- The texts behind one that ends the reading do not matter, whatever is before it. -/
theorem throughRoot_append_endsReading (h : f.endsReading = true) (before fs : List StoredText) :
    throughRoot (before ++ f :: fs) = throughRoot (before ++ [f]) := by
  induction before with
  | nil => exact throughRoot_endsReading h fs []
  | cons g before ih => rw [List.cons_append, List.cons_append, throughRoot, throughRoot, ih]

/-- **The reading ends at the first text that is faulty or a root.**  Without such a text all documents
take part; else the fault of that text is the answer, or the documents through that text are, and in both
cases the later texts do not matter. -/
theorem throughRoot_eq (files : List StoredText) :
    ((∀ f ∈ files, f.endsReading = false) →
        ∃ ds, throughRoot files = .ok ds ∧ List.Forall₂ StoredText.Describes files ds) ∧
      ∀ (k : ℕ) (hk : k < files.length), files[k].endsReading = true →
        (∀ (j : ℕ) (hj : j < k), files[j].endsReading = false) →
        (∀ fault, Document.ofText files[k].path.text files[k].contents = .error fault →
          throughRoot files = .error (.faultyDocument fault) ∧ fault.label = files[k].path.text) ∧
        (∀ d, Document.ofText files[k].path.text files[k].contents = .ok d →
          ∃ ds, throughRoot files = .ok ds ∧
            List.Forall₂ StoredText.Describes (files.take (k + 1)) ds) ∧
        ∀ later : List StoredText, throughRoot (files.take (k + 1) ++ later) = throughRoot files := by
  constructor
  · intro h
    obtain ⟨ds, hds, hrest⟩ := throughRoot_append h
    have hall := hrest []
    rw [List.append_nil] at hall
    refine ⟨ds, ?_, hds⟩
    rw [hall, throughRoot, Except.map, List.append_nil]
  · intro k hk hend hbefore
    have hmem : ∀ f ∈ files.take k, f.endsReading = false := by
      intro f hf
      obtain ⟨j, hj, rfl⟩ := List.mem_iff_getElem.mp hf
      rw [List.length_take] at hj
      rw [List.getElem_take]
      exact hbefore j (by omega)
    obtain ⟨ds, hds, hrest⟩ := throughRoot_append hmem
    have htake : files.take (k + 1) = files.take k ++ [files[k]] :=
      List.take_succ_eq_append_getElem hk
    have hfiles : throughRoot files =
        (throughRoot (files[k] :: files.drop (k + 1))).map (ds ++ ·) := by
      rw [← hrest, ← List.drop_eq_getElem_cons hk, List.take_append_drop]
    refine ⟨fun fault hf => ⟨?_, Document.label_of_readLines hf⟩, fun d hd => ?_, fun later => ?_⟩
    · rw [hfiles, throughRoot_of_fault hf]
      rfl
    · have hr : d.declaresRoot = true := by rwa [StoredText.endsReading, hd] at hend
      refine ⟨ds ++ [⟨files[k].path, d⟩], ?_, ?_⟩
      · rw [hfiles, throughRoot_of_root hd hr]
        rfl
      · rw [htake]
        exact List.rel_append hds (List.Forall₂.cons ⟨hd, rfl⟩ List.Forall₂.nil)
    · rw [htake, List.append_assoc, List.singleton_append, hrest, hfiles,
        throughRoot_endsReading hend later]

/-- A text with one property for every file. -/
def plainText : StoredText :=
  ⟨Path.ofText "/a/b/.editorconfig".toList, "[*]\ncharset = latin1\n".toList⟩

/-- A text that declares itself the root. -/
def rootText : StoredText := ⟨Path.ofText "/a/.editorconfig".toList, "Root: TRUE\n".toList⟩

/-- A text with a fault in its second line. -/
def faultyText : StoredText := ⟨Path.ofText "/.editorconfig".toList, "\n  [*\n".toList⟩

theorem throughRoot_eq_rootText_faultyText :
    (∃ ds, throughRoot [plainText] = .ok ds ∧ List.Forall₂ StoredText.Describes [plainText] ds) ∧
      (∃ ds, throughRoot [plainText, rootText, faultyText] = .ok ds ∧
        List.Forall₂ StoredText.Describes [plainText, rootText] ds) ∧
      throughRoot [plainText, faultyText, rootText] =
        .error (.faultyDocument ⟨"/.editorconfig".toList, 2, 3, .unclosedHeader "[*".toList⟩) := by
  have hplain : plainText.endsReading = false := by decide +kernel
  have hfirst : ∀ (fs : List StoredText) (j : ℕ) (hl : j < (plainText :: fs).length), j < 1 →
      (plainText :: fs)[j].endsReading = false := by
    intro fs j hl hj
    obtain rfl : j = 0 := by omega
    exact hplain
  refine ⟨(throughRoot_eq [plainText]).1 (by simpa using hplain), ?_, ?_⟩
  · have hroot := (throughRoot_eq [plainText, rootText, faultyText]).2 1 (by decide) (by decide +kernel)
      fun j hj => hfirst _ j _ hj
    exact hroot.2.1 ⟨[⟨none, ⟨[("root".toList, "TRUE".toList)]⟩⟩]⟩ (by decide +kernel)
  · have hfault := (throughRoot_eq [plainText, faultyText, rootText]).2 1 (by decide)
      (by decide +kernel) fun j hj => hfirst _ j _ hj
    exact (hfault.1 ⟨"/.editorconfig".toList, 2, 3, .unclosedHeader "[*".toList⟩
      (by decide +kernel)).1

end PlacedDocument

end EditorSettings
