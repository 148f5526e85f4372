import EditorSettings.Proofs.Lookup.Merging
import EditorSettings.Proofs.Settings.Completion

/-!
# Neighbours that write different keys

Two neighbouring documents may change places if they write no key both: the settings have the same keys
with the same values (`PlacedDocument.settings_swap`).  Only the order of the keys depends on which of the
two is written first.  What the documents around them write stays where it is, before or after both, and
the completion of sizes reads values, not the order of keys (`Settings.agrees_complete`).
-/

namespace EditorSettings

theorem Section.map_fst_writes (s : Section) :
    s.writes.map Prod.fst = s.properties.keys.map Text.lowercase := by
  rw [writes, OrderedMap.keys, List.map_map, List.map_map]
  rfl

namespace PlacedDocument

/-- The lower-cased keys of the sections of a document that apply to a target. -/
def keysFor (target : Text) (d : PlacedDocument) : List Text :=
  (d.sectionsFor target).flatMap fun s => s.properties.keys.map Text.lowercase

/-- The writes of a document to the settings of a target. -/
def writesFor (target : Text) (d : PlacedDocument) : List (Text × Value) :=
  (d.sectionsFor target).flatMap Section.writes

theorem map_fst_writesFor (target : Text) (d : PlacedDocument) :
    (d.writesFor target).map Prod.fst = d.keysFor target := by
  rw [writesFor, List.map_flatMap, keysFor]
  simp only [Section.map_fst_writes]

theorem writes_neighbours (target : Text) (before : List PlacedDocument) (d e : PlacedDocument)
    (after : List PlacedDocument) : writes target (before ++ d :: e :: after) =
      writes target after ++ (e.writesFor target ++ (d.writesFor target ++ writes target before)) := by
  simp only [writes, writesFor, List.reverse_append, List.reverse_cons, List.flatMap_append,
    List.flatMap_cons, List.flatMap_nil, List.append_nil, List.append_assoc]

/-- **Neighbours without a common key may change places** in what is written. -/
theorem agrees_lastWrites_swap {target : Text} {d e : PlacedDocument}
    (h : List.Disjoint (d.keysFor target) (e.keysFor target)) (before after : List PlacedDocument) :
    (OrderedMap.lastWrites (writes target (before ++ d :: e :: after))).Agrees
      (OrderedMap.lastWrites (writes target (before ++ e :: d :: after))) := by
  rw [← map_fst_writesFor, ← map_fst_writesFor] at h
  simp only [← OrderedMap.setAll_empty, writes_neighbours, OrderedMap.setAll_append]
  exact (OrderedMap.agrees_setAll_setAll (List.disjoint_symm h) _).setAll _

/-- **Neighbours that write different keys commute**: with and without the change of places there are
settings, and they have the same keys with the same values, those of sizes that are completed
included. -/
theorem settings_swap {before after : List PlacedDocument} {d e : PlacedDocument} {target : Path}
    (hc : ∀ x ∈ before ++ d :: e :: after, x.Compiles)
    (h : List.Disjoint (d.keysFor target.text) (e.keysFor target.text)) (version : Version) :
    ∃ m n, settings (before ++ d :: e :: after) target version = .ok m ∧
      settings (before ++ e :: d :: after) target version = .ok n ∧
      m.keys.Perm n.keys ∧ ∀ k, m.get? k = n.get? k := by
  have hperm : (before ++ d :: e :: after).Perm (before ++ e :: d :: after) :=
    (List.Perm.swap e d after).append_left before
  have hc' : ∀ x ∈ before ++ e :: d :: after, x.Compiles := fun x hx => hc x (hperm.mem_iff.mpr hx)
  have hagrees := Settings.agrees_complete (agrees_lastWrites_swap h before after) version
  refine ⟨_, _, (settings_eq_lastWrites hc target version).1, (settings_eq_lastWrites hc' target version).1,
    hagrees.perm_keys ?_ ?_, hagrees⟩
  · exact Settings.nodup_keys_complete (OrderedMap.nodup_keys_lastWrites _) version
  · exact Settings.nodup_keys_complete (OrderedMap.nodup_keys_lastWrites _) version

/-- A document in `/w` with a section for all files and one for others than `/w/a`. -/
def styleDocument : PlacedDocument :=
  ⟨Path.ofText "/w/.editorconfig".toList,
    ⟨[.preamble, ⟨some ['*'], ⟨[("Indent_Style".toList, "tab".toList), (['x'], ['u'])]⟩⟩,
      ⟨some ['b'], ⟨[(['y'], ['u'])]⟩⟩]⟩⟩

/-- A document in `/` with the width of a tab. -/
def widthDocument : PlacedDocument :=
  ⟨Path.ofText "/.editorconfig".toList,
    ⟨[.preamble, ⟨some "**".toList, ⟨[(['y'], ['v']), ("TAB_WIDTH".toList, ['8'])]⟩⟩]⟩⟩

/-- A document in `/` with values for keys of both. -/
def bothDocument : PlacedDocument :=
  ⟨Path.ofText "/.editorconfig".toList,
    ⟨[.preamble, ⟨some ['*'], ⟨[(['y'], ['w']), (['x'], ['w'])]⟩⟩]⟩⟩

theorem settings_swap_styleDocument_widthDocument :
    (∀ x ∈ [] ++ styleDocument :: widthDocument :: [bothDocument], x.Compiles) ∧
      List.Disjoint (styleDocument.keysFor (Path.ofText "/w/a".toList).text)
        (widthDocument.keysFor (Path.ofText "/w/a".toList).text) ∧
      ∃ m n : Settings,
        settings [styleDocument, widthDocument, bothDocument] (Path.ofText "/w/a".toList)
          Version.current = .ok m ∧
        settings [widthDocument, styleDocument, bothDocument] (Path.ofText "/w/a".toList)
          Version.current = .ok n ∧
        m.keys.Perm n.keys ∧ (∀ k, m.get? k = n.get? k) ∧
        m.keys = [['y'], ['x'], Settings.tabWidth, Settings.indentStyle, Settings.indentSize] ∧
        n.keys = [['y'], ['x'], Settings.indentStyle, Settings.tabWidth, Settings.indentSize] ∧
        n.get? Settings.indentSize = some (.number (Binary64.ofInt 8)) := by
  have hc : ∀ x ∈ [] ++ styleDocument :: widthDocument :: [bothDocument], x.Compiles := by
    unfold Compiles
    decide +kernel
  have h : List.Disjoint (styleDocument.keysFor (Path.ofText "/w/a".toList).text)
      (widthDocument.keysFor (Path.ofText "/w/a".toList).text) := by
    unfold List.Disjoint
    decide +kernel
  obtain ⟨m, n, hm, hn, hkeys, hget⟩ := settings_swap hc h Version.current
  have hm' : settings [styleDocument, widthDocument, bothDocument] (Path.ofText "/w/a".toList)
      Version.current = .ok ⟨[(['y'], .text ['v']), (['x'], .text ['u']),
        (Settings.tabWidth, .number (Binary64.ofInt 8)), (Settings.indentStyle, .text Settings.tab),
        (Settings.indentSize, .number (Binary64.ofInt 8))]⟩ := by decide +kernel
  have hn' : settings [widthDocument, styleDocument, bothDocument] (Path.ofText "/w/a".toList)
      Version.current = .ok ⟨[(['y'], .text ['v']), (['x'], .text ['u']),
        (Settings.indentStyle, .text Settings.tab), (Settings.tabWidth, .number (Binary64.ofInt 8)),
        (Settings.indentSize, .number (Binary64.ofInt 8))]⟩ := by decide +kernel
  obtain rfl := Except.ok.inj (hm.symm.trans hm')
  obtain rfl := Except.ok.inj (hn.symm.trans hn')
  exact ⟨hc, h, _, _, hm', hn', hkeys, hget, rfl, rfl, rfl⟩

end PlacedDocument

end EditorSettings
