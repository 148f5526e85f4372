import EditorSettings.Lookup.Documents
import EditorSettings.Proofs.Glob.Directory
import EditorSettings.Proofs.Lookup.Steps

/-!
# The reach of a document

No section applies to a path outside of the directory of its document, whatever its pattern looks like
(`Glob.prefix_of_accepts`).  So a document whose directory the target does not lie below writes nothing,
and the settings are the same without all such documents (`PlacedDocument.settings_reach`).
-/

namespace EditorSettings.PlacedDocument

/-- Whether a target lies below the directory of a document. -/
def reaches (target : Text) (d : PlacedDocument) : Bool :=
  (Glob.trimSlashes d.directory ++ ['/']).isPrefixOf target

/-- A section that does not apply writes nothing. -/
theorem writeSection_eq_self {directory target : Text} {s : Text × Section} {m m' : Settings}
    (h : writeSection directory target m s = .ok m')
    (hn : ¬ Glob.trimSlashes directory ++ ['/'] <+: target) : m' = m := by
  unfold writeSection at h
  split at h
  · next g hg =>
    have hnot : ¬ g.accepts target = true := fun ha => hn (Glob.prefix_of_accepts hg ha)
    rw [if_neg hnot] at h
    exact (Except.ok.inj h).symm
  · cases h

/-- **A document that does not reach the target writes nothing.** -/
theorem write_eq_self {d : PlacedDocument} {target : Text} (hd : d.reaches target = false)
    {m m' : Settings} (h : write target m d = .ok m') : m' = m := by
  have hn : ¬ Glob.trimSlashes d.directory ++ ['/'] <+: target := by
    rw [← List.isPrefixOf_iff_prefix]
    exact Bool.eq_false_iff.mp hd
  exact foldlM_eq_self (fun s _ m m' hs => writeSection_eq_self hs hn) h

theorem settings_eq_ok_iff {documents : List PlacedDocument} {target : Path} {version : Version}
    {m : Settings} : settings documents target version = .ok m ↔
      ∃ written, documents.reverse.foldlM (write target.text) OrderedMap.empty = .ok written ∧
        m = Settings.complete version written := by
  refine bind_eq_ok_iff.trans (exists_congr fun written => and_congr_right fun _ => ?_)
  constructor
  · intro h
    exact (Except.ok.inj h).symm
  · rintro rfl
    rfl

/-- **Sections do not reach outside of the directory of their document.**  A directory and a pattern are
one expression, all that it accepts lies below the directory, and documents in other directories than
those above the target do not matter. -/
theorem settings_reach :
    (∀ {directory pattern : Text} {g : Glob}, Glob.ofPattern? directory pattern = some g →
      ∃ w, Regex.tree? (Glob.wholeTokens directory pattern) = some w ∧
        ∀ path, w.accepts path = g.accepts path ∧
          (g.accepts path = true → Glob.trimSlashes directory ++ ['/'] <+: path)) ∧
      ∀ {documents : List PlacedDocument} {target : Path} {version : Version} {m : Settings},
        settings documents target version = .ok m →
          settings (documents.filter (reaches target.text)) target version = .ok m := by
  refine ⟨fun {directory pattern g} hg => ?_, fun {documents target version m} h => ?_⟩
  · obtain ⟨w, hw, haccepts⟩ := Glob.accepts_eq_whole hg
    exact ⟨w, hw, fun path => ⟨haccepts path, Glob.prefix_of_accepts hg⟩⟩
  · obtain ⟨written, hwritten, rfl⟩ := settings_eq_ok_iff.mp h
    refine settings_eq_ok_iff.mpr ⟨written, ?_, rfl⟩
    rw [← List.filter_reverse]
    exact foldlM_filter (fun d _ hd m m' => write_eq_self hd) hwritten

/-- The glob of a pattern of braces that do not balance, in the directory `/w/`. -/
def unbalancedGlob : Glob :=
  ⟨"/w".toList, "/**/\x7d\x7b*".toList,
    .seq (.seq (.seq .segmentsRegex (.one (.only '}'))) (.one (.only '{'))) (.many .notSlash)⟩

/-- A document next to the target `/w/x` and one in another directory. -/
def apartDocuments : List PlacedDocument :=
  [⟨Path.ofText "/w/.editorconfig".toList, ⟨[.preamble, ⟨some ['*'], ⟨[(['a'], ['u'])]⟩⟩]⟩⟩,
    ⟨Path.ofText "/ww/.editorconfig".toList, ⟨[.preamble, ⟨some "**".toList, ⟨[(['b'], ['v'])]⟩⟩]⟩⟩]

theorem settings_reach_apartDocuments :
    Glob.ofPattern? "/w/".toList "\x7d\x7b*".toList = some unbalancedGlob ∧
      unbalancedGlob.accepts "/w/c/\x7d\x7bd".toList = true ∧ "/w/".toList <+: "/w/c/\x7d\x7bd".toList ∧
      settings apartDocuments (Path.ofText "/w/x".toList) Version.current =
        .ok ⟨[(['a'], .text ['u'])]⟩ ∧
      (apartDocuments.filter (reaches (Path.ofText "/w/x".toList).text)).length = 1 ∧
      settings (apartDocuments.filter (reaches (Path.ofText "/w/x".toList).text))
        (Path.ofText "/w/x".toList) Version.current = .ok ⟨[(['a'], .text ['u'])]⟩ := by
  have hg : Glob.ofPattern? "/w/".toList "\x7d\x7b*".toList = some unbalancedGlob := by decide +kernel
  have ha : unbalancedGlob.accepts "/w/c/\x7d\x7bd".toList = true := by decide +kernel
  have hs : settings apartDocuments (Path.ofText "/w/x".toList) Version.current =
      .ok ⟨[(['a'], .text ['u'])]⟩ := by decide +kernel
  obtain ⟨w, -, hw⟩ := settings_reach.1 hg
  exact ⟨hg, ha, (hw _).2 ha, hs, by decide +kernel, settings_reach.2 hs⟩

end EditorSettings.PlacedDocument
