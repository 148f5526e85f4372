import EditorSettings.Proofs.Document.Parsed
import EditorSettings.Proofs.Document.RootDeclaration
import EditorSettings.Proofs.Settings.Completion
import EditorSettings.Proofs.Value.Reading

/-!
# Values that ignore case

The texts of some properties ignore case, and are kept in lower case.  A JSON string is taken as it is written,
though, so its text keeps its capitals (`Document.exists_text_not_lowercase`); every other text of such a
property is in lower case (`Document.text_of_caseless`).

What JSON or a padded integer describe has a mark in it, a quote, a digit or an `e`
(`Value.exists_mark_of_ofJson?`), and lower-casing keeps these marks.  So no spelling of `tab` is one of them, and
an indentation of any such style is one by tabs.
-/

namespace EditorSettings

namespace Value

/-! ### Marks of JSON and of padded integers -/

/-- Quotes, digits and the letter `e`: characters that JSON values have and the word `tab` has not. -/
def isMark (c : Char) : Bool := c == '"' || c.isDigit || c == 'e'

theorem isMark_of_isDigit {c : Char} (h : c.isDigit = true) : isMark c = true := by
  simp [isMark, h]

theorem isLower_of_isMark {c : Char} (h : isMark c = true) : Text.IsLower c := by
  simp only [isMark, Bool.or_eq_true, beq_iff_eq] at h
  rcases h with (rfl | hdigit) | rfl
  · exact Text.isLower_of_toNat_lt (by decide)
  · have hle := Text.toNat_of_isDigit hdigit
    exact Text.isLower_of_toNat_lt (by omega)
  · exact ⟨by decide +kernel, by decide⟩

theorem trimJson_subset (t : Text) : trimJson t ⊆ t := by
  intro c hc
  have hc := (List.dropWhile_suffix _).subset (List.mem_reverse.mp hc)
  exact (List.dropWhile_suffix _).subset (List.mem_reverse.mp hc)

theorem exists_mark_of_scalar? {t : Text} {v : Value} (h : scalar? t = some v) : ∃ c ∈ t, isMark c = true := by
  rcases scalar?_cases h with ⟨rfl, -⟩ | ⟨rfl, -⟩ | ⟨body, s, rfl, -, -⟩ | ⟨x, hx, -⟩
  · exact ⟨'e', by decide, rfl⟩
  · exact ⟨'e', by decide, rfl⟩
  · exact ⟨'"', List.mem_cons_self, rfl⟩
  · obtain ⟨-, ⟨c, hc, hdigit⟩, -⟩ := exists_of_jsonNumber? hx
    exact ⟨c, hc, isMark_of_isDigit hdigit⟩

/-- **What JSON describes has a mark in it.** -/
theorem exists_mark_of_ofJson? {t : Text} {v : Value} (h : ofJson? t = some v) : ∃ c ∈ t, isMark c = true := by
  obtain ⟨c, hc, hmark⟩ := exists_mark_of_scalar? h
  exact ⟨c, trimJson_subset t hc, hmark⟩

theorem exists_mark_of_paddedInteger? {t : Text} {x : Binary64} (h : paddedInteger? t = some x) :
    ∃ c ∈ t, isMark c = true := by
  unfold paddedInteger? at h
  dsimp only at h
  split_ifs at h with hpadded
  have hzero : '0' ∈ withoutMinus t := List.mem_of_mem_head? hpadded.2.1
  have hsub : withoutMinus t ⊆ t := by
    rcases t with _ | ⟨c, t⟩
    · exact List.Subset.refl []
    · rw [withoutMinus]
      split_ifs
      · exact List.subset_cons_self c t
      · exact List.Subset.refl _
  exact ⟨'0', hsub hzero, rfl⟩

/-! ### Texts of caseless properties -/

/-- A raw value that is a JSON string, perhaps between JSON blanks, with the text that it describes. -/
def IsJsonString (raw t : Text) : Prop :=
  ∃ body, trimJson raw = '"' :: body ∧ stringBody? body = some t

theorem isJsonString_of_ofJson? {raw t : Text} (h : ofJson? raw = some (text t)) : IsJsonString raw t := by
  rcases scalar?_cases h with ⟨-, hv⟩ | ⟨-, hv⟩ | ⟨body, s, hbody, hs, hv⟩ | ⟨x, -, hv⟩
  · cases hv
  · cases hv
  · exact ⟨body, hbody, text.inj hv ▸ hs⟩
  · cases hv

/-- **A text of a caseless property** is that of a JSON string, or the raw value in lower case. -/
theorem isJsonString_or_lowercase {key raw t : Text} (hkey : key ∈ caselessKeys)
    (h : ofRaw key raw = text t) : IsJsonString raw t ∨ t = Text.lowercase raw := by
  rcases ofRaw_cases key raw with hjson | ⟨x, -, hx⟩ | htext
  · exact .inl (isJsonString_of_ofJson? (h ▸ hjson))
  · rw [h] at hx
    cases hx
  · rw [h, if_pos hkey] at htext
    exact .inr (text.inj htext)

/-- **A word without marks is read as itself, in lower case**, in any spelling. -/
theorem ofRaw_of_lowercase_eq {key raw word : Text} (hkey : key ∈ caselessKeys)
    (hword : ∀ c ∈ word, isMark c = false) (h : Text.lowercase raw = word) :
    ofRaw key raw = text word := by
  have hraw : ¬ ∃ c ∈ raw, isMark c = true := by
    rintro ⟨c, hc, hmark⟩
    have hmem := Text.mem_lowercase_of_isLower (isLower_of_isMark hmark) hc
    rw [hword c (h ▸ hmem)] at hmark
    cases hmark
  rcases ofRaw_cases key raw with hjson | ⟨x, hpadded, -⟩ | htext
  · exact absurd (exists_mark_of_ofJson? hjson) hraw
  · exact absurd (exists_mark_of_paddedInteger? hpadded) hraw
  · rw [htext, if_pos hkey, h]

end Value

/-! ### The word for tabs -/

namespace Settings

theorem isMark_of_mem_tab : ∀ c ∈ tab, Value.isMark c = false := by
  have hnone : tab.any Value.isMark = false := by decide +kernel
  simpa [List.any_eq_false] using hnone

/-- **A spelling of `tab` has no quotes** that could be taken off it. -/
theorem withoutQuotes_of_lowercase_eq {t : Text} (h : Text.lowercase t = tab) : Line.withoutQuotes t = t := by
  refine (Line.unquotes_iff.mp (.bare fun q s hq ht => ?_)).symm
  have hlower : Text.IsLower q := by
    simp only [Line.isQuote, Bool.or_eq_true, beq_iff_eq] at hq
    rcases hq with rfl | rfl <;> exact Text.isLower_of_toNat_lt (by decide)
  have hmem : q ∈ tab := h ▸ Text.mem_lowercase_of_isLower hlower (ht ▸ List.mem_cons_self)
  have hnone : tab.any Line.isQuote = false := by decide +kernel
  exact List.any_eq_false.mp hnone q hmem hq

/-- **A section that spells `tab`** makes the indentation one by tabs. -/
theorem isTab_writeSection {s : Section} (hs : s.WellFormed) {raw : Text} (hraw : s.get? indentStyle = some raw)
    (h : Text.lowercase raw = tab) (m : Settings) : (m.writeSection s).isTab indentStyle = true := by
  have hvalue : Value.ofRaw indentStyle raw = .text tab :=
    Value.ofRaw_of_lowercase_eq (by decide) isMark_of_mem_tab h
  rw [isTab_iff, get?_writeSection_of_wellFormed hs, hraw, Option.map_some, hvalue]
  rfl

end Settings

namespace Document

/-- **Texts of caseless properties are in lower case**, but for JSON strings, whose texts are taken as they are.
Any spelling of `tab`, bare or in quotes, makes the indentation one by tabs. -/
theorem text_of_caseless {label contents : Text} {d : Document} (h : ofText label contents = .ok d) :
    (∀ s ∈ d.sections, ∀ p ∈ s.properties.entries, p.1 ∈ Value.caselessKeys → ∀ t,
      Value.ofRaw p.1 p.2 = .text t →
        Value.IsJsonString p.2 t ∨ (t = Text.lowercase p.2 ∧ Text.lowercase t = t)) ∧
    (∀ t, Text.lowercase t = Settings.tab → Line.withoutQuotes t = t ∧
      ∀ q, Line.isQuote q = true → Line.withoutQuotes (q :: (t ++ [q])) = t) ∧
    ∀ s ∈ d.sections, ∀ raw, s.get? Settings.indentStyle = some raw → Text.lowercase raw = Settings.tab →
      ∀ m : Settings, (m.writeSection s).isTab Settings.indentStyle = true := by
  have hd : d.WellFormed := wellFormed_of_readLines h (fun _ => oneLine_of_mem_linesOf) .of_empty
  refine ⟨?_, ?_, ?_⟩
  · intro s _ p _ hkey t ht
    rcases Value.isJsonString_or_lowercase hkey ht with hjson | rfl
    · exact .inl hjson
    · exact .inr ⟨rfl, Text.lowercase_lowercase p.2⟩
  · intro t ht
    exact ⟨Settings.withoutQuotes_of_lowercase_eq ht, fun q hq => Line.withoutQuotes_between hq t⟩
  · intro s hs raw hraw htab m
    exact Settings.isTab_writeSection (hd.sections s hs) hraw htab m

/-- Sections with words in capitals, bare, in quotes of either kind, and a JSON string. -/
def capitalsText : Text :=
  "[*]\nIndent_Style = TAB\ncharset = '\"UTF-8\"'\n[a]\nindent_style: 'tAb'\nend_of_line = \"CRLF\"".toList

/-- What is read from it. -/
def capitalsDocument : Document :=
  ⟨[Section.preamble,
    ⟨some ['*'], ⟨[("indent_style".toList, "TAB".toList), ("charset".toList, "\"UTF-8\"".toList)]⟩⟩,
    ⟨some ['a'], ⟨[("indent_style".toList, "tAb".toList), ("end_of_line".toList, "CRLF".toList)]⟩⟩]⟩

theorem text_of_caseless_capitalsText : ofText [] capitalsText = .ok capitalsDocument ∧
    Value.IsJsonString "\"UTF-8\"".toList "UTF-8".toList ∧ Line.withoutQuotes "'tAb'".toList = "tAb".toList ∧
    ∀ s ∈ capitalsDocument.sections.tail, ∀ m : Settings, (m.writeSection s).isTab Settings.indentStyle = true := by
  have h : ofText [] capitalsText = .ok capitalsDocument := by decide +kernel
  obtain ⟨htexts, hquotes, htab⟩ := text_of_caseless h
  refine ⟨h, ?_, (hquotes "tAb".toList (by decide +kernel)).2 '\x27' rfl, ?_⟩
  · have hcharset := htexts _ (.tail _ (.head _)) ("charset".toList, "\"UTF-8\"".toList) (.tail _ (.head _))
      (by decide) "UTF-8".toList (by decide +kernel)
    exact hcharset.resolve_right (by decide +kernel)
  · refine List.forall_mem_cons.mpr ⟨?_, List.forall_mem_singleton.mpr ?_⟩
    · exact htab _ (.tail _ (.head _)) "TAB".toList rfl (by decide +kernel)
    · exact htab _ (.tail _ (.tail _ (.head _))) "tAb".toList rfl (by decide +kernel)

/-- **A JSON string keeps its capitals**, also as the text of a caseless property, and is then not the word for
tabs. -/
theorem exists_text_not_lowercase : ∃ (contents : Text) (d : Document) (s : Section) (raw t : Text),
    ofText [] contents = .ok d ∧ s ∈ d.sections ∧ s.get? Settings.indentStyle = some raw ∧
      Settings.indentStyle ∈ Value.caselessKeys ∧ Value.ofRaw Settings.indentStyle raw = .text t ∧
      Text.lowercase t = Settings.tab ∧ t ≠ Text.lowercase t ∧
      (Settings.writeSection OrderedMap.empty s).isTab Settings.indentStyle = false := by
  refine ⟨"[*]\nindent_style = '\"Tab\"'\n".toList,
    ⟨[Section.preamble, ⟨some ['*'], ⟨[("indent_style".toList, "\"Tab\"".toList)]⟩⟩]⟩,
    ⟨some ['*'], ⟨[("indent_style".toList, "\"Tab\"".toList)]⟩⟩, "\"Tab\"".toList, "Tab".toList, ?_⟩
  decide +kernel

end Document

end EditorSettings
