import EditorSettings.Proofs.Document.Reading
import EditorSettings.Proofs.Document.WellFormed
import EditorSettings.Proofs.OrderedMap
import EditorSettings.Proofs.Text.LowerCase
import EditorSettings.Settings

/-!
# Documents that are read are well formed

Whatever a line says is well formed (`wellFormed_of_read`): what it keeps is cut out of the line, keys are
trimmed, and lower-casing a key brings in letters only.  A line that says something well formed keeps a
document well formed (`Document.WellFormed.extend`), so every document that is read is
(`wellFormed_of_ofText`).

In such a document a key is already in the form in which sections are written into settings: writing a
section lower-cases nothing and merges no two properties.
-/

namespace EditorSettings

theorem Text.OneLine.of_subset {s t : Text} (h : s.OneLine) (ht : t ⊆ s) : t.OneLine :=
  ⟨fun hm => h.lineFeed (ht hm), fun hm => h.carriageReturn (ht hm)⟩

theorem Text.OneLine.lowercase {t : Text} (h : t.OneLine) : (Text.lowercase t).OneLine :=
  ⟨fun hm => h.lineFeed (mem_of_mem_lowercase (by decide) hm),
    fun hm => h.carriageReturn (mem_of_mem_lowercase (by decide) hm)⟩

/-! ### What a line says -/

namespace Line

theorem withoutQuotes_subset (t : Text) : withoutQuotes t ⊆ t := by
  rcases t with _ | ⟨c, t⟩
  · exact List.Subset.refl []
  · rw [withoutQuotes]
    split_ifs
    · exact List.Subset.trans (List.dropLast_subset t) (List.subset_cons_self c t)
    · exact List.Subset.refl _

theorem toNat_of_isSeparator {c : Char} (h : isSeparator c = true) : c.toNat < 0x61 := by
  rw [isSeparator, Bool.or_eq_true, beq_iff_eq, beq_iff_eq] at h
  rcases h with rfl | rfl <;> decide

theorem toNat_of_isOpening {c : Char} (h : isOpening c = true) : c.toNat < 0x61 := by
  simp only [isOpening, isCommentMark, Bool.or_eq_true, beq_iff_eq] at h
  rcases h with (rfl | rfl) | rfl <;> decide

/-- **A trimmed key is kept in lower case.** -/
theorem isKey_lowercase {k : Text} (hne : k ≠ []) (htrim : k.trim = k) (hline : k.OneLine)
    (hsep : ∀ c ∈ k, isSeparator c = false) (hopen : ∀ c ∈ k.head?, isOpening c = false) :
    IsKey (Text.lowercase k) where
  ne_nil := Text.lowercase_ne_nil hne
  trim_eq := Text.trim_lowercase htrim
  lowercase_eq := Text.lowercase_lowercase k
  oneLine := hline.lowercase
  separator := by
    rw [List.any_eq_false]
    intro c hc hs
    have hmem := Text.mem_of_mem_lowercase (toNat_of_isSeparator hs) hc
    rw [hsep c hmem] at hs
    cases hs
  opening := by
    rcases hhead : (Text.lowercase k).head? with _ | c
    · rfl
    · rw [Option.any_some]
      rcases Text.head?_lowercase hhead with hc | hc
      · exact hopen c hc
      · rw [← Bool.not_eq_true]
        intro h
        have hlt := toNat_of_isOpening h
        have hge := hc.le_toNat
        omega

theorem wellFormed_of_readHeader {line rest : Text} {l : Line} (h : readHeader line rest = .ok l)
    (hline : rest.OneLine) : l.WellFormed := by
  unfold readHeader at h
  split_ifs at h with hlast hne
  obtain rfl := Except.ok.inj h
  exact ⟨hne, hline.of_subset (List.dropLast_subset rest)⟩

/-- A beginning of a text that does not begin with a blank is trimmed at its end only. -/
theorem head?_trim_takeWhile {p : Char → Bool} {c : Char} {t : Text} (hblank : Text.isBlank c = false)
    (hne : Text.trim ((c :: t).takeWhile p) ≠ []) :
    (Text.trim ((c :: t).takeWhile p)).head? = some c := by
  have hpos : p c = true := by
    by_contra hc
    rw [List.takeWhile_cons_of_neg hc] at hne
    exact hne rfl
  rw [List.takeWhile_cons_of_pos hpos] at hne ⊢
  have hstart : Text.trimStart (c :: t.takeWhile p) = c :: t.takeWhile p := by
    rw [Text.trimStart_eq_self_iff]
    simpa using hblank
  rw [Text.trim, hstart] at hne ⊢
  rw [Text.head?_trimEnd hne]
  rfl

theorem wellFormed_of_readProperty {c : Char} {t : Text} {l : Line}
    (h : readProperty (c :: t) = .ok l) (hblank : Text.isBlank c = false) (hopen : isOpening c = false)
    (hline : Text.OneLine (c :: t)) : l.WellFormed := by
  unfold readProperty at h
  split at h
  · cases h
  · next s value hdrop =>
    dsimp only at h
    split_ifs at h with hne
    obtain rfl := Except.ok.inj h
    have hvalue : value ⊆ c :: t := by
      have hsuffix := List.dropWhile_suffix (fun c => !isSeparator c) (l := c :: t)
      rw [hdrop] at hsuffix
      exact List.Subset.trans (List.subset_cons_self s value) hsuffix.subset
    set k : Text := (c :: t).takeWhile fun c => !isSeparator c
    have hsub : k ⊆ c :: t := (List.takeWhile_prefix _).subset
    refine ⟨isKey_lowercase hne (Text.trim_trim k) ?_ ?_ ?_, ?_⟩
    · exact hline.of_subset (List.Subset.trans (Text.trim_subset k) hsub)
    · intro d hd
      simpa using List.mem_takeWhile_imp (Text.trim_subset k hd)
    · -- The line begins with a character of the key, which is not blank.
      have hhead : k.trim.head? = some c := head?_trim_takeWhile hblank hne
      intro d hd
      rw [hhead] at hd
      exact Option.some.inj hd ▸ hopen
    · have hquotes : withoutQuotes (Text.trim value) ⊆ value :=
        List.Subset.trans (withoutQuotes_subset _) (Text.trim_subset value)
      exact hline.of_subset (List.Subset.trans hquotes hvalue)

/-- **Whatever a line says is well formed.** -/
theorem wellFormed_of_read {raw : Text} {l : Line} (h : read raw = .ok l) (hline : raw.OneLine) :
    l.WellFormed := by
  have htrimmed := hline.of_subset (Text.trim_subset raw)
  have hblank := (Text.trim_eq_self_iff.mp (Text.trim_trim raw)).1
  unfold read at h
  generalize raw.trim = t at h htrimmed hblank
  rcases t with _ | ⟨c, rest⟩
  · obtain rfl := Except.ok.inj h
    trivial
  · rw [readTrimmed] at h
    split_ifs at h with hmark hopen
    · obtain rfl := Except.ok.inj h
      trivial
    · exact wellFormed_of_readHeader h (htrimmed.of_subset (List.subset_cons_self c rest))
    · refine wellFormed_of_readProperty h (hblank c rfl) ?_ htrimmed
      simp [isOpening, hmark, hopen]

end Line

/-! ### What lines leave -/

theorem Section.WellFormed.set {s : Section} (h : s.WellFormed) {k v : Text} (hk : Line.IsKey k)
    (hv : v.OneLine) : (s.set k v).WellFormed where
  pattern := h.pattern
  nodup := OrderedMap.nodup_keys_set h.nodup k v
  properties := by
    intro e he
    rcases OrderedMap.mem_setEntry he with rfl | he
    · exact ⟨hk, hv⟩
    · exact h.properties e he

theorem Section.WellFormed.empty {pattern : Option Text} (h : ∀ p ∈ pattern, p ≠ [] ∧ p.OneLine) :
    Section.WellFormed ⟨pattern, ∅⟩ :=
  ⟨h, List.nodup_nil, fun _ he => absurd he List.not_mem_nil⟩

namespace Document

theorem WellFormed.of_empty : empty.WellFormed where
  preamble := ⟨Section.preamble, rfl, rfl⟩
  headed := fun _ hs => absurd hs List.not_mem_nil
  sections := by
    intro s hs
    obtain rfl := List.mem_singleton.mp hs
    exact .empty (by simp)

theorem WellFormed.push {d : Document} (h : d.WellFormed) {pattern : Text}
    (hp : pattern ≠ [] ∧ pattern.OneLine) : (d.push (Section.headed pattern)).WellFormed := by
  obtain ⟨m, rest, hd, hrest⟩ := h.exists_eq
  have hs := h.sections
  rw [hd, List.forall_mem_cons] at hs
  unfold Document.push
  rw [hd, List.cons_append]
  refine ⟨⟨_, rfl, rfl⟩, ?_, ?_⟩
  · exact List.forall_mem_append.mpr ⟨hrest, by simp [Section.headed]⟩
  · refine List.forall_mem_cons.mpr ⟨hs.1, List.forall_mem_append.mpr ⟨hs.2, ?_⟩⟩
    rw [List.forall_mem_singleton]
    exact .empty (by simpa using hp)

theorem WellFormed.set {d : Document} (h : d.WellFormed) {k v : Text} (hk : Line.IsKey k)
    (hv : v.OneLine) : (d.set k v).WellFormed := by
  obtain ⟨m, rest, hd, hrest⟩ := h.exists_eq
  have hs := h.sections
  rw [hd] at hs
  unfold Document.set
  rw [hd]
  -- Either the preamble is the last section or one under a header is.
  cases rest using List.reverseRecOn with
  | nil =>
    refine ⟨⟨_, rfl, rfl⟩, fun _ hm => absurd hm List.not_mem_nil, ?_⟩
    rw [List.forall_mem_singleton] at hs
    exact List.forall_mem_singleton.mpr (hs.set hk hv)
  | append_singleton ss s =>
    rw [← List.cons_append] at hs ⊢
    rw [setInLast_concat, List.cons_append]
    rw [List.forall_mem_append, List.forall_mem_singleton, List.forall_mem_cons] at hs
    rw [List.forall_mem_append, List.forall_mem_singleton] at hrest
    refine ⟨⟨_, rfl, rfl⟩, ?_, ?_⟩
    · exact List.forall_mem_append.mpr ⟨hrest.1, List.forall_mem_singleton.mpr hrest.2⟩
    · refine List.forall_mem_cons.mpr ⟨hs.1.1, List.forall_mem_append.mpr ⟨hs.1.2, ?_⟩⟩
      exact List.forall_mem_singleton.mpr (hs.2.set hk hv)

/-- **A line that says something well formed keeps a document well formed.** -/
theorem WellFormed.extend {d : Document} (h : d.WellFormed) : ∀ {l : Line}, l.WellFormed →
    (d.extend l).WellFormed
  | .silent, _ => h
  | .header _, hl => h.push hl
  | .property _ _, hl => h.set hl.1 hl.2

theorem wellFormed_of_readLines : ∀ {label : Text} {raws : List Text} {number : ℕ} {d e : Document},
    readLines label number d raws = .ok e → (∀ raw ∈ raws, raw.OneLine) → d.WellFormed → e.WellFormed
  | _, [], _, _, _, h, _, hd => Except.ok.inj h ▸ hd
  | label, raw :: raws, number, d, e, h, hraws, hd => by
    rw [readLines] at h
    split at h
    · cases h
    · next l hl =>
      have hline := Line.wellFormed_of_read hl (hraws raw List.mem_cons_self)
      exact wellFormed_of_readLines h (fun r hr => hraws r (List.mem_cons_of_mem raw hr)) (hd.extend hline)

/-! ### Whole texts -/

theorem carriageReturn_not_mem_unifyLineEnds (t : Text) : '\r' ∉ unifyLineEnds t := by
  induction t using unifyLineEnds.induct with
  | case1 => exact List.not_mem_nil
  | case2 t ih => simpa [unifyLineEnds] using ih
  | case3 c t hne ih =>
    rw [unifyLineEnds, List.mem_cons]
    · split_ifs with hc
      · simpa using ih
      · rintro (rfl | hm)
        · exact hc rfl
        · exact ih hm
    · exact hne

theorem oneLine_of_mem_linesOf {contents raw : Text} (h : raw ∈ linesOf contents) : raw.OneLine where
  lineFeed := not_mem_of_mem_pieces '\n' _ raw h
  carriageReturn hm := carriageReturn_not_mem_unifyLineEnds _ (subset_of_mem_pieces h hm)

end Document

/-! ### Sections of a document that is read -/

namespace Settings

/-- **Writing a well-formed section lower-cases nothing.** -/
theorem writeSection_of_wellFormed {s : Section} (h : s.WellFormed) (m : Settings) :
    m.writeSection s =
      m.setAll (s.properties.entries.map fun p => (p.1, Value.ofRaw p.1 p.2)) := by
  rw [writeSection, OrderedMap.setAll, List.foldl_map]
  refine List.foldl_ext _ _ _ fun m p hp => ?_
  rw [write, (h.properties p hp).1.lowercase_eq]

/-- **Writing a well-formed section merges no two properties.** -/
theorem writeSection_empty {s : Section} (h : s.WellFormed) :
    Settings.writeSection OrderedMap.empty s =
      ⟨s.properties.entries.map fun p => (p.1, Value.ofRaw p.1 p.2)⟩ := by
  rw [writeSection_of_wellFormed h]
  refine OrderedMap.setAll_entries (m := ⟨_⟩) ?_
  rw [OrderedMap.keys, List.map_map]
  exact h.nodup

/-- **Writing a well-formed section** gives its keys their values and leaves the others. -/
theorem get?_writeSection_of_wellFormed {s : Section} (h : s.WellFormed) (m : Settings) (k : Text) :
    (m.writeSection s).get? k = ((s.get? k).map (Value.ofRaw k)).or (m.get? k) := by
  have hkeys : OrderedMap.keys ⟨s.properties.entries.map fun p => (p.1, Value.ofRaw p.1 p.2)⟩ =
      s.properties.keys := by
    rw [OrderedMap.keys, List.map_map]
    rfl
  have hlast := OrderedMap.lastValue?_entries (hkeys ▸ h.nodup) k
  rw [OrderedMap.get?_map] at hlast
  rw [writeSection_of_wellFormed h, OrderedMap.get?_setAll, hlast]
  rfl

end Settings

namespace Document

/-- **Every document that is read is well formed**, and of its sections every property is written into
settings under its own key, none of them merged with another. -/
theorem wellFormed_of_ofText {label contents : Text} {d : Document} (h : ofText label contents = .ok d) :
    d.WellFormed ∧ ∀ s ∈ d.sections,
      (∀ m : Settings, m.writeSection s =
        m.setAll (s.properties.entries.map fun p => (p.1, Value.ofRaw p.1 p.2))) ∧
      Settings.writeSection OrderedMap.empty s =
        ⟨s.properties.entries.map fun p => (p.1, Value.ofRaw p.1 p.2)⟩ := by
  have hd : d.WellFormed := wellFormed_of_readLines h (fun _ => oneLine_of_mem_linesOf) .of_empty
  refine ⟨hd, fun s hs => ?_⟩
  have hws := hd.sections s hs
  exact ⟨Settings.writeSection_of_wellFormed hws, Settings.writeSection_empty hws⟩

/-- Keys with capitals that are lower-cased to more than one letter or to a final form, and blanks, marks
and line ends of every kind. -/
def mixedText : Text :=
  "\ufeff Root = TRUE\r[*.Σ]\r\n\u3000İD : '1' \nΟΔΟΣ = x = y\rοδος: [z]\n; Σ = Σ".toList

/-- What is read from it. -/
def mixedDocument : Document :=
  ⟨[⟨none, ⟨[("root".toList, "TRUE".toList)]⟩⟩,
    ⟨some "*.Σ".toList, ⟨[("i\u0307d".toList, ['1']), ("οδος".toList, "[z]".toList)]⟩⟩]⟩

theorem wellFormed_of_ofText_mixedText :
    ofText [] mixedText = .ok mixedDocument ∧ mixedDocument.WellFormed ∧
      (mixedDocument.sections.map fun s => Settings.writeSection OrderedMap.empty s) =
        [⟨[("root".toList, .text "TRUE".toList)]⟩,
          ⟨[("i\u0307d".toList, .number (Binary64.ofInt 1)), ("οδος".toList, .text "[z]".toList)]⟩] := by
  have h : ofText [] mixedText = .ok mixedDocument := by decide +kernel
  obtain ⟨hwf, hsections⟩ := wellFormed_of_ofText h
  refine ⟨h, hwf, ?_⟩
  rw [List.map_congr_left fun s hs => (hsections s hs).2]
  decide +kernel

end Document

end EditorSettings
