import EditorSettings.Proofs.Lookup.Gathering
import EditorSettings.Proofs.Lookup.Selection

/-!
# Roots that are given and roots that are declared

A search for documents ends at the root that the options give, and no document takes part behind one that
declares itself the root.  If the document in a directory above the target declares itself the root, both
are the same: giving that directory, no directory, or one farther out leads to the same settings or the
same failure (`Settings.lookUp_root_eq`).  A farther root only adds places behind those of a nearer one
(`Path.directoriesTo_append`), and the text at the last of these ends the reading
(`Request.settings_withRoot`).
-/

namespace EditorSettings

open EditorSettings.Path

variable {current : Option Path} {r : Request}

/-- `d` is an absolute directory above `t`, whatever its spelling. -/
structure Path.LiesAbove (d t : Path) : Prop where
  isAbsolute : d.isAbsolute = true
  isWithin : t.isWithin d = true
  not_same : t.same d = false

/-- A text is found at the path, and it is that of a document that declares itself the root. -/
def StoredText.RootAt (files : List StoredText) (p : Path) : Prop :=
  ∃ contents document, StoredText.lookup files p = some contents ∧
    Document.ofText p.text contents = .ok document ∧ document.declaresRoot = true

theorem StoredText.lookup_congr {p q : Path} (h : p.components = q.components)
    (files : List StoredText) : StoredText.lookup files p = StoredText.lookup files q := by
  unfold StoredText.lookup Path.same
  rw [h]

/-- The text of a root ends the reading, also under another spelling of its path. -/
theorem StoredText.RootAt.endsReading {files : List StoredText} {p q : Path}
    (h : StoredText.RootAt files p) (hpq : p.components = q.components) :
    StoredText.endsReading ⟨q, (StoredText.lookup files q).getD []⟩ = true := by
  obtain ⟨contents, document, hfile, hdoc, hroot⟩ := h
  have hdoc' : Document.ofText q.text contents = .ok document :=
    Document.readLines_eq_ok q.text hdoc
  unfold StoredText.endsReading
  rw [← StoredText.lookup_congr hpq, hfile, Option.getD_some, hdoc']
  exact hroot

namespace Request

variable {above mid below : List (List TextUnit)}

/-! ### Requests with another root -/

/-- The same request with another root. -/
def withRoot (r : Request) (names : List (List TextUnit)) : Request :=
  { r with root := ofNames true names }

/-- **A directory above the target may be the root.** -/
theorem of_withRoot {target : Path} {options : Options}
    (h : Request.of current target options = .ok r) (hn : ∀ n ∈ above ++ below, IsName n)
    (ht : r.target = ofNames true (above ++ below)) (hb : below ≠ []) {d : Path}
    (hd : d.isAbsolute = true) (hc : d.components = .root :: above.map .name) :
    Request.of current target { options with root := some d } = .ok (r.withRoot above) := by
  obtain ⟨hname, hv, htarget, -, -, -, hr⟩ := of_eq_ok_iff.mp h
  have habove : ∀ n ∈ above, IsName n := fun n hm => hn n (List.mem_append_left _ hm)
  have hroot : rootOf current (some d) r.target = .ok (ofNames true above) := by
    rw [rootOf, absolute_of_isAbsolute hd, normalForm_of_components hd hc]
  have hsame : r.target.same (ofNames true above) = false := by
    rw [ht, Bool.eq_false_iff]
    intro hs
    exact hb (List.append_right_eq_self.mp ((same_ofNames hn habove).mp hs))
  have hwithin : r.target.isWithin (ofNames true above) = true := by
    rw [ht, isWithin, components_ofNames hn, components_ofNames habove, List.isPrefixOf_iff_prefix]
    exact ⟨below.map .name, by simp⟩
  exact of_eq_ok_iff.mpr ⟨hname, hv, htarget, hroot, hsame, hwithin, hr⟩

/-- Without a root in the options, the root of the file system is the root. -/
theorem withRoot_nil {target : Path} {options : Options} {ns : List (List TextUnit)}
    (h : Request.of current target options = .ok r) (ho : options.root = none)
    (ht : r.target = ofNames true ns) : r.withRoot [] = r := by
  obtain ⟨-, -, -, hroot, -⟩ := of_eq_ok_iff.mp h
  rw [ho, ht, rootOf] at hroot
  have hr : r.root = ofNames true [] := (Except.ok.inj hroot).symm
  rw [withRoot, ← hr]

theorem places_withRoot (hn : ∀ n ∈ above ++ below, IsName n)
    (ht : r.target = ofNames true (above ++ below)) (hb : below ≠ []) :
    (r.withRoot above).places =
      (directoriesTo above below).map fun d => d.join (ofText r.fileName) := by
  unfold places filesAbove withRoot
  dsimp only
  rw [ht, ancestorsUpTo_ofNames hn hb]

/-! ### The texts behind a root -/

/-- **A farther root does not matter** if the text at a nearer one ends the reading. -/
theorem settings_withRoot {read : Path → Option Text} (hn : ∀ n ∈ above ++ mid ++ below, IsName n)
    (ht : r.target = ofNames true (above ++ mid ++ below)) (hb : below ≠ [])
    (hend : ∀ p, p = (ofNames true (above ++ mid)).join (ofText r.fileName) →
      StoredText.endsReading ⟨p, (read p).getD []⟩ = true) :
    (r.withRoot (above ++ mid)).settings (StoredText.found read (r.withRoot (above ++ mid)).places) =
      (r.withRoot above).settings (StoredText.found read (r.withRoot above).places) := by
  have hnear := places_withRoot hn ht hb
  have hfar : (r.withRoot above).places =
      (directoriesTo above (mid ++ below)).map fun d => d.join (ofText r.fileName) := by
    refine places_withRoot ?_ (by rw [ht, List.append_assoc]) (by simp [hb])
    rwa [← List.append_assoc]
  obtain ⟨n, below, rfl⟩ := List.exists_cons_of_ne_nil hb
  -- The directories of the farther root are those of the nearer one, which end with it, and more.
  have hdirs : directoriesTo above (mid ++ n :: below) =
      directoriesTo (above ++ mid ++ [n]) below ++
        ofNames true (above ++ mid) :: directoriesTo above mid := by
    rw [directoriesTo_append, directoriesTo_cons, List.append_assoc, List.singleton_append]
  have htexts := PlacedDocument.throughRoot_append_endsReading (hend _ rfl)
    (StoredText.found read ((directoriesTo (above ++ mid ++ [n]) below).map
      fun d => d.join (ofText r.fileName)))
    (StoredText.found read ((directoriesTo above mid).map fun d => d.join (ofText r.fileName)))
  rw [hnear, hfar, hdirs, directoriesTo_cons]
  unfold settings StoredText.found at *
  simp only [List.map_append, List.map_cons, List.map_nil] at htexts ⊢
  rw [htexts]
  rfl

end Request

namespace Settings

/-- **A declared root is as good as a given one.** -/
theorem lookUp_root_eq (hc : ∀ d ∈ current, d.isAbsolute = true) {target : Path} {options : Options}
    (ho : options.root = none) (hd : options.fileName ≠ ".".toList)
    (hds : options.fileName ≠ "..".toList) (hr : Request.of current target options = .ok r)
    {d : Path} (habove : d.LiesAbove r.target) {files : List StoredText}
    (hroot : StoredText.RootAt files (d.join (ofText options.fileName))) :
    lookUp (StoredText.lookup files) current target { options with root := some d } =
        lookUp (StoredText.lookup files) current target options ∧
      ∀ e : Path, e.isAbsolute = true → d.isWithin e = true →
        lookUp (StoredText.lookup files) current target { options with root := some d } =
          lookUp (StoredText.lookup files) current target { options with root := some e } := by
  obtain ⟨hname, -, ht, -, -, -, hfile⟩ := Request.of_eq_ok_iff.mp hr
  have hn := Request.isName_ofText hname hd hds
  obtain ⟨ns, hns, htarget⟩ := exists_names_of_absolute hc ht
  have htc : r.target.components = .root :: ns.map .name := by rw [htarget, components_ofNames hns]
  obtain ⟨near, below, rfl, hdc⟩ := exists_append_of_isWithin htc habove.isAbsolute habove.isWithin
  have hbelow : below ≠ [] := by
    rintro rfl
    have hs := habove.not_same
    rw [same, htc, hdc] at hs
    simp at hs
  have hnear : ∀ n ∈ near, IsName n := fun n hm => hns n (List.mem_append_left _ hm)
  have hend : ∀ p, p = (ofNames true near).join (ofText r.fileName) →
      StoredText.endsReading ⟨p, (StoredText.lookup files p).getD []⟩ = true := by
    rintro p rfl
    rw [hfile]
    refine hroot.endsReading ?_
    calc (d.join (ofText options.fileName)).components
        = d.components ++ [.name (ofText options.fileName).units] :=
          components_join_name habove.isAbsolute hn
      _ = (ofNames true near).components ++ [.name (ofText options.fileName).units] := by
          rw [hdc, components_ofNames hnear]
      _ = ((ofNames true near).join (ofText options.fileName)).components :=
          (components_join_name (isAbsolute_ofNames near) hn).symm
  have hfar : ∀ above mid, near = above ++ mid →
      (r.withRoot near).settings
          (StoredText.found (StoredText.lookup files) (r.withRoot near).places) =
        (r.withRoot above).settings
          (StoredText.found (StoredText.lookup files) (r.withRoot above).places) := by
    rintro above mid rfl
    exact Request.settings_withRoot hns htarget hbelow hend
  have hgiven := lookUp_of_ok (Request.of_withRoot hr hns htarget hbelow habove.isAbsolute hdc)
    (StoredText.lookup files)
  refine ⟨?_, fun e he hde => ?_⟩
  · rw [hgiven, lookUp_of_ok hr, hfar [] near rfl, Request.withRoot_nil hr ho htarget]
  · obtain ⟨above, mid, rfl, hec⟩ := exists_append_of_isWithin hdc he hde
    rw [List.append_assoc] at hns htarget
    have hother := Request.of_withRoot hr hns htarget (by simp [hbelow]) he hec
    rw [hgiven, lookUp_of_ok hother, hfar above mid rfl]

/-- Documents in three directories; the middle one declares itself the root, the outermost one has a
fault. -/
def nestedTexts : List StoredText :=
  [⟨ofText "/w/a/b/.editorconfig".toList, "[*]\nx = u\n".toList⟩,
    ⟨ofText "/w/a/.editorconfig".toList, "root = true\n[*]\nx = v\ny = w\n".toList⟩,
    ⟨ofText "/w/.editorconfig".toList, "[*\n".toList⟩]

/-- The request for `/w/a/b/c` with the options that are the default. -/
def nestedRequest : Request :=
  ⟨ofText "/w/a/b/c".toList, ofText ['/'], ".editorconfig".toList, Version.current⟩

theorem lookUp_root_eq_nestedTexts :
    Request.of none (ofText "/w/a/b/c".toList) {} = .ok nestedRequest ∧
      (ofText "/w//a".toList).LiesAbove nestedRequest.target ∧
      StoredText.RootAt nestedTexts ((ofText "/w//a".toList).join (ofText ".editorconfig".toList)) ∧
      lookUp (StoredText.lookup nestedTexts) none (ofText "/w/a/b/c".toList)
          { root := some (ofText "/w//a".toList) } =
        lookUp (StoredText.lookup nestedTexts) none (ofText "/w/a/b/c".toList) {} ∧
      lookUp (StoredText.lookup nestedTexts) none (ofText "/w/a/b/c".toList)
          { root := some (ofText "/w//a".toList) } =
        lookUp (StoredText.lookup nestedTexts) none (ofText "/w/a/b/c".toList)
          { root := some (ofText ['/']) } ∧
      lookUp (StoredText.lookup nestedTexts) none (ofText "/w/a/b/c".toList) {} =
        .ok ⟨[(['x'], .text ['u']), (['y'], .text ['w'])]⟩ := by
  have hr : Request.of none (ofText "/w/a/b/c".toList) {} = .ok nestedRequest := by decide +kernel
  have habove : (ofText "/w//a".toList).LiesAbove nestedRequest.target :=
    ⟨by decide +kernel, by decide +kernel, by decide +kernel⟩
  have hroot : StoredText.RootAt nestedTexts
      ((ofText "/w//a".toList).join (ofText ".editorconfig".toList)) :=
    ⟨"root = true\n[*]\nx = v\ny = w\n".toList,
      ⟨[⟨none, ⟨[("root".toList, "true".toList)]⟩⟩,
        ⟨some ['*'], ⟨[(['x'], ['v']), (['y'], ['w'])]⟩⟩]⟩,
      by decide +kernel, by decide +kernel, by decide +kernel⟩
  have hc : ∀ d ∈ (none : Option Path), d.isAbsolute = true := by simp
  obtain ⟨hnone, hother⟩ :=
    lookUp_root_eq hc rfl (by decide +kernel) (by decide +kernel) hr habove hroot
  exact ⟨hr, habove, hroot, hnone, hother _ (by decide +kernel) (by decide +kernel), by decide +kernel⟩

end Settings

end EditorSettings
