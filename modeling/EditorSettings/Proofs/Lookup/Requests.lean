import EditorSettings.Lookup.Request
import EditorSettings.Proofs.Lookup.Steps
import EditorSettings.Proofs.Path.Normalization

/-!
# Valid requests

A request is made if and only if its parts are valid (`Request.of_eq_ok_iff`).  Seen from a current
directory that is absolute, paths become normal (`Path.exists_names_of_absolute`), and normal paths stay
as they are (`Path.absolute_ofNames`).  So the target and the root of a request are normal, and so are all
places at which documents are looked up (`Request.exists_names_of_mem_places`), as long as documents are
not called `.` or `..`.
-/

namespace EditorSettings

open EditorSettings.Path

/-! ### Absolute paths -/

variable {current : Option Path}

theorem Path.isAbsolute_join {p q : Path} (h : p.isAbsolute = true) : (p.join q).isAbsolute = true := by
  obtain ⟨us⟩ := p
  unfold join
  split_ifs with hq hs
  · exact hq
  all_goals
    cases us with
    | nil => simp [isAbsolute] at h
    | cons u us => simpa [isAbsolute] using h

theorem Path.absolute_of_isAbsolute {p : Path} (h : p.isAbsolute = true) (current : Option Path) :
    p.absolute current = .ok p.normalForm := by
  rw [Path.absolute, absolute?, if_pos h]

theorem Path.absolute_ofNames {ns : List (List TextUnit)} (h : ∀ n ∈ ns, IsName n)
    (current : Option Path) : (ofNames true ns).absolute current = .ok (ofNames true ns) := by
  rw [Path.absolute_of_isAbsolute (isAbsolute_ofNames ns), normalForm_ofNames h]

/-- Absolute forms are normal forms, and of absolute paths if the current directory is absolute. -/
theorem Path.exists_normalForm_of_absolute {p q : Path} (h : p.absolute current = .ok q) :
    ∃ p' : Path, q = p'.normalForm ∧
      ((∀ d ∈ current, d.isAbsolute = true) → p'.isAbsolute = true) := by
  by_cases ha : p.isAbsolute = true
  · rw [Path.absolute_of_isAbsolute ha] at h
    exact ⟨p, (Except.ok.inj h).symm, fun _ => ha⟩
  · cases current with
    | none =>
      rw [Path.absolute, absolute?, if_neg ha] at h
      cases h
    | some d =>
      rw [Path.absolute, absolute?, if_neg ha] at h
      exact ⟨d.join p, (Except.ok.inj h).symm, fun hc => Path.isAbsolute_join (hc d rfl)⟩

/-- **Absolute forms are paths of names**, if the current directory is absolute. -/
theorem Path.exists_names_of_absolute {p q : Path} (hc : ∀ d ∈ current, d.isAbsolute = true)
    (h : p.absolute current = .ok q) : ∃ ns, (∀ n ∈ ns, IsName n) ∧ q = ofNames true ns := by
  obtain ⟨p', rfl, ha⟩ := Path.exists_normalForm_of_absolute h
  exact exists_names_of_normalForm (ha hc)

namespace Request

/-! ### Parts of a request -/

/-- The parts of a request in the order in which they are looked at. -/
theorem of_eq (current : Option Path) (target : Path) (options : Options) :
    Request.of current target options =
      if isFileName options.fileName then
        Version.read options.version >>= fun version =>
          target.absolute current >>= fun t =>
            rootOf current options.root t >>= fun root =>
              if t.same root || !t.isWithin root then .error (.rootNotAbove root t)
              else .ok ⟨t, root, options.fileName, version⟩
      else .error (.invalidFileName options.fileName) := by
  unfold Request.of
  cases isFileName options.fileName <;> rfl

/-- **Which requests are made.** -/
theorem of_eq_ok_iff {target : Path} {options : Options} {r : Request} :
    Request.of current target options = .ok r ↔
      isFileName options.fileName = true ∧ Version.read options.version = .ok r.version ∧
        target.absolute current = .ok r.target ∧ rootOf current options.root r.target = .ok r.root ∧
        r.target.same r.root = false ∧ r.target.isWithin r.root = true ∧
        r.fileName = options.fileName := by
  rw [of_eq]
  constructor
  · intro h
    by_cases hname : isFileName options.fileName = true
    · rw [if_pos hname] at h
      obtain ⟨version, hv, h⟩ := bind_eq_ok_iff.mp h
      obtain ⟨t, ht, h⟩ := bind_eq_ok_iff.mp h
      obtain ⟨root, hroot, h⟩ := bind_eq_ok_iff.mp h
      by_cases hnot : (t.same root || !t.isWithin root) = true
      · rw [if_pos hnot] at h
        cases h
      · rw [if_neg hnot] at h
        obtain rfl := Except.ok.inj h
        have habove : t.same root = false ∧ t.isWithin root = true := by simpa using hnot
        exact ⟨hname, hv, ht, hroot, habove.1, habove.2, rfl⟩
    · rw [if_neg hname] at h
      cases h
  · rintro ⟨hname, hv, ht, hroot, hsame, hwithin, hfile⟩
    have hnot : ¬ (r.target.same r.root || !r.target.isWithin r.root) = true := by
      simp [hsame, hwithin]
    rw [if_pos hname]
    refine bind_eq_ok_iff.mpr ⟨r.version, hv, ?_⟩
    refine bind_eq_ok_iff.mpr ⟨r.target, ht, ?_⟩
    refine bind_eq_ok_iff.mpr ⟨r.root, hroot, ?_⟩
    rw [if_neg hnot, ← hfile]

/-! ### Places of documents -/

theorem isName_ofText {name : Text} (h : isFileName name = true) (hd : name ≠ ".".toList)
    (hds : name ≠ "..".toList) : IsName (ofText name).units := by
  have hinj : ∀ t : Text, (ofText name).units = t.map TextUnit.char → name = t := fun t ht =>
    List.map_injective_iff.mpr (fun a b hab => by simpa using hab) ht
  have h' : name ≠ [] ∧ '/' ∉ name := by simpa [isFileName] using h
  exact ⟨fun hn => h'.1 (hinj [] hn), fun hn => hd (hinj ['.'] hn), fun hn => hds (hinj ['.', '.'] hn),
    slash_not_mem_ofText h'.2⟩

section

variable {target : Path} {options : Options} {r : Request}

/-- The directories above the target of a request consist of names. -/
theorem exists_names_of_mem_directories (h : Request.of current target options = .ok r) {d : Path}
    (hd : d ∈ ancestorsUpTo r.root r.target) :
    ∃ ns, (∀ n ∈ ns, IsName n) ∧ d = ofNames r.target.isAbsolute ns := by
  obtain ⟨-, -, ht, -⟩ := of_eq_ok_iff.mp h
  obtain ⟨p, hp, -⟩ := Path.exists_normalForm_of_absolute ht
  have hmem := (throughFirst_sublist _ _).subset hd
  rw [hp, normalForm] at hmem
  rw [hp, isAbsolute_normalForm]
  exact exists_names_of_mem_ancestors (fun n hn => isName_of_mem_normalNames hn) hmem

/-- **The places of documents are normal paths.** -/
theorem exists_names_of_mem_places (hc : ∀ d ∈ current, d.isAbsolute = true)
    (hd : options.fileName ≠ ".".toList) (hds : options.fileName ≠ "..".toList)
    (h : Request.of current target options = .ok r) :
    ∀ p ∈ r.places, ∃ ns, (∀ n ∈ ns, IsName n) ∧ p = ofNames true ns := by
  obtain ⟨hname, -, ht, -, -, -, hr⟩ := of_eq_ok_iff.mp h
  obtain ⟨ns, -, htarget⟩ := exists_names_of_absolute hc ht
  have hn : IsName (ofText options.fileName).units := isName_ofText hname hd hds
  intro p hp
  obtain ⟨d, hmem, rfl⟩ := List.mem_map.mp hp
  obtain ⟨ms, hms, rfl⟩ := exists_names_of_mem_directories h hmem
  rw [htarget, isAbsolute_ofNames, hr]
  refine ⟨ms ++ [(ofText options.fileName).units], fun m hm => ?_, join_ofNames hms hn.slash_not_mem⟩
  rcases List.mem_append.mp hm with hm | hm
  · exact hms m hm
  · rwa [List.mem_singleton.mp hm]

end

end Request

end EditorSettings
