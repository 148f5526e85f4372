import EditorSettings.Lookup.Basic
import EditorSettings.Proofs.Lookup.Requests

/-!
# Texts that are looked up and texts at hand

Settings are looked up by reading a document at every place of a request.  Whoever reads the same
documents first and hands them over, in the same order, gets the same settings or the same failure
(`Settings.lookUp_eq_ofTexts`).  Texts at hand have their paths made absolute once more; the places of a
request are normal already, so the names in faults and the directories of documents stay the same.
-/

namespace EditorSettings

variable {current : Option Path}

namespace StoredText

/-- The texts that a reader finds at some paths; a missing one counts as empty. -/
def found (read : Path → Option Text) (paths : List Path) : List StoredText :=
  paths.map fun p => ⟨p, (read p).getD []⟩

theorem run_gather (read : Path → Option Text) (paths : List Path) :
    Id.run (gather (fun p => pure (read p)) paths) = found read paths := by
  unfold gather found
  rw [List.idRun_mapM]
  rfl

/-- A text with its path in normal form. -/
def normal (f : StoredText) : StoredText := { f with path := f.path.normalForm }

/-- Texts at absolute paths get normal ones. -/
theorem mapM_absolute_of_isAbsolute {texts : List StoredText}
    (h : ∀ f ∈ texts, f.path.isAbsolute = true) :
    texts.mapM (absolute current) = .ok (texts.map normal) := by
  refine mapM_eq_ok fun f hf => ?_
  rw [absolute, Path.absolute_of_isAbsolute (h f hf)]
  rfl

/-- Texts at absolute normal paths stay as they are. -/
theorem mapM_absolute {texts : List StoredText}
    (h : ∀ f ∈ texts, f.path.absolute current = .ok f.path) :
    texts.mapM (absolute current) = .ok texts := by
  have hself : texts.mapM (absolute current) = .ok (texts.map id) := mapM_eq_ok fun f hf => by
    rw [absolute, h f hf]
    rfl
  rwa [List.map_id] at hself

end StoredText

/-- The texts that the documents of a target hold; none if the request is not valid. -/
def Request.textsFor (read : Path → Option Text) (current : Option Path) (target : Path)
    (options : Options) : List StoredText :=
  match Request.of current target options with
  | .ok r => StoredText.found read r.places
  | .error _ => []

namespace Settings

section

variable {target : Path} {options : Options} {r : Request} {failure : Failure}

theorem lookUpWith_of_ok {m : Type → Type} [Monad m] [LawfulMonad m]
    (h : Request.of current target options = .ok r) (read : Path → m (Option Text)) :
    lookUpWith read current target options = r.settings <$> StoredText.gather read r.places := by
  rw [lookUpWith, h]
  exact bind_pure_comp _ _

theorem lookUpWith_of_error {m : Type → Type} [Monad m]
    (h : Request.of current target options = .error failure) (read : Path → m (Option Text)) :
    lookUpWith read current target options = pure (.error failure) := by
  rw [lookUpWith, h]

theorem ofTexts_of_error (h : Request.of current target options = .error failure)
    (texts : List StoredText) : ofTexts current target texts options = .error failure := by
  rw [ofTexts, h]
  rfl

/-- A valid request is answered from texts at absolute paths once their paths are normal. -/
theorem ofTexts_of_ok (h : Request.of current target options = .ok r) {texts : List StoredText}
    (ha : ∀ f ∈ texts, f.path.isAbsolute = true) :
    ofTexts current target texts options = r.settings (texts.map StoredText.normal) := by
  rw [ofTexts, h]
  change (texts.mapM (StoredText.absolute current) >>= fun files => r.settings files) = _
  rw [StoredText.mapM_absolute_of_isAbsolute ha]
  rfl

/-- A valid request is answered from the texts that are found at its places. -/
theorem lookUp_of_ok (h : Request.of current target options = .ok r) (read : Path → Option Text) :
    lookUp read current target options = r.settings (StoredText.found read r.places) := by
  rw [lookUp, lookUpWith_of_ok h, ← StoredText.run_gather]
  rfl

theorem lookUp_of_error (h : Request.of current target options = .error failure)
    (read : Path → Option Text) : lookUp read current target options = .error failure := by
  rw [lookUp, lookUpWith_of_error h]
  rfl

end

/-- **Looking documents up and handing them over is the same.** -/
theorem lookUp_eq_ofTexts (hc : ∀ d ∈ current, d.isAbsolute = true) {options : Options}
    (hd : options.fileName ≠ ".".toList) (hds : options.fileName ≠ "..".toList)
    (read : Path → Option Text) (target : Path) :
    lookUp read current target options =
      ofTexts current target (Request.textsFor read current target options) options := by
  unfold ofTexts Request.textsFor
  cases h : Request.of current target options with
  | error failure =>
    rw [lookUp_of_error h]
    rfl
  | ok r =>
    have hplaces := Request.exists_names_of_mem_places hc hd hds h
    have habs : ∀ f ∈ StoredText.found read r.places, f.path.absolute current = .ok f.path := by
      intro f hf
      obtain ⟨p, hp, rfl⟩ := List.mem_map.mp hf
      obtain ⟨ns, hns, rfl⟩ := hplaces p hp
      exact Path.absolute_ofNames hns current
    rw [lookUp_of_ok h]
    dsimp only
    change _ = (do r.settings (← (StoredText.found read r.places).mapM (StoredText.absolute current)))
    rw [StoredText.mapM_absolute habs]
    rfl

/-- Documents called `.ec` in two directories. -/
def siteTexts : List StoredText :=
  [⟨Path.ofText "/w/.ec".toList, "[*]\nx = 1\n".toList⟩,
    ⟨Path.ofText "/w/a/.ec".toList, "[b/*]\nx = 2\n".toList⟩]

/-- Options with the root `.`. -/
def siteOptions : Options := { fileName := ".ec".toList, root := some (Path.ofText ['.']) }

theorem lookUp_eq_ofTexts_siteTexts :
    (∀ d ∈ some (Path.ofText "/w".toList), d.isAbsolute = true) ∧
      siteOptions.fileName ≠ ".".toList ∧ siteOptions.fileName ≠ "..".toList ∧
      Request.textsFor (StoredText.lookup siteTexts) (some (Path.ofText "/w".toList))
          (Path.ofText "a/./b/c".toList) siteOptions =
        [⟨Path.ofText "/w/a/b/.ec".toList, []⟩,
          ⟨Path.ofText "/w/a/.ec".toList, "[b/*]\nx = 2\n".toList⟩,
          ⟨Path.ofText "/w/.ec".toList, "[*]\nx = 1\n".toList⟩] ∧
      lookUp (StoredText.lookup siteTexts) (some (Path.ofText "/w".toList))
          (Path.ofText "a/./b/c".toList) siteOptions =
        ofTexts (some (Path.ofText "/w".toList)) (Path.ofText "a/./b/c".toList)
          (Request.textsFor (StoredText.lookup siteTexts) (some (Path.ofText "/w".toList))
            (Path.ofText "a/./b/c".toList) siteOptions) siteOptions := by
  have hc : ∀ d ∈ some (Path.ofText "/w".toList), d.isAbsolute = true := by
    rintro d hd
    rw [← Option.mem_some_iff.mp hd]
    decide +kernel
  have hd : siteOptions.fileName ≠ ".".toList := by decide +kernel
  have hds : siteOptions.fileName ≠ "..".toList := by decide +kernel
  exact ⟨hc, hd, hds, by decide +kernel, lookUp_eq_ofTexts hc hd hds _ _⟩

end Settings

end EditorSettings
