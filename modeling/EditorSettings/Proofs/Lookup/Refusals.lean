import EditorSettings.Proofs.Lookup.Gathering
import EditorSettings.Proofs.Path.Normalization

/-!
# Requests that are refused

What is wrong with a target and its options is found before any document is asked for, and of several
faults the first one counts: the name of the documents, the version, a missing current directory, the root
(`Request.of_eq_error_iff`).  All other requests ask for the documents of their places, each once and the
nearest first, whatever is found there (`Settings.lookUpWith_recorded`).
-/

namespace EditorSettings

open EditorSettings.Path

variable {current : Option Path} {target : Path} {options : Options} {failure : Failure}

/-! ### Faults of a request -/

/-- No document can have the name. -/
def Options.NamesNoDocument (options : Options) : Prop := options.fileName = [] ∨ '/' ∈ options.fileName

/-- The version cannot be read. -/
def Options.HasFaultyVersion (options : Options) : Prop :=
  ∃ fault, Version.ofText (Text.trim options.version) = .error fault

/-- A path is relative, and there is no current directory. -/
def Request.LacksDirectory (current : Option Path) (target : Path) (options : Options) : Prop :=
  current = none ∧ (target.isAbsolute = false ∨ ∃ r ∈ options.root, r.isAbsolute = false)

/-- The root does not lie above the target. -/
def Request.RootNotAbove (current : Option Path) (target : Path) (options : Options) : Prop :=
  ∃ t root, target.absolute current = .ok t ∧ rootOf current options.root t = .ok root ∧
    ¬ root.IsAncestor t

/-- Something is wrong with a request. -/
def Request.HasFault (current : Option Path) (target : Path) (options : Options) : Prop :=
  options.NamesNoDocument ∨ options.HasFaultyVersion ∨ LacksDirectory current target options ∨
    RootNotAbove current target options

/-- The failure for the first fault of a request: each case excludes those before it. -/
inductive Request.Refused (current : Option Path) (target : Path) (options : Options) : Failure → Prop
  | fileName (hname : options.NamesNoDocument) :
    Refused current target options (.invalidFileName options.fileName)
  | version (hname : ¬ options.NamesNoDocument) {fault : VersionFault}
    (hversion : Version.ofText (Text.trim options.version) = .error fault) :
    Refused current target options (.invalidVersion options.version fault)
  | noCurrentDirectory (hname : ¬ options.NamesNoDocument) (hversion : ¬ options.HasFaultyVersion)
    (hcurrent : LacksDirectory current target options) :
    Refused current target options .noCurrentDirectory
  | rootNotAbove (hname : ¬ options.NamesNoDocument) (hversion : ¬ options.HasFaultyVersion)
    (hcurrent : ¬ LacksDirectory current target options) {root t : Path}
    (htarget : target.absolute current = .ok t) (hroot : rootOf current options.root t = .ok root)
    (habove : ¬ root.IsAncestor t) :
    Refused current target options (.rootNotAbove root t)

theorem isFileName_iff : Request.isFileName options.fileName = true ↔ ¬ options.NamesNoDocument := by
  simp [Request.isFileName, Options.NamesNoDocument]

theorem Version.read_eq_error_iff {t : Text} :
    Version.read t = .error failure ↔
      ∃ fault, Version.ofText (Text.trim t) = .error fault ∧ failure = .invalidVersion t fault := by
  unfold Version.read
  cases Version.ofText (Text.trim t) <;> simp [eq_comm]

theorem exists_read_eq_ok_iff :
    (∃ v, Version.read options.version = .ok v) ↔ ¬ options.HasFaultyVersion := by
  unfold Version.read Options.HasFaultyVersion
  cases Version.ofText (Text.trim options.version) <;> simp

theorem Path.absolute_eq_error_iff {p : Path} :
    p.absolute current = .error failure ↔
      failure = .noCurrentDirectory ∧ current = none ∧ p.isAbsolute = false := by
  unfold Path.absolute absolute?
  cases p.isAbsolute <;> cases current <;> simp [eq_comm]

theorem Request.rootOf_eq_error_iff {root : Option Path} {t : Path} :
    rootOf current root t = .error failure ↔
      failure = .noCurrentDirectory ∧ current = none ∧ ∃ r ∈ root, r.isAbsolute = false := by
  cases root with
  | none => simp [rootOf]
  | some r => simp [rootOf, Path.absolute_eq_error_iff]

theorem Path.isAncestor_iff {root t : Path} :
    root.IsAncestor t ↔ (t.same root || !t.isWithin root) = false := by
  unfold same isWithin
  rw [Bool.or_eq_false_iff, beq_eq_false_iff_ne, Bool.not_eq_false', List.isPrefixOf_iff_prefix]
  exact ⟨fun h => ⟨h.ne.symm, h.begins⟩, fun h => ⟨h.2, h.1.symm⟩⟩

namespace Request

theorem not_lacksDirectory {t root : Path} (ht : target.absolute current = .ok t)
    (hroot : rootOf current options.root t = .ok root) : ¬ LacksDirectory current target options := by
  rintro ⟨hc, hrelative | hrelative⟩
  · rw [Path.absolute_eq_error_iff.mpr ⟨rfl, hc, hrelative⟩] at ht
    cases ht
  · rw [rootOf_eq_error_iff.mpr ⟨rfl, hc, hrelative⟩] at hroot
    cases hroot

theorem Refused.of_eq_error (h : Refused current target options failure) :
    Request.of current target options = .error failure := by
  rw [of_eq]
  cases h with
  | fileName h => rw [if_neg fun hname => isFileName_iff.mp hname h]
  | version hn h =>
    rw [if_pos (isFileName_iff.mpr hn), Version.read_eq_error_iff.mpr ⟨_, h, rfl⟩]
    rfl
  | noCurrentDirectory hn hv h =>
    obtain ⟨v, hv⟩ := exists_read_eq_ok_iff.mpr hv
    rw [if_pos (isFileName_iff.mpr hn), hv]
    refine bind_eq_error_iff.mpr (Or.inr ⟨v, rfl, bind_eq_error_iff.mpr ?_⟩)
    cases ht : target.absolute current with
    | error f => rw [(Path.absolute_eq_error_iff.mp ht).1]; exact Or.inl rfl
    | ok t =>
      refine Or.inr ⟨t, rfl, bind_eq_error_iff.mpr (Or.inl (rootOf_eq_error_iff.mpr ⟨rfl, h.1, ?_⟩))⟩
      refine h.2.resolve_left fun hrelative => ?_
      rw [Path.absolute_eq_error_iff.mpr ⟨rfl, h.1, hrelative⟩] at ht
      cases ht
  | rootNotAbove hn hv hc ht hroot h =>
    obtain ⟨v, hv⟩ := exists_read_eq_ok_iff.mpr hv
    rw [if_pos (isFileName_iff.mpr hn), hv]
    refine bind_eq_error_iff.mpr (Or.inr ⟨v, rfl, bind_eq_error_iff.mpr (Or.inr ⟨_, ht, ?_⟩)⟩)
    refine bind_eq_error_iff.mpr (Or.inr ⟨_, hroot, if_pos ?_⟩)
    rwa [Path.isAncestor_iff, Bool.not_eq_false] at h

/-- **The failure of a request is its first fault.** -/
theorem of_eq_error_iff :
    Request.of current target options = .error failure ↔ Refused current target options failure := by
  refine ⟨fun h => ?_, Refused.of_eq_error⟩
  -- the parts are looked at in the order of the faults; each part that is right excludes one
  rw [of_eq] at h
  by_cases hn : options.NamesNoDocument
  · rw [if_neg fun hname => isFileName_iff.mp hname hn] at h
    obtain rfl := Except.error.inj h
    exact .fileName hn
  · rw [if_pos (isFileName_iff.mpr hn)] at h
    rcases bind_eq_error_iff.mp h with hv | ⟨v, hv, h⟩
    · obtain ⟨fault, hf, rfl⟩ := Version.read_eq_error_iff.mp hv
      exact .version hn hf
    have hversion := exists_read_eq_ok_iff.mp ⟨v, hv⟩
    rcases bind_eq_error_iff.mp h with ht | ⟨t, ht, h⟩
    · obtain ⟨rfl, hc, hrelative⟩ := Path.absolute_eq_error_iff.mp ht
      exact .noCurrentDirectory hn hversion ⟨hc, Or.inl hrelative⟩
    rcases bind_eq_error_iff.mp h with hroot | ⟨root, hroot, h⟩
    · obtain ⟨rfl, hc, hrelative⟩ := rootOf_eq_error_iff.mp hroot
      exact .noCurrentDirectory hn hversion ⟨hc, Or.inr hrelative⟩
    by_cases habove : (t.same root || !t.isWithin root) = true
    · rw [if_pos habove] at h
      obtain rfl := Except.error.inj h
      refine .rootNotAbove hn hversion (not_lacksDirectory ht hroot) ht hroot ?_
      rw [Path.isAncestor_iff, habove]
      exact Bool.false_ne_true ∘ Eq.symm
    · rw [if_neg habove] at h
      cases h

/-- **A request is refused if and only if it has a fault.** -/
theorem exists_refused_iff :
    (∃ failure, Refused current target options failure) ↔ HasFault current target options := by
  constructor
  · rintro ⟨_, h⟩
    cases h with
    | fileName h => exact Or.inl h
    | version _ h => exact Or.inr (Or.inl ⟨_, h⟩)
    | noCurrentDirectory _ _ h => exact Or.inr (Or.inr (Or.inl h))
    | rootNotAbove _ _ _ ht hroot h => exact Or.inr (Or.inr (Or.inr ⟨_, _, ht, hroot, h⟩))
  · intro h
    by_cases hn : options.NamesNoDocument
    · exact ⟨_, .fileName hn⟩
    by_cases hv : options.HasFaultyVersion
    · obtain ⟨fault, hf⟩ := hv
      exact ⟨_, .version hn hf⟩
    by_cases hc : LacksDirectory current target options
    · exact ⟨_, .noCurrentDirectory hn hv hc⟩
    obtain ⟨t, root, ht, hroot, habove⟩ := ((h.resolve_left hn).resolve_left hv).resolve_left hc
    exact ⟨_, .rootNotAbove hn hv hc ht hroot habove⟩

/-! ### Places that are asked for -/

/-- The places of a request are the files of its name in the directories above its target through its
root, the nearest first, and no two of them are the same path. -/
structure AsksNearestFirst (r : Request) : Prop where
  places_eq : r.places = (ancestorsUpTo r.root r.target).map fun d => d.join (ofText r.fileName)
  nearest_first : (ancestorsUpTo r.root r.target).Pairwise fun d e => e.IsAncestor d
  distinct : r.places.Pairwise fun p q => p.same q = false

theorem here_not_mem_target {r : Request} (h : Request.of current target options = .ok r) :
    .here ∉ r.target.components := by
  obtain ⟨-, -, ht, -⟩ := of_eq_ok_iff.mp h
  obtain ⟨p, hp, -⟩ := Path.exists_normalForm_of_absolute ht
  rw [hp]
  exact here_not_mem_normalForm p

/-- **A request asks for every document once, the nearest first.** -/
theorem asksNearestFirst {r : Request} (h : Request.of current target options = .ok r) :
    r.AsksNearestFirst where
  places_eq := rfl
  nearest_first := (pairwise_ancestors r.target).sublist (throughFirst_sublist _ _)
  distinct := by
    obtain ⟨hname, -, -, -, -, -, hfile⟩ := of_eq_ok_iff.mp h
    have hslash : '/' ∉ r.fileName := by
      rw [hfile]
      simp only [isFileName, Bool.and_eq_true, Bool.not_eq_true'] at hname
      simpa using hname.2
    exact pairwise_filesAbove (here_not_mem_target h) hslash r.root

end Request

/-! ### Readers that keep a record -/

section

variable {m : Type → Type} [Monad m]

/-- A reader that keeps a record of the paths it is asked for. -/
def recorded (read : Path → m (Option Text)) (p : Path) : StateT (List Path) m (Option Text) := do
  modify fun asked => asked ++ [p]
  read p

variable [LawfulMonad m]

theorem run_recorded (read : Path → m (Option Text)) (p : Path) (asked : List Path) :
    (recorded read p).run asked = (fun contents => (contents, asked ++ [p])) <$> read p := by
  simp [recorded]

theorem StoredText.gather_cons (read : Path → m (Option Text)) (p : Path) (ps : List Path) :
    gather read (p :: ps) = read p >>= fun contents =>
      (fun texts => ⟨p, contents.getD []⟩ :: texts) <$> gather read ps := by
  unfold gather
  rw [List.mapM_cons, bind_assoc]
  simp only [pure_bind, map_eq_pure_bind]

/-- All paths are asked for, in order. -/
theorem StoredText.run_gather_recorded (read : Path → m (Option Text)) (paths : List Path) :
    ∀ asked : List Path, (gather (recorded read) paths).run asked =
      (fun texts => (texts, asked ++ paths)) <$> gather read paths := by
  induction paths with
  | nil => intro asked; simp [gather]
  | cons p ps ih =>
    intro asked
    simp [gather_cons, run_recorded, ih]

end

namespace Settings

/-- **What a look-up asks for.**  With a fault, it fails with the failure for the first one and asks for
nothing, and so do texts at hand.  Without a fault, it asks for the places of the request, each once and
the nearest first; the list does not depend on the reader or on what it finds. -/
theorem lookUpWith_recorded (current : Option Path) (target : Path) (options : Options) :
    (Request.HasFault current target options →
      ∃ failure, Request.Refused current target options failure ∧
        (∀ (m : Type → Type) [Monad m] [LawfulMonad m] (read : Path → m (Option Text))
          (asked : List Path), (lookUpWith (recorded read) current target options).run asked =
            pure (.error failure, asked)) ∧
        ∀ texts, ofTexts current target texts options = .error failure) ∧
    (¬ Request.HasFault current target options →
      ∃ r, Request.of current target options = .ok r ∧ r.AsksNearestFirst ∧
        ∀ (m : Type → Type) [Monad m] [LawfulMonad m] (read : Path → m (Option Text))
          (asked : List Path), (lookUpWith (recorded read) current target options).run asked =
            (fun result => (result, asked ++ r.places)) <$> lookUpWith read current target options) := by
  constructor
  · intro h
    obtain ⟨failure, hf⟩ := Request.exists_refused_iff.mpr h
    have hof := Request.of_eq_error_iff.mpr hf
    refine ⟨failure, hf, fun m _ _ read asked => ?_, ofTexts_of_error hof⟩
    rw [lookUpWith_of_error hof, StateT.run_pure]
  · intro h
    cases hof : Request.of current target options with
    | error failure =>
      exact absurd (Request.exists_refused_iff.mp ⟨failure, Request.of_eq_error_iff.mp hof⟩) h
    | ok r =>
      refine ⟨r, rfl, Request.asksNearestFirst hof, fun m _ _ read asked => ?_⟩
      rw [lookUpWith_of_ok hof, lookUpWith_of_ok hof, StateT.run_map,
        StoredText.run_gather_recorded, Functor.map_map, Functor.map_map]

/-- A reader of `siteTexts`. -/
def siteReader (p : Path) : Id (Option Text) := StoredText.lookup siteTexts p

/-- A relative target. -/
def siteTarget : Path := ofText "a/b/c".toList

theorem lookUpWith_recorded_siteTexts :
    Request.HasFault none siteTarget siteOptions ∧
      Id.run ((lookUpWith (recorded siteReader) none siteTarget siteOptions).run []) =
        (.error .noCurrentDirectory, []) ∧
      ¬ Request.HasFault (some (ofText "/w".toList)) siteTarget siteOptions ∧
      (Id.run ((lookUpWith (recorded siteReader) (some (ofText "/w".toList)) siteTarget
        siteOptions).run [])).2 =
        [ofText "/w/a/b/.ec".toList, ofText "/w/a/.ec".toList, ofText "/w/.ec".toList] := by
  have hfault : Request.HasFault none siteTarget siteOptions :=
    Or.inr (Or.inr (Or.inl ⟨rfl, Or.inl (by decide +kernel)⟩))
  have hnone : Request.of none siteTarget siteOptions = .error .noCurrentDirectory := by
    decide +kernel
  have hplaces : (Request.of (some (ofText "/w".toList)) siteTarget siteOptions).toOption.map
      Request.places = some [ofText "/w/a/b/.ec".toList, ofText "/w/a/.ec".toList,
        ofText "/w/.ec".toList] := by decide +kernel
  have hvalid : ¬ Request.HasFault (some (ofText "/w".toList)) siteTarget siteOptions := by
    intro h
    obtain ⟨failure, hf⟩ := Request.exists_refused_iff.mpr h
    rw [Request.of_eq_error_iff.mpr hf] at hplaces
    cases hplaces
  obtain ⟨failure, hf, hrun, -⟩ := (lookUpWith_recorded _ _ _).1 hfault
  obtain ⟨r, hr, -, hasked⟩ := (lookUpWith_recorded _ _ _).2 hvalid
  refine ⟨hfault, ?_, hvalid, ?_⟩
  · have hof := Request.of_eq_error_iff.mpr hf
    rw [hnone] at hof
    rw [hrun Id siteReader [], Except.error.inj hof]
    rfl
  · rw [hr] at hplaces
    rw [hasked Id siteReader []]
    exact Option.some.inj hplaces

end Settings

end EditorSettings
