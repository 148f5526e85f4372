import EditorSettings.Proofs.CommandLine.Isolation
import EditorSettings.Proofs.Text

/-!
# Targets from the standard input

With a single hyphen for its target a command line takes the targets from the standard input.  Options are
read before any target, and alike whatever follows them (`Arguments.AreOptions.readFrom_append`); the lines of
the input give back the targets that they hold (`Report.HoldTargets.targetsOf_intercalate`).  So it makes no
difference whether targets are arguments or lines of the input (`Report.ofCommandLine_input`).
-/

namespace EditorSettings

namespace Arguments

/-! ### Options before targets -/

/-- The options that take the next argument as their value. -/
def valueMarks : List Text := ["-f".toList, "-b".toList, "--root".toList]

/-- **An option in one argument**, or what looks like one, that does not ask for the version. -/
structure IsAlone (t : Text) : Prop where
  isOptionLike : isOptionLike t = true
  ne_separator : t ≠ "--".toList
  ne_version : t ≠ "--version".toList ∧ ¬ "-v".toList <+: t
  not_mem : t ∉ valueMarks

/-- **Arguments that are options**, accepted or not, none of which asks for the version. -/
inductive AreOptions : List Text → Prop
  /-- No options. -/
  | nil : AreOptions []
  /-- An option in one argument. -/
  | alone {t : Text} {ts : List Text} (ht : IsAlone t) (h : AreOptions ts) : AreOptions (t :: ts)
  /-- An option with its value in the next argument. -/
  | valued {t v : Text} {ts : List Text} (ht : t ∈ valueMarks) (h : AreOptions ts) : AreOptions (t :: v :: ts)

/-- The targets and the question for the version are left as they are. -/
structure KeepsTargets (a b : Arguments) : Prop where
  targets_eq : b.targets = a.targets
  showVersion_eq : b.showVersion = a.showVersion

variable {a b : Arguments}

theorem KeepsTargets.trans {c : Arguments} (h : a.KeepsTargets b) (h' : b.KeepsTargets c) :
    a.KeepsTargets c :=
  ⟨h'.targets_eq.trans h.targets_eq, h'.showVersion_eq.trans h.showVersion_eq⟩

theorem eq_of_ite_error {c : Prop} [Decidable c] {e : Stop}
    (h : (if c then .error e else .ok a : Except Stop Arguments) = .ok b) : a = b := by
  split_ifs at h
  exact Except.ok.inj h

theorem keepsTargets_askJson (h : a.askJson = .ok b) : a.KeepsTargets b := by
  obtain rfl := eq_of_ite_error h
  exact ⟨rfl, rfl⟩

theorem keepsTargets_give {value : Text} {o : ValueOption} (h : a.give value o = .ok b) :
    a.KeepsTargets b := by
  cases o with
  | fileName =>
    obtain rfl := eq_of_ite_error h
    exact ⟨rfl, rfl⟩
  | version =>
    obtain rfl := eq_of_ite_error h
    exact ⟨rfl, rfl⟩
  | root =>
    obtain rfl := eq_of_ite_error h
    exact ⟨rfl, rfl⟩

theorem map_pair_eq_ok {x : Except Stop Arguments} {pending : Option ValueOption}
    (h : (x.map fun a => (a, none)) = .ok (b, pending)) : x = .ok b ∧ pending = none := by
  cases x with
  | error e => cases h
  | ok c =>
    obtain ⟨rfl, rfl⟩ := Prod.mk.inj (Except.ok.inj h)
    exact ⟨rfl, rfl⟩

theorem readLong_of_isAlone {name : Text} {pending : Option ValueOption}
    (ht : IsAlone ('-' :: '-' :: name)) (h : a.readLong name = .ok (b, pending)) :
    pending = none ∧ a.KeepsTargets b := by
  have hname := List.takeWhile_append_dropWhile (p := (· != '=')) (l := name)
  unfold readLong at h
  rcases hdrop : name.dropWhile (· != '=') with _ | ⟨c, value⟩
  · rw [hdrop, List.append_nil] at hname
    rw [hdrop, hname] at h
    dsimp only at h
    split_ifs at h with hversion hjson _ hroot
    · subst hversion
      exact absurd rfl ht.ne_version.1
    · obtain ⟨hjson, rfl⟩ := map_pair_eq_ok h
      exact ⟨rfl, keepsTargets_askJson hjson⟩
    · subst hroot
      exact absurd (by decide) ht.not_mem
  · rw [hdrop] at h
    dsimp only at h
    split_ifs at h
    obtain ⟨hgive, rfl⟩ := map_pair_eq_ok h
    exact ⟨rfl, keepsTargets_give hgive⟩

theorem shortValue_of_ne_nil {o : ValueOption} {rest : Text} {pending : Option ValueOption} (hne : rest ≠ [])
    (h : a.shortValue o rest = .ok (b, pending)) : pending = none ∧ a.KeepsTargets b := by
  rw [shortValue, if_neg hne] at h
  obtain ⟨hgive, rfl⟩ := map_pair_eq_ok h
  exact ⟨rfl, keepsTargets_give hgive⟩

theorem readCluster_of_isAlone {c : Char} {cluster : Text} {pending : Option ValueOption}
    (ht : IsAlone ('-' :: c :: cluster)) (h : a.readCluster (c :: cluster) = .ok (b, pending)) :
    pending = none ∧ a.KeepsTargets b := by
  have hne {d : Char} (hd : ['-', d] ∈ valueMarks) (hc : c = d) : cluster ≠ [] := by
    rintro rfl
    exact ht.not_mem (hc ▸ hd)
  rw [readCluster] at h
  split_ifs at h with hv _ hf hb
  · subst hv
    exact absurd (List.prefix_append ['-', 'v'] cluster) ht.ne_version.2
  · exact shortValue_of_ne_nil (hne (by decide) hf) h
  · exact shortValue_of_ne_nil (hne (by decide) hb) h

/-- **An option in one argument** waits for no value and adds no target. -/
theorem readOne_of_isAlone {t : Text} {pending : Option ValueOption} (ht : IsAlone t)
    (h : a.readOne t = .ok (b, pending)) : pending = none ∧ a.KeepsTargets b := by
  unfold readOne at h
  split at h
  · exact readLong_of_isAlone ht h
  · exact readCluster_of_isAlone ht h
  · next hlong hshort =>
    have hlike := ht.isOptionLike
    unfold isOptionLike at hlike
    split at hlike
    · next c cluster => exact absurd rfl (hshort c cluster)
    · cases hlike

/-- An option that takes the next argument waits for it. -/
theorem exists_readOne_of_mem {t : Text} (ht : t ∈ valueMarks) (a : Arguments) :
    t ≠ "--".toList ∧ ∃ o, a.readOne t = .ok (a, some o) := by
  simp only [valueMarks, List.mem_cons, List.not_mem_nil, or_false] at ht
  rcases ht with rfl | rfl | rfl
  · exact ⟨by decide, .fileName, rfl⟩
  · exact ⟨by decide, .version, rfl⟩
  · exact ⟨by decide, .root, rfl⟩

/-- **Options are read alike whatever follows them**: they are refused, or add no target. -/
theorem AreOptions.readFrom_append {opts : List Text} (h : AreOptions opts) : ∀ a : Arguments,
    (∃ e, ∀ rest, a.readFrom none (opts ++ rest) = .error e) ∨
      ∃ b, a.KeepsTargets b ∧ ∀ rest, a.readFrom none (opts ++ rest) = b.readFrom none rest := by
  induction h with
  | nil => exact fun a => .inr ⟨a, ⟨rfl, rfl⟩, fun rest => rfl⟩
  | @alone t ts ht _ ih =>
    intro a
    have hstep (rest : List Text) : a.readFrom none (t :: ts ++ rest) =
        a.readOne t >>= fun p => p.1.readFrom p.2 (ts ++ rest) := by
      rw [List.cons_append, readFrom]
      exact if_neg ht.ne_separator
    cases hone : a.readOne t with
    | error e => exact .inl ⟨e, fun rest => by rw [hstep, hone]; rfl⟩
    | ok p =>
      obtain ⟨b, pending⟩ := p
      obtain ⟨rfl, hb⟩ := readOne_of_isAlone ht hone
      have hrest (rest : List Text) : a.readFrom none (t :: ts ++ rest) = b.readFrom none (ts ++ rest) := by
        rw [hstep, hone]
        rfl
      simp only [hrest]
      exact (ih b).imp_right fun ⟨c, hc, h⟩ => ⟨c, hb.trans hc, h⟩
  | @valued t v ts ht _ ih =>
    intro a
    obtain ⟨hne, o, hone⟩ := exists_readOne_of_mem ht a
    have hstep (rest : List Text) : a.readFrom none (t :: v :: ts ++ rest) =
        if isOptionLike v then .error .usage else a.give v o >>= fun b => b.readFrom none (ts ++ rest) := by
      rw [List.cons_append, readFrom, if_neg hne, hone]
      rfl
    simp only [hstep]
    split_ifs
    · exact .inl ⟨.usage, fun _ => rfl⟩
    · cases hgive : a.give v o with
      | error e => exact .inl ⟨e, fun _ => rfl⟩
      | ok b =>
        exact (ih b).imp_right fun ⟨c, hc, h⟩ => ⟨c, (keepsTargets_give hgive).trans hc, h⟩

/-- Command lines of options with targets behind them. -/
theorem AreOptions.read_append {opts : List Text} (h : AreOptions opts) :
    (∃ e, readFrom {} none opts = .error e ∧ ∀ rest, read (opts ++ rest) = .error e) ∨
      ∃ a : Arguments, readFrom {} none opts = .ok a ∧ a.showVersion = false ∧
        read (opts ++ [['-']]) = .ok { a with targets := [['-']] } ∧
        ∀ targets, targets ≠ [] → read (opts ++ "--".toList :: targets) = .ok { a with targets := targets } := by
  rcases h.readFrom_append {} with ⟨e, he⟩ | ⟨a, ha, hrest⟩
  · refine .inl ⟨e, by simpa using he [], fun rest => ?_⟩
    rw [read, he]
    rfl
  · have htargets : a.targets = [] := ha.targets_eq
    refine .inr ⟨a, ?_, ha.showVersion_eq, ?_, fun targets hne => ?_⟩
    · simpa [readFrom] using hrest []
    · have hread : a.readFrom none [['-']] = .ok { a with targets := [['-']] } := by
        have hadd : a.addTarget ['-'] = { a with targets := [['-']] } := by rw [addTarget, htargets]; rfl
        rw [← hadd]
        rfl
      rw [read, hrest, hread]
      rfl
    · have hread : a.readFrom none ("--".toList :: targets) = .ok { a with targets := targets } := by
        rw [readFrom, if_pos rfl, htargets, List.nil_append]
      have hsome : ¬ (targets = [] ∧ (!a.showVersion) = true) := fun hnil => hne hnil.1
      rw [read, hrest, hread]
      exact if_neg hsome

end Arguments

/-! ### Targets on lines -/

namespace Text

/-- A text of blanks without a line end. -/
def IsPadding (t : Text) : Prop := ∀ c ∈ t, isBlank c = true ∧ c ≠ '\n'

/-- Blanks around a trimmed text are trimmed. -/
theorem trim_append_append {u t v : Text} (hu : ∀ c ∈ u, isBlank c = true) (hne : t ≠ []) (ht : trim t = t)
    (hv : ∀ c ∈ v, isBlank c = true) : trim (u ++ (t ++ v)) = t := by
  obtain ⟨hhead, hlast⟩ := trim_eq_self_iff.mp ht
  have hstart : trimStart (u ++ (t ++ v)) = t ++ v := by
    have hself : trimStart (t ++ v) = t ++ v := by
      rwa [trimStart_eq_self_iff, List.head?_append_of_ne_nil _ hne]
    rw [trimStart, List.dropWhile_append_of_pos hu]
    exact hself
  have hend : trimEnd (t ++ v) = trimEnd t := by
    rw [trimEnd, List.reverse_append, List.dropWhile_append_of_pos]
    · rfl
    · exact fun c hc => hv c (List.mem_reverse.mp hc)
  rw [trim, hstart, hend, trimEnd_eq_self_iff.mpr hlast]

end Text

namespace Report

open Text (IsPadding)

/-- **Lines that hold targets**, one each, with any blanks around them and any blank lines between them. -/
inductive HoldTargets : List Text → List Text → Prop
  /-- No lines. -/
  | nil : HoldTargets [] []
  /-- A blank line. -/
  | blank {l : Text} {ls ts : List Text} (hl : IsPadding l) (h : HoldTargets ls ts) : HoldTargets (l :: ls) ts
  /-- A line with a target. -/
  | target {u t v : Text} {ls ts : List Text} (hu : IsPadding u) (hv : IsPadding v) (h : HoldTargets ls ts) :
    HoldTargets ((u ++ (t ++ v)) :: ls) (t :: ts)

/-- **A target that fits on a line**: it is neither empty nor broken, and no blank stands at its ends. -/
structure FitsLine (t : Text) : Prop where
  ne_nil : t ≠ []
  trim_eq : t.trim = t
  lineFeed : '\n' ∉ t

namespace HoldTargets

variable {lines targets : List Text}

theorem filter_trim (h : HoldTargets lines targets) (hfit : ∀ t ∈ targets, FitsLine t) :
    (lines.map Text.trim).filter (fun t => t ≠ []) = targets := by
  induction h with
  | nil => rfl
  | @blank l ls ts hl _ ih =>
    have hnil : l.trim = [] := Text.trim_eq_nil_iff.mpr fun c hc => (hl c hc).1
    rw [List.map_cons, hnil, List.filter_cons_of_neg (by simp), ih hfit]
  | @target u t v ls ts hu hv _ ih =>
    rw [List.forall_mem_cons] at hfit
    obtain ⟨ht, hts⟩ := hfit
    have htrim := Text.trim_append_append (fun c hc => (hu c hc).1) ht.ne_nil ht.trim_eq
      fun c hc => (hv c hc).1
    rw [List.map_cons, htrim, List.filter_cons_of_pos (by simpa using ht.ne_nil), ih hts]

theorem lineFeed_not_mem (h : HoldTargets lines targets) (hfit : ∀ t ∈ targets, FitsLine t) :
    ∀ l ∈ lines, '\n' ∉ l := by
  have hpadding {u : Text} (hu : IsPadding u) : '\n' ∉ u := fun hm => (hu '\n' hm).2 rfl
  induction h with
  | nil => exact fun l hl => absurd hl List.not_mem_nil
  | blank hl _ ih => exact List.forall_mem_cons.mpr ⟨hpadding hl, ih hfit⟩
  | target hu hv _ ih =>
    rw [List.forall_mem_cons] at hfit
    refine List.forall_mem_cons.mpr ⟨?_, ih hfit.2⟩
    simp only [List.mem_append, not_or]
    exact ⟨hpadding hu, hfit.1.lineFeed, hpadding hv⟩

/-- **The lines of the input give back the targets that they hold.** -/
theorem targetsOf_intercalate (h : HoldTargets lines targets) (hfit : ∀ t ∈ targets, FitsLine t)
    (hne : targets ≠ []) : targetsOf (['\n'].intercalate lines) = targets := by
  have hlines : lines ≠ [] := by
    rintro rfl
    cases h
    exact hne rfl
  rw [targetsOf, pieces_intercalate hlines (h.lineFeed_not_mem hfit), h.filter_trim hfit]

end HoldTargets

/-! ### Command lines -/

/-- What a command line leads to on a tree of files: a report, unless the reading of the arguments ends early. -/
def ofCommandLine (read : Path → Option Text) (current : Option Path) (reasons : Reasons) (args : List Text)
    (input : Text) : Except Stop Report :=
  (Arguments.read args).map fun a => onTree read current reasons a input

/-- Only the targets of a run depend on the input and on the targets among the arguments. -/
theorem onTree_congr {a b : Arguments} {input input' : Text} (hv : b.showVersion = a.showVersion)
    (ho : b.options = a.options) (hj : b.json = a.json) (ht : targets b input' = targets a input)
    (read : Path → Option Text) (current : Option Path) (reasons : Reasons) :
    onTree read current reasons b input' = onTree read current reasons a input := by
  unfold onTree run
  rw [hv, ho, hj, ht]

/-- **Targets on lines of the input are targets among the arguments.**  Behind the same options, a single
hyphen with an input whose lines hold some targets leads to what these targets lead to as arguments: the
options are refused alike, or both report the targets. -/
theorem ofCommandLine_input {opts lines targets : List Text} (ho : Arguments.AreOptions opts)
    (hne : targets ≠ []) (hfit : ∀ t ∈ targets, FitsLine t) (hd : targets ≠ [['-']])
    (hl : HoldTargets lines targets) (read : Path → Option Text) (current : Option Path) (reasons : Reasons)
    (unread : Text) :
    ofCommandLine read current reasons (opts ++ [['-']]) (['\n'].intercalate lines) =
        ofCommandLine read current reasons (opts ++ "--".toList :: targets) unread ∧
      ∀ a, Arguments.readFrom {} none opts = .ok a →
        ∃ r, ofCommandLine read current reasons (opts ++ [['-']]) (['\n'].intercalate lines) = .ok r ∧
          r.Reports reasons a.json (a.found read current) targets := by
  unfold ofCommandLine
  rcases ho.read_append with ⟨e, hopts, he⟩ | ⟨a, ha, hv, hhyphen, hargs⟩
  · refine ⟨by rw [he, he]; rfl, fun a ha => ?_⟩
    rw [hopts] at ha
    cases ha
  · have hinput : Report.targets { a with targets := [['-']] } (['\n'].intercalate lines) =
        Report.targets { a with targets := targets } unread := by
      have hreads : Arguments.readsInput { a with targets := [['-']] } = true := by
        rw [Arguments.readsInput, hv]
        rfl
      have hreads' : Arguments.readsInput { a with targets := targets } = false := by
        rw [Arguments.readsInput, beq_eq_false_iff_ne.mpr hd, Bool.and_false]
      unfold Report.targets
      rw [hreads, hreads', if_pos rfl, hl.targetsOf_intercalate hfit hne]
      rfl
    have hrun := onTree_congr (a := { a with targets := targets }) (b := { a with targets := [['-']] })
      rfl rfl rfl hinput read current reasons
    rw [hhyphen, hargs targets hne]
    refine ⟨congrArg Except.ok hrun, fun b hb => ?_⟩
    obtain rfl := Except.ok.inj (ha.symm.trans hb)
    refine ⟨_, congrArg Except.ok hrun, ?_⟩
    exact reports_onTree (a := { a with targets := targets }) hv hd read current reasons unread

/-- The options `-f .ec --json`. -/
def jsonOptions : List Text := ["-f".toList, ".ec".toList, "--json".toList]

/-- Four targets, one of which is a hyphen. -/
def spacedTargets : List Text := ["/w/a".toList, ['-'], "/v/a".toList, "/u/a".toList]

/-- Lines that hold them, with a carriage return and a tab at the ends of some and no line end at the last. -/
def spacedLines : List Text :=
  [['\r'], "\t/w/a\r".toList, [], "\u3000-".toList, "/v/a".toList, "/u/a".toList]

theorem ofCommandLine_input_spacedLines :
    Arguments.AreOptions jsonOptions ∧ spacedTargets ≠ [] ∧ (∀ t ∈ spacedTargets, FitsLine t) ∧
      spacedTargets ≠ [['-']] ∧ HoldTargets spacedLines spacedTargets ∧
      ∃ r, ofCommandLine (StoredText.lookup mixedTexts) (some (Path.ofText "/w".toList)) openGroupReasons
            (jsonOptions ++ [['-']]) (['\n'].intercalate spacedLines) = .ok r ∧
        ofCommandLine (StoredText.lookup mixedTexts) (some (Path.ofText "/w".toList)) openGroupReasons
            (jsonOptions ++ "--".toList :: spacedTargets) [] = .ok r ∧
        r.output = "[/w/a]\n\x7b\"x\":1\x7d\n[-]\n\x7b\"x\":1\x7d\n".toList ∧
        r.errors =
          (["error: Failed to resolve configuration for /v/a",
            "",
            "Caused by:",
            "    /v/.ec:1:1: expected a comment, section header or key = value pair, found \"?\"",
            "error: Failed to resolve configuration for /u/a",
            "",
            "Caused by:",
            "    0: Invalid glob pattern: \x7ba,[\x7d]",
            "    1: regex parse error:",
            "           ^(?s:/u(?:/|/.*/)(?:a|[\\\x7d])$",
            "            ^",
            "       error: unclosed group"].flatMap
            fun l => l.toList ++ ['\n']) ∧
        r.exitCode = 1 := by
  have ho : Arguments.AreOptions jsonOptions :=
    .valued (by decide) (.alone ⟨rfl, by decide, ⟨by decide, by decide⟩, by decide⟩ .nil)
  have hfit : ∀ t ∈ spacedTargets, FitsLine t := by
    intro t ht
    simp only [spacedTargets, List.mem_cons, List.not_mem_nil, or_false] at ht
    rcases ht with rfl | rfl | rfl | rfl
    · exact ⟨by decide, by decide +kernel, by decide⟩
    · exact ⟨by decide, by decide +kernel, by decide⟩
    · exact ⟨by decide, by decide +kernel, by decide⟩
    · exact ⟨by decide, by decide +kernel, by decide⟩
  have hpadding {c : Char} (hc : Text.isBlank c = true) (hn : c ≠ '\n') : IsPadding [c] :=
    List.forall_mem_singleton.mpr ⟨hc, hn⟩
  have hnone : IsPadding [] := List.forall_mem_nil _
  have hl : HoldTargets spacedLines spacedTargets :=
    .blank (hpadding (by decide) (by decide)) <|
      .target (u := ['\t']) (t := "/w/a".toList) (v := ['\r']) (hpadding (by decide) (by decide))
        (hpadding (by decide) (by decide)) <|
      .blank hnone <|
      .target (u := ['\u3000']) (t := ['-']) (v := []) (hpadding (by decide) (by decide)) hnone <|
      .target (u := []) (t := "/v/a".toList) (v := []) hnone hnone <|
      .target (u := []) (t := "/u/a".toList) (v := []) hnone hnone .nil
  obtain ⟨hsame, hreports⟩ := ofCommandLine_input ho (by decide) hfit (by decide) hl
    (StoredText.lookup mixedTexts) (some (Path.ofText "/w".toList)) openGroupReasons []
  obtain ⟨r, hr, hrep⟩ := hreports { fileName := some ".ec".toList, json := true } (by decide +kernel)
  refine ⟨ho, by decide, hfit, by decide, hl, r, hr, hsame.symm.trans hr, ?_, ?_, ?_⟩
  · rw [hrep.output_eq]
    decide +kernel
  · rw [hrep.errors_eq]
    decide +kernel
  · rw [hrep.exitCode_eq]
    decide +kernel

end Report

end EditorSettings
