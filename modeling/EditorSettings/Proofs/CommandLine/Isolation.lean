import EditorSettings.CommandLine.Report
import EditorSettings.Proofs.Lookup.Gathering
import EditorSettings.Proofs.Value.Json

/-!
# Targets of a run

A run reports its targets one after the other (`Report.reports_onTree`): the settings of those that have
some on the standard output, the failures of the others on the standard error.  The lines of a failure name
the target and hold the wording of the failure and of what it comes from (`Report.failure_eq_lines`).  What a
run writes for a target depends on that target only, but for the headers, which all targets with settings have
or none (`Report.onTree_isolates`).
-/

namespace EditorSettings

/-! ### Arguments -/

namespace Arguments

variable {args : List Text} {a : Arguments}

/-- A command line has targets, unless it asks for the version. -/
theorem targets_ne_nil (h : Arguments.read args = .ok a) (hv : a.showVersion = false) :
    a.targets ≠ [] := by
  intro ht
  obtain ⟨b, -, hb⟩ := bind_eq_ok_iff.mp h
  split_ifs at hb with hnone
  · cases hb
  · obtain rfl := Except.ok.inj hb
    exact hnone ⟨ht, by rw [hv]; rfl⟩

/-- The settings of a target among documents. -/
def found (a : Arguments) (read : Path → Option Text) (current : Option Path) (target : Text) :
    Except Failure Settings := Settings.lookUp read current (Path.ofText target) a.options

theorem found_congr {b : Arguments} (h : b.options = a.options) (read : Path → Option Text)
    (current : Option Path) : b.found read current = a.found read current := by
  unfold found
  rw [h]

end Arguments

namespace Report

/-! ### What targets have written -/

/-- The settings of targets that have some, in order. -/
def written (several json : Bool) (result : Text → Except Failure Settings) (targets : List Text) : Text :=
  targets.flatMap fun t =>
    match result t with
    | .ok m =>
      (if several then line ('[' :: (t ++ [']'])) else []) ++
        if json then line m.json else m.entries.flatMap fun e => line (e.1 ++ '=' :: e.2.display)
    | .error _ => []

/-- The lines of a cause, the first of them behind a mark and the others behind a margin. -/
def causeLines (mark margin cause : Text) : List Text :=
  match pieces '\n' cause with
  | [] => []
  | l :: ls => (mark ++ l) :: ls.map (margin ++ ·)

/-- The lines of a wording and of what it comes from, numbered if there is such a thing. -/
def causesLines (message : Text) : Option Text → List Text
  | none => causeLines "    ".toList "    ".toList message
  | some source => causeLines "    0: ".toList "       ".toList message ++
      causeLines "    1: ".toList "       ".toList source

/-- **The lines of a failure**: the target, and then the wording of the failure and of what it comes from. -/
def failureLines (reasons : Reasons) (target : Text) (f : Failure) : List Text :=
  ["error: Failed to resolve configuration for ".toList ++ target, [], "Caused by:".toList] ++
    causesLines f.message (f.source? reasons)

/-- The failures of targets that have no settings, in order. -/
def faults (reasons : Reasons) (result : Text → Except Failure Settings) (targets : List Text) : Text :=
  targets.flatMap fun t =>
    match result t with
    | .ok _ => []
    | .error f => (failureLines reasons t f).flatMap line

/-- **A text that tells of a failure**: it names the target, and it holds every line of the wording of the
failure and of what the failure comes from. -/
structure TellsOf (errors : Text) (reasons : Reasons) (target : Text) (f : Failure) : Prop where
  target_isInfix : target <:+: errors
  message_isInfix : ∀ l ∈ pieces '\n' f.message, l <:+: errors
  source_isInfix : ∀ source ∈ f.source? reasons, ∀ l ∈ pieces '\n' source, l <:+: errors

/-- A report of targets with the given results. -/
structure Reports (r : Report) (reasons : Reasons) (json : Bool) (result : Text → Except Failure Settings)
    (targets : List Text) : Prop where
  /-- With more than one target, every target has a header. -/
  output_eq : r.output = written (1 < targets.length) json result targets
  errors_eq : r.errors = faults reasons result targets
  /-- Every failure is told of. -/
  tellsOf : ∀ t ∈ targets, ∀ f, result t = .error f → TellsOf r.errors reasons t f
  exitCode_eq : r.exitCode = if targets.all fun t => (result t).isOk then 0 else 1

variable {reasons : Reasons} {several json : Bool} {result result' : Text → Except Failure Settings}

/-! ### Lines of failures -/

theorem line_append_intercalate (margin : Text) : ∀ (ls : List Text) (l p : Text),
    line (p ++ (['\n'] ++ margin).intercalate (l :: ls)) =
      line (p ++ l) ++ (ls.map (margin ++ ·)).flatMap line
  | [], l, p => by simp [List.intercalate]
  | m :: ls, l, p => by
    have hcons : (['\n'] ++ margin).intercalate (l :: m :: ls) =
        l ++ (['\n'] ++ margin) ++ (['\n'] ++ margin).intercalate (m :: ls) := by
      simp [List.intercalate]
    have hline : line (p ++ (['\n'] ++ margin).intercalate (l :: m :: ls)) =
        line (p ++ l) ++ line (margin ++ (['\n'] ++ margin).intercalate (m :: ls)) := by
      rw [hcons]
      simp [line]
    rw [hline, line_append_intercalate margin ls m margin]
    rfl

/-- A text that hangs behind a mark is written as the lines of a cause. -/
theorem line_append_hanging (mark margin cause : Text) :
    line (mark ++ hanging margin cause) = (causeLines mark margin cause).flatMap line := by
  unfold hanging causeLines
  rcases hpieces : pieces '\n' cause with _ | ⟨l, ls⟩
  · exact absurd hpieces (pieces_ne_nil '\n' cause)
  · exact line_append_intercalate margin ls l mark

theorem causes_eq_lines (message : Text) (source? : Option Text) :
    causes (message :: source?.toList) = (causesLines message source?).flatMap line := by
  cases source? with
  | none => exact line_append_hanging _ _ _
  | some source =>
    have hzero : "    ".toList ++ Text.ofNat 0 ++ ": ".toList = "    0: ".toList := by decide +kernel
    have hone : "    ".toList ++ Text.ofNat (0 + 1) ++ ": ".toList = "    1: ".toList := by decide +kernel
    have hnumbered : causes [message, source] = numbered 0 [message, source] := rfl
    rw [causesLines, List.flatMap_append, ← line_append_hanging, ← line_append_hanging, ← hzero, ← hone]
    rw [Option.toList_some, hnumbered, numbered, numbered, numbered, List.append_nil]

/-- **A failure is printed in its lines.** -/
theorem failure_eq_lines (reasons : Reasons) (target : Text) (f : Failure) :
    failure reasons target f = (failureLines reasons target f).flatMap line := by
  rw [failure, failureLines, List.flatMap_append, Failure.causes, causes_eq_lines]
  simp

theorem isInfix_of_mem_causeLines {mark margin cause l : Text} (h : l ∈ pieces '\n' cause) :
    ∃ k ∈ causeLines mark margin cause, l <:+: k := by
  unfold causeLines
  rcases hpieces : pieces '\n' cause with _ | ⟨m, ms⟩
  · exact absurd hpieces (pieces_ne_nil '\n' cause)
  · rw [hpieces] at h
    rcases List.mem_cons.mp h with rfl | hm
    · exact ⟨_, List.mem_cons_self, (List.suffix_append mark l).isInfix⟩
    · exact ⟨_, List.mem_cons_of_mem _ (List.mem_map_of_mem hm), (List.suffix_append margin l).isInfix⟩

theorem isInfix_flatMap_line {ls : List Text} {k : Text} (h : k ∈ ls) : k <:+: ls.flatMap line := by
  obtain ⟨before, after, rfl⟩ := List.append_of_mem h
  exact ⟨before.flatMap line, '\n' :: after.flatMap line, by simp [line]⟩

theorem isInfix_of_mem_causesLines {message l : Text} {source? : Option Text}
    (h : l ∈ pieces '\n' message ∨ ∃ source ∈ source?, l ∈ pieces '\n' source) :
    ∃ k ∈ causesLines message source?, l <:+: k := by
  cases source? with
  | none =>
    obtain h | ⟨s, hs, -⟩ := h
    · exact isInfix_of_mem_causeLines h
    · cases hs
  | some source =>
    obtain h | ⟨s, hs, h⟩ := h
    · obtain ⟨k, hk, hinfix⟩ := isInfix_of_mem_causeLines h
      exact ⟨k, List.mem_append_left _ hk, hinfix⟩
    · obtain rfl : source = s := Option.some.inj hs
      obtain ⟨k, hk, hinfix⟩ := isInfix_of_mem_causeLines h
      exact ⟨k, List.mem_append_right _ hk, hinfix⟩

/-- **The lines of a failure tell of it.** -/
theorem tellsOf_failureLines (reasons : Reasons) (target : Text) (f : Failure) :
    TellsOf ((failureLines reasons target f).flatMap line) reasons target f := by
  have hcauses {l : Text} (h : l ∈ pieces '\n' f.message ∨
      ∃ source ∈ f.source? reasons, l ∈ pieces '\n' source) :
      l <:+: (failureLines reasons target f).flatMap line := by
    obtain ⟨k, hk, hl⟩ := isInfix_of_mem_causesLines h
    exact hl.trans (isInfix_flatMap_line (List.mem_append_right _ hk))
  constructor
  · exact (List.suffix_append _ target).isInfix.trans (isInfix_flatMap_line List.mem_cons_self)
  · exact fun l hl => hcauses (.inl hl)
  · exact fun source hsource l hl => hcauses (.inr ⟨source, hsource, hl⟩)

/-! ### Targets in a row -/

theorem written_append (ts us : List Text) :
    written several json result (ts ++ us) =
      written several json result ts ++ written several json result us := List.flatMap_append

theorem faults_append (ts us : List Text) :
    faults reasons result (ts ++ us) = faults reasons result ts ++ faults reasons result us :=
  List.flatMap_append

theorem written_congr {ts : List Text} (h : ∀ t ∈ ts, result' t = result t) :
    written several json result' ts = written several json result ts := by
  unfold written
  exact List.flatMap_congr fun t ht => by rw [h t ht]

theorem faults_congr {ts : List Text} (h : ∀ t ∈ ts, result' t = result t) :
    faults reasons result' ts = faults reasons result ts := by
  unfold faults
  exact List.flatMap_congr fun t ht => by rw [h t ht]

/-- **Every failure among those of some targets is told of.** -/
theorem tellsOf_faults {ts : List Text} {t : Text} (ht : t ∈ ts) {f : Failure} (h : result t = .error f) :
    TellsOf (faults reasons result ts) reasons t f := by
  have hinfix : (failureLines reasons t f).flatMap line <:+: faults reasons result ts := by
    obtain ⟨before, after, rfl⟩ := List.append_of_mem ht
    refine ⟨faults reasons result before, faults reasons result after, ?_⟩
    rw [faults_append, List.append_assoc]
    unfold faults
    rw [List.flatMap_cons, h]
  have htells := tellsOf_failureLines reasons t f
  exact ⟨htells.target_isInfix.trans hinfix, fun l hl => (htells.message_isInfix l hl).trans hinfix,
    fun source hsource l hl => (htells.source_isInfix source hsource l hl).trans hinfix⟩

theorem output_ofTarget (t : Text) :
    (ofTarget reasons several json t (result t)).output = written several json result [t] := by
  unfold written
  rw [List.flatMap_singleton]
  cases result t with
  | error f => rfl
  | ok m => simp [ofTarget, header, body, Settings.lines, List.flatMap_map]

theorem errors_ofTarget (t : Text) :
    (ofTarget reasons several json t (result t)).errors = faults reasons result [t] := by
  unfold faults
  rw [List.flatMap_singleton]
  cases result t with
  | ok m => rfl
  | error f => exact failure_eq_lines reasons t f

theorem exitCode_andThen_ofTarget (b : Bool) (t : Text) :
    max (if b then 0 else 1) (ofTarget reasons several json t (result t)).exitCode =
      if b && (result t).isOk then 0 else 1 := by
  cases b <;> cases result t <;> rfl

/-- The reports of targets in a row. -/
theorem foldl_andThen_ofTarget (targets : List Text) :
    (targets.map fun t => ofTarget reasons several json t (result t)).foldl andThen silent =
      ⟨written several json result targets, faults reasons result targets,
        if targets.all fun t => (result t).isOk then 0 else 1⟩ := by
  -- the fold has the reports so far in front, so targets are added at the end
  induction targets using List.reverseRecOn with
  | nil => rfl
  | append_singleton ts t ih =>
    rw [List.map_append, List.foldl_append, ih, List.map_singleton, List.foldl_cons, List.foldl_nil,
      andThen, output_ofTarget, errors_ofTarget, exitCode_andThen_ofTarget, written_append,
      faults_append, List.all_append, List.all_cons, List.all_nil, Bool.and_true]

/-! ### Runs -/

/-- The report of a run on a tree of files. -/
def onTree (read : Path → Option Text) (current : Option Path) (reasons : Reasons) (a : Arguments)
    (input : Text) : Report := Id.run (run (fun p => pure (read p)) current reasons a input)

/-- A run that takes its targets from the arguments reports these. -/
theorem reports_onTree {a : Arguments} (hv : a.showVersion = false) (hd : a.targets ≠ [['-']])
    (read : Path → Option Text) (current : Option Path) (reasons : Reasons) (input : Text) :
    (onTree read current reasons a input).Reports reasons a.json (a.found read current) a.targets := by
  have htargets : targets a input = a.targets := by
    unfold targets Arguments.readsInput
    rw [hv, beq_eq_false_iff_ne.mpr hd]
    rfl
  have hrun : onTree read current reasons a input =
      (a.targets.map fun t =>
        ofTarget reasons (1 < a.targets.length) a.json t (a.found read current t)).foldl andThen silent := by
    unfold onTree run
    rw [hv, htargets, if_neg Bool.false_ne_true]
    dsimp only
    rw [Id.run_bind, List.idRun_mapM]
    rfl
  rw [hrun, foldl_andThen_ofTarget]
  exact ⟨rfl, rfl, fun t ht f h => tellsOf_faults ht h, rfl⟩

/-- A report of targets `before ++ mid ++ after`, with the results that are given for those around `mid`. -/
structure ReportsAround (r : Report) (reasons : Reasons) (several json : Bool)
    (around result : Text → Except Failure Settings) (before mid after : List Text) : Prop where
  output_eq : r.output = written several json around before ++ written several json result mid ++
    written several json around after
  errors_eq : r.errors = faults reasons around before ++ faults reasons result mid ++
    faults reasons around after

theorem Reports.around {r : Report} {before mid after : List Text}
    {around : Text → Except Failure Settings} (h : r.Reports reasons json result (before ++ mid ++ after))
    (hsame : ∀ t ∈ before ++ after, result t = around t) :
    r.ReportsAround reasons (1 < (before ++ mid ++ after).length) json around result before mid after := by
  have hbefore : ∀ t ∈ before, result t = around t := fun t ht => hsame t (List.mem_append_left _ ht)
  have hafter : ∀ t ∈ after, result t = around t := fun t ht => hsame t (List.mem_append_right _ ht)
  constructor
  · rw [h.output_eq, written_append, written_append, written_congr hbefore, written_congr hafter]
  · rw [h.errors_eq, faults_append, faults_append, faults_congr hbefore, faults_congr hafter]

/-- **Targets do not depend on each other.**  A run writes the settings and the failures of its targets in
order, a failure with its target and all that it comes from, and it succeeds if all of them have settings.
Another run, with other targets or other files in part, writes the same for the targets whose settings or
failures are the same, and has headers if it has more than one target. -/
theorem onTree_isolates {args : List Text} {a : Arguments} (h : Arguments.read args = .ok a)
    (hv : a.showVersion = false) (hd : a.targets ≠ [['-']]) (read : Path → Option Text)
    (current : Option Path) (reasons : Reasons) (input : Text) :
    a.targets ≠ [] ∧
      (onTree read current reasons a input).Reports reasons a.json (a.found read current) a.targets ∧
      (∀ m : Settings, '\n' ∉ m.json) ∧
      ∀ (b : Arguments) (read' : Path → Option Text) (input' : Text) (before mid mid' after : List Text),
        b.showVersion = false → b.targets ≠ [['-']] → b.options = a.options → b.json = a.json →
        a.targets = before ++ mid ++ after → b.targets = before ++ mid' ++ after →
        (∀ t ∈ before ++ after, a.found read' current t = a.found read current t) →
        (onTree read current reasons a input).ReportsAround reasons (1 < a.targets.length) a.json
            (a.found read current) (a.found read current) before mid after ∧
          (onTree read' current reasons b input').ReportsAround reasons (1 < b.targets.length) a.json
            (a.found read current) (a.found read' current) before mid' after := by
  have hreports := reports_onTree hv hd read current reasons input
  refine ⟨Arguments.targets_ne_nil h hv, hreports, fun m => m.noControl_json.newline_not_mem, ?_⟩
  intro b read' input' before mid mid' after hbv hbd hoptions hjson ha hb hsame
  have hother := reports_onTree hbv hbd read' current reasons input'
  rw [hjson, Arguments.found_congr hoptions] at hother
  rw [ha] at hreports ⊢
  rw [hb] at hother ⊢
  exact ⟨hreports.around fun _ _ => rfl, hother.around hsame⟩

/-- Settings for a target, a faulty document above another one, and above a third one a pattern whose
expression has a group that is left open. -/
def mixedTexts : List StoredText :=
  [⟨Path.ofText "/w/.ec".toList, "[*]\nx = 1\n".toList⟩, ⟨Path.ofText "/v/.ec".toList, "?\n".toList⟩,
    ⟨Path.ofText "/u/.ec".toList, "[\x7ba,[\x7d]]\n".toList⟩]

/-- The words for an expression whose outermost group is left open, with a mark below that group, and for a
directory that is gone. -/
def openGroupReasons : Reasons where
  refusal e := "regex parse error:\n    ".toList ++ e ++ "\n     ^\nerror: unclosed group".toList
  noDirectory := "No such file or directory (os error 2)".toList

/-- The arguments `-f.ec /w/a --json /v/a /u/a a`. -/
def mixedArguments : Arguments :=
  { json := true, fileName := some ".ec".toList,
    targets := ["/w/a".toList, "/v/a".toList, "/u/a".toList, ['a']] }

theorem onTree_isolates_mixedTexts :
    Arguments.read ["-f.ec".toList, "/w/a".toList, "--json".toList, "/v/a".toList, "/u/a".toList, ['a']] =
        .ok mixedArguments ∧
      mixedArguments.showVersion = false ∧ mixedArguments.targets ≠ [['-']] ∧
      (onTree (StoredText.lookup mixedTexts) none openGroupReasons mixedArguments []).output =
        "[/w/a]\n\x7b\"x\":1\x7d\n".toList ∧
      (onTree (StoredText.lookup mixedTexts) none openGroupReasons mixedArguments []).errors =
        (["error: Failed to resolve configuration for /v/a",
          "",
          "Caused by:",
          "    /v/.ec:1:1: expected a comment, section header or key = value pair, found \"?\"",
          "error: Failed to resolve configuration for /u/a",
          "",
          "Caused by:",
          "    0: Invalid glob pattern: \x7ba,[\x7d]",
          "    1: regex parse error:",
          "           ^(?s:/u(?:/|/.*/)(?:a|[\\\x7d])$",
          "            ^",
          "       error: unclosed group",
          "error: Failed to resolve configuration for a",
          "",
          "Caused by:",
          "    0: Failed to get current directory",
          "    1: No such file or directory (os error 2)"].flatMap
          fun l => l.toList ++ ['\n']) ∧
      (onTree (StoredText.lookup mixedTexts) none openGroupReasons mixedArguments []).exitCode = 1 := by
  have h : Arguments.read ["-f.ec".toList, "/w/a".toList, "--json".toList, "/v/a".toList, "/u/a".toList,
      ['a']] = .ok mixedArguments := by decide +kernel
  have hv : mixedArguments.showVersion = false := rfl
  have hd : mixedArguments.targets ≠ [['-']] := by decide
  obtain ⟨-, hreports, -⟩ :=
    onTree_isolates h hv hd (StoredText.lookup mixedTexts) none openGroupReasons []
  refine ⟨h, hv, hd, ?_, ?_, ?_⟩
  · rw [hreports.output_eq]
    decide +kernel
  · rw [hreports.errors_eq]
    decide +kernel
  · rw [hreports.exitCode_eq]
    decide +kernel

end Report

end EditorSettings
