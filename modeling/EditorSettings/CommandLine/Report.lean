import EditorSettings.CommandLine.Arguments
import EditorSettings.Lookup.Basic

/-!
# Reports of the command line

For every target the settings go to the standard output, or a failure with its causes to the standard
error.  Targets do not depend on each other; the exit code says whether all of them have settings.  Some
causes are in the words of others, which a run is given as `Reasons`.
-/

namespace EditorSettings

/-- What a run of the program writes, and its exit code. -/
structure Report where
  /-- The standard output. -/
  output : Text
  /-- The standard error. -/
  errors : Text
  /-- The exit code. -/
  exitCode : Nat
deriving DecidableEq, Repr

namespace Report

/-- The report of a run that writes nothing. -/
def silent : Report := ⟨[], [], 0⟩

/-- One report after another; the exit code is the greater one. -/
def andThen (r s : Report) : Report :=
  ⟨r.output ++ s.output, r.errors ++ s.errors, max r.exitCode s.exitCode⟩

/-- A line. -/
def line (t : Text) : Text := t ++ ['\n']

/-! ### Targets -/

/-- The targets in a text, one per line, without blank lines and blanks around them. -/
def targetsOf (input : Text) : List Text :=
  ((pieces '\n' input).map Text.trim).filter fun t => t ≠ []

/-- The targets of a run: those of the arguments, or of the standard input for a single hyphen. -/
def targets (a : Arguments) (input : Text) : List Text :=
  if a.readsInput then targetsOf input else a.targets

/-! ### Settings -/

/-- The line before the settings of one of several targets. -/
def header (target : Text) : Text := line (['['] ++ target ++ [']'])

/-- Settings as JSON or as lines `key=value`. -/
def body (json : Bool) (m : Settings) : Text :=
  if json then line m.json else m.lines.flatMap line

/-! ### Failures -/

/-- A text of several lines with `indent` before all lines but the first. -/
def hanging (indent : Text) (t : Text) : Text := (['\n'] ++ indent).intercalate (pieces '\n' t)

/-- A cause in a list of causes, from a given number on. -/
def numbered (n : Nat) : List Text → Text
  | [] => []
  | t :: ts =>
    line ("    ".toList ++ Text.ofNat n ++ ": ".toList ++ hanging "       ".toList t) ++
      numbered (n + 1) ts

/-- The causes of a failure: one alone is not numbered. -/
def causes : List Text → Text
  | [t] => line ("    ".toList ++ hanging "    ".toList t)
  | ts => numbered 0 ts

/-- The text of a failure. -/
def failure (reasons : Reasons) (target : Text) (f : Failure) : Text :=
  line ("error: Failed to resolve configuration for ".toList ++ target) ++ line [] ++
    line "Caused by:".toList ++ causes (f.causes reasons)

/-! ### Runs -/

/-- The report of one target, `several` saying whether it has a header. -/
def ofTarget (reasons : Reasons) (several json : Bool) (target : Text) : Except Failure Settings → Report
  | .ok m => ⟨(if several then header target else []) ++ body json m, [], 0⟩
  | .error f => ⟨[], failure reasons target f, 1⟩

/-- The line with the version of the program. -/
def versionLine : Text :=
  line ("EditorConfig Rust Core Version ".toList ++ Version.current.numbersText)

/-- The report of a run, documents being read by `read`. -/
def run {m : Type → Type} [Monad m] (read : Path → m (Option Text)) (current : Option Path)
    (reasons : Reasons) (a : Arguments) (input : Text) : m Report := do
  if a.showVersion then return ⟨versionLine, [], 0⟩
  let ts := targets a input
  let reports ← ts.mapM fun t => do
    return ofTarget reasons (1 < ts.length) a.json t
      (← Settings.lookUpWith read current (Path.ofText t) a.options)
  return reports.foldl andThen silent

end Report

end EditorSettings
