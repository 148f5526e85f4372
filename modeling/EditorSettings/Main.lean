import EditorSettings.CommandLine.Report

/-!
# The program

Prints the settings of the files that its arguments name.
-/

namespace EditorSettings.Program

/-- The text of a file, if it can be read as UTF-8. -/
def readDocument (p : Path) : IO (Option Text) :=
  try
    return some (← IO.FS.readFile ⟨String.ofList p.text⟩).toList
  catch _ => return none

/-- The current directory, or why there is none. -/
def currentDirectory : IO (Except Text Path) :=
  try
    return .ok (Path.ofText (← IO.currentDir).toString.toList)
  catch e => return .error e.toString.toList

/-- Why an expression is refused. -/
def refusal (expression : Text) : Text :=
  "regex parse error:\n    ".toList ++ expression ++ "\nerror: not a regular expression".toList

/-- The words for what goes wrong outside, the current directory being looked up before. -/
def reasons : Except Text Path → Reasons
  | .ok _ => ⟨refusal, []⟩
  | .error noDirectory => ⟨refusal, noDirectory⟩

/-- How the program is called. -/
def usage : String :=
  "Print the EditorConfig properties that apply to each file\n\n" ++
  "Usage: editorconfig [OPTIONS] [FILEPATH]...\n\n" ++
  "Arguments:\n" ++
  "  [FILEPATH]...  Files to find settings for, or a hyphen to read paths from the standard input\n\n" ++
  "Options:\n" ++
  "  -v, --version      Display the version\n" ++
  "  -f <PATH>          Name of the documents instead of .editorconfig\n" ++
  "  -b <VERSION>       Format version\n" ++
  "      --root <DIR>   Look for documents in no directory above this one\n" ++
  "      --json         Print the properties of each file as a JSON object\n" ++
  "  -h, --help         Print help\n"

/-- Runs the program and returns its exit code. -/
def run (args : List String) : IO UInt32 := do
  match Arguments.read (args.map String.toList) with
  | .error .help =>
    IO.print usage
    return 0
  | .error .usage =>
    IO.eprint usage
    return 2
  | .ok a =>
    let input ← if a.readsInput then (← IO.getStdin).readToEnd else pure ""
    let current ← currentDirectory
    let report ← Report.run readDocument current.toOption (reasons current) a input.toList
    IO.print (String.ofList report.output)
    IO.eprint (String.ofList report.errors)
    return report.exitCode.toUInt32

end EditorSettings.Program

/-- The entry point. -/
def main (args : List String) : IO UInt32 := EditorSettings.Program.run args
