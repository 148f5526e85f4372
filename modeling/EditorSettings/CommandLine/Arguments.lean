import EditorSettings.Lookup.Request

/-!
# Arguments of the command line

Options are `-v`, `--version`, `-f NAME`, `-b VERSION`, `--root DIR`, `--json`, `-h` and `--help`, each
at most once; everything else is a target.  Options may follow targets, and after `--` all arguments are
targets.  A short option may stand in a cluster, and takes its value from the rest of the cluster, with
or without an equals sign, or from the next argument; a long option takes it after an equals sign or
from the next argument.
-/

namespace EditorSettings

/-- The options that take a value. -/
inductive ValueOption
  /-- The name of the documents. -/
  | fileName
  /-- The format version. -/
  | version
  /-- The root directory. -/
  | root
deriving DecidableEq, Repr

/-- The arguments that were read so far. -/
structure Arguments where
  /-- Whether the version of the program is asked for. -/
  showVersion : Bool := false
  /-- Whether settings are written as JSON. -/
  json : Bool := false
  /-- The name of the documents, if given. -/
  fileName : Option Text := none
  /-- The format version, if given. -/
  version : Option Text := none
  /-- The root directory, if given. -/
  root : Option Text := none
  /-- The targets in order. -/
  targets : List Text := []
deriving DecidableEq, Repr

/-- Why the reading of arguments ends early. -/
inductive Stop
  /-- Help is asked for. -/
  | help
  /-- The arguments are wrong. -/
  | usage
deriving DecidableEq, Repr

namespace Arguments

/-- The arguments after the version of the program is asked for. -/
def askVersion (a : Arguments) : Except Stop Arguments :=
  if a.showVersion then .error .usage else .ok { a with showVersion := true }

/-- The arguments after JSON is asked for. -/
def askJson (a : Arguments) : Except Stop Arguments :=
  if a.json then .error .usage else .ok { a with json := true }

/-- The arguments after an option gets its value.  A root cannot be the empty path. -/
def give (a : Arguments) (value : Text) : ValueOption → Except Stop Arguments
  | .fileName => if a.fileName.isSome then .error .usage else .ok { a with fileName := some value }
  | .version => if a.version.isSome then .error .usage else .ok { a with version := some value }
  | .root =>
    if a.root.isSome ∨ value = [] then .error .usage else .ok { a with root := some value }

/-- The arguments after one more target. -/
def addTarget (a : Arguments) (t : Text) : Arguments := { a with targets := a.targets ++ [t] }

/-- A text without a leading equals sign. -/
def withoutEquals : Text → Text
  | [] => []
  | c :: t => if c = '=' then t else c :: t

/-- The arguments after a short option that takes a value, and the option if its value is still to
come. -/
def shortValue (a : Arguments) (o : ValueOption) (rest : Text) :
    Except Stop (Arguments × Option ValueOption) :=
  if rest = [] then .ok (a, some o) else (a.give (withoutEquals rest) o).map fun a => (a, none)

/-- The arguments after a cluster of short options, and the option whose value is still to come. -/
def readCluster (a : Arguments) : Text → Except Stop (Arguments × Option ValueOption)
  | [] => .ok (a, none)
  | c :: t =>
    if c = 'v' then do readCluster (← a.askVersion) t
    else if c = 'h' then .error .help
    else if c = 'f' then a.shortValue .fileName t
    else if c = 'b' then a.shortValue .version t
    else .error .usage

/-- The arguments after a long option, written without its hyphens. -/
def readLong (a : Arguments) (t : Text) : Except Stop (Arguments × Option ValueOption) :=
  match t.takeWhile (· != '='), t.dropWhile (· != '=') with
  | name, [] =>
    if name = "version".toList then a.askVersion.map fun a => (a, none)
    else if name = "json".toList then a.askJson.map fun a => (a, none)
    else if name = "help".toList then .error .help
    else if name = "root".toList then .ok (a, some .root)
    else .error .usage
  | name, _ :: value =>
    if name = "root".toList then (a.give value .root).map fun a => (a, none) else .error .usage

/-- The arguments after one more, and the option whose value is still to come. -/
def readOne (a : Arguments) (t : Text) : Except Stop (Arguments × Option ValueOption) :=
  match t with
  | '-' :: '-' :: name => a.readLong name
  | '-' :: c :: cluster => a.readCluster (c :: cluster)
  | t => .ok (a.addTarget t, none)

/-- Whether an argument cannot be the value of an option: it begins with a hyphen and has more than
that. -/
def isOptionLike : Text → Bool
  | '-' :: _ :: _ => true
  | _ => false

/-- The arguments after further ones; `pending` is the option whose value comes next. -/
def readFrom (a : Arguments) (pending : Option ValueOption) : List Text → Except Stop Arguments
  | [] => if pending.isSome then .error .usage else .ok a
  | t :: ts =>
    match pending with
    | some o => if isOptionLike t then .error .usage else do readFrom (← a.give t o) none ts
    | none =>
      if t = "--".toList then .ok { a with targets := a.targets ++ ts }
      else do
        let (a, pending) ← a.readOne t
        readFrom a pending ts

/-- The arguments of a command line.  There must be a target, unless the version of the program is asked
for. -/
def read (args : List Text) : Except Stop Arguments := do
  let a ← readFrom {} none args
  if a.targets = [] ∧ !a.showVersion then throw .usage
  return a

/-- The options of the requests. -/
def options (a : Arguments) : Options :=
  let defaults : Options := {}
  { fileName := a.fileName.getD defaults.fileName
    version := a.version.getD defaults.version
    root := a.root.map Path.ofText }

/-- Whether the targets are read from the standard input. -/
def readsInput (a : Arguments) : Bool := !a.showVersion && a.targets == [['-']]

end Arguments

end EditorSettings
