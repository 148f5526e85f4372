import EditorSettings.Lookup.Documents

/-!
# Looking up settings

The settings of a target, either from texts that are at hand or by looking up documents in the
directories above the target.  Documents are read by a reader in any monad: a pure one, one that keeps a
record, or one that reads files.

* `Settings.ofTexts` takes the texts as they are given, the nearest first.
* `Settings.lookUpWith` asks a reader for every place, then goes on in the same way.  A missing or
  unreadable document counts as an empty one.
-/

namespace EditorSettings

/-- A text with its path in normal absolute form. -/
def StoredText.absolute (current : Option Path) (f : StoredText) : Except Failure StoredText := do
  return ⟨← f.path.absolute current, f.contents⟩

/-- The texts at some paths, as a reader finds them. -/
def StoredText.gather {m : Type → Type} [Monad m] (read : Path → m (Option Text))
    (paths : List Path) : m (List StoredText) :=
  paths.mapM fun p => do return ⟨p, (← read p).getD []⟩

namespace Settings

/-- The settings of a target from texts at hand, the nearest first. -/
def ofTexts (current : Option Path) (target : Path) (texts : List StoredText) (options : Options) :
    Except Failure Settings := do
  let r ← Request.of current target options
  r.settings (← texts.mapM (StoredText.absolute current))

/-- The settings of a target from the documents that a reader finds. -/
def lookUpWith {m : Type → Type} [Monad m] (read : Path → m (Option Text)) (current : Option Path)
    (target : Path) (options : Options) : m (Except Failure Settings) :=
  match Request.of current target options with
  | .ok r => do return r.settings (← StoredText.gather read r.places)
  | .error failure => return .error failure

/-- The settings of a target from documents in memory. -/
def lookUp (read : Path → Option Text) (current : Option Path) (target : Path) (options : Options) :
    Except Failure Settings :=
  Id.run (lookUpWith (fun p => pure (read p)) current target options)

end Settings

end EditorSettings
