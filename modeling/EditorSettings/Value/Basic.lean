import EditorSettings.Binary64.Basic
import EditorSettings.Text.Basic

/-!
# Property values

The value of a property once it is read: a truth value, a number or a text.
-/

namespace EditorSettings

/-- A property value. -/
inductive Value
  /-- A truth value. -/
  | bool (b : Bool)
  /-- A number. -/
  | number (n : Binary64)
  /-- A text. -/
  | text (t : Text)
deriving DecidableEq, Repr

namespace Value

/-- The text of a text value. -/
def text? : Value → Option Text
  | text t => some t
  | _ => none

/-- The truth value of a truth value. -/
def bool? : Value → Option Bool
  | bool b => some b
  | _ => none

/-- The number of a number value. -/
def number? : Value → Option Binary64
  | number n => some n
  | _ => none

/-- Whether a value is the text `t`, exactly. -/
def isText (v : Value) (t : Text) : Bool := v.text? == some t

end Value

end EditorSettings
