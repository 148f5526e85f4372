import EditorSettings.Value.Basic
import EditorSettings.Value.Number

/-!
# Values as JSON scalars

The JSON text of a value and, for texts that are a JSON truth value, number or string, the value that
they describe.

* `Value.json` writes a value.
* `Value.ofJson?` reads a scalar between JSON blanks.  A number must be finite; it is computed in doubles from
  the digits that fit in 64 bits, so it need not be the nearest one to what the digits say.
-/

namespace EditorSettings

namespace Value

/-! ### Writing -/

/-- A character in a JSON string. -/
def jsonChar (c : Char) : Text :=
  if c = '"' ∨ c = '\\' then ['\\', c]
  else if c = '\x08' then ['\\', 'b']
  else if c = '\t' then ['\\', 't']
  else if c = '\n' then ['\\', 'n']
  else if c = '\x0c' then ['\\', 'f']
  else if c = '\r' then ['\\', 'r']
  else if c.toNat < 0x20 then
    "\\u00".toList ++ (if c.toNat < 0x10 then ['0'] else []) ++ Nat.toDigits 16 c.toNat
  else [c]

/-- A text as a JSON string. -/
def jsonString (t : Text) : Text := ['"'] ++ t.flatMap jsonChar ++ ['"']

/-- A value as JSON. -/
def json : Value → Text
  | bool b => if b then "true".toList else "false".toList
  | number n => n.json
  | text t => jsonString t

/-- The displayed text of a value. -/
def display : Value → Text
  | bool b => if b then "true".toList else "false".toList
  | number n => n.display
  | text t => t

/-! ### Reading numbers -/

/-- The longest run of ASCII digits at the beginning, and the rest. -/
def splitDigits (t : Text) : Text × Text := (t.takeWhile Char.isDigit, t.dropWhile Char.isDigit)

/-- The digits of a fraction, if the text begins with one, and the rest. -/
def splitFraction? : Text → Option (Text × Text)
  | '.' :: t =>
    let parts := splitDigits t
    if parts.1 = [] then none else some parts
  | t => some ([], t)

/-- The sign of an exponent and the rest. -/
def splitExponentSign : Text → Bool × Text
  | '-' :: t => (true, t)
  | '+' :: t => (false, t)
  | t => (false, t)

/-- The value of an exponent that is all of the text, zero for the empty text. -/
def exponent? : Text → Option Int
  | [] => some 0
  | c :: t =>
    if c = 'e' ∨ c = 'E' then
      let signed := splitExponentSign t
      (Text.nat? signed.2).map fun n => if signed.1 then -(n : Int) else n
    else none

/-- Whether the digits may stand before the point: `0`, or no leading zero. -/
def isWholePart (digits : Text) : Bool :=
  match digits with
  | [] => false
  | ['0'] => true
  | c :: _ => c != '0'

/-- The number `n` with the digits of a text behind it, up to the first digit with which it would not fit in 64
bits, and the text from that digit on. -/
def fill (n : Nat) : Text → Nat × Text
  | [] => (n, [])
  | c :: t =>
    let next := 10 * n + (c.toNat - '0'.toNat)
    if next < Nat.pow 2 64 then fill next t else (n, c :: t)

/-- A power of ten, rounded. -/
def powerOfTen (k : Nat) : Binary64 := Binary64.ofRatio false (Nat.pow 10 k) 1

/-- A number over `10 ^ 308`, as many times as there are rounds and it is not zero, and then over `10 ^ k`. -/
def divPowers (k : Nat) : Nat → Binary64 → Binary64
  | 0, x => x.div (powerOfTen k)
  | rounds + 1, x => if x.isZero then x else divPowers k rounds (x.div (powerOfTen 308))

/-- The number `± significand · 10 ^ exponent` as it is computed in doubles, each step being rounded; none if it
is much too great.  The powers of ten go up to `10 ^ 308`. -/
def ofParts? (negative : Bool) (significand : Nat) (exponent : Int) : Option Binary64 :=
  let x := Binary64.ofRatio negative significand 1
  if exponent = 0 then some x
  else if 308 < exponent then if significand = 0 then some x else none
  else if 0 < exponent then some (x.mul (powerOfTen exponent.toNat))
  else
    let k := (-exponent).toNat - 1
    some (divPowers (k % 308 + 1) (k / 308) x)

/-- The number that an unsigned JSON number describes.  Digits that do not fit are left out: those of the whole
part count as zeros, those of the fraction do not count. -/
def magnitude? (negative : Bool) (t : Text) : Option Binary64 :=
  let whole := splitDigits t
  if isWholePart whole.1 then
    match splitFraction? whole.2 with
    | none => none
    | some fraction =>
      match exponent? fraction.2 with
      | none => none
      | some e =>
        let filled := fill 0 whole.1
        let all := fill filled.1 fraction.1
        ofParts? negative all.1 (filled.2.length - (fraction.1.length - all.2.length) + e)
  else none

/-- The number that a JSON number describes, if it is finite. -/
def jsonNumber? (t : Text) : Option Binary64 :=
  let n := match t with
    | '-' :: rest => magnitude? true rest
    | _ => magnitude? false t
  n.filter Binary64.isFinite

/-! ### Reading strings -/

/-- The value of a hexadecimal digit. -/
def hexDigit? (c : Char) : Option Nat :=
  if c.isDigit then some (c.toNat - '0'.toNat)
  else if 'a' ≤ c ∧ c ≤ 'f' then some (c.toNat - 'a'.toNat + 10)
  else if 'A' ≤ c ∧ c ≤ 'F' then some (c.toNat - 'A'.toNat + 10)
  else none

/-- The value of four hexadecimal digits at the beginning, and the rest. -/
def hexUnit? : Text → Option (Nat × Text)
  | a :: b :: c :: d :: t =>
    match hexDigit? a, hexDigit? b, hexDigit? c, hexDigit? d with
    | some a, some b, some c, some d => some (((a * 16 + b) * 16 + c) * 16 + d, t)
    | _, _, _, _ => none
  | _ => none

/-- The character that two surrogate halves stand for. -/
def surrogatePair (high low : Nat) : Char :=
  Char.ofNat (0x10000 + (high - 0xD800) * 0x400 + (low - 0xDC00))

/-- The character that follows `\u`: one unit, or two halves of a pair, both written with `\u`. -/
def unicodeEscape? (t : Text) : Option (Char × Text) :=
  match hexUnit? t with
  | none => none
  | some (n, rest) =>
    if n < 0xD800 ∨ 0xDFFF < n then some (Char.ofNat n, rest)
    else if n < 0xDC00 then
      match rest with
      | '\\' :: 'u' :: rest =>
        match hexUnit? rest with
        | some (low, rest) =>
          if 0xDC00 ≤ low ∧ low ≤ 0xDFFF then some (surrogatePair n low, rest) else none
        | none => none
      | _ => none
    else none

/-- The character that follows a backslash, and the rest. -/
def escape? : Text → Option (Char × Text)
  | '"' :: t => some ('"', t)
  | '\\' :: t => some ('\\', t)
  | '/' :: t => some ('/', t)
  | 'b' :: t => some ('\x08', t)
  | 'f' :: t => some ('\x0c', t)
  | 'n' :: t => some ('\n', t)
  | 'r' :: t => some ('\r', t)
  | 't' :: t => some ('\t', t)
  | 'u' :: t => unicodeEscape? t
  | _ => none

theorem length_of_hexUnit? {t r : Text} {n : Nat} (h : hexUnit? t = some (n, r)) :
    r.length < t.length := by
  unfold hexUnit? at h
  split at h
  · split at h
    · obtain ⟨-, rfl⟩ := Prod.mk.inj (Option.some.inj h)
      simp only [List.length_cons]
      omega
    · exact absurd h (by simp)
  · exact absurd h (by simp)

theorem length_of_unicodeEscape? {t r : Text} {c : Char} (h : unicodeEscape? t = some (c, r)) :
    r.length < t.length := by
  unfold unicodeEscape? at h
  split at h
  · exact absurd h (by simp)
  · next n rest hn =>
    have h1 := length_of_hexUnit? hn
    split at h
    · obtain ⟨-, rfl⟩ := Prod.mk.inj (Option.some.inj h)
      exact h1
    · split at h
      · split at h
        · split at h
          · next low rest' hl =>
            have h2 := length_of_hexUnit? hl
            split at h
            · obtain ⟨-, rfl⟩ := Prod.mk.inj (Option.some.inj h)
              simp only [List.length_cons] at h1
              omega
            · exact absurd h (by simp)
          · exact absurd h (by simp)
        · exact absurd h (by simp)
      · exact absurd h (by simp)

theorem length_of_escape? {t r : Text} {c : Char} (h : escape? t = some (c, r)) :
    r.length < t.length := by
  unfold escape? at h
  split at h <;> try (obtain ⟨-, rfl⟩ := Prod.mk.inj (Option.some.inj h); simp)
  · exact Nat.lt_succ_of_lt (length_of_unicodeEscape? h)
  · exact absurd h (by simp)

/-- The text of a JSON string after its opening quote, if the closing quote ends the text. -/
def stringBody? (t : Text) : Option Text :=
  match t with
  | [] => none
  | c :: rest =>
    if c = '"' then if rest = [] then some [] else none
    else if c = '\\' then
      match _h : escape? rest with
      | some (d, rest') => (stringBody? rest').map (d :: ·)
      | none => none
    else if c.toNat < 0x20 then none
    else (stringBody? rest).map (c :: ·)
termination_by t.length
decreasing_by
  · have := length_of_escape? _h
    simp only [List.length_cons]
    omega
  · simp

/-! ### Reading scalars -/

/-- The characters that JSON skips between its parts. -/
def isJsonBlank (c : Char) : Bool := c == ' ' || c == '\t' || c == '\n' || c == '\r'

/-- A text without JSON blanks at both ends. -/
def trimJson (t : Text) : Text :=
  ((t.dropWhile isJsonBlank).reverse.dropWhile isJsonBlank).reverse

/-- The value that a JSON scalar other than `null` describes. -/
def scalar? (t : Text) : Option Value :=
  if t = "true".toList then some (bool true)
  else if t = "false".toList then some (bool false)
  else
    match t with
    | '"' :: rest => (stringBody? rest).map text
    | _ => (jsonNumber? t).map number

/-- The value that a text describes as a JSON truth value, number or string. -/
def ofJson? (t : Text) : Option Value := scalar? (trimJson t)

example : ofJson? " 1.50e1 ".toList = some (number (Binary64.ofInt 15)) := by decide +kernel

example : ofJson? "1e999".toList = none ∧ ofJson? "01".toList = none := by decide +kernel

-- The power of ten has been rounded before the product is: the double nearest to the number is another one.
example : ofJson? "3e23".toList = some (number (Binary64.ofBits 0x44CFC3842BD1F071)) ∧
    Binary64.ofDecimal false 3 23 = Binary64.ofBits 0x44CFC3842BD1F072 := by decide +kernel

example : ofJson? "\"\\ud83d\\ude00\"".toList = some (text "😀".toList) := by decide +kernel

end Value

end EditorSettings
