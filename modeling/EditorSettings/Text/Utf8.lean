import EditorSettings.Text.Basic

/-!
# Texts from bytes

Bytes read as UTF-8.  Sequences of UTF-8 are characters.  Where the bytes are no UTF-8, the longest run
that begins some sequence, or else one byte, is a unit of its own, so that no byte is lost.

* `TextUnit.ofBytes` gives the units of any bytes.
* `Text.ofBytes?` gives the text of bytes that are UTF-8 throughout.
-/

namespace EditorSettings

/-- A unit of bytes that are read as text. -/
inductive TextUnit
  /-- A character. -/
  | char (c : Char)
  /-- Bytes that form no character. -/
  | stray (bytes : List UInt8)
deriving DecidableEq, Repr

namespace TextUnit

/-- The intervals of the bytes that must follow a first byte in UTF-8; none if no sequence begins with
that byte. -/
def followers? (first : Nat) : Option (List (Nat × Nat)) :=
  let tail := (0x80, 0xBF)
  if first ≤ 0x7F then some []
  else if first < 0xC2 then none
  else if first ≤ 0xDF then some [tail]
  else if first = 0xE0 then some [(0xA0, 0xBF), tail]
  else if first = 0xED then some [(0x80, 0x9F), tail]
  else if first ≤ 0xEF then some [tail, tail]
  else if first = 0xF0 then some [(0x90, 0xBF), tail, tail]
  else if first ≤ 0xF3 then some [tail, tail, tail]
  else if first = 0xF4 then some [(0x80, 0x8F), tail, tail]
  else none

/-- The bytes at the beginning that lie in the given intervals one by one, and the rest. -/
def takeFollowers : List (Nat × Nat) → List UInt8 → List UInt8 × List UInt8
  | row :: rows, b :: bs =>
    if row.1 ≤ b.toNat ∧ b.toNat ≤ row.2 then
      let taken := takeFollowers rows bs
      (b :: taken.1, taken.2)
    else ([], b :: bs)
  | _, bs => ([], bs)

theorem length_takeFollowers (rows : List (Nat × Nat)) (bs : List UInt8) :
    (takeFollowers rows bs).2.length ≤ bs.length := by
  induction rows generalizing bs with
  | nil => simp [takeFollowers]
  | cons row rows ih =>
    cases bs with
    | nil => simp [takeFollowers]
    | cons b bs =>
      unfold takeFollowers
      split
      · exact Nat.le_succ_of_le (ih bs)
      · exact Nat.le_refl _

/-- The character of a complete UTF-8 sequence. -/
def decodeChar (first : UInt8) (later : List UInt8) : Char :=
  let lead := match later.length with
    | 0 => first.toNat
    | 1 => first.toNat % 0x20
    | 2 => first.toNat % 0x10
    | _ => first.toNat % 0x08
  Char.ofNat (later.foldl (fun n b => n * 0x40 + b.toNat % 0x40) lead)

/-- The unit of a first byte with the bytes found after it, of which `needed` are needed. -/
def unitOf (first : UInt8) (found : List UInt8) (needed : Nat) : TextUnit :=
  if found.length = needed then .char (decodeChar first found) else .stray (first :: found)

/-- The units of a sequence of bytes, in order. -/
def ofBytes (bytes : List UInt8) : List TextUnit :=
  match bytes with
  | [] => []
  | b :: bs =>
    match followers? b.toNat with
    | none => .stray [b] :: ofBytes bs
    | some rows =>
      unitOf b (takeFollowers rows bs).1 rows.length :: ofBytes (takeFollowers rows bs).2
termination_by bytes.length
decreasing_by
  · simp
  · have := length_takeFollowers rows bs
    simp only [List.length_cons]
    omega

/-- The character of a unit, if it is one. -/
def char? : TextUnit → Option Char
  | char c => some c
  | stray _ => none

/-- The character that a unit is shown as: bytes that form no character are replaced. -/
def shown : TextUnit → Char
  | char c => c
  | stray _ => '\ufffd'

example : ofBytes [0x2F, 0xE6, 0x97, 0xA5, 0xE6, 0x97, 0x2F, 0xFF] =
    [char '/', char '日', stray [0xE6, 0x97], char '/', stray [0xFF]] := by decide +kernel

end TextUnit

/-- The text with the given bytes, if they are UTF-8. -/
def Text.ofBytes? (bytes : List UInt8) : Option Text := (TextUnit.ofBytes bytes).mapM TextUnit.char?

end EditorSettings
