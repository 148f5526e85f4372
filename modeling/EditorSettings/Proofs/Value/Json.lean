import EditorSettings.Settings
import Mathlib.Tactic.SplitIfs

/-!
# Settings as a line of JSON

Settings as JSON hold no control character (`Settings.noControl_json`): strings escape them, and numbers
are made of digits, signs, points and exponents.  So they are written on a single line.
-/

namespace EditorSettings

/-- No character below the space. -/
def NoControl (t : Text) : Prop := ∀ c ∈ t, 0x20 ≤ c.toNat

namespace NoControl

variable {s t : Text}

theorem append (hs : NoControl s) (ht : NoControl t) : NoControl (s ++ t) :=
  List.forall_mem_append.mpr ⟨hs, ht⟩

theorem cons {c : Char} (hc : 0x20 ≤ c.toNat) (ht : NoControl t) : NoControl (c :: t) :=
  List.forall_mem_cons.mpr ⟨hc, ht⟩

theorem of_subset (h : NoControl s) (hs : t ⊆ s) : NoControl t := fun c hc => h c (hs hc)

/-- For texts that are given. -/
theorem of_all (h : (t.all fun c => 0x20 ≤ c.toNat) = true) : NoControl t := by
  simpa [NoControl] using h

theorem of_isDigit (h : ∀ c ∈ t, c.isDigit = true) : NoControl t := by
  intro c hc
  have hd := Text.toNat_of_isDigit (h c hc)
  omega

theorem newline_not_mem (h : NoControl t) : '\n' ∉ t := fun hm => absurd (h '\n' hm) (by decide)

end NoControl

/-! ### Numbers -/

theorem Text.noControl_ofNat (n : Nat) : NoControl (Text.ofNat n) :=
  .of_isDigit fun _ hc => Nat.isDigit_of_mem_toDigits (by decide) (by decide) hc

theorem Text.noControl_ofInt : ∀ n : Int, NoControl (Text.ofInt n)
  | .ofNat n => Text.noControl_ofNat n
  | .negSucc n => .cons (by decide) (Text.noControl_ofNat (n + 1))

namespace Binary64

theorem noControl_significantDigits (n : Nat) : NoControl (significantDigits n) := by
  refine (Text.noControl_ofNat n).of_subset fun c hc => ?_
  exact List.mem_reverse.mp ((List.dropWhile_sublist _).subset (List.mem_reverse.mp hc))

theorem noControl_searchDigits (b : Neighbourhood) (tie : Tie) (place : Int) (fuel : Nat) :
    ∀ count, NoControl (searchDigits b tie place count fuel).digits := by
  induction fuel with
  | zero => exact fun _ _ hc => absurd hc List.not_mem_nil
  | succ fuel ih =>
    intro count
    unfold searchDigits
    split
    · exact noControl_significantDigits _
    · exact ih (count + 1)

theorem noControl_replicate (n : Nat) : NoControl (List.replicate n '0') := by
  intro c hc
  rw [List.eq_of_mem_replicate hc]
  decide

variable {d : Decimal}

theorem noControl_positional (hd : NoControl d.digits) {wholeEnd : Text} (he : NoControl wholeEnd) :
    NoControl (d.positional wholeEnd) := by
  have hpoint : NoControl ['.'] := .of_all (by decide)
  unfold Decimal.positional
  dsimp only
  split_ifs
  · have hzero : NoControl "0.".toList := .of_all (by decide)
    exact (hzero.append (noControl_replicate _)).append hd
  · exact (hd.append (noControl_replicate _)).append he
  · have htake := hd.of_subset (List.take_subset d.place.toNat d.digits)
    have hdrop := hd.of_subset (List.drop_subset d.place.toNat d.digits)
    exact (htake.append hpoint).append hdrop

theorem noControl_exponential (hd : NoControl d.digits) : NoControl d.exponential := by
  have htake := hd.of_subset (List.take_subset 1 d.digits)
  have hdrop := hd.of_subset (List.drop_subset 1 d.digits)
  have hfraction : NoControl (if d.digits.drop 1 = [] then [] else '.' :: d.digits.drop 1) := by
    split_ifs
    · exact .of_all rfl
    · exact hdrop.cons (by decide)
  have hsign : NoControl (if d.place - 1 < 0 then "e-".toList else "e+".toList) := by
    split_ifs
    · exact .of_all (by decide)
    · exact .of_all (by decide)
  exact ((htake.append hfraction).append hsign).append (Text.noControl_ofNat _)

theorem noControl_json (n : Binary64) : NoControl n.json := by
  have hwritten : ∀ (negative : Bool) (m : Nat) (e : Int),
      NoControl (signText negative ++ (shortest jsonLayout.tie m e).written jsonLayout) := by
    intro negative m e
    have hsign : NoControl (signText negative) := by
      cases negative
      · exact .of_all rfl
      · exact .of_all (by decide)
    have hdigits : NoControl (shortest jsonLayout.tie m e).digits := noControl_searchDigits _ _ _ _ _
    refine hsign.append ?_
    unfold Decimal.written
    split_ifs
    · exact noControl_positional hdigits (.of_all (by decide))
    · exact noControl_exponential hdigits
  unfold json
  split
  · exact .of_all (by decide)
  · exact .of_all (by decide)
  · split
    · split_ifs
      · exact Text.noControl_ofInt _
      · exact hwritten _ _ _
    · exact hwritten _ _ _

end Binary64

/-! ### Strings and objects -/

namespace Value

theorem noControl_toDigits {n : Nat} (h : n < 0x20) : NoControl (Nat.toDigits 16 n) := by
  have hall : ∀ n < 0x20, ((Nat.toDigits 16 n).all fun c => 0x20 ≤ c.toNat) = true := by
    decide +kernel
  exact .of_all (hall n h)

theorem noControl_jsonChar (c : Char) : NoControl (jsonChar c) := by
  unfold jsonChar
  split_ifs with hmark _ _ _ _ _ hcontrol
  · rcases hmark with rfl | rfl
    · exact .of_all (by decide)
    · exact .of_all (by decide)
  · exact .of_all (by decide)
  · exact .of_all (by decide)
  · exact .of_all (by decide)
  · exact .of_all (by decide)
  · exact .of_all (by decide)
  · have hescape : NoControl ("\\u00".toList ++ ['0']) := .of_all (by decide)
    exact hescape.append (noControl_toDigits hcontrol)
  · have hescape : NoControl ("\\u00".toList ++ []) := .of_all (by decide)
    exact hescape.append (noControl_toDigits hcontrol)
  · exact NoControl.cons (Nat.not_lt.mp hcontrol) (.of_all rfl)

theorem noControl_jsonString (t : Text) : NoControl (jsonString t) := by
  have hquote : NoControl ['"'] := .of_all (by decide)
  have hchars : NoControl (t.flatMap jsonChar) := by
    intro c hc
    obtain ⟨d, -, hd⟩ := List.mem_flatMap.mp hc
    exact noControl_jsonChar d c hd
  exact (hquote.append hchars).append hquote

theorem noControl_json : ∀ v : Value, NoControl v.json
  | bool true => .of_all (by decide)
  | bool false => .of_all (by decide)
  | number n => n.noControl_json
  | text t => noControl_jsonString t

end Value

namespace Settings

theorem noControl_intercalate {ts : List Text} (h : ∀ t ∈ ts, NoControl t) :
    NoControl ([','].intercalate ts) := by
  induction ts with
  | nil => exact .of_all rfl
  | cons t ts ih =>
    have ht := h t List.mem_cons_self
    have hts := ih fun s hs => h s (List.mem_cons_of_mem t hs)
    cases ts with
    | nil => simpa [List.intercalate] using ht
    | cons s ts =>
      have hcomma : NoControl [','] := .of_all (by decide)
      have hjoin := ht.append (hcomma.append hts)
      simpa [List.intercalate] using hjoin

/-- **Settings as JSON are one line.** -/
theorem noControl_json (m : Settings) : NoControl m.json := by
  have hbrace : NoControl ['{'] := .of_all (by decide)
  refine (hbrace.append (noControl_intercalate fun t ht => ?_)).append (.of_all (by decide))
  obtain ⟨e, -, rfl⟩ := List.mem_map.mp ht
  have hcolon : NoControl [':'] := .of_all (by decide)
  exact ((Value.noControl_jsonString e.1).append hcolon).append e.2.noControl_json

end Settings

end EditorSettings
