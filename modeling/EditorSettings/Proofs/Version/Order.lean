import EditorSettings.Version.Basic
import Mathlib.Data.Char
import Mathlib.Order.Compare
import Mathlib.Tactic.MkIffOfInductiveProp

/-!
# The order of versions

One version precedes another if it is less in the first place where they differ: the three numbers, then the
pre-release, then the build (`Version.Precedes`).  A release is greater than its pre-releases.  Identifiers
are compared from left to right: numbers by value and then by length, before words, which are compared by
their characters (`Identifier.Precedes`); if they run out on one side only, this side is less.

The comparison of versions decides this relation (`Version.order_eq_lt_iff`) and finds two versions equal only
if they are the same.  It is oriented and transitive, so the versions are totally ordered, and a version
reaches those that precede it and itself (`Version.reaches_iff`).
-/

namespace EditorSettings

open Std (OrientedCmp TransCmp LawfulEqCmp)

/-! ### Identifiers -/

namespace Identifier

/-- **An identifier precedes another one.** -/
inductive Precedes : Identifier → Identifier → Prop
  /-- Of two numbers the one of smaller value. -/
  | value {v v' w w' : ℕ} (h : v < v') : Precedes (number v w) (number v' w')
  /-- Of two numbers of the same value the shorter one. -/
  | width {v w w' : ℕ} (h : w < w') : Precedes (number v w) (number v w')
  /-- A number before a word. -/
  | kind (v w : ℕ) (t : Text) : Precedes (number v w) (word t)
  /-- Of two words the one with the smaller character in the first place where they differ. -/
  | chars {s t : Text} (h : List.Lex (· < ·) s t) : Precedes (word s) (word t)

/-- Elements that are compared by `R` make lists that are compared by its lexicographic order. -/
theorem compareLex_eq_lt_iff {α : Type} {cmp : α → α → Ordering} [LawfulEqCmp cmp] {R : α → α → Prop}
    (h : ∀ a b, cmp a b = .lt ↔ R a b) : ∀ as bs : List α,
      List.compareLex cmp as bs = .lt ↔ List.Lex R as bs
  | [], [] => by simp [List.compareLex_nil_nil]
  | [], b :: bs => by simp [List.compareLex_nil_cons]
  | a :: as, [] => by simp [List.compareLex_cons_nil]
  | a :: as, b :: bs => by
    rw [List.compareLex_cons_cons, Ordering.then_eq_lt, LawfulEqCmp.compare_eq_iff_eq, h,
      compareLex_eq_lt_iff h as bs, List.cons_lex_cons_iff]

theorem order_eq_eq_iff : ∀ a b : Identifier, order a b = .eq ↔ a = b
  | number v w, number v' w' => by
    simp only [order, Ordering.then_eq_eq, Nat.compare_eq_eq, number.injEq]
  | number _ _, word _ => by simp [order]
  | word _, number _ _ => by simp [order]
  | word s, word t => by rw [order, LawfulEqCmp.compare_eq_iff_eq, word.injEq]

instance : LawfulEqCmp order where
  compare_self := (order_eq_eq_iff _ _).mpr rfl
  eq_of_compare := (order_eq_eq_iff _ _).mp

/-- Numbers are compared as pairs of a value and a length. -/
theorem order_number (v w v' w' : ℕ) : order (number v w) (number v' w') =
    compareLex (compareOn Prod.fst) (compareOn Prod.snd) (v, w) (v', w') := rfl

instance : TransCmp order where
  eq_swap := by
    rintro (⟨v, w⟩ | s) (⟨v', w'⟩ | t)
    · rw [order_number, order_number]
      exact OrientedCmp.eq_swap
    · rfl
    · rfl
    · rw [order, order]
      exact OrientedCmp.eq_swap
  isLE_trans := by
    rintro (⟨v, w⟩ | s) (⟨v', w'⟩ | t) (⟨v'', w''⟩ | u) h h'
    · rw [order_number] at h h' ⊢
      exact TransCmp.isLE_trans h h'
    · rfl
    · cases h'
    · rfl
    · cases h
    · cases h
    · cases h'
    · rw [order] at h h' ⊢
      exact TransCmp.isLE_trans h h'

/-- **The comparison of identifiers.** -/
theorem order_eq_lt_iff : ∀ a b : Identifier, order a b = .lt ↔ a.Precedes b
  | number v w, number v' w' => by
    simp only [order, Ordering.then_eq_lt, Nat.compare_eq_eq, Nat.compare_eq_lt]
    constructor
    · rintro (h | ⟨rfl, h⟩)
      · exact .value h
      · exact .width h
    · rintro (h | h)
      · exact .inl h
      · exact .inr ⟨rfl, h⟩
  | number v w, word t => ⟨fun _ => .kind v w t, fun _ => rfl⟩
  | word _, number _ _ => ⟨fun h => by simp [order] at h, nofun⟩
  | word s, word t => by
    rw [order, compareLex_eq_lt_iff fun _ _ => compare_lt_iff_lt]
    exact ⟨.chars, fun h => by cases h with | chars h => exact h⟩

end Identifier

/-! ### Versions -/

namespace Version

/-- The numbers of two versions are the same. -/
def SameNumbers (v w : Version) : Prop := v.major = w.major ∧ v.minor = w.minor ∧ v.patch = w.patch

/-- **A version precedes another one.** -/
@[mk_iff] inductive Precedes (v w : Version) : Prop
  /-- The first numbers differ. -/
  | major (h : v.major < w.major)
  /-- The second numbers are the first ones that differ. -/
  | minor (hmajor : v.major = w.major) (h : v.minor < w.minor)
  /-- The third numbers are the first ones that differ. -/
  | patch (hmajor : v.major = w.major) (hminor : v.minor = w.minor) (h : v.patch < w.patch)
  /-- A pre-release comes before the release and before greater pre-releases. -/
  | preRelease (hnumbers : v.SameNumbers w) (hpre : v.preRelease ≠ [])
      (h : w.preRelease = [] ∨ List.Lex Identifier.Precedes v.preRelease w.preRelease)
  /-- All but the builds are the same. -/
  | build (hnumbers : v.SameNumbers w) (hpre : v.preRelease = w.preRelease)
      (h : List.Lex Identifier.Precedes v.build w.build)

/-- Pre-releases are compared by whether there is none, then by their identifiers. -/
theorem preReleaseOrder_eq : ∀ as bs : List Identifier, preReleaseOrder as bs =
    compareLex (compareOn List.isEmpty) (List.compareLex Identifier.order) as bs
  | [], [] => rfl
  | [], _ :: _ => rfl
  | _ :: _, [] => rfl
  | _ :: _, _ :: _ => rfl

theorem preReleaseOrder_eq_eq_iff : ∀ as bs : List Identifier, preReleaseOrder as bs = .eq ↔ as = bs
  | [], [] => by simp [preReleaseOrder]
  | [], _ :: _ => by simp [preReleaseOrder]
  | _ :: _, [] => by simp [preReleaseOrder]
  | a :: as, b :: bs => by rw [preReleaseOrder, LawfulEqCmp.compare_eq_iff_eq]

/-- **The comparison of pre-releases.** -/
theorem preReleaseOrder_eq_lt_iff : ∀ as bs : List Identifier, preReleaseOrder as bs = .lt ↔
    as ≠ [] ∧ (bs = [] ∨ List.Lex Identifier.Precedes as bs)
  | [], [] => by simp [preReleaseOrder]
  | [], _ :: _ => by simp [preReleaseOrder]
  | _ :: _, [] => by simp [preReleaseOrder]
  | a :: as, b :: bs => by
    rw [preReleaseOrder, Identifier.compareLex_eq_lt_iff Identifier.order_eq_lt_iff]
    simp

theorem order_eq_eq_iff (v w : Version) : order v w = .eq ↔ v = w := by
  obtain ⟨_, _, _, _, _⟩ := v
  obtain ⟨_, _, _, _, _⟩ := w
  simp only [order, Ordering.then_eq_eq, preReleaseOrder_eq_eq_iff, LawfulEqCmp.compare_eq_iff_eq,
    Version.mk.injEq]

instance : LawfulEqCmp order where
  compare_self := (order_eq_eq_iff _ _).mpr rfl
  eq_of_compare := (order_eq_eq_iff _ _).mp

/-- **The comparison of versions.** -/
theorem order_eq_lt_iff (v w : Version) : order v w = .lt ↔ v.Precedes w := by
  simp only [order, Ordering.then_eq_lt, Nat.compare_eq_eq, Nat.compare_eq_lt, preReleaseOrder_eq_eq_iff,
    preReleaseOrder_eq_lt_iff, Identifier.compareLex_eq_lt_iff Identifier.order_eq_lt_iff, precedes_iff,
    SameNumbers, and_or_left, and_assoc]

/-- Versions are compared by their five parts in turn. -/
theorem order_eq : order = compareLex (compareOn major) (compareLex (compareOn minor)
    (compareLex (compareOn patch)
      (compareLex (compareLex (compareOn fun v => v.preRelease.isEmpty)
        fun v w => List.compareLex Identifier.order v.preRelease w.preRelease)
        fun v w => List.compareLex Identifier.order v.build w.build))) := by
  funext v w
  rw [order, preReleaseOrder_eq]
  rfl

/-- A comparison of parts is transitive if that of the parts is. -/
theorem transCmp_parts {α β : Type} (cmp : β → β → Ordering) [TransCmp cmp] (part : α → β) :
    TransCmp fun v w => cmp (part v) (part w) where
  eq_swap := OrientedCmp.eq_swap
  isLE_trans := TransCmp.isLE_trans

instance : TransCmp order := by
  rw [order_eq]
  have := transCmp_parts (List.compareLex Identifier.order) preRelease
  have := transCmp_parts (List.compareLex Identifier.order) build
  infer_instance

/-! ### The total order -/

/-- **A version reaches itself and those that precede it.** -/
theorem reaches_iff (v w : Version) : v.reaches w = true ↔ v = w ∨ w.Precedes v := by
  rw [reaches, OrientedCmp.isGE_iff_isLE, Ordering.isLE_iff_eq_lt_or_eq_eq, order_eq_lt_iff, order_eq_eq_iff,
    or_comm, eq_comm]

theorem reaches_refl (v : Version) : v.reaches v = true := (reaches_iff v v).mpr (.inl rfl)

theorem reaches_trans {u v w : Version} (h : u.reaches v = true) (h' : v.reaches w = true) :
    u.reaches w = true := TransCmp.isGE_trans h h'

theorem reaches_antisymm {v w : Version} (h : v.reaches w = true) (h' : w.reaches v = true) : v = w :=
  (order_eq_eq_iff v w).mp (OrientedCmp.isGE_antisymm h h')

theorem reaches_total (v w : Version) : v.reaches w = true ∨ w.reaches v = true := by
  rw [reaches, reaches, OrientedCmp.isGE_eq_isLE]
  cases order w v <;> simp

end Version

end EditorSettings
