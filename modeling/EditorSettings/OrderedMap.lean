import EditorSettings.Text.Basic

/-!
# Insertion-ordered maps

A map from texts that remembers the order in which its keys were first written.  Writing a key again
replaces its value and keeps its place.

* `m.set k v` writes, `m.get? k` reads, `m.keys` is the order.
* `get?_set` and `keys_set` describe a write through the two views.
-/

namespace EditorSettings

/-- A map from texts to `β` in the order of first writing. -/
structure OrderedMap (β : Type) where
  /-- The keys with their values, in order. -/
  entries : List (Text × β)
deriving DecidableEq, Repr

namespace OrderedMap

variable {β γ : Type}

/-- The map without keys. -/
def empty : OrderedMap β := ⟨[]⟩

instance : EmptyCollection (OrderedMap β) := ⟨empty⟩

instance : Inhabited (OrderedMap β) := ⟨empty⟩

/-- The entries after `k` is written with the value `v`. -/
def setEntry (k : Text) (v : β) : List (Text × β) → List (Text × β)
  | [] => [(k, v)]
  | e :: es => if e.1 = k then (k, v) :: es else e :: setEntry k v es

/-- The value of the first entry with the key `k`. -/
def findEntry? (k : Text) : List (Text × β) → Option β
  | [] => none
  | e :: es => if e.1 = k then some e.2 else findEntry? k es

/-- The map after `k` is written with the value `v`. -/
def set (m : OrderedMap β) (k : Text) (v : β) : OrderedMap β := ⟨setEntry k v m.entries⟩

/-- The value of a key. -/
def get? (m : OrderedMap β) (k : Text) : Option β := findEntry? k m.entries

/-- Whether a key was written. -/
def contains (m : OrderedMap β) (k : Text) : Bool := (m.get? k).isSome

/-- The keys in order. -/
def keys (m : OrderedMap β) : List Text := m.entries.map Prod.fst

/-- The number of keys. -/
def size (m : OrderedMap β) : Nat := m.entries.length

/-- The map after a list of writes in order. -/
def setAll (m : OrderedMap β) (writes : List (Text × β)) : OrderedMap β :=
  writes.foldl (fun m w => m.set w.1 w.2) m

/-! ### Writes through the views -/

@[simp] theorem get?_empty (k : Text) : (empty : OrderedMap β).get? k = none := rfl

theorem findEntry?_setEntry (es : List (Text × β)) (k : Text) (v : β) (j : Text) :
    findEntry? j (setEntry k v es) = if j = k then some v else findEntry? j es := by
  induction es with
  | nil => simp [setEntry, findEntry?, eq_comm]
  | cons e es ih =>
    by_cases h : e.1 = k
    · by_cases hj : j = k
      · simp [setEntry, findEntry?, h, hj]
      · have hk : k ≠ j := fun h' => hj h'.symm
        simp [setEntry, findEntry?, h, hj, hk]
    · by_cases hj : j = k
      · subst hj
        simp [setEntry, findEntry?, h, ih]
      · simp [setEntry, findEntry?, h, ih, hj]

theorem get?_set (m : OrderedMap β) (k : Text) (v : β) (j : Text) :
    (m.set k v).get? j = if j = k then some v else m.get? j :=
  findEntry?_setEntry m.entries k v j

theorem map_fst_setEntry (es : List (Text × β)) (k : Text) (v : β) :
    (setEntry k v es).map Prod.fst =
      if k ∈ es.map Prod.fst then es.map Prod.fst else es.map Prod.fst ++ [k] := by
  induction es with
  | nil => simp [setEntry]
  | cons e es ih =>
    by_cases h : e.1 = k
    · simp [setEntry, h]
    · have hk : k ≠ e.1 := fun h' => h h'.symm
      have hmem : k ∈ e.1 :: es.map Prod.fst ↔ k ∈ es.map Prod.fst := by simp [hk]
      simp only [setEntry, if_neg h, List.map_cons, ih, hmem]
      split <;> simp

theorem keys_set (m : OrderedMap β) (k : Text) (v : β) :
    (m.set k v).keys = if k ∈ m.keys then m.keys else m.keys ++ [k] :=
  map_fst_setEntry m.entries k v

end OrderedMap

end EditorSettings
