import EditorSettings.OrderedMap
import Mathlib.Data.List.Basic
import Mathlib.Data.List.Induction

/-!
# Writes in a row

What is left of a list of writes in an insertion-ordered map: the keys in the order of their first
writes (`keys_setAll`), each with the value of its last write (`get?_setAll`).  A map without repeated
keys is given by these two views (`entries_eq`), so a list of writes leaves `lastWrites` of it
(`setAll_empty`).  If only the values matter, writes to different keys may change places
(`agrees_setAll_setAll`).
-/

namespace EditorSettings

namespace OrderedMap

variable {β : Type}

/-- The value of the last write to a key. -/
def lastValue? (k : Text) (writes : List (Text × β)) : Option β :=
  (writes.reverse.find? fun w => w.1 = k).map Prod.snd

/-- The map of the distinct keys of some writes in the order of their first occurrences, each with its
last value. -/
def lastWrites (writes : List (Text × β)) : OrderedMap β :=
  ⟨(writes.map Prod.fst).eraseDups.filterMap fun k => (lastValue? k writes).map fun v => (k, v)⟩

/-! ### The two views of a run -/

theorem setAll_append (m : OrderedMap β) (ws vs : List (Text × β)) :
    m.setAll (ws ++ vs) = (m.setAll ws).setAll vs := List.foldl_append

theorem setAll_concat (m : OrderedMap β) (ws : List (Text × β)) (w : Text × β) :
    m.setAll (ws ++ [w]) = (m.setAll ws).set w.1 w.2 := setAll_append m ws [w]

theorem lastValue?_concat (k : Text) (ws : List (Text × β)) (w : Text × β) :
    lastValue? k (ws ++ [w]) = if k = w.1 then some w.2 else lastValue? k ws := by
  unfold lastValue?
  rw [List.reverse_append, List.reverse_singleton, List.singleton_append, List.find?_cons]
  by_cases h : k = w.1
  · simp [h]
  · simp [h, Ne.symm h]

/-- **The last value of a key** is that of a write to the key that has no further one behind it. -/
theorem lastValue?_eq_some_iff {k : Text} {writes : List (Text × β)} {v : β} :
    lastValue? k writes = some v ↔
      ∃ before after, writes = before ++ (k, v) :: after ∧ k ∉ after.map Prod.fst := by
  simp only [lastValue?, Option.map_eq_some_iff, List.find?_eq_some_iff_append, decide_eq_true_eq,
    Bool.not_eq_true', decide_eq_false_iff_not]
  constructor
  · rintro ⟨⟨k, v⟩, ⟨rfl, after, before, hrev, hafter⟩, rfl⟩
    refine ⟨before.reverse, after.reverse, ?_, fun hk => ?_⟩
    · rw [← List.reverse_reverse writes, hrev]
      simp
    · obtain ⟨w, hw, he⟩ := List.mem_map.mp hk
      exact hafter w (List.mem_reverse.mp hw) he
  · rintro ⟨before, after, rfl, hafter⟩
    refine ⟨(k, v), ⟨rfl, after.reverse, before.reverse, by simp, fun w hw he => hafter ?_⟩, rfl⟩
    exact List.mem_map.mpr ⟨w, List.mem_reverse.mp hw, he⟩

/-- **Every key has the value of its last write**, or the one that it had before. -/
theorem get?_setAll (m : OrderedMap β) (writes : List (Text × β)) (k : Text) :
    (m.setAll writes).get? k = (lastValue? k writes).or (m.get? k) := by
  induction writes using List.reverseRecOn with
  | nil => rfl
  | append_singleton ws w ih =>
    rw [setAll_concat, get?_set, lastValue?_concat]
    split_ifs
    · rfl
    · exact ih

/-- **The keys are in the order of their first writes.** -/
theorem keys_setAll (writes : List (Text × β)) :
    ((empty : OrderedMap β).setAll writes).keys = (writes.map Prod.fst).eraseDups := by
  induction writes using List.reverseRecOn with
  | nil => rfl
  | append_singleton ws w ih =>
    rw [setAll_concat, keys_set, ih, List.map_append, List.eraseDups_append]
    simp only [List.mem_eraseDups]
    split_ifs with h
    · simp [List.removeAll, h]
    · simp [List.removeAll, h, List.eraseDups_cons]

/-- What is left without repetitions is in the order of the first occurrences. -/
theorem pairwise_eraseDups (l : List Text) :
    l.eraseDups.Pairwise fun a b => l.idxOf a < l.idxOf b := by
  induction l using List.reverseRecOn with
  | nil => exact List.Pairwise.nil
  | append_singleton l c ih =>
    have hold : l.eraseDups.Pairwise fun a b => (l ++ [c]).idxOf a < (l ++ [c]).idxOf b := by
      refine ih.imp_of_mem fun ha hb h => ?_
      rw [List.idxOf_append_of_mem (List.mem_eraseDups.mp ha),
        List.idxOf_append_of_mem (List.mem_eraseDups.mp hb)]
      exact h
    rw [List.eraseDups_append]
    by_cases hc : c ∈ l
    · simpa [List.removeAll, hc] using hold
    · -- The last one is new, so it comes behind all others.
      have hlast : (l ++ [c]).idxOf c = l.length := by simp [List.idxOf_append_of_notMem hc]
      have hone : (List.removeAll [c] l).eraseDups = [c] := by
        simp [List.removeAll, hc, List.eraseDups_cons]
      rw [hone, List.pairwise_append]
      refine ⟨hold, List.pairwise_singleton _ _, fun a ha b hb => ?_⟩
      rw [List.mem_singleton.mp hb, hlast, List.idxOf_append_of_mem (List.mem_eraseDups.mp ha)]
      exact List.idxOf_lt_length_iff.mpr (List.mem_eraseDups.mp ha)

theorem lastValue?_eq_none_iff {k : Text} {writes : List (Text × β)} :
    lastValue? k writes = none ↔ k ∉ writes.map Prod.fst := by
  induction writes using List.reverseRecOn with
  | nil => simp [lastValue?]
  | append_singleton ws w ih =>
    rw [lastValue?_concat, List.map_append, List.map_singleton, List.mem_append, List.mem_singleton]
    split_ifs with h
    · simp [h]
    · simp [h, ih]

/-! ### Maps without repeated keys -/

theorem nodup_keys_set {m : OrderedMap β} (h : m.keys.Nodup) (k : Text) (v : β) :
    (m.set k v).keys.Nodup := by
  rw [keys_set]
  split_ifs with hk
  · exact h
  · rw [List.nodup_append]
    refine ⟨h, by simp, ?_⟩
    rintro a ha b hb rfl
    rw [List.mem_singleton] at hb
    exact hk (hb ▸ ha)

theorem mem_setEntry {k : Text} {v : β} {e : Text × β} : ∀ {es : List (Text × β)},
    e ∈ setEntry k v es → e = (k, v) ∨ e ∈ es
  | [], h => .inl (List.mem_singleton.mp h)
  | d :: es, h => by
    rw [setEntry] at h
    split_ifs at h
    · exact (List.mem_cons.mp h).imp_right (List.mem_cons_of_mem d)
    · rcases List.mem_cons.mp h with rfl | h
      · exact .inr List.mem_cons_self
      · exact (mem_setEntry h).imp_right (List.mem_cons_of_mem d)

theorem nodup_keys_setAll {m : OrderedMap β} (h : m.keys.Nodup) (writes : List (Text × β)) :
    (m.setAll writes).keys.Nodup := by
  induction writes using List.reverseRecOn with
  | nil => exact h
  | append_singleton ws w ih =>
    rw [setAll_concat]
    exact nodup_keys_set ih w.1 w.2

theorem get?_mk_cons (e : Text × β) (es : List (Text × β)) (k : Text) :
    (⟨e :: es⟩ : OrderedMap β).get? k = if e.1 = k then some e.2 else get? ⟨es⟩ k := rfl

/-- **A map without repeated keys is given by its keys and their values.** -/
theorem entries_eq : ∀ {m : OrderedMap β}, m.keys.Nodup →
    m.entries = m.keys.filterMap fun k => (m.get? k).map fun v => (k, v)
  | ⟨[]⟩, _ => rfl
  | ⟨e :: es⟩, h => by
    have h' : e.1 ∉ es.map Prod.fst ∧ (es.map Prod.fst).Nodup := List.nodup_cons.mp h
    have ih := entries_eq (m := ⟨es⟩) h'.2
    -- The further keys are not the first one, so they are read behind it.
    have hrest : (es.map Prod.fst).filterMap (fun k => (get? ⟨e :: es⟩ k).map fun v => (k, v)) =
        (es.map Prod.fst).filterMap (fun k => (get? ⟨es⟩ k).map fun v => (k, v)) := by
      refine List.filterMap_congr fun k hk => ?_
      have hne : e.1 ≠ k := fun he => h'.1 (he ▸ hk)
      rw [get?_mk_cons, if_neg hne]
    have hfirst : get? ⟨e :: es⟩ e.1 = some e.2 := by rw [get?_mk_cons, if_pos rfl]
    rw [keys, List.map_cons, List.filterMap_cons, hrest, hfirst]
    dsimp only [Option.map_some]
    exact congrArg (e :: ·) ih

theorem setEntry_of_not_mem : ∀ {es : List (Text × β)} {k : Text}, k ∉ es.map Prod.fst → ∀ v : β,
    setEntry k v es = es ++ [(k, v)]
  | [], _, _, _ => rfl
  | e :: es, k, h, v => by
    rw [List.map_cons, List.mem_cons, not_or] at h
    rw [setEntry, if_neg (Ne.symm h.1), setEntry_of_not_mem h.2, List.cons_append]

/-- **A map without repeated keys is made by writing its entries.** -/
theorem setAll_entries {m : OrderedMap β} (h : m.keys.Nodup) :
    (empty : OrderedMap β).setAll m.entries = m := by
  obtain ⟨es⟩ := m
  unfold keys at h
  dsimp only at h ⊢
  induction es using List.reverseRecOn with
  | nil => rfl
  | append_singleton es e ih =>
    rw [List.map_append, List.map_singleton, List.nodup_append] at h
    have hmem : e.1 ∉ es.map Prod.fst := fun hm => h.2.2 _ hm _ (List.mem_singleton_self _) rfl
    rw [setAll_concat, ih h.1, set, setEntry_of_not_mem hmem]

/-- The last value of a key in the entries of a map without repeated keys is its only one. -/
theorem lastValue?_entries {m : OrderedMap β} (h : m.keys.Nodup) (k : Text) :
    lastValue? k m.entries = m.get? k := by
  have hget := get?_setAll (empty : OrderedMap β) m.entries k
  rw [setAll_entries h, get?_empty, Option.or_none] at hget
  exact hget.symm

/-- A value that is made of the key and the value there was. -/
theorem get?_map {γ : Type} (f : Text → β → γ) (k : Text) : ∀ es : List (Text × β),
    (⟨es.map fun e => (e.1, f e.1 e.2)⟩ : OrderedMap γ).get? k = ((⟨es⟩ : OrderedMap β).get? k).map (f k)
  | [] => rfl
  | e :: es => by
    rw [List.map_cons, get?_mk_cons, get?_mk_cons, get?_map f k es]
    split_ifs with h
    · rw [h, Option.map_some]
    · rfl

/-- **What is left of some writes.** -/
theorem setAll_empty (writes : List (Text × β)) :
    (empty : OrderedMap β).setAll writes = lastWrites writes := by
  have hn := nodup_keys_setAll (m := (empty : OrderedMap β)) List.nodup_nil writes
  have he := entries_eq hn
  rw [keys_setAll] at he
  simp only [get?_setAll, get?_empty, Option.or_none] at he
  rw [lastWrites, ← he]

theorem nodup_keys_lastWrites (writes : List (Text × β)) : (lastWrites writes).keys.Nodup := by
  rw [← setAll_empty]
  exact nodup_keys_setAll (m := (empty : OrderedMap β)) List.nodup_nil writes

/-! ### A single write -/

theorem setEntry_setEntry (k : Text) (v w : β) : ∀ es : List (Text × β),
    setEntry k w (setEntry k v es) = setEntry k w es
  | [] => by simp [setEntry]
  | e :: es => by
    by_cases h : e.1 = k
    · simp [setEntry, h]
    · simp [setEntry, h, setEntry_setEntry k v w es]

/-- A second write to a key takes the place of the first one. -/
theorem set_set (m : OrderedMap β) (k : Text) (v w : β) : (m.set k v).set k w = m.set k w :=
  congrArg mk (setEntry_setEntry k v w m.entries)

theorem setEntry_eq_self {k : Text} {v : β} : ∀ {es : List (Text × β)}, findEntry? k es = some v →
    setEntry k v es = es
  | e :: es, h => by
    unfold findEntry? at h
    unfold setEntry
    split_ifs at h ⊢ with hk
    · rw [← hk, ← Option.some.inj h]
    · rw [setEntry_eq_self h]

/-- To write the value that a key has changes nothing. -/
theorem set_eq_self {m : OrderedMap β} {k : Text} {v : β} (h : m.get? k = some v) : m.set k v = m :=
  congrArg mk (setEntry_eq_self h)

theorem findEntry?_eq_none_iff {k : Text} : ∀ {es : List (Text × β)},
    findEntry? k es = none ↔ k ∉ es.map Prod.fst
  | [] => by
    unfold findEntry?
    simp
  | e :: es => by
    unfold findEntry?
    rw [List.map_cons, List.mem_cons, not_or, ← findEntry?_eq_none_iff]
    by_cases h : e.1 = k
    · simp [h]
    · simp [h, Ne.symm h]

/-- A key without a value was not written. -/
theorem get?_eq_none_iff {m : OrderedMap β} {k : Text} : m.get? k = none ↔ k ∉ m.keys :=
  findEntry?_eq_none_iff

theorem contains_eq_false_iff {m : OrderedMap β} {k : Text} : m.contains k = false ↔ m.get? k = none := by
  rw [contains, Option.isSome_eq_false_iff, Option.isNone_iff_eq_none]

/-- A key that was not written is appended. -/
theorem entries_set_of_get?_eq_none {m : OrderedMap β} {k : Text} (h : m.get? k = none) (v : β) :
    (m.set k v).entries = m.entries ++ [(k, v)] := setEntry_of_not_mem (get?_eq_none_iff.mp h) v

/-! ### Maps with the same values -/

/-- **The maps have the same keys with the same values**, in any order. -/
def Agrees (m n : OrderedMap β) : Prop := ∀ k, m.get? k = n.get? k

namespace Agrees

variable {m n : OrderedMap β}

/-- Writes keep maps alike. -/
protected theorem setAll (h : m.Agrees n) (writes : List (Text × β)) :
    (m.setAll writes).Agrees (n.setAll writes) := fun k => by
  rw [get?_setAll, get?_setAll, h k]

theorem mem_keys_iff (h : m.Agrees n) (k : Text) : k ∈ m.keys ↔ k ∈ n.keys := by
  rw [← not_iff_not, ← get?_eq_none_iff, ← get?_eq_none_iff, h k]

theorem perm_keys (h : m.Agrees n) (hm : m.keys.Nodup) (hn : n.keys.Nodup) : m.keys.Perm n.keys :=
  (List.perm_ext_iff_of_nodup hm hn).mpr h.mem_keys_iff

end Agrees

/-- **Writes to different keys commute**, up to the order of the keys. -/
theorem agrees_setAll_setAll {writes others : List (Text × β)}
    (h : List.Disjoint (writes.map Prod.fst) (others.map Prod.fst)) (m : OrderedMap β) :
    ((m.setAll writes).setAll others).Agrees ((m.setAll others).setAll writes) := by
  intro k
  simp only [get?_setAll]
  by_cases hk : k ∈ writes.map Prod.fst
  · rw [lastValue?_eq_none_iff.mpr (h hk), Option.none_or, Option.none_or]
  · rw [lastValue?_eq_none_iff.mpr hk, Option.none_or, Option.none_or]

/-! ### Writes of entries -/

theorem setEntry_comm {j k : Text} (hne : j ≠ k) (v w : β) : ∀ {es : List (Text × β)},
    k ∈ es.map Prod.fst → setEntry k v (setEntry j w es) = setEntry j w (setEntry k v es)
  | e :: es, h => by
    rw [List.map_cons, List.mem_cons] at h
    by_cases hk : e.1 = k
    · subst hk
      simp [setEntry, hne.symm]
    · by_cases hj : e.1 = j
      · subst hj
        simp [setEntry, hk]
      · have ih := setEntry_comm hne v w (h.resolve_left (Ne.symm hk))
        simp [setEntry, hk, hj, ih]

/-- A write to a key that is there may be made earlier, if no write between is one to the same key. -/
theorem set_setAll_comm {k : Text} (v : β) : ∀ {writes : List (Text × β)} {m : OrderedMap β},
    k ∉ writes.map Prod.fst → k ∈ m.keys → (m.setAll writes).set k v = (m.set k v).setAll writes
  | [], _, _, _ => rfl
  | w :: ws, m, h, hm => by
    rw [List.map_cons, List.mem_cons, not_or] at h
    have hmem : k ∈ (m.set w.1 w.2).keys := by
      rw [keys_set]
      split_ifs
      · exact hm
      · exact List.mem_append_left _ hm
    have hcomm : (m.set w.1 w.2).set k v = (m.set k v).set w.1 w.2 :=
      congrArg mk (setEntry_comm (Ne.symm h.1) v w.2 hm)
    have ih := set_setAll_comm v h.2 hmem
    rw [hcomm] at ih
    exact ih

/-- **To write all entries of a map in which a key was written** is to write all entries of the map, then the
key. -/
theorem setAll_setEntry (k : Text) (v : β) : ∀ {es : List (Text × β)}, (es.map Prod.fst).Nodup →
    ∀ m : OrderedMap β, m.setAll (setEntry k v es) = (m.setAll es).set k v
  | [], _, _ => rfl
  | e :: es, h, m => by
    rw [List.map_cons, List.nodup_cons] at h
    have hcons : ∀ (x : Text × β) (xs : List (Text × β)), m.setAll (x :: xs) = (m.set x.1 x.2).setAll xs :=
      fun _ _ => rfl
    rw [setEntry]
    split_ifs with hk
    · -- The key keeps its place, so it is written before the entries behind it.
      subst hk
      have hmem : e.1 ∈ (m.set e.1 e.2).keys := by
        rw [← not_not (a := e.1 ∈ _), ← get?_eq_none_iff, get?_set, if_pos rfl]
        exact Option.some_ne_none e.2
      rw [hcons, hcons, set_setAll_comm v h.1 hmem, set_set]
    · rw [hcons, hcons, setAll_setEntry k v h.2]

end OrderedMap

end EditorSettings
