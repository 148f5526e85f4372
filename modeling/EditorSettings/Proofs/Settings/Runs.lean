import EditorSettings.Proofs.Lookup.Merging
import EditorSettings.Proofs.Text.LowerCase
import Mathlib.Data.Finset.Card

/-!
# Settings as a record of writes

Settings are changed by writing a value, by writing a section and by completing the sizes, and each of
these is a list of writes (`Step.writes`): a section writes its properties under lower-cased keys, and the
completion is three writes under a condition each, to two keys.  So every step is its writes in a row
(`Step.apply_eq_setAll`), and a run of any steps is one long list of writes (`runFrom_eq_setAll`).

Settings made by writes from nothing are a record of them (`records_setAll`): every key that was written
once, in the order of the first writes, each with the value of its last write.  This holds after every
step of every run (`records_run`).
-/

namespace EditorSettings

namespace Settings

open OrderedMap

/-! ### Steps -/

/-- A write that depends on the settings, or none. -/
abbrev GuardedWrite := Settings → Option (Text × Value)

/-- The size `tab` for an indentation by tabs without a size. -/
def indentSizeWrite? (version : Version) : GuardedWrite := fun m =>
  if m.isTab indentStyle && !m.contains indentSize && version.reaches Version.tabSizeSince then
    some (indentSize, .text tab)
  else none

/-- The size of an indentation for a tab without a width. -/
def tabWidthWrite? : GuardedWrite := fun m =>
  (m.get? indentSize).bind fun size =>
    if size.isText tab || m.contains tabWidth then none else some (tabWidth, size)

/-- The width of a tab for an indentation of the size `tab`. -/
def finalSizeWrite? : GuardedWrite := fun m =>
  if m.isTab indentSize then (m.get? tabWidth).map fun width => (indentSize, width) else none

/-- The writes that some guarded writes in a row come to. -/
def guardedWrites : Settings → List GuardedWrite → List (Text × Value)
  | _, [] => []
  | m, w :: ws => (w m).toList ++ guardedWrites (m.setAll (w m).toList) ws

/-- **A step that changes settings.** -/
inductive Step
  /-- A value is written. -/
  | put (key : Text) (value : Value)
  /-- A section is written. -/
  | fold (s : Section)
  /-- The sizes are completed. -/
  | complete (version : Version)

namespace Step

/-- The settings after a step. -/
def apply (m : Settings) : Step → Settings
  | put key value => m.set key value
  | fold s => m.writeSection s
  | complete version => Settings.complete version m

/-- The writes of a step, in order. -/
def writes (m : Settings) : Step → List (Text × Value)
  | put key value => [(key, value)]
  | fold s => s.writes
  | complete version => guardedWrites m [indentSizeWrite? version, tabWidthWrite?, finalSizeWrite?]

end Step

/-- The settings after some steps. -/
def runFrom (m : Settings) (steps : List Step) : Settings := steps.foldl Step.apply m

/-- The settings after some steps from nothing. -/
def run (steps : List Step) : Settings := runFrom OrderedMap.empty steps

/-- The writes of some steps in a row. -/
def writesFrom : Settings → List Step → List (Text × Value)
  | _, [] => []
  | m, s :: steps => s.writes m ++ writesFrom (s.apply m) steps

/-- The writes of some steps from nothing. -/
def writes (steps : List Step) : List (Text × Value) := writesFrom OrderedMap.empty steps

/-! ### A step is its writes -/

theorem completeIndentSize_eq (version : Version) (m : Settings) :
    completeIndentSize version m = m.setAll (indentSizeWrite? version m).toList := by
  unfold completeIndentSize indentSizeWrite?
  split_ifs <;> rfl

theorem completeTabWidth_eq (m : Settings) :
    completeTabWidth m = m.setAll (tabWidthWrite? m).toList := by
  unfold completeTabWidth tabWidthWrite?
  cases m.get? indentSize with
  | none => rfl
  | some size =>
    rw [Option.bind_some]
    dsimp only
    split_ifs <;> rfl

theorem finishIndentSize_eq (m : Settings) :
    finishIndentSize m = m.setAll (finalSizeWrite? m).toList := by
  unfold finishIndentSize finalSizeWrite?
  split_ifs
  · cases m.get? tabWidth <;> rfl
  · rfl

theorem key_of_mem_indentSizeWrite? {version : Version} {m : Settings} {w : Text × Value}
    (h : w ∈ indentSizeWrite? version m) : w.1 = indentSize := by
  unfold indentSizeWrite? at h
  split_ifs at h
  · rw [← Option.some.inj h]
  · cases h

theorem key_of_mem_tabWidthWrite? {m : Settings} {w : Text × Value} (h : w ∈ tabWidthWrite? m) :
    w.1 = tabWidth := by
  obtain ⟨size, -, h⟩ := Option.bind_eq_some_iff.mp h
  split_ifs at h
  rw [← Option.some.inj h]

theorem key_of_mem_finalSizeWrite? {m : Settings} {w : Text × Value} (h : w ∈ finalSizeWrite? m) :
    w.1 = indentSize := by
  unfold finalSizeWrite? at h
  split_ifs at h
  · obtain ⟨width, -, rfl⟩ := Option.map_eq_some_iff.mp h
    rfl
  · cases h

/-- **A step is its writes in a row.** -/
theorem Step.apply_eq_setAll (m : Settings) : ∀ s : Step, s.apply m = m.setAll (s.writes m)
  | .put _ _ => rfl
  | .fold s => writeSection_eq m s
  | .complete version => by
    rw [Step.apply, Step.writes, Settings.complete, completeIndentSize_eq, completeTabWidth_eq,
      finishIndentSize_eq]
    simp only [guardedWrites, setAll_append, List.append_nil]

/-- A section is written under lower-cased keys. -/
theorem Step.keys_writes_fold (m : Settings) (s : Section) :
    ((Step.fold s).writes m).map Prod.fst = s.properties.entries.map fun p => Text.lowercase p.1 := by
  rw [Step.writes, Section.writes, List.map_map]
  rfl

/-- The completion writes to two keys. -/
theorem Step.mem_writes_complete {m : Settings} {version : Version} {w : Text × Value}
    (h : w ∈ (Step.complete version).writes m) : w.1 = indentSize ∨ w.1 = tabWidth := by
  simp only [Step.writes, guardedWrites, List.append_nil, List.mem_append, Option.mem_toList] at h
  rcases h with h | h | h
  · exact .inl (key_of_mem_indentSizeWrite? h)
  · exact .inr (key_of_mem_tabWidthWrite? h)
  · exact .inl (key_of_mem_finalSizeWrite? h)

/-! ### A run is its writes -/

theorem runFrom_eq_setAll : ∀ (steps : List Step) (m : Settings),
    runFrom m steps = m.setAll (writesFrom m steps)
  | [], _ => rfl
  | s :: steps, m => by
    have ih := runFrom_eq_setAll steps (s.apply m)
    unfold runFrom at ih ⊢
    rw [List.foldl_cons, ih, writesFrom, setAll_append, Step.apply_eq_setAll]

theorem writesFrom_append : ∀ (steps later : List Step) (m : Settings),
    writesFrom m (steps ++ later) = writesFrom m steps ++ writesFrom (runFrom m steps) later
  | [], _, _ => rfl
  | s :: steps, later, m => by
    rw [List.cons_append, writesFrom, writesFrom, writesFrom_append steps later, List.append_assoc]
    rfl

/-! ### What is left of writes -/

/-- **Settings that are a record of writes.** -/
structure Records (m : Settings) (writes : List (Text × Value)) : Prop where
  /-- No key occurs twice. -/
  nodup : m.keys.Nodup
  /-- The keys are those that were written. -/
  mem_keys : ∀ k, k ∈ m.keys ↔ k ∈ writes.map Prod.fst
  /-- They are in the order of their first writes. -/
  order : m.keys.Pairwise fun j k => (writes.map Prod.fst).idxOf j < (writes.map Prod.fst).idxOf k
  /-- There are as many of them as distinct keys were written. -/
  size : m.size = (writes.map Prod.fst).toFinset.card
  /-- Every key has the value of its last write. -/
  get? : ∀ k, m.get? k = lastValue? k writes
  /-- A key without a value was never written. -/
  get?_eq_none : ∀ k, m.get? k = none ↔ k ∉ writes.map Prod.fst
  /-- The test for a key agrees with reading it. -/
  contains : ∀ k, m.contains k = (m.get? k).isSome
  /-- The entries are in the order of the keys. -/
  entries : m.entries = m.keys.filterMap fun k => (lastValue? k writes).map fun v => (k, v)
  /-- So is the JSON object. -/
  json : m.json = ['{'] ++ [','].intercalate
    (m.keys.filterMap fun k => (lastValue? k writes).map fun v => jsonEntry (k, v)) ++ ['}']

/-- **Writes from nothing leave a record of them.** -/
theorem records_setAll (writes : List (Text × Value)) :
    Records ((OrderedMap.empty : Settings).setAll writes) writes := by
  set m : Settings := (OrderedMap.empty : Settings).setAll writes with hm
  have hnodup : m.keys.Nodup := nodup_keys_setAll (m := OrderedMap.empty) List.nodup_nil writes
  have hkeys : m.keys = (writes.map Prod.fst).eraseDups := keys_setAll writes
  have hget : ∀ k, m.get? k = lastValue? k writes := fun k => by
    rw [hm, get?_setAll, get?_empty, Option.or_none]
  have hentries : m.entries = m.keys.filterMap fun k => (lastValue? k writes).map fun v => (k, v) := by
    conv_lhs => rw [entries_eq hnodup]
    simp only [hget]
  refine ⟨hnodup, fun k => ?_, ?_, ?_, hget, fun k => ?_, fun _ => rfl, hentries, ?_⟩
  · rw [hkeys, List.mem_eraseDups]
  · rw [hkeys]
    exact pairwise_eraseDups _
  · have hset : m.keys.toFinset = (writes.map Prod.fst).toFinset := by
      ext k
      rw [List.mem_toFinset, List.mem_toFinset, hkeys, List.mem_eraseDups]
    rw [← hset, List.toFinset_card_of_nodup hnodup, keys, List.length_map, size]
  · rw [hget, lastValue?_eq_none_iff]
  · rw [Settings.json, hentries, List.map_filterMap]
    simp only [Option.map_map, Function.comp_def]

/-- **After every step of a run the settings are a record of the writes so far.**  Sections write under
lower-cased keys, and the completion writes to the size of an indentation and the width of a tab only. -/
theorem records_run (steps : List Step) (n : ℕ) :
    Records (run (steps.take n)) (writes (steps.take n)) ∧
      writes (steps.take n) <+: writes steps ∧
      (∀ (m : Settings) (s : Section),
        ((Step.fold s).writes m).map Prod.fst = s.properties.entries.map fun p => Text.lowercase p.1) ∧
      (∀ (m : Settings) (s : Section), ∀ w ∈ (Step.fold s).writes m, Text.lowercase w.1 = w.1) ∧
      ∀ (m : Settings) (version : Version), ∀ w ∈ (Step.complete version).writes m,
        w.1 = indentSize ∨ w.1 = tabWidth := by
  refine ⟨?_, ?_, Step.keys_writes_fold, fun m s w hw => ?_, fun m version w => Step.mem_writes_complete⟩
  · rw [run, runFrom_eq_setAll]
    exact records_setAll _
  · have h := writesFrom_append (steps.take n) (steps.drop n) OrderedMap.empty
    rw [List.take_append_drop] at h
    exact ⟨_, h.symm⟩
  · have hk := List.mem_map_of_mem (f := Prod.fst) hw
    rw [Step.keys_writes_fold, List.mem_map] at hk
    obtain ⟨p, -, hp⟩ := hk
    rw [← hp, Text.lowercase_lowercase]

/-- A run in which a section with keys in three cases and a completion write over a value, and another
value is written at the end. -/
def mixedSteps : List Step :=
  [.put indentStyle (.text tab),
    .fold ⟨some ['*'], ⟨[("Indent_Style".toList, "TAB".toList), ("tab_Width".toList, ['4']),
      ("TAB_WIDTH".toList, ['8'])]⟩⟩,
    .complete Version.current, .put tabWidth (.bool true)]

theorem records_run_mixedSteps :
    Records (run mixedSteps) (writes mixedSteps) ∧
      writes mixedSteps =
        [(indentStyle, .text tab), (indentStyle, .text tab), (tabWidth, .number (Binary64.ofInt 4)),
          (tabWidth, .number (Binary64.ofInt 8)), (indentSize, .text tab),
          (indentSize, .number (Binary64.ofInt 8)), (tabWidth, .bool true)] ∧
      (run mixedSteps).entries =
        [(indentStyle, .text tab), (tabWidth, .bool true), (indentSize, .number (Binary64.ofInt 8))] := by
  refine ⟨?_, by decide +kernel, by decide +kernel⟩
  have h := (records_run mixedSteps 4).1
  rwa [show mixedSteps.take 4 = mixedSteps from rfl] at h

end Settings

end EditorSettings
