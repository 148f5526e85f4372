import EditorSettings.Proofs.OrderedMap
import EditorSettings.Proofs.Version.Order
import EditorSettings.Settings

/-!
# The completion of sizes

Three rules complete the size of an indentation and the width of a tab, and each reads what the rules before
it wrote.  Together they write at most one value (`complete_eq`):

* without a size, an indentation by tabs gets the width of a tab as its size, or the size `tab` if there is no
  width, from a certain version on;
* an indentation of the size `tab` gets the width of a tab as its size, if there is one;
* a tab without a width is as wide as an indentation of any other size.

So the completion changes nothing but these two keys, and a second one changes nothing at all
(`completed_complete`).  The version only decides whether the first write takes place
(`complete_threshold`).
-/

namespace EditorSettings

namespace Settings

open OrderedMap

variable {version : Version} {m : Settings}

/-! ### The three rules -/

theorem isText_iff {v : Value} {t : Text} : v.isText t = true ↔ v = .text t := by
  cases v <;> simp [Value.isText, Value.text?]

theorem isTab_iff {k : Text} : m.isTab k = true ↔ m.get? k = some (.text tab) := by
  unfold isTab
  cases m.get? k with
  | none => simp
  | some v => simp [isText_iff]

theorem completeIndentSize_of_size {size : Value} (h : m.get? indentSize = some size) :
    completeIndentSize version m = m := by
  simp [completeIndentSize, contains, h]

theorem completeIndentSize_of_none (h : m.get? indentSize = none) : completeIndentSize version m =
    if m.isTab indentStyle && version.reaches Version.tabSizeSince then m.set indentSize (.text tab)
    else m := by
  simp [completeIndentSize, contains, h]

theorem completeTabWidth_of_none (h : m.get? indentSize = none) : completeTabWidth m = m := by
  rw [completeTabWidth, h]

theorem completeTabWidth_of_tab (h : m.get? indentSize = some (.text tab)) : completeTabWidth m = m := by
  simp [completeTabWidth, h, isText_iff.mpr]

theorem completeTabWidth_of_ne {size : Value} (h : m.get? indentSize = some size)
    (hne : size ≠ .text tab) :
    completeTabWidth m = if m.contains tabWidth then m else m.set tabWidth size := by
  simp [completeTabWidth, h, mt isText_iff.mp hne]

theorem finishIndentSize_of_ne (h : m.get? indentSize ≠ some (.text tab)) : finishIndentSize m = m := by
  rw [finishIndentSize, if_neg (mt isTab_iff.mp h)]

theorem finishIndentSize_of_tab (h : m.get? indentSize = some (.text tab)) :
    finishIndentSize m = m.setAll ((m.get? tabWidth).map fun width => (indentSize, width)).toList := by
  rw [finishIndentSize, if_pos (isTab_iff.mpr h)]
  cases m.get? tabWidth <;> rfl

/-! ### The only write -/

/-- The write of a completion, if there is one. -/
def completion? (version : Version) (m : Settings) : Option (Text × Value) :=
  match m.get? indentSize with
  | none =>
    if m.isTab indentStyle && version.reaches Version.tabSizeSince then
      some (indentSize, (m.get? tabWidth).getD (.text tab))
    else none
  | some size =>
    if size.isText tab then (m.get? tabWidth).map fun width => (indentSize, width)
    else if m.contains tabWidth then none
    else some (tabWidth, size)

theorem completion?_of_none (h : m.get? indentSize = none) : completion? version m =
    if m.isTab indentStyle && version.reaches Version.tabSizeSince then
      some (indentSize, (m.get? tabWidth).getD (.text tab))
    else none := by
  rw [completion?, h]

theorem completion?_of_tab (h : m.get? indentSize = some (.text tab)) :
    completion? version m = (m.get? tabWidth).map fun width => (indentSize, width) := by
  rw [completion?, h]
  exact if_pos (isText_iff.mpr rfl)

theorem completion?_of_ne {size : Value} (h : m.get? indentSize = some size) (hne : size ≠ .text tab) :
    completion? version m = if m.contains tabWidth then none else some (tabWidth, size) := by
  rw [completion?, h]
  exact if_neg (mt isText_iff.mp hne)

theorem tabWidth_ne_indentSize : tabWidth ≠ indentSize := by decide

/-- **A completion writes at most one value.** -/
theorem complete_eq (version : Version) (m : Settings) :
    complete version m = m.setAll (completion? version m).toList := by
  unfold complete
  cases hsize : m.get? indentSize with
  | none =>
    rw [completeIndentSize_of_none hsize, completion?_of_none hsize]
    split_ifs with htab
    · -- The size `tab` is written, and the width of a tab in its place.
      have hset : (m.set indentSize (.text tab)).get? indentSize = some (.text tab) := by simp [get?_set]
      have hwidth : (m.set indentSize (.text tab)).get? tabWidth = m.get? tabWidth := by
        simp [get?_set, tabWidth_ne_indentSize]
      rw [completeTabWidth_of_tab hset, finishIndentSize_of_tab hset, hwidth]
      cases m.get? tabWidth with
      | none => simp [setAll]
      | some width => simp [setAll, set_set]
    · rw [completeTabWidth_of_none hsize, finishIndentSize_of_ne (by rw [hsize]; nofun)]
      rfl
  | some size =>
    rw [completeIndentSize_of_size hsize]
    by_cases htab : size = .text tab
    · subst htab
      rw [completeTabWidth_of_tab hsize, finishIndentSize_of_tab hsize, completion?_of_tab hsize]
    · -- Here the last rule does not apply, whether a width is written or not.
      have hkeep : ((if m.contains tabWidth then m else m.set tabWidth size) : Settings).get? indentSize =
          some size := by
        split_ifs
        · exact hsize
        · rw [get?_set, if_neg tabWidth_ne_indentSize.symm, hsize]
      rw [completeTabWidth_of_ne hsize htab, completion?_of_ne hsize htab,
        finishIndentSize_of_ne (by rw [hkeep, ne_eq, Option.some.injEq]; exact htab)]
      split_ifs <;> rfl

/-- The write of a completion depends on the values only, not on the order of the keys. -/
theorem completion?_congr {n : Settings} (h : m.Agrees n) :
    completion? version m = completion? version n := by
  have hget : ∀ k, m.get? k = n.get? k := h
  unfold completion? isTab contains
  simp only [hget]

theorem agrees_complete {n : Settings} (h : m.Agrees n) (version : Version) :
    (complete version m).Agrees (complete version n) := by
  rw [complete_eq, complete_eq, completion?_congr h]
  exact h.setAll _

theorem nodup_keys_complete (h : m.keys.Nodup) (version : Version) : (complete version m).keys.Nodup := by
  rw [complete_eq]
  exact nodup_keys_setAll h _

/-- **The writes of a completion**, by what they are for. -/
inductive Completes (version : Version) (m : Settings) : Text × Value → Prop
  /-- Indentation by tabs, without a size. -/
  | style (hsize : m.get? indentSize = none) (hstyle : m.isTab indentStyle = true)
      (hversion : version.reaches Version.tabSizeSince = true) :
      Completes version m (indentSize, (m.get? tabWidth).getD (.text tab))
  /-- An indentation of the size `tab`. -/
  | size {width : Value} (hsize : m.get? indentSize = some (.text tab))
      (hwidth : m.get? tabWidth = some width) : Completes version m (indentSize, width)
  /-- A tab without a width. -/
  | width {size : Value} (hsize : m.get? indentSize = some size) (hne : size ≠ .text tab)
      (hwidth : m.get? tabWidth = none) : Completes version m (tabWidth, size)

variable {w : Text × Value}

theorem mem_completion?_iff : w ∈ completion? version m ↔ Completes version m w := by
  constructor
  · intro h
    cases hsize : m.get? indentSize with
    | none =>
      rw [completion?_of_none hsize, Option.mem_ite_none_right, Bool.and_eq_true] at h
      obtain ⟨⟨hstyle, hversion⟩, h⟩ := h
      rw [← Option.mem_some_iff.mp h]
      exact .style hsize hstyle hversion
    | some size =>
      by_cases htab : size = .text tab
      · subst htab
        rw [completion?_of_tab hsize, Option.mem_def, Option.map_eq_some_iff] at h
        obtain ⟨width, hwidth, rfl⟩ := h
        exact .size hsize hwidth
      · rw [completion?_of_ne hsize htab, Option.mem_ite_none_left, contains,
          Option.not_isSome_iff_eq_none] at h
        obtain ⟨hwidth, h⟩ := h
        rw [← Option.mem_some_iff.mp h]
        exact .width hsize htab hwidth
  · rintro (⟨hsize, hstyle, hversion⟩ | ⟨hsize, hwidth⟩ | ⟨hsize, hne, hwidth⟩)
    · rw [completion?_of_none hsize, hstyle, hversion]
      rfl
    · rw [completion?_of_tab hsize, hwidth]
      rfl
    · rw [completion?_of_ne hsize hne, contains, hwidth]
      rfl

/-- Without a size, only indentation by tabs in a version behind the threshold has a write. -/
theorem completes_iff_of_none (h : m.get? indentSize = none) : Completes version m w ↔
    m.isTab indentStyle = true ∧ version.reaches Version.tabSizeSince = true ∧
      w = (indentSize, (m.get? tabWidth).getD (.text tab)) := by
  constructor
  · rintro (⟨-, hstyle, hversion⟩ | ⟨hsize, -⟩ | ⟨hsize, -, -⟩)
    · exact ⟨hstyle, hversion, rfl⟩
    · rw [h] at hsize
      cases hsize
    · rw [h] at hsize
      cases hsize
  · rintro ⟨hstyle, hversion, rfl⟩
    exact .style h hstyle hversion

theorem complete_of_completes (h : Completes version m w) : complete version m = m.set w.1 w.2 := by
  rw [complete_eq, Option.mem_def.mp (mem_completion?_iff.mpr h)]
  rfl

theorem complete_of_forall_not (h : ∀ w, ¬ Completes version m w) : complete version m = m := by
  have hnone : completion? version m = none := Option.eq_none_iff_forall_not_mem.mpr fun w hw =>
    h w (mem_completion?_iff.mp hw)
  rw [complete_eq, hnone]
  rfl

/-- Settings that a completion does not change are those in which its write is already there. -/
theorem complete_eq_self (h : ∀ w, Completes version m w → m.get? w.1 = some w.2) :
    complete version m = m := by
  by_cases hw : ∃ w, Completes version m w
  · obtain ⟨w, hw⟩ := hw
    rw [complete_of_completes hw, set_eq_self (h w hw)]
  · exact complete_of_forall_not (not_exists.mp hw)

namespace Completes

theorem key_eq (h : Completes version m w) : w.1 = indentSize ∨ w.1 = tabWidth := by
  cases h <;> simp

/-- A width is not written over. -/
theorem get?_tabWidth_set {width : Value} (h : Completes version m w) (hw : m.get? tabWidth = some width) :
    (m.set w.1 w.2).get? tabWidth = some width := by
  rw [get?_set]
  cases h with
  | style | size => rw [if_neg tabWidth_ne_indentSize, hw]
  | width _ _ hwidth => rw [hwidth] at hw; cases hw

/-- The only size that is written over is `tab`. -/
theorem get?_indentSize_set {size : Value} (h : Completes version m w) (hs : m.get? indentSize = some size)
    (hne : size ≠ .text tab) : (m.set w.1 w.2).get? indentSize = some size := by
  rw [get?_set]
  cases h with
  | style hsize => rw [hsize] at hs; cases hs
  | size hsize => exact absurd (Option.some.inj (hs.symm.trans hsize)) hne
  | width => rw [if_neg tabWidth_ne_indentSize.symm, hs]

/-- **Behind the write of a completion there is nothing left to complete.** -/
theorem set_get? (h : Completes version m w) {u : Text × Value} (hu : Completes version (m.set w.1 w.2) u) :
    (m.set w.1 w.2).get? u.1 = some u.2 := by
  have hne := tabWidth_ne_indentSize
  cases h with
  | style hsize =>
    -- The size is now the width, or `tab` if there is none.
    cases hu with
    | style hsize' => simp [get?_set] at hsize'
    | size hsize' hwidth => simp_all [get?_set]
    | width hsize' htab hwidth => simp_all [get?_set]
  | size hsize hwidth =>
    -- The size is now the width.
    cases hu with
    | style hsize' => simp [get?_set] at hsize'
    | size hsize' hwidth' => simp_all [get?_set]
    | width hsize' htab hwidth' => simp_all [get?_set]
  | width hsize htab hwidth =>
    -- The width is now the size, which is still not `tab`.
    cases hu with
    | style hsize' => simp_all [get?_set]
    | size hsize' hwidth' => simp_all [get?_set]
    | width hsize' htab' hwidth' => simp [get?_set] at hwidth'

end Completes

/-! ### What a completion leaves -/

/-- **The settings `d` complete the sizes of `m` and leave everything else.** -/
structure Completed (version : Version) (m d : Settings) : Prop where
  /-- The keys keep their places, and at most a size is appended. -/
  keys : ∃ added, d.keys = m.keys ++ added ∧ added.length ≤ 1 ∧
    ∀ k ∈ added, k = indentSize ∨ k = tabWidth
  /-- All other keys keep their values. -/
  others : ∀ k, k ≠ indentSize → k ≠ tabWidth → d.get? k = m.get? k
  /-- A width of a tab is kept. -/
  width : ∀ width, m.get? tabWidth = some width → d.get? tabWidth = some width
  /-- A size of an indentation is kept, unless it is `tab`. -/
  size : ∀ size, m.get? indentSize = some size → size ≠ .text tab → d.get? indentSize = some size
  /-- Without a width there is no size but `tab`. -/
  widthless : d.contains indentSize = true → d.contains tabWidth = false →
    d.get? indentSize = some (.text tab)
  /-- A size `tab` beside a width is the width. -/
  tabSize : d.contains tabWidth = true → d.get? indentSize = some (.text tab) →
    d.get? tabWidth = some (.text tab)
  /-- The version decides whether indentation by tabs gets a size. -/
  gate : m.isTab indentStyle = true → m.contains indentSize = false →
    (d.contains indentSize = true ↔ version.reaches Version.tabSizeSince = true)
  /-- There is nothing left to complete. -/
  again : complete version d = d

/-- **A completion changes nothing**, or it makes its write. -/
theorem complete_cases (version : Version) (m : Settings) :
    ((∀ w, ¬ Completes version m w) ∧ complete version m = m) ∨
      ∃ w, Completes version m w ∧ complete version m = m.set w.1 w.2 := by
  by_cases h : ∃ w, Completes version m w
  · obtain ⟨w, hw⟩ := h
    exact .inr ⟨w, hw, complete_of_completes hw⟩
  · exact .inl ⟨not_exists.mp h, complete_of_forall_not (not_exists.mp h)⟩

/-- What a completion would write is already there behind a completion. -/
theorem get?_complete_of_completes (h : Completes version (complete version m) w) :
    (complete version m).get? w.1 = some w.2 := by
  rcases complete_cases version m with ⟨hnone, he⟩ | ⟨u, hu, he⟩
  · rw [he] at h
    exact absurd h (hnone w)
  · rw [he] at h ⊢
    exact hu.set_get? h

theorem complete_complete (version : Version) (m : Settings) :
    complete version (complete version m) = complete version m :=
  complete_eq_self fun _ => get?_complete_of_completes

theorem keys_complete (version : Version) (m : Settings) :
    ∃ added, (complete version m).keys = m.keys ++ added ∧ added.length ≤ 1 ∧
      ∀ k ∈ added, k = indentSize ∨ k = tabWidth := by
  rcases complete_cases version m with ⟨-, he⟩ | ⟨w, hw, he⟩
  · exact ⟨[], by rw [he, List.append_nil], by simp, by simp⟩
  · rw [he, keys_set]
    split_ifs
    · exact ⟨[], (List.append_nil _).symm, by simp, by simp⟩
    · exact ⟨[w.1], rfl, le_rfl, fun k hk => List.mem_singleton.mp hk ▸ hw.key_eq⟩

/-- **A completion completes the sizes and leaves everything else.** -/
theorem completed_complete (version : Version) (m : Settings) :
    Completed version m (complete version m) := by
  have hcases := complete_cases version m
  refine ⟨keys_complete version m, fun k hk hk' => ?others, fun width hw => ?width,
    fun size hs hne => ?size, fun hs hw => ?widthless, fun hw hs => ?tabSize,
    fun hstyle hsize => ?gate, complete_complete version m⟩
  case others =>
    rcases hcases with ⟨-, he⟩ | ⟨w, h, he⟩ <;> rw [he]
    rcases h.key_eq with h | h <;> rw [get?_set, h] <;> simp [hk, hk']
  case width =>
    rcases hcases with ⟨-, he⟩ | ⟨w, h, he⟩ <;> rw [he]
    · exact hw
    · exact h.get?_tabWidth_set hw
  case size =>
    rcases hcases with ⟨-, he⟩ | ⟨w, h, he⟩ <;> rw [he]
    · exact hs
    · exact h.get?_indentSize_set hs hne
  case widthless =>
    obtain ⟨size, hs⟩ := Option.isSome_iff_exists.mp hs
    have hw : (complete version m).get? tabWidth = none := contains_eq_false_iff.mp hw
    by_contra hne
    have hwrite := get?_complete_of_completes (.width hs (fun h => hne (h ▸ hs)) hw)
    rw [hw] at hwrite
    cases hwrite
  case tabSize =>
    obtain ⟨width, hw⟩ := Option.isSome_iff_exists.mp hw
    have hwrite := get?_complete_of_completes (.size hs hw)
    rw [hw, ← hwrite, hs]
  case gate =>
    have hnone : m.get? indentSize = none := contains_eq_false_iff.mp hsize
    constructor
    · intro hd
      by_contra hversion
      rw [complete_of_forall_not (fun _ h => hversion ((completes_iff_of_none hnone).mp h).2.1), hsize] at hd
      cases hd
    · intro hversion
      rw [complete_of_completes (.style hnone hstyle hversion), contains, get?_set, if_pos rfl]
      rfl

/-! ### The version -/

/-- The relation of the versions to the threshold is all that matters. -/
theorem complete_congr {v w : Version}
    (h : v.reaches Version.tabSizeSince = w.reaches Version.tabSizeSince) (m : Settings) :
    complete v m = complete w m := by
  unfold complete completeIndentSize
  rw [h]

/-- Behind the threshold at most a size of an indentation is appended. -/
theorem entries_complete_of_reaches {v w : Version} (hv : ¬ v.reaches Version.tabSizeSince = true)
    (hw : w.reaches Version.tabSizeSince = true) (m : Settings) :
    ∃ added, (complete w m).entries = (complete v m).entries ++ added ∧ added.length ≤ 1 ∧
      ∀ e ∈ added, e.1 = indentSize := by
  cases hsize : m.get? indentSize with
  | some size =>
    refine ⟨[], ?_, by simp, by simp⟩
    rw [List.append_nil, complete, completeIndentSize_of_size hsize, complete,
      completeIndentSize_of_size hsize]
  | none =>
    rw [complete_of_forall_not (fun _ h => hv ((completes_iff_of_none hsize).mp h).2.1)]
    by_cases hstyle : m.isTab indentStyle = true
    · rw [complete_of_completes (.style hsize hstyle hw)]
      exact ⟨_, entries_set_of_get?_eq_none hsize _, le_rfl, by simp⟩
    · refine ⟨[], ?_, by simp, by simp⟩
      rw [List.append_nil, complete_of_forall_not fun _ h => hstyle ((completes_iff_of_none hsize).mp h).1]

/-- **The version is one threshold.**  Versions are totally ordered: one reaches itself and those that
precede it.  Of two versions in this order, the greater one completes the same sizes as the other, unless
the threshold is between them; then it keeps all that the other one leaves and appends at most a size of an
indentation. -/
theorem complete_threshold :
    (∀ v : Version, v.reaches v = true) ∧
    (∀ u v w : Version, u.reaches v = true → v.reaches w = true → u.reaches w = true) ∧
    (∀ v w : Version, v.reaches w = true → w.reaches v = true → v = w) ∧
    (∀ v w : Version, v.reaches w = true ∨ w.reaches v = true) ∧
    (∀ v w : Version, v.reaches w = true ↔ v = w ∨ w.Precedes v) ∧
    ∀ (m : Settings) (v w : Version), w.reaches v = true →
      (v.reaches Version.tabSizeSince = w.reaches Version.tabSizeSince → complete v m = complete w m) ∧
      (v.reaches Version.tabSizeSince ≠ w.reaches Version.tabSizeSince →
        w.reaches Version.tabSizeSince = true ∧
        ∃ added, (complete w m).entries = (complete v m).entries ++ added ∧ added.length ≤ 1 ∧
          ∀ e ∈ added, e.1 = indentSize) := by
  refine ⟨Version.reaches_refl, fun _ _ _ => Version.reaches_trans, fun _ _ => Version.reaches_antisymm,
    Version.reaches_total, Version.reaches_iff, fun m v w h => ⟨fun he => complete_congr he m, fun hne => ?_⟩⟩
  -- The greater version is the one that reaches the threshold.
  have hw : w.reaches Version.tabSizeSince = true := by
    by_contra hw
    cases hv : v.reaches Version.tabSizeSince with
    | true => exact hw (Version.reaches_trans h hv)
    | false => exact hne (hv.trans (Bool.eq_false_iff.mpr hw).symm)
  exact ⟨hw, entries_complete_of_reaches (fun hv => hne (hv.trans hw.symm)) hw m⟩

/-- The pre-release `0.10.0-rc.2`. -/
def releaseCandidate : Version := ⟨0, 10, 0, [.word "rc".toList, .number 2 1], []⟩

/-- Indentation by tabs of width eight. -/
def wideTabs : Settings := ⟨[(indentStyle, .text tab), (tabWidth, .number (Binary64.ofInt 8))]⟩

theorem complete_threshold_wideTabs :
    Version.tabSizeSince.reaches (Version.release 0 9 3) = true ∧
    complete Version.tabSizeSince wideTabs = complete Version.current wideTabs ∧
    (∃ added, (complete Version.tabSizeSince wideTabs).entries =
      (complete releaseCandidate wideTabs).entries ++ added ∧ added.length ≤ 1 ∧
        ∀ e ∈ added, e.1 = indentSize) ∧
    (complete releaseCandidate wideTabs).entries = wideTabs.entries ∧
    (complete Version.tabSizeSince wideTabs).entries =
      wideTabs.entries ++ [(indentSize, .number (Binary64.ofInt 8))] := by
  obtain ⟨-, htrans, -, -, -, hcomplete⟩ := complete_threshold
  refine ⟨htrans _ releaseCandidate _ (by decide) (by decide), ?_, ?_, by decide +kernel, by decide +kernel⟩
  · exact (hcomplete wideTabs _ _ (by decide)).1 (by decide)
  · exact ((hcomplete wideTabs releaseCandidate _ (by decide)).2 (by decide)).2

end Settings

end EditorSettings
