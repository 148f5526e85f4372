import Mathlib.Data.List.Forall2

/-!
# Steps that may fail

Two steps succeed if the first one does and the second one does with its result (`bind_eq_ok_iff`), and the
first failure is theirs (`bind_eq_error_iff`).  A run over a list ends at the first step that fails.  Two
runs give the same result if their steps agree in pairs (`foldlM_congr`), also if they agree up to how failures
are named (`foldlM_mapError`).  Steps that change nothing may be left out of a run that succeeds
(`foldlM_filter`), and a step that cannot even fail may be put into any run (`foldlM_insert`).  If the failure
of a step is one of its item alone, a run ends with the first failure of its items, wherever it begins
(`EndsWith.foldlM`).
-/

namespace EditorSettings

variable {α β γ ε : Type}

theorem bind_eq_ok_iff {x : Except ε α} {f : α → Except ε β} {b : β} :
    x >>= f = .ok b ↔ ∃ a, x = .ok a ∧ f a = .ok b := by
  constructor
  · intro h
    cases x with
    | error e => cases h
    | ok a => exact ⟨a, rfl, h⟩
  · rintro ⟨a, rfl, h⟩
    exact h

theorem bind_eq_error_iff {x : Except ε α} {f : α → Except ε β} {e : ε} :
    x >>= f = .error e ↔ x = .error e ∨ ∃ a, x = .ok a ∧ f a = .error e := by
  cases x with
  | error e' =>
    constructor
    · exact fun h => Or.inl (congrArg Except.error (Except.error.inj h))
    · rintro (h | ⟨a, h, -⟩)
      · exact congrArg Except.error (Except.error.inj h)
      · cases h
  | ok a =>
    constructor
    · exact fun h => Or.inr ⟨a, rfl, h⟩
    · rintro (h | ⟨b, h, hb⟩)
      · cases h
      · obtain rfl := Except.ok.inj h
        exact hb

theorem foldlM_mapError {f : β → α → Except ε β} {g : β → γ → Except ε β} {r : ε → ε} {as : List α}
    {cs : List γ} (h : List.Forall₂ (fun a c => ∀ b, f b a = (g b c).mapError r) as cs) :
    ∀ b : β, as.foldlM f b = (cs.foldlM g b).mapError r := by
  induction h with
  | nil => exact fun b => rfl
  | @cons a c as cs hstep _ ih =>
    intro b
    rw [List.foldlM_cons, List.foldlM_cons, hstep]
    cases g b c with
    | error e => rfl
    | ok b' => exact ih b'

theorem foldlM_congr {f : β → α → Except ε β} {g : β → γ → Except ε β} {as : List α} {cs : List γ}
    (h : List.Forall₂ (fun a c => ∀ b, f b a = g b c) as cs) (b : β) :
    as.foldlM f b = cs.foldlM g b := by
  have hid (x : Except ε β) : x.mapError id = x := by cases x <;> rfl
  have hsteps := h.imp fun a c hac b => (hac b).trans (hid (g b c)).symm
  rw [foldlM_mapError hsteps, hid]

/-- A run of steps that all succeed. -/
theorem mapM_eq_ok {f : α → Except ε β} {g : α → β} : ∀ {l : List α},
    (∀ a ∈ l, f a = .ok (g a)) → l.mapM f = .ok (l.map g)
  | [], _ => rfl
  | a :: l, h => by
    rw [List.mapM_cons, h a List.mem_cons_self, mapM_eq_ok fun b hb => h b (List.mem_cons_of_mem a hb)]
    rfl

/-! ### Failures of their own -/

theorem findSome?_flatMap (f : γ → Option β) (g : α → List γ) : ∀ l : List α,
    (l.flatMap g).findSome? f = l.findSome? fun a => (g a).findSome? f
  | [] => rfl
  | a :: l => by
    rw [List.flatMap_cons, List.findSome?_append, findSome?_flatMap f g l, List.findSome?_cons]
    cases (g a).findSome? f <;> rfl

/-- How a step ends: with the failure, if there is one, else with a result. -/
def EndsWith (x : Except ε α) : Option ε → Prop
  | none => ∃ a, x = .ok a
  | some e => x = .error e

theorem EndsWith.bind_ok {x : Except ε α} {failure : Option ε} (h : EndsWith x failure) (g : α → β) :
    EndsWith (x >>= fun a => .ok (g a)) failure := by
  cases failure with
  | none =>
    obtain ⟨a, rfl⟩ := h
    exact ⟨g a, rfl⟩
  | some e =>
    obtain rfl : x = .error e := h
    rfl

/-- **A run ends with the first failure of its items**, if whether a step fails, and how, depends on the item
only. -/
theorem EndsWith.foldlM {f : β → α → Except ε β} {failure? : α → Option ε}
    (h : ∀ b a, EndsWith (f b a) (failure? a)) :
    ∀ (l : List α) (b : β), EndsWith (l.foldlM f b) (l.findSome? failure?)
  | [], b => ⟨b, rfl⟩
  | a :: l, b => by
    have hstep := h b a
    rw [List.foldlM_cons, List.findSome?_cons]
    cases ha : failure? a with
    | none =>
      rw [ha] at hstep
      obtain ⟨b', hb'⟩ := hstep
      rw [hb']
      exact EndsWith.foldlM h l b'
    | some e =>
      rw [ha] at hstep
      have hb : f b a = .error e := hstep
      rw [hb]
      rfl

variable {f : β → α → Except ε β}

/-- **Steps that change nothing can be left out**, if all steps succeed. -/
theorem foldlM_filter {keep : α → Bool} : ∀ {l : List α},
    (∀ a ∈ l, keep a = false → ∀ b b', f b a = .ok b' → b' = b) →
      ∀ {b b' : β}, l.foldlM f b = .ok b' → (l.filter keep).foldlM f b = .ok b'
  | [], _, _, _, h => h
  | a :: l, hstep, b, b', h => by
    have hl : ∀ c ∈ l, keep c = false → ∀ b b', f b c = .ok b' → b' = b :=
      fun c hc => hstep c (List.mem_cons_of_mem a hc)
    rw [List.foldlM_cons] at h
    cases ha : f b a with
    | error e =>
      rw [ha] at h
      cases h
    | ok b₁ =>
      rw [ha] at h
      have ih := foldlM_filter hl h
      by_cases hk : keep a = true
      · rw [List.filter_cons_of_pos hk, List.foldlM_cons, ha]
        exact ih
      · have hk : keep a = false := Bool.eq_false_iff.mpr hk
        rw [List.filter_cons_of_neg (by simp [hk]), ← hstep a List.mem_cons_self hk b b₁ ha]
        exact ih

theorem foldlM_eq_self {l : List α} (hstep : ∀ a ∈ l, ∀ b b', f b a = .ok b' → b' = b) {b b' : β}
    (h : l.foldlM f b = .ok b') : b' = b := by
  have hnone : (l.filter fun _ => false).foldlM f b = .ok b' :=
    foldlM_filter (fun a ha _ => hstep a ha) h
  rw [List.filter_eq_nil_iff.mpr (by simp)] at hnone
  exact (Except.ok.inj hnone).symm

/-- **A step that never changes anything** can be put in anywhere. -/
theorem foldlM_insert {a : α} (h : ∀ b, f b a = .ok b) (before after : List α) (b : β) :
    (before ++ a :: after).foldlM f b = (before ++ after).foldlM f b := by
  have hstep : ∀ b', (a :: after).foldlM f b' = after.foldlM f b' := by
    intro b'
    rw [List.foldlM_cons, h]
    rfl
  rw [List.foldlM_append, List.foldlM_append]
  exact congrArg _ (funext hstep)

end EditorSettings
