import EditorSettings.Proofs.Path.Ancestors

/-!
# Normal forms

A path is normalized by walking along its pieces from the root, or from the empty path: a void piece leads
nowhere, a name leads down, and `..` leads to the parent if there is one (`walk`, `foldl_walk`).  What is
left are names (`components_normalForm`), so a second walk changes nothing.

The names that are left depend on the components of all pieces alone (`steps`), and a join has the steps of
both paths in a row (`steps_join`).  So it does not matter whether the path in front has been normalized
before (`normalForm_join`).
-/

namespace EditorSettings.Path

variable {p q : Path} {ns : List (List TextUnit)} {absolute : Bool}

/-! ### Components of normal forms -/

theorem components_ofNames_relative (h : ∀ n ∈ ns, IsName n) :
    (ofNames false ns).components = ns.map .name := by
  rcases ns with _ | ⟨n, ns⟩
  · decide
  · have hfirst := h n List.mem_cons_self
    have hc : (ofNames false (n :: ns)).components = (n :: ns).filterMap component? :=
      components_joinPieces_ne_dot hfirst.ne_nil hfirst.ne_dot fun m hm => (h m hm).slash_not_mem
    rw [hc, filterMap_component? h]

theorem isAbsolute_normalForm (p : Path) : p.normalForm.isAbsolute = p.isAbsolute :=
  isAbsolute_ofSolid fun _ hn => (isName_of_mem_normalNames hn).isSolid

/-- **A normal form consists of names**, behind the root if it is absolute. -/
theorem components_normalForm (p : Path) :
    p.normalForm.components =
      (if p.isAbsolute then [.root] else []) ++ p.normalNames.map .name := by
  have hn : ∀ n ∈ p.normalNames, IsName n := fun _ hn => isName_of_mem_normalNames hn
  unfold normalForm
  cases p.isAbsolute with
  | true => exact components_ofNames hn
  | false => exact components_ofNames_relative hn

theorem here_not_mem_normalForm (p : Path) : .here ∉ p.normalForm.components := by
  rw [components_normalForm]
  cases p.isAbsolute <;> simp

/-! ### Steps -/

/-- The components of all pieces of a path; a slash or a `.` at its beginning is none of them. -/
def steps (p : Path) : List Component := (pieces slash p.units).filterMap component?

theorem foldl_settle_components (p : Path) (acc : List (List TextUnit)) :
    p.components.foldl settle acc = p.steps.foldl settle acc := by
  obtain ⟨first, rest, hp⟩ := List.exists_cons_of_ne_nil (pieces_ne_nil slash p.units)
  have hfirst : (firstComponent? p.isAbsolute first).toList.foldl settle acc =
      (component? first).toList.foldl settle acc := by
    unfold firstComponent?
    by_cases ha : p.isAbsolute = true
    · obtain ⟨us, rfl⟩ := exists_units_of_isAbsolute ha
      rw [pieces, if_pos rfl] at hp
      rw [if_pos ha, ← (List.cons.inj hp).1]
      rfl
    · rw [if_neg ha]
      by_cases hd : first = dot
      · rw [if_pos hd, hd]
        rfl
      · rw [if_neg hd]
  have hsteps : p.steps = (component? first).toList ++ rest.filterMap component? := by
    unfold steps
    rw [hp, List.filterMap_cons]
    cases component? first <;> rfl
  rw [hsteps, List.foldl_append, ← hfirst, ← List.foldl_append]
  unfold components
  rw [hp]

theorem normalNames_eq (p : Path) : p.normalNames = (p.steps.foldl settle []).reverse := by
  rw [normalNames, foldl_settle_components]

/-- **A join has the steps of both paths in a row.** -/
theorem steps_join (p : Path) (hq : q.isAbsolute = false) : (p.join q).steps = p.steps ++ q.steps := by
  obtain ⟨us⟩ := p
  obtain ⟨vs⟩ := q
  have hend : (pieces slash []).filterMap component? = [] := rfl
  unfold join steps
  rw [hq, if_neg Bool.false_ne_true]
  rcases eq_or_ne us [] with rfl | hne
  · rw [if_pos (Or.inl rfl), hend]
    rfl
  by_cases hlast : us.getLast? = some slash
  · -- the slash at the end of `p` leaves a void piece
    rw [if_pos (Or.inr hlast)]
    obtain ⟨ws, rfl⟩ := List.getLast?_eq_some_iff.mp hlast
    rw [List.append_assoc, List.singleton_append, pieces_append, pieces_append, List.filterMap_append,
      List.filterMap_append, hend, List.append_nil]
  · rw [if_neg (not_or.mpr ⟨hne, hlast⟩), pieces_append, List.filterMap_append]

theorem isAbsolute_join_relative (p : Path) (hq : q.isAbsolute = false) :
    (p.join q).isAbsolute = p.isAbsolute := by
  obtain ⟨us⟩ := p
  unfold join
  rw [hq, if_neg Bool.false_ne_true]
  cases us with
  | nil =>
    rw [if_pos (Or.inl rfl)]
    exact hq
  | cons u us => split_ifs <;> rfl

theorem join_absolute (p : Path) (hq : q.isAbsolute = true) : p.join q = q := if_pos hq

/-! ### Normal forms of joins -/

theorem normalNames_normalForm (p : Path) : p.normalForm.normalNames = p.normalNames := by
  rw [normalNames, components_normalForm, List.foldl_append, foldl_settle_names, List.reverse_append,
    List.reverse_reverse]
  cases p.isAbsolute <;> rfl

theorem normalForm_normalForm (p : Path) : p.normalForm.normalForm = p.normalForm := by
  rw [normalForm, isAbsolute_normalForm, normalNames_normalForm, normalForm]

theorem normalNames_join (p : Path) (hq : q.isAbsolute = false) :
    (p.join q).normalNames = (q.steps.foldl settle p.normalNames.reverse).reverse := by
  rw [normalNames_eq, steps_join p hq, List.foldl_append, normalNames_eq p, List.reverse_reverse]

/-- **A path in front may be normalized first.** -/
theorem normalForm_join (p q : Path) : (p.join q).normalForm = (p.normalForm.join q).normalForm := by
  by_cases hq : q.isAbsolute = true
  · rw [join_absolute p hq, join_absolute p.normalForm hq]
  · rw [Bool.not_eq_true] at hq
    rw [normalForm, isAbsolute_join_relative p hq, normalNames_join p hq,
      normalForm, isAbsolute_join_relative _ hq, normalNames_join _ hq, isAbsolute_normalForm,
      normalNames_normalForm]

/-! ### Walking -/

/-- The path after one more piece: a void piece leads nowhere, `..` leads to the parent if there is one,
and a name leads down. -/
def walk (p : Path) (piece : List TextUnit) : Path :=
  if isVoid piece then p
  else if piece = dots then p.parent?.getD p
  else p.join ⟨piece⟩

/-- One piece does to a path of names what its component does to the names. -/
theorem walk_ofNames {piece : List TextUnit} (h : ∀ n ∈ ns, IsName n) (hs : slash ∉ piece) :
    (ofNames absolute ns.reverse).walk piece =
      ofNames absolute ((component? piece).toList.foldl settle ns).reverse := by
  have hrev : ∀ n ∈ ns.reverse, IsName n := fun n hn => h n (List.mem_reverse.mp hn)
  unfold walk
  by_cases hv : isVoid piece = true
  · rw [if_pos hv, component?_eq_none_iff.mpr hv]
    rfl
  rw [if_neg hv]
  have hc : component? piece = if piece = dots then some .up else some (.name piece) := by
    unfold component?
    rw [if_neg fun hvoid => hv (decide_eq_true hvoid)]
  by_cases hd : piece = dots
  · rw [hc, if_pos hd, if_pos hd]
    cases ns with
    | nil =>
      rw [List.reverse_nil, parent?_ofNames_nil]
      rfl
    | cons n ns =>
      rw [List.reverse_cons] at hrev ⊢
      rw [parent?_ofNames_concat hrev]
      rfl
  · rw [hc, if_neg hd, if_neg hd, join_ofNames hrev hs, ← List.reverse_cons]
    rfl

/-- A walk along some pieces does what their components do. -/
theorem foldl_walk_ofNames : ∀ {ps : List (List TextUnit)}, (∀ piece ∈ ps, slash ∉ piece) →
    ∀ {ns : List (List TextUnit)}, (∀ n ∈ ns, IsName n) →
      ps.foldl walk (ofNames absolute ns.reverse) =
        ofNames absolute ((ps.filterMap component?).foldl settle ns).reverse
  | [], _, _, _ => rfl
  | piece :: ps, hs, ns, h => by
    have hpiece := hs piece List.mem_cons_self
    have hnext : ∀ n ∈ (component? piece).toList.foldl settle ns, IsName n := by
      intro n hn
      rcases mem_foldl_settle hn with hn | hn
      · exact isName_of_component? hpiece (Option.mem_toList.mp hn)
      · exact h n hn
    have hfirst : ((piece :: ps).filterMap component?) =
        (component? piece).toList ++ ps.filterMap component? := by
      rw [List.filterMap_cons]
      cases component? piece <;> rfl
    rw [List.foldl_cons, walk_ofNames h hpiece,
      foldl_walk_ofNames (fun q hq => hs q (List.mem_cons_of_mem piece hq)) hnext, hfirst,
      List.foldl_append]

theorem root_eq_ofNames (p : Path) : p.root = ofNames p.isAbsolute [] := by
  unfold root
  cases p.isAbsolute <;> rfl

/-- **A path is normalized by walking along its pieces.** -/
theorem foldl_walk (p : Path) : (pieces slash p.units).foldl walk p.root = p.normalForm := by
  have hwalk : (pieces slash p.units).foldl walk (ofNames p.isAbsolute [].reverse) =
      ofNames p.isAbsolute (p.steps.foldl settle []).reverse :=
    foldl_walk_ofNames (not_mem_of_mem_pieces slash p.units) fun n hn => absurd hn List.not_mem_nil
  rw [root_eq_ofNames, normalForm, normalNames_eq]
  exact hwalk

theorem normalForm_root_join_dots (p : Path) : (p.root.join ⟨dots⟩).normalForm = p.root := by
  rw [root_eq_ofNames]
  cases p.isAbsolute <;> decide

/-- **Normalization is a walk that a join goes on with.**  It starts at the root or at the empty path and
does not leave it by a `..`; what it ends at has no `.` and no `..`, is absolute if the path is, and is
normal.  A path is joined in the same way before and after it has been normalized. -/
theorem normalForm_reduces (p : Path) :
    (pieces slash p.units).foldl walk p.root = p.normalForm ∧
      (p.root.join ⟨dots⟩).normalForm = p.root ∧
      (∀ c ∈ p.normalForm.components, c ≠ .here ∧ c ≠ .up) ∧
      p.normalForm.isAbsolute = p.isAbsolute ∧
      p.normalForm.normalForm = p.normalForm ∧
      ∀ q : Path, (p.join q).normalForm = (p.normalForm.join q).normalForm := by
  refine ⟨foldl_walk p, normalForm_root_join_dots p, fun c hc => ?_, isAbsolute_normalForm p,
    normalForm_normalForm p, normalForm_join p⟩
  rw [components_normalForm] at hc
  rcases List.mem_append.mp hc with hroot | hname
  · obtain rfl : c = .root := by
      split_ifs at hroot
      · exact List.mem_singleton.mp hroot
      · exact absurd hroot List.not_mem_nil
    decide
  · obtain ⟨n, -, rfl⟩ := List.mem_map.mp hname
    exact ⟨nofun, nofun⟩

example : ((ofText "/a/./../../b/".toList).join (ofText "../../c//d".toList)).normalForm =
    ofText "/c/d".toList := by decide +kernel

end EditorSettings.Path
