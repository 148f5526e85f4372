import EditorSettings.Proofs.Path.Names

/-!
# The directories above any path

A path need not be normal or absolute here.  Its components are that of its beginning and those of the
pieces behind it (`components_of_begins`), and its parent has all of them but the last
(`exists_components_of_parent?`).  So every directory above it has fewer components than the one before
(`pairwise_ancestors`).  A file in one of them has the components of the directory and at most one more, so
the files of one name in these directories are different paths (`pairwise_filesAbove`).
-/

namespace EditorSettings.Path

variable {p d : Path} {ps : List (List TextUnit)}

/-! ### Pieces that count -/

theorem component?_eq_none_iff {piece : List TextUnit} :
    component? piece = none ↔ isVoid piece = true := by
  unfold component? isVoid
  split_ifs <;> simp_all

theorem filterMap_dropWhile_isVoid (l : List (List TextUnit)) :
    (l.dropWhile isVoid).filterMap component? = l.filterMap component? := by
  induction l with
  | nil => rfl
  | cons q l ih =>
    by_cases hq : isVoid q = true
    · rw [List.dropWhile_cons_of_pos hq, ih, List.filterMap_cons_none (component?_eq_none_iff.mpr hq)]
    · rw [List.dropWhile_cons_of_neg hq]

theorem filterMap_of_dropLastPiece?_eq_none (h : dropLastPiece? ps.reverse = none) :
    ps.filterMap component? = [] := by
  unfold dropLastPiece? at h
  split at h
  · next hd =>
    have hnil := filterMap_dropWhile_isVoid ps.reverse
    rw [hd, List.filterMap_nil, List.filterMap_reverse] at hnil
    exact List.reverse_eq_nil_iff.mp hnil.symm
  · cases h

/-- The pieces that are left begin the path, and one component is gone. -/
theorem filterMap_of_dropLastPiece? {before : List (List TextUnit)}
    (h : dropLastPiece? ps.reverse = some before) :
    before.reverse <+: ps ∧
      ∃ c, ps.filterMap component? = before.reverse.filterMap component? ++ [c] := by
  unfold dropLastPiece? at h
  split at h
  · cases h
  · next q before' hd =>
    obtain rfl := Option.some.inj h
    have hq : isVoid q = false := by
      have hhead := List.head?_dropWhile_not isVoid ps.reverse
      rw [hd] at hhead
      simpa using hhead
    obtain ⟨c, hc⟩ : ∃ c, component? q = some c := by
      rw [← Option.ne_none_iff_exists', ne_eq, component?_eq_none_iff, hq]
      exact Bool.false_ne_true
    have hsuffix : before'.dropWhile isVoid <:+ ps.reverse :=
      (List.dropWhile_suffix isVoid).trans
        ((List.suffix_cons q before').trans (hd ▸ List.dropWhile_suffix isVoid))
    refine ⟨List.reverse_suffix.mp (by rwa [List.reverse_reverse]), c, ?_⟩
    have hall := filterMap_dropWhile_isVoid ps.reverse
    rw [hd, List.filterMap_cons_some hc, ← filterMap_dropWhile_isVoid before', List.filterMap_reverse]
      at hall
    rw [List.filterMap_reverse, ← List.reverse_reverse (ps.filterMap component?), ← hall,
      List.reverse_cons]

/-! ### Components behind the beginning -/

theorem components_empty : (⟨[]⟩ : Path).components = [] := by decide

theorem components_of_pieces {first : List TextUnit} {rest : List (List TextUnit)}
    (ha : p.isAbsolute = false) (hp : pieces slash p.units = first :: rest) :
    p.components = (firstComponent? false first).toList ++ rest.filterMap component? := by
  unfold components
  rw [hp, ha]

theorem isAbsolute_of_pieces_nil {q : List TextUnit} {rest : List (List TextUnit)}
    (h : pieces slash p.units = [] :: q :: rest) : p.isAbsolute = true := by
  have hunits := intercalate_pieces slash p.units
  rw [h] at hunits
  unfold isAbsolute
  rw [← hunits]
  simp [List.intercalate]

/-- The components of a path that begins with a piece, not with a slash. -/
theorem components_joinPieces {first : List TextUnit} (hne : first ≠ [])
    (hs : ∀ n ∈ first :: ps, slash ∉ n) :
    (⟨joinPieces (first :: ps)⟩ : Path).components =
      (firstComponent? false first).toList ++ ps.filterMap component? := by
  refine components_of_pieces ?_ (pieces_joinPieces (List.cons_ne_nil first ps) hs)
  obtain ⟨u, us, rfl⟩ := List.exists_cons_of_ne_nil hne
  have hu : slash ≠ u := fun hu => hs _ List.mem_cons_self (hu ▸ List.mem_cons_self)
  cases ps <;> simp [isAbsolute, joinPieces, List.intercalate, hu.symm]

/-- The components of a path that begins with a piece other than `.`. -/
theorem components_joinPieces_ne_dot {first : List TextUnit} (hne : first ≠ []) (hdot : first ≠ dot)
    (hs : ∀ n ∈ first :: ps, slash ∉ n) :
    (⟨joinPieces (first :: ps)⟩ : Path).components = (first :: ps).filterMap component? := by
  rw [components_joinPieces hne hs, List.filterMap_cons]
  unfold firstComponent?
  rw [if_neg Bool.false_ne_true, if_neg hdot]
  cases component? first <;> rfl

/-- The component of what a path begins with. -/
def leadComponent? (lead : List TextUnit) : Option Component :=
  if lead = [slash] then some .root else if lead = dot then some .here else none

/-- The pieces behind what a path begins with. -/
def restPieces (p : Path) : List (List TextUnit) := pieces slash (p.units.drop p.lead.length)

theorem eq_lead_append (p : Path) : p = ⟨p.lead ++ joinPieces p.restPieces⟩ := by
  obtain ⟨rest, hrest⟩ := exists_units_eq_lead_append p
  have hdrop : p.units.drop p.lead.length = rest := by rw [hrest, List.drop_left]
  rw [restPieces, hdrop, joinPieces, intercalate_pieces, ← hrest]

theorem lead_of_pieces {first : List TextUnit} {rest : List (List TextUnit)}
    (hp : pieces slash p.units = first :: rest) :
    p.lead = if p.isAbsolute then [slash] else if first = dot then dot else [] := by
  unfold lead
  rw [hp]

/-- **Components piece by piece**: what a path begins with has its component, and each beginning of the
pieces behind it has those of its pieces. -/
theorem components_of_begins (h : ps <+: p.restPieces) :
    (⟨p.lead ++ joinPieces ps⟩ : Path).components =
      (leadComponent? p.lead).toList ++ ps.filterMap component? := by
  obtain ⟨first, rest, hp⟩ := List.exists_cons_of_ne_nil (pieces_ne_nil slash p.units)
  have hs : ∀ n ∈ ps, slash ∉ n := fun n hn => not_mem_of_mem_pieces slash _ n (h.subset hn)
  have hlead := lead_of_pieces hp
  by_cases ha : p.isAbsolute = true
  · rw [if_pos ha] at hlead
    rw [hlead, List.singleton_append, components_slash_cons]
    rcases eq_or_ne ps [] with rfl | hne
    · rfl
    · rw [pieces_joinPieces hne hs]
      rfl
  rw [if_neg ha] at hlead
  have hpieces := not_mem_of_mem_pieces slash p.units
  rw [hp] at hpieces
  by_cases hdot : first = dot
  · subst hdot
    rw [if_pos rfl] at hlead
    have hjoin : ∀ ns, dot ++ joinPieces ([] :: ns) = joinPieces (dot :: ns) := by
      intro ns
      cases ns <;> simp [joinPieces, List.intercalate, dot]
    -- behind the `.` comes nothing or a slash
    have hrest : p.restPieces = [] :: rest := by
      have hunits : p.units = dot ++ joinPieces ([] :: rest) := by
        rw [hjoin, ← hp, joinPieces, intercalate_pieces]
      rw [restPieces, hlead, hunits, List.drop_left, pieces_joinPieces (List.cons_ne_nil _ _)]
      exact List.forall_mem_cons.mpr ⟨List.not_mem_nil, fun n hn => hpieces n (List.mem_cons_of_mem _ hn)⟩
    rw [hrest] at h
    rw [hlead]
    rcases List.prefix_cons_iff.mp h with rfl | ⟨ns, rfl, -⟩
    · decide
    · have hns : ∀ n ∈ dot :: ns, slash ∉ n :=
        List.forall_mem_cons.mpr ⟨by decide, fun n hn => hs n (List.mem_cons_of_mem _ hn)⟩
      rw [hjoin, components_joinPieces (by decide) hns]
      rfl
  · rw [if_neg hdot] at hlead
    rw [restPieces, hlead, List.length_nil, List.drop_zero, hp] at h
    rw [hlead]
    rcases List.prefix_cons_iff.mp h with rfl | ⟨ns, rfl, hbegin⟩
    · rfl
    · rcases eq_or_ne first [] with rfl | hne
      · -- the path is empty, or a slash would make it absolute
        rcases rest with _ | ⟨q, rest⟩
        · rw [List.prefix_nil.mp hbegin]
          rfl
        · exact absurd (isAbsolute_of_pieces_nil hp) ha
      · rw [List.nil_append, components_joinPieces_ne_dot hne hdot hs]
        rfl

theorem components_eq (p : Path) :
    p.components = (leadComponent? p.lead).toList ++ p.restPieces.filterMap component? := by
  conv_lhs => rw [eq_lead_append p]
  exact components_of_begins (List.prefix_refl _)

/-! ### Parents -/

/-- **A parent has all components but the last one.** -/
theorem exists_components_of_parent? (h : p.parent? = some d) :
    ∃ c, p.components = d.components ++ [c] := by
  rw [components_eq p]
  unfold parent? at h
  split at h
  · next before hb =>
    obtain rfl := Option.some.inj h
    change dropLastPiece? p.restPieces.reverse = some before at hb
    obtain ⟨hbegin, c, hc⟩ := filterMap_of_dropLastPiece? hb
    refine ⟨c, ?_⟩
    rw [components_of_begins hbegin, hc, List.append_assoc]
  · next hnone =>
    split_ifs at h with hdot
    obtain rfl := Option.some.inj h
    change dropLastPiece? p.restPieces.reverse = none at hnone
    have hnil := filterMap_of_dropLastPiece?_eq_none hnone
    exact ⟨.here, by rw [hdot, hnil]; rfl⟩

/-! ### Ancestors -/

/-- `p` has the components of `d` and more. -/
structure IsAncestor (d p : Path) : Prop where
  begins : d.components <+: p.components
  ne : d.components ≠ p.components

theorem IsAncestor.length_lt (h : d.IsAncestor p) : d.components.length < p.components.length := by
  have hle := h.begins.length_le
  have hne : d.components.length ≠ p.components.length := fun he => h.ne (h.begins.eq_of_length he)
  omega

theorem isAncestor_of_length_lt (h : d.components <+: p.components)
    (hlt : d.components.length < p.components.length) : d.IsAncestor p :=
  ⟨h, fun he => absurd (congrArg List.length he) hlt.ne⟩

theorem isAncestor_of_parent? (h : p.parent? = some d) : d.IsAncestor p := by
  obtain ⟨c, hc⟩ := exists_components_of_parent? h
  refine isAncestor_of_length_lt ⟨[c], hc.symm⟩ ?_
  rw [hc, List.length_append, List.length_singleton]
  omega

theorem IsAncestor.trans {e : Path} (h : e.IsAncestor d) (h' : d.IsAncestor p) : e.IsAncestor p :=
  isAncestor_of_length_lt (h.begins.trans h'.begins) (h.length_lt.trans h'.length_lt)

theorem isAncestor_of_mem_ancestors (h : d ∈ p.ancestors) : d.IsAncestor p := by
  fun_induction ancestors p with
  | case1 p e he ih =>
    rcases List.mem_cons.mp h with rfl | h
    · exact isAncestor_of_parent? he
    · exact (ih h).trans (isAncestor_of_parent? he)
  | case2 p hnone => exact absurd h List.not_mem_nil

/-- **Of the directories above a path, each lies above those before it.** -/
theorem pairwise_ancestors (p : Path) : p.ancestors.Pairwise fun d e => e.IsAncestor d := by
  fun_induction ancestors p with
  | case1 p e he ih => exact List.pairwise_cons.mpr ⟨fun d hd => isAncestor_of_mem_ancestors hd, ih⟩
  | case2 p hnone => exact List.Pairwise.nil

/-! ### Files in directories -/

/-- **A file lies at different paths** in a directory and in one above it. -/
theorem IsAncestor.not_same_join {e : Path} (h : e.IsAncestor d) (hd : .here ∉ d.components)
    {f : List TextUnit} (hs : slash ∉ f) : (d.join ⟨f⟩).same (e.join ⟨f⟩) = false := by
  have hlt := h.length_lt
  have hdne : d.units ≠ [] := by
    intro hnil
    rw [show d = ⟨[]⟩ from congrArg Path.mk hnil, components_empty] at hlt
    exact absurd hlt (Nat.not_lt_zero _)
  unfold same
  rw [beq_eq_false_iff_ne, components_join hdne hs]
  intro hc
  by_cases hene : e.units = []
  · -- in the empty directory, `.` stays a component
    have hjoin : e.join ⟨f⟩ = ⟨f⟩ := by
      unfold join
      rw [isAbsolute_mk_of_not_mem hs, if_neg Bool.false_ne_true, if_pos (Or.inl hene), hene]
      rfl
    have hfile : (⟨f⟩ : Path).components = (firstComponent? false f).toList := by
      rw [components_of_pieces (isAbsolute_mk_of_not_mem hs) (pieces_of_not_mem hs)]
      exact List.append_nil _
    rw [hjoin, hfile] at hc
    unfold firstComponent? at hc
    rw [if_neg Bool.false_ne_true] at hc
    by_cases hdot : f = dot
    · rw [if_pos hdot, hdot] at hc
      have hhere : d.components = [.here] := by simpa [component?] using hc
      exact hd (by simp [hhere])
    · rw [if_neg hdot] at hc
      have hlen := congrArg List.length hc
      rw [List.length_append] at hlen
      omega
  · rw [components_join hene hs] at hc
    have hlen := congrArg List.length hc
    rw [List.length_append, List.length_append] at hlen
    omega

/-- **The files of one name in the directories above a path** are different paths. -/
theorem pairwise_filesAbove (hp : .here ∉ p.components) {name : Text} (hs : '/' ∉ name) (top : Path) :
    (p.filesAbove name top).Pairwise fun a b => a.same b = false := by
  have hdirs := (pairwise_ancestors p).sublist (throughFirst_sublist (·.same top) p.ancestors)
  refine List.pairwise_map.mpr (hdirs.imp_of_mem fun {d e} hd _ h => ?_)
  have hbegins := (isAncestor_of_mem_ancestors ((throughFirst_sublist _ _).subset hd)).begins
  exact h.not_same_join (fun hm => hp (hbegins.subset hm)) (slash_not_mem_ofText hs)

end EditorSettings.Path
