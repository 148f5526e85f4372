import EditorSettings.Path.Normal
import EditorSettings.Proofs.Text
import Mathlib.Data.List.Basic

/-!
# Normal paths as lists of names

An absolute path without `.`, `..` and void pieces is a list of names (`ofNames true`), and everything
that is done with paths is then done with lists: the components are the names behind the root
(`components_ofNames`), a parent drops the last name (`parent?_ofNames_concat`), a join with a name adds
one (`join_ofNames`), and a normal form is its own normal form (`normalForm_ofNames`).  All paths in
normal absolute form are of this kind (`exists_names_of_normalForm`).

The directories above a path that has the names `above ++ below`, through the one with the names `above`,
are `directoriesTo above below` (`ancestorsUpTo_ofNames`).
-/

namespace EditorSettings.Path

/-- A piece that names something in a directory. -/
structure IsName (n : List TextUnit) : Prop where
  ne_nil : n ≠ []
  ne_dot : n ≠ dot
  ne_dots : n ≠ dots
  slash_not_mem : slash ∉ n

variable {n : List TextUnit} {ns ms : List (List TextUnit)}

theorem IsName.not_void (h : IsName n) : ¬ (n = [] ∨ n = dot) := by
  rintro (hn | hn)
  · exact h.ne_nil hn
  · exact h.ne_dot hn

theorem component?_of_isName (h : IsName n) : component? n = some (.name n) := by
  unfold component?
  rw [if_neg h.not_void, if_neg h.ne_dots]

theorem isName_of_component? {piece : List TextUnit} (hs : slash ∉ piece)
    (h : component? piece = some (.name n)) : IsName n := by
  unfold component? at h
  by_cases hv : piece = [] ∨ piece = dot
  · rw [if_pos hv] at h
    cases h
  · by_cases hd : piece = dots
    · rw [if_neg hv, if_pos hd] at h
      cases h
    · rw [if_neg hv, if_neg hd] at h
      cases h
      rw [not_or] at hv
      exact ⟨hv.1, hv.2, hd, hs⟩

/-! ### Components -/

theorem pieces_joinPieces : ∀ {ns : List (List TextUnit)}, ns ≠ [] → (∀ n ∈ ns, slash ∉ n) →
    pieces slash (joinPieces ns) = ns
  | [], h, _ => absurd rfl h
  | [n], _, h => by
    have hn : joinPieces [n] = n := by simp [joinPieces]
    rw [hn, pieces_of_not_mem (h n (by simp))]
  | n :: m :: ns, _, h => by
    have ih := pieces_joinPieces (List.cons_ne_nil m ns) fun k hk => h k (List.mem_cons_of_mem n hk)
    rw [joinPieces_cons_cons, pieces_append_cons (h n (by simp)), ih]

theorem joinPieces_concat (h : ns ≠ []) (n : List TextUnit) :
    joinPieces (ns ++ [n]) = joinPieces ns ++ slash :: n := by
  induction ns with
  | nil => exact absurd rfl h
  | cons m ns ih =>
    rcases ns with _ | ⟨k, ns⟩
    · simp [joinPieces, List.intercalate]
    · have := ih (by simp)
      simp only [List.cons_append, joinPieces_cons_cons] at this ⊢
      rw [this, List.append_assoc, List.cons_append]

theorem slash_cons_joinPieces (h : ns ≠ []) : slash :: joinPieces ns = ns.flatMap (slash :: ·) := by
  induction ns using List.reverseRecOn with
  | nil => exact absurd rfl h
  | append_singleton ns n ih =>
    rcases eq_or_ne ns [] with rfl | hne
    · simp [joinPieces]
    · rw [joinPieces_concat hne, List.flatMap_append, ← ih hne]
      simp

@[simp] theorem units_ofNames (ns : List (List TextUnit)) :
    (ofNames true ns).units = slash :: joinPieces ns := rfl

@[simp] theorem isAbsolute_ofNames (ns : List (List TextUnit)) :
    (ofNames true ns).isAbsolute = true := by
  unfold isAbsolute
  simp

theorem filterMap_component? (h : ∀ n ∈ ns, IsName n) :
    ns.filterMap component? = ns.map Component.name := by
  rw [← List.filterMap_eq_map]
  exact List.filterMap_congr fun n hn => component?_of_isName (h n hn)

/-- The components of an absolute path are the root and those of the pieces behind it. -/
theorem components_slash_cons (us : List TextUnit) :
    components ⟨slash :: us⟩ = .root :: (pieces slash us).filterMap component? := by
  unfold components isAbsolute
  rw [pieces, if_pos rfl]
  simp [firstComponent?]

theorem exists_units_of_isAbsolute {p : Path} (h : p.isAbsolute = true) : ∃ us, p = ⟨slash :: us⟩ := by
  obtain ⟨us⟩ := p
  rcases us with _ | ⟨u, us⟩
  · simp [isAbsolute] at h
  · obtain rfl : u = slash := by simpa [isAbsolute] using h
    exact ⟨us, rfl⟩

/-- **The components of a normal path** are the root and its names. -/
theorem components_ofNames (h : ∀ n ∈ ns, IsName n) :
    (ofNames true ns).components = .root :: ns.map .name := by
  have hunits : ofNames true ns = ⟨slash :: joinPieces ns⟩ := rfl
  rw [hunits, components_slash_cons]
  rcases eq_or_ne ns [] with rfl | hne
  · rfl
  · rw [pieces_joinPieces hne fun n hn => (h n hn).slash_not_mem, filterMap_component? h]

theorem isName_of_mem_components {p : Path} (h : .name n ∈ p.components) : IsName n := by
  have hs := not_mem_of_mem_pieces slash p.units
  unfold components at h
  split at h
  · exact absurd h List.not_mem_nil
  · next first rest hp =>
    rw [hp] at hs
    rcases List.mem_append.mp h with h | h
    · unfold firstComponent? at h
      split_ifs at h
      · simp at h
      · simp at h
      · exact isName_of_component? (hs first List.mem_cons_self) (Option.mem_toList.mp h)
    · obtain ⟨q, hq, hqn⟩ := List.mem_filterMap.mp h
      exact isName_of_component? (hs q (List.mem_cons_of_mem first hq)) hqn

theorem name_injective : Function.Injective Component.name := fun _ _ h => Component.name.inj h

theorem map_name_injective (h : ns.map Component.name = ms.map Component.name) : ns = ms :=
  List.map_injective_iff.mpr name_injective h

theorem same_ofNames (hn : ∀ n ∈ ns, IsName n) (hm : ∀ m ∈ ms, IsName m) :
    (ofNames true ns).same (ofNames true ms) = true ↔ ns = ms := by
  unfold same
  rw [components_ofNames hn, components_ofNames hm, beq_iff_eq]
  constructor
  · intro h
    exact map_name_injective (List.cons.inj h).2
  · rintro rfl
    rfl

/-- **A path of names lies in those of its first names.** -/
theorem exists_append_of_isWithin {p q : Path} (hp : p.components = .root :: ns.map .name)
    (hq : q.isAbsolute = true) (h : p.isWithin q = true) :
    ∃ above below, ns = above ++ below ∧ q.components = .root :: above.map .name := by
  obtain ⟨us, rfl⟩ := exists_units_of_isAbsolute hq
  obtain ⟨rest, hrest⟩ := List.isPrefixOf_iff_prefix.mp h
  rw [hp, components_slash_cons, List.cons_append] at hrest
  obtain ⟨above, below, rfl, habove, -⟩ := List.map_eq_append_iff.mp (List.cons.inj hrest).2.symm
  exact ⟨above, below, rfl, by rw [components_slash_cons, habove]⟩

/-! ### Normal forms -/

theorem foldl_settle_names (ns acc : List (List TextUnit)) :
    (ns.map Component.name).foldl settle acc = ns.reverse ++ acc := by
  induction ns generalizing acc with
  | nil => rfl
  | cons n ns ih => simp [settle, ih]

/-- An absolute path whose components are names has the normal form of these names. -/
theorem normalForm_of_components {p : Path} (ha : p.isAbsolute = true)
    (h : p.components = .root :: ns.map .name) : p.normalForm = ofNames true ns := by
  unfold normalForm normalNames
  rw [ha, h, List.foldl_cons, settle, foldl_settle_names, List.append_nil, List.reverse_reverse]

theorem normalForm_ofNames (h : ∀ n ∈ ns, IsName n) :
    (ofNames true ns).normalForm = ofNames true ns :=
  normalForm_of_components (isAbsolute_ofNames ns) (components_ofNames h)

theorem mem_foldl_settle {cs : List Component} : ∀ {acc : List (List TextUnit)},
    n ∈ cs.foldl settle acc → .name n ∈ cs ∨ n ∈ acc := by
  induction cs with
  | nil => exact Or.inr
  | cons c cs ih =>
    intro acc h
    rcases ih h with h | h
    · exact Or.inl (List.mem_cons_of_mem c h)
    · cases c with
      | root => exact Or.inr h
      | here => exact Or.inr h
      | up => exact Or.inr (List.mem_of_mem_tail h)
      | name m =>
        rcases List.mem_cons.mp h with rfl | h
        · exact Or.inl List.mem_cons_self
        · exact Or.inr h

theorem isName_of_mem_normalNames {p : Path} (h : n ∈ p.normalNames) : IsName n := by
  rcases mem_foldl_settle (List.mem_reverse.mp h) with h | h
  · exact isName_of_mem_components h
  · simp at h

/-- **The normal form of an absolute path consists of names.** -/
theorem exists_names_of_normalForm {p : Path} (ha : p.isAbsolute = true) :
    ∃ ns, (∀ n ∈ ns, IsName n) ∧ p.normalForm = ofNames true ns :=
  ⟨p.normalNames, fun _ hn => isName_of_mem_normalNames hn, by rw [normalForm, ha]⟩

/-! ### Parents and joins -/

/-- A piece that is a component behind others: a name or `..`. -/
structure IsSolid (n : List TextUnit) : Prop where
  not_void : isVoid n = false
  slash_not_mem : slash ∉ n

theorem IsName.isSolid (h : IsName n) : IsSolid n := by
  refine ⟨?_, h.slash_not_mem⟩
  unfold isVoid
  rw [decide_eq_false_iff_not]
  exact h.not_void

theorem IsSolid.ne_nil (h : IsSolid n) : n ≠ [] := by
  rintro rfl
  exact absurd h.not_void (by decide)

theorem IsSolid.ne_dot (h : IsSolid n) : n ≠ dot := by
  rintro rfl
  exact absurd h.not_void (by decide)

variable {absolute : Bool}

/-- Behind solid pieces, only the slash of the root is at the beginning. -/
theorem isAbsolute_ofSolid (h : ∀ m ∈ ns, IsSolid m) : (ofNames absolute ns).isAbsolute = absolute := by
  cases absolute with
  | true => exact isAbsolute_ofNames ns
  | false =>
    rcases ns with _ | ⟨n, ns⟩
    · rfl
    · have hn := h n List.mem_cons_self
      obtain ⟨u, us, rfl⟩ := List.exists_cons_of_ne_nil hn.ne_nil
      have hu : u ≠ slash := fun he => hn.slash_not_mem (he ▸ List.mem_cons_self)
      cases ns <;> simp [isAbsolute, ofNames, joinPieces, List.intercalate, hu]

theorem lead_ofSolid (h : ∀ m ∈ ns, IsSolid m) :
    (ofNames absolute ns).lead = if absolute then [slash] else [] := by
  have ha : (ofNames absolute ns).isAbsolute = absolute := isAbsolute_ofSolid h
  unfold lead
  rw [ha]
  cases absolute with
  | true => rfl
  | false =>
    rcases ns with _ | ⟨n, ns⟩
    · rfl
    · have hn := h n List.mem_cons_self
      have hp : pieces slash (ofNames false (n :: ns)).units = n :: ns :=
        pieces_joinPieces (List.cons_ne_nil n ns) fun m hm => (h m hm).slash_not_mem
      rw [hp]
      dsimp only
      rw [if_neg Bool.false_ne_true, if_neg hn.ne_dot]
      rfl

theorem dropWhile_isVoid_reverse (h : ∀ n ∈ ns, IsSolid n) :
    ns.reverse.dropWhile isVoid = ns.reverse := by
  cases ns using List.reverseRecOn with
  | nil => rfl
  | append_singleton ns n =>
    have hn := (h n (by simp)).not_void
    rw [List.reverse_concat, List.dropWhile_cons, hn]
    rfl

/-- **The parent of a path of solid pieces** has all of them but the last one. -/
theorem parent?_ofSolid_concat (h : ∀ m ∈ ns ++ [n], IsSolid m) :
    (ofNames absolute (ns ++ [n])).parent? = some (ofNames absolute ns) := by
  have hpieces := pieces_joinPieces (by simp : ns ++ [n] ≠ []) fun m hm => (h m hm).slash_not_mem
  have hns : ∀ m ∈ ns, IsSolid m := fun m hm => h m (List.mem_append_left _ hm)
  have hlast : dropLastPiece? (ns ++ [n]).reverse = some ns.reverse := by
    unfold dropLastPiece?
    rw [dropWhile_isVoid_reverse h, List.reverse_concat]
    dsimp only
    rw [dropWhile_isVoid_reverse hns]
  have hlead : (ofNames absolute (ns ++ [n])).lead = if absolute then [slash] else [] := lead_ofSolid h
  have hrest : (ofNames absolute (ns ++ [n])).units.drop (ofNames absolute (ns ++ [n])).lead.length =
      joinPieces (ns ++ [n]) := by
    rw [hlead]
    exact List.drop_left
  unfold parent?
  rw [hrest, hpieces, hlast]
  dsimp only
  rw [hlead, List.reverse_reverse]
  rfl

/-- **The parent of a normal path** has all names but the last one. -/
theorem parent?_ofNames_concat (h : ∀ m ∈ ns ++ [n], IsName m) :
    (ofNames absolute (ns ++ [n])).parent? = some (ofNames absolute ns) :=
  parent?_ofSolid_concat fun m hm => (h m hm).isSolid

theorem parent?_ofNames_nil : (ofNames absolute []).parent? = none := by
  cases absolute <;> decide

theorem getLast?_joinPieces_ne_slash (hne : ns ≠ []) (h : ∀ n ∈ ns, IsName n) :
    (slash :: joinPieces ns).getLast? ≠ some slash := by
  cases ns using List.reverseRecOn with
  | nil => exact absurd rfl hne
  | append_singleton ns n =>
    have hn := h n (by simp)
    intro hlast
    rw [slash_cons_joinPieces (by simp), List.flatMap_append,
      List.getLast?_append_of_ne_nil _ (by simp), List.flatMap_singleton,
      List.getLast?_cons_of_ne_nil hn.ne_nil] at hlast
    exact hn.slash_not_mem (List.mem_of_getLast? hlast)

theorem isAbsolute_mk_of_not_mem {us : List TextUnit} (h : slash ∉ us) : isAbsolute ⟨us⟩ = false := by
  unfold isAbsolute
  rw [beq_eq_false_iff_ne]
  exact fun he => h (List.mem_of_head? he)

/-- **A piece in a normal directory.** -/
theorem join_ofNames (h : ∀ m ∈ ns, IsName m) (hs : slash ∉ n) :
    (ofNames absolute ns).join ⟨n⟩ = ofNames absolute (ns ++ [n]) := by
  unfold join
  rw [isAbsolute_mk_of_not_mem hs, if_neg Bool.false_ne_true]
  rcases eq_or_ne ns [] with rfl | hne
  · have hroot : (ofNames absolute []).units = [] ∨
        (ofNames absolute []).units.getLast? = some slash := by
      cases absolute <;> decide
    rw [if_pos hroot]
    simp [ofNames, joinPieces]
  · have hlast := getLast?_joinPieces_ne_slash hne h
    have hjoin : joinPieces ns ≠ [] := by
      intro hnil
      rw [hnil] at hlast
      exact hlast rfl
    rw [List.getLast?_cons_of_ne_nil hjoin] at hlast
    have hunits : ¬ ((ofNames absolute ns).units = [] ∨
        (ofNames absolute ns).units.getLast? = some slash) := by
      cases absolute <;> simp [ofNames, hjoin, hlast, List.getLast?_cons_of_ne_nil]
    rw [if_neg hunits]
    simp [ofNames, joinPieces_concat hne]

theorem components_append_slash {us : List TextUnit} (hne : us ≠ []) (v : List TextUnit) :
    components ⟨us ++ slash :: v⟩ = components ⟨us⟩ ++ (pieces slash v).filterMap component? := by
  have ha : isAbsolute ⟨us ++ slash :: v⟩ = isAbsolute ⟨us⟩ := by
    obtain ⟨u, us, rfl⟩ := List.exists_cons_of_ne_nil hne
    rfl
  obtain ⟨first, rest, hp⟩ := List.exists_cons_of_ne_nil (pieces_ne_nil slash us)
  unfold components
  rw [ha, pieces_append, hp]
  simp only [List.cons_append, List.filterMap_append, List.append_assoc]

/-- **A piece in a directory**, however that is spelled, adds its component if it has one. -/
theorem components_join {p : Path} (hp : p.units ≠ []) (hs : slash ∉ n) :
    (p.join ⟨n⟩).components = p.components ++ (component? n).toList := by
  obtain ⟨us⟩ := p
  have hpiece : (pieces slash n).filterMap component? = (component? n).toList := by
    rw [pieces_of_not_mem hs, List.filterMap_cons]
    cases component? n <;> rfl
  unfold join
  rw [isAbsolute_mk_of_not_mem hs, if_neg Bool.false_ne_true]
  by_cases hlast : us.getLast? = some slash
  · -- A slash at the end leaves a void piece, which `n` replaces.
    obtain ⟨vs, rfl⟩ := List.getLast?_eq_some_iff.mp hlast
    rw [if_pos (Or.inr hlast), List.append_assoc, List.singleton_append]
    rcases eq_or_ne vs [] with rfl | hvs
    · rw [List.nil_append, List.nil_append, components_slash_cons, components_slash_cons, hpiece]
      rfl
    · rw [components_append_slash hvs, components_append_slash hvs, hpiece]
      simp [pieces, component?]
  · rw [if_neg (not_or.mpr ⟨hp, hlast⟩), components_append_slash hp, hpiece]

/-- A name in an absolute directory is one more component. -/
theorem components_join_name {p : Path} (ha : p.isAbsolute = true) (hn : IsName n) :
    (p.join ⟨n⟩).components = p.components ++ [.name n] := by
  obtain ⟨us, rfl⟩ := exists_units_of_isAbsolute ha
  rw [components_join (List.cons_ne_nil slash us) hn.slash_not_mem, component?_of_isName hn]
  rfl

/-! ### Texts -/

theorem slash_not_mem_ofText {name : Text} (h : '/' ∉ name) : slash ∉ (ofText name).units := by
  intro hm
  obtain ⟨c, hc, he⟩ := List.mem_map.mp hm
  obtain rfl : c = '/' := by simpa [slash] using he
  exact h hc

/-- The text of a normal path, a slash before every name. -/
theorem text_ofNames (h : ns ≠ []) :
    (ofNames true ns).text = ns.flatMap fun n => '/' :: n.map TextUnit.shown := by
  rw [text, units_ofNames, slash_cons_joinPieces h, List.map_flatMap]
  rfl

theorem eq_slash_of_shown {u : TextUnit} (h : u.shown = '/') : u = slash := by
  cases u with
  | char c =>
    obtain rfl : c = '/' := h
    rfl
  | stray bytes => exact absurd h (by simp [TextUnit.shown])

theorem getLast?_text_ne_slash (hne : ns ≠ []) (h : ∀ n ∈ ns, IsName n) :
    (ofNames true ns).text.getLast? ≠ some '/' := by
  intro hlast
  rw [text, List.getLast?_map] at hlast
  obtain ⟨u, hu, hs⟩ := Option.map_eq_some_iff.mp hlast
  rw [eq_slash_of_shown hs] at hu
  exact getLast?_joinPieces_ne_slash hne h hu

/-! ### The directories above -/

/-- The directories above `above ++ below` through `above`, the nearest first. -/
def directoriesTo (above below : List (List TextUnit)) : List Path :=
  (List.range below.length).reverse.map fun k => ofNames true (above ++ below.take k)

theorem directoriesTo_nil (above : List (List TextUnit)) : directoriesTo above [] = [] := rfl

theorem directoriesTo_concat (above below : List (List TextUnit)) (n : List TextUnit) :
    directoriesTo above (below ++ [n]) = ofNames true (above ++ below) :: directoriesTo above below := by
  unfold directoriesTo
  rw [List.length_append, List.length_singleton, List.range_succ, List.reverse_concat, List.map_cons,
    List.take_left]
  refine congrArg _ (List.map_congr_left fun k hk => ?_)
  have hk : k < below.length := by simpa using hk
  rw [List.take_append_of_le_length (by omega)]

/-- The directories through a farther one are those through a nearer one, then those from there on. -/
theorem directoriesTo_append (above mid below : List (List TextUnit)) :
    directoriesTo above (mid ++ below) =
      directoriesTo (above ++ mid) below ++ directoriesTo above mid := by
  induction below using List.reverseRecOn with
  | nil => rw [List.append_nil, directoriesTo_nil, List.nil_append]
  | append_singleton below n ih =>
    rw [← List.append_assoc, directoriesTo_concat, directoriesTo_concat, ih, List.cons_append,
      List.append_assoc]

/-- The last of the directories is the outermost one. -/
theorem directoriesTo_cons (above below : List (List TextUnit)) (n : List TextUnit) :
    directoriesTo above (n :: below) = directoriesTo (above ++ [n]) below ++ [ofNames true above] := by
  have h := directoriesTo_append above [n] below
  rwa [List.singleton_append, show directoriesTo above [n] = [ofNames true above] by
    simp [directoriesTo]] at h

theorem mem_directoriesTo {above below : List (List TextUnit)} {d : Path}
    (h : d ∈ directoriesTo above below) : ∃ k < below.length, d = ofNames true (above ++ below.take k) := by
  obtain ⟨k, hk, rfl⟩ := List.mem_map.mp h
  exact ⟨k, by simpa using hk, rfl⟩

theorem length_directoriesTo (above below : List (List TextUnit)) :
    (directoriesTo above below).length = below.length := by
  rw [directoriesTo, List.length_map, List.length_reverse, List.length_range]

theorem ancestors_of_parent? {p d : Path} (h : p.parent? = some d) :
    p.ancestors = d :: d.ancestors := by
  rw [ancestors]
  split
  · next e he =>
    obtain rfl : e = d := by simpa [he] using h
    rfl
  · next hn => simp [hn] at h

theorem ancestors_of_parent?_eq_none {p : Path} (h : p.parent? = none) : p.ancestors = [] := by
  rw [ancestors]
  split
  · next e he => simp [he] at h
  · rfl

theorem ancestors_ofNames (h : ∀ n ∈ ns, IsName n) :
    (ofNames true ns).ancestors = directoriesTo [] ns := by
  induction ns using List.reverseRecOn with
  | nil => exact ancestors_of_parent?_eq_none parent?_ofNames_nil
  | append_singleton ns n ih =>
    rw [ancestors_of_parent? (parent?_ofNames_concat h),
      ih fun m hm => h m (List.mem_append_left _ hm), directoriesTo_concat, List.nil_append]

/-- The directories above a path of names have its first names. -/
theorem exists_names_of_mem_ancestors (h : ∀ m ∈ ns, IsName m) {d : Path}
    (hd : d ∈ (ofNames absolute ns).ancestors) :
    ∃ ms, (∀ m ∈ ms, IsName m) ∧ d = ofNames absolute ms := by
  induction ns using List.reverseRecOn with
  | nil =>
    rw [ancestors_of_parent?_eq_none parent?_ofNames_nil] at hd
    exact absurd hd List.not_mem_nil
  | append_singleton ns n ih =>
    have hns : ∀ m ∈ ns, IsName m := fun m hm => h m (List.mem_append_left _ hm)
    rw [ancestors_of_parent? (parent?_ofNames_concat h)] at hd
    rcases List.mem_cons.mp hd with rfl | hd
    · exact ⟨ns, hns, rfl⟩
    · exact ih hns hd

theorem throughFirst_append {α : Type} {test : α → Bool} {l : List α} {a : α}
    (hl : ∀ b ∈ l, test b = false) (ha : test a = true) (rest : List α) :
    throughFirst test (l ++ a :: rest) = l ++ [a] := by
  induction l with
  | nil => simp [throughFirst, ha]
  | cons b l ih =>
    have hb := hl b List.mem_cons_self
    rw [List.cons_append, throughFirst, hb, ih fun c hc => hl c (List.mem_cons_of_mem b hc)]
    rfl

theorem throughFirst_eq_self {α : Type} {test : α → Bool} : ∀ {l : List α},
    (∀ a ∈ l, test a = false) → throughFirst test l = l
  | [], _ => rfl
  | a :: l, h => by
    rw [throughFirst, h a List.mem_cons_self,
      throughFirst_eq_self fun b hb => h b (List.mem_cons_of_mem a hb)]
    rfl

theorem throughFirst_sublist {α : Type} (test : α → Bool) : ∀ l : List α,
    (throughFirst test l).Sublist l
  | [] => List.Sublist.slnil
  | a :: l => by
    unfold throughFirst
    split_ifs
    · exact (List.nil_sublist l).cons_cons a
    · exact (throughFirst_sublist test l).cons_cons a

/-- **The directories above a normal path, through one of them.** -/
theorem ancestorsUpTo_ofNames {above below : List (List TextUnit)}
    (h : ∀ n ∈ above ++ below, IsName n) (hb : below ≠ []) :
    ancestorsUpTo (ofNames true above) (ofNames true (above ++ below)) = directoriesTo above below := by
  obtain ⟨n, below, rfl⟩ := List.exists_cons_of_ne_nil hb
  have habove : ∀ m ∈ above, IsName m := fun m hm => h m (List.mem_append_left _ hm)
  have hsame : (ofNames true above).same (ofNames true above) = true :=
    (same_ofNames habove habove).mpr rfl
  -- The directories before the outermost one have more names.
  have hbefore : ∀ d ∈ directoriesTo (above ++ [n]) below,
      d.same (ofNames true above) = false := by
    intro d hd
    obtain ⟨k, -, rfl⟩ := mem_directoriesTo hd
    have hbegin : above ++ [n] ++ below.take k <+: above ++ n :: below := ⟨below.drop k, by simp⟩
    have hnames : ∀ m ∈ above ++ [n] ++ below.take k, IsName m :=
      fun m hm => h m (hbegin.subset hm)
    rw [Bool.eq_false_iff]
    intro hs
    have hlen := congrArg List.length ((same_ofNames hnames habove).mp hs)
    simp only [List.length_append, List.length_singleton] at hlen
    omega
  have hall : (ofNames true (above ++ n :: below)).ancestors =
      directoriesTo (above ++ [n]) below ++ ofNames true above :: directoriesTo [] above := by
    rw [ancestors_ofNames h, directoriesTo_append, List.nil_append, directoriesTo_cons,
      List.append_assoc, List.singleton_append]
  rw [ancestorsUpTo, hall, throughFirst_append hbefore hsame, directoriesTo_cons]

end EditorSettings.Path
