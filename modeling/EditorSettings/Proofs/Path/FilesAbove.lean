import EditorSettings.Proofs.Path.Ancestors

/-!
# The files above a path

A search for the files of one name goes from a normal path up to an outermost directory.  It visits every
directory on this way once, the nearest first (`mem_directoriesTo_iff`), and as many as the path has
components more than the outermost directory.  A search that goes farther up finds the same files and then
others (`ancestorsUpTo_isPrefix`).  `exists_directories_filesAbove` states all of this for one search.
-/

namespace EditorSettings.Path

variable {p d : Path} {above below ns ms : List (List TextUnit)}

/-! ### Normal paths by components -/

/-- An absolute path in normal form. -/
structure IsNormal (p : Path) : Prop where
  isAbsolute : p.isAbsolute = true
  normal : p.normalForm = p

theorem isNormal_ofNames (h : ∀ n ∈ ns, IsName n) : (ofNames true ns).IsNormal :=
  ⟨isAbsolute_ofNames ns, normalForm_ofNames h⟩

theorem IsNormal.exists_names (h : p.IsNormal) : ∃ ns, (∀ n ∈ ns, IsName n) ∧ p = ofNames true ns := by
  obtain ⟨ns, hns, hp⟩ := exists_names_of_normalForm h.isAbsolute
  exact ⟨ns, hns, h.normal.symm.trans hp⟩

theorem components_isPrefix_iff (hn : ∀ n ∈ ns, IsName n) (hm : ∀ m ∈ ms, IsName m) :
    (ofNames true ns).components <+: (ofNames true ms).components ↔ ns <+: ms := by
  rw [components_ofNames hn, components_ofNames hm, List.cons_prefix_cons,
    List.prefix_map_iff_of_injective name_injective]
  exact and_iff_right rfl

theorem isWithin_iff {q : Path} : p.isWithin q = true ↔ q.components <+: p.components :=
  List.isPrefixOf_iff_prefix

theorem isAncestor_ofNames_iff (hn : ∀ n ∈ ns, IsName n) (hm : ∀ m ∈ ms, IsName m) :
    (ofNames true ns).IsAncestor (ofNames true ms) ↔ ns <+: ms ∧ ns ≠ ms := by
  rw [← components_isPrefix_iff hn hm]
  constructor
  · rintro ⟨hbegins, hne⟩
    exact ⟨hbegins, fun he => hne (by rw [he])⟩
  · rintro ⟨hbegins, hne⟩
    refine ⟨hbegins, fun he => hne ?_⟩
    rw [components_ofNames hn, components_ofNames hm] at he
    exact map_name_injective (List.cons.inj he).2

/-! ### The directories of a search -/

/-- **The directories that are visited** are all directories above the path that lie in the outermost one. -/
theorem mem_directoriesTo_iff (h : ∀ n ∈ above ++ below, IsName n) :
    d ∈ directoriesTo above below ↔
      d.IsNormal ∧ d.IsAncestor (ofNames true (above ++ below)) ∧
        d.isWithin (ofNames true above) = true := by
  have habove : ∀ n ∈ above, IsName n := fun n hn => h n (List.mem_append_left below hn)
  constructor
  · intro hd
    obtain ⟨k, hk, rfl⟩ := mem_directoriesTo hd
    have hbegins : above ++ below.take k <+: above ++ below :=
      (List.prefix_append_right_inj above).mpr (List.take_prefix k below)
    have hnames : ∀ n ∈ above ++ below.take k, IsName n := fun n hn => h n (hbegins.subset hn)
    refine ⟨isNormal_ofNames hnames, (isAncestor_ofNames_iff hnames h).mpr ⟨hbegins, fun he => ?_⟩,
      isWithin_iff.mpr ((components_isPrefix_iff habove hnames).mpr (List.prefix_append above _))⟩
    have hlen := congrArg List.length (List.append_cancel_left he)
    rw [List.length_take] at hlen
    omega
  · rintro ⟨hnormal, hbelow, hwithin⟩
    obtain ⟨ms, hms, rfl⟩ := hnormal.exists_names
    obtain ⟨mid, rfl⟩ := (components_isPrefix_iff habove hms).mp (isWithin_iff.mp hwithin)
    obtain ⟨⟨rest, hrest⟩, hne⟩ := (isAncestor_ofNames_iff hms h).mp hbelow
    rw [List.append_assoc] at hrest
    obtain rfl := (List.append_cancel_left hrest).symm
    have hpos : rest ≠ [] := by
      rintro rfl
      exact hne (by rw [List.append_nil])
    refine List.mem_map.mpr ⟨mid.length, ?_, by rw [List.take_left]⟩
    have hlen := List.length_pos_iff.mpr hpos
    rw [List.mem_reverse, List.mem_range, List.length_append]
    omega

/-- **A search that goes farther up** visits the same directories first. -/
theorem ancestorsUpTo_isPrefix (h : ∀ n ∈ above ++ below, IsName n) (hb : below ≠ []) {top : Path}
    (htop : (ofNames true above).isWithin top = true) :
    ancestorsUpTo (ofNames true above) (ofNames true (above ++ below)) <+:
      ancestorsUpTo top (ofNames true (above ++ below)) := by
  have habove : ∀ n ∈ above, IsName n := fun n hn => h n (List.mem_append_left below hn)
  have hcomponents := isWithin_iff.mp htop
  rw [components_ofNames habove, List.prefix_cons_iff] at hcomponents
  rw [ancestorsUpTo_ofNames h hb]
  rcases hcomponents with hnil | ⟨cs, hcs, hbegins⟩
  · -- no directory is the empty path, so the search ends at the root of the file system
    have hall : ancestorsUpTo top (ofNames true (above ++ below)) =
        directoriesTo [] (above ++ below) := by
      rw [ancestorsUpTo, ancestors_ofNames h]
      refine throughFirst_eq_self fun d hd => ?_
      obtain ⟨k, -, rfl⟩ := mem_directoriesTo hd
      have hk : ∀ n ∈ (above ++ below).take k, IsName n := fun n hn => h n (List.mem_of_mem_take hn)
      rw [same, List.nil_append, components_ofNames hk, hnil]
      rfl
    rw [hall, directoriesTo_append, List.nil_append]
    exact List.prefix_append _ _
  · obtain ⟨rest, hrest⟩ := hbegins
    obtain ⟨outer, mid, rfl, rfl, -⟩ := List.map_eq_append_iff.mp hrest.symm
    have houter : ∀ n ∈ outer, IsName n := fun n hn => habove n (List.mem_append_left mid hn)
    have hsame : ancestorsUpTo top (ofNames true (outer ++ mid ++ below)) =
        ancestorsUpTo (ofNames true outer) (ofNames true (outer ++ mid ++ below)) := by
      unfold ancestorsUpTo same
      rw [hcs, components_ofNames houter]
    rw [List.append_assoc] at h hsame ⊢
    rw [hsame, ancestorsUpTo_ofNames h (by simp [hb]), directoriesTo_append]
    exact List.prefix_append _ _

/-! ### The files of a search -/

/-- **A search visits exactly the directories above a path up to the outermost one**, the nearest first:
there is one file for each of them, and no two of these files are the same path.  Their number is the
difference of the numbers of components, and they are the first files of every search that goes farther
up. -/
theorem exists_directories_filesAbove {target root : Path} (ht : target.IsNormal) (hr : root.IsNormal)
    (h : root.IsAncestor target) {name : Text} (hs : '/' ∉ name) :
    ∃ directories : List Path,
      target.filesAbove name root = directories.map (fun d => d.join (ofText name)) ∧
        (∀ d : Path, d ∈ directories ↔
          d.IsNormal ∧ d.IsAncestor target ∧ d.isWithin root = true) ∧
        directories.Pairwise (fun d e => e.IsAncestor d) ∧
        (target.filesAbove name root).Pairwise (fun a b => a.same b = false) ∧
        (target.filesAbove name root).length + root.components.length = target.components.length ∧
        ∀ top : Path, root.isWithin top = true →
          target.filesAbove name root <+: target.filesAbove name top := by
  obtain ⟨ns, hns, rfl⟩ := ht.exists_names
  obtain ⟨above, habove, rfl⟩ := hr.exists_names
  obtain ⟨⟨below, rfl⟩, hne⟩ := (isAncestor_ofNames_iff habove hns).mp h
  have hbelow : below ≠ [] := by
    rintro rfl
    exact hne (by rw [List.append_nil])
  have hdirs := ancestorsUpTo_ofNames hns hbelow
  have hhere : .here ∉ (ofNames true (above ++ below)).components := by
    rw [components_ofNames hns]
    simp
  refine ⟨directoriesTo above below, ?_, fun d => mem_directoriesTo_iff hns, ?_,
    pairwise_filesAbove hhere hs _, ?_, fun top htop => ?_⟩
  · rw [filesAbove, hdirs]
  · rw [← hdirs]
    exact (pairwise_ancestors _).sublist (throughFirst_sublist _ _)
  · rw [filesAbove, hdirs, List.length_map, length_directoriesTo, components_ofNames habove,
      components_ofNames hns]
    simp only [List.length_cons, List.length_map, List.length_append]
    omega
  · exact (ancestorsUpTo_isPrefix hns hbelow htop).map _

/-- A path three names below `/w`. -/
def deepTarget : Path := ofText "/w/a/b/c".toList

theorem exists_directories_filesAbove_deepTarget :
    deepTarget.IsNormal ∧ (ofText "/w".toList).IsNormal ∧
      (ofText "/w".toList).IsAncestor deepTarget ∧ '/' ∉ ".ec".toList ∧
      deepTarget.filesAbove ".ec".toList (ofText "/w".toList) =
        [ofText "/w/a/b/.ec".toList, ofText "/w/a/.ec".toList, ofText "/w/.ec".toList] ∧
      (deepTarget.filesAbove ".ec".toList (ofText "/w".toList)).length +
        (ofText "/w".toList).components.length = deepTarget.components.length ∧
      deepTarget.filesAbove ".ec".toList (ofText "/w".toList) <+:
        deepTarget.filesAbove ".ec".toList (ofText ['/']) := by
  have ht : deepTarget.IsNormal := ⟨by decide +kernel, by decide +kernel⟩
  have hr : (ofText "/w".toList).IsNormal := ⟨by decide +kernel, by decide +kernel⟩
  have h : (ofText "/w".toList).IsAncestor deepTarget := ⟨by decide +kernel, by decide +kernel⟩
  have hs : '/' ∉ ".ec".toList := by decide +kernel
  obtain ⟨-, -, -, -, -, hlength, hfarther⟩ := exists_directories_filesAbove ht hr h hs
  exact ⟨ht, hr, h, hs, by decide +kernel, hlength, hfarther _ (by decide +kernel)⟩

end EditorSettings.Path
