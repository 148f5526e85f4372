import EditorSettings.Lookup.Documents
import EditorSettings.Proofs.Lookup.Steps
import EditorSettings.Proofs.Path.Names

/-!
# Moving documents and their target

If all documents and the target are moved below another directory, the settings stay the same, whatever
the name of that directory looks like (`PlacedDocument.settings_under`).  A document that is moved has its
directory moved (`PlacedDocument.trimSlashes_directory_under`), and a directory is compared with the
beginning of the target literally, so that what has been put before both cancels out.  A pattern that is
refused is refused in the moved directory, in the same words (`Failure.message_under`).
-/

namespace EditorSettings

open EditorSettings.Path

/-! ### Paths below a directory -/

namespace Path

/-- The absolute path `p` moved below the directory `d`. -/
def under (d p : Path) : Path := ⟨d.units ++ p.units⟩

/-- A normal absolute path other than the root. -/
structure IsPlace (p : Path) : Prop where
  isAbsolute : p.isAbsolute = true
  normal : p.normalForm = p
  ne_root : p ≠ ⟨[slash]⟩

variable {ns ms : List (List TextUnit)}

theorem IsPlace.exists_names {p : Path} (h : p.IsPlace) :
    ∃ ns, ns ≠ [] ∧ (∀ n ∈ ns, IsName n) ∧ p = ofNames true ns := by
  obtain ⟨ns, hns, hp⟩ := exists_names_of_normalForm h.isAbsolute
  rw [h.normal] at hp
  refine ⟨ns, ?_, hns, hp⟩
  rintro rfl
  exact h.ne_root hp

theorem text_under (d p : Path) : (d.under p).text = d.text ++ p.text := List.map_append

theorem under_ofNames (hm : ms ≠ []) (hn : ns ≠ []) :
    (ofNames true ms).under (ofNames true ns) = ofNames true (ms ++ ns) := by
  have hne : ms ++ ns ≠ [] := by simp [hm]
  unfold under
  rw [units_ofNames, units_ofNames, slash_cons_joinPieces hm, slash_cons_joinPieces hn,
    ← List.flatMap_append, ← slash_cons_joinPieces hne]
  rfl

end Path

/-! ### Texts behind the same text -/

theorem Text.after?_append_append (d p t : Text) : Text.after? (d ++ p) (d ++ t) = Text.after? p t := by
  induction d with
  | nil => rfl
  | cons c d ih => simp [Text.after?, ih]

theorem Glob.trimSlashes_eq_self {t : Text} (h : t.getLast? ≠ some '/') : Glob.trimSlashes t = t := by
  refine Text.reverse_dropWhile_reverse_eq_self_iff.mpr fun c hc => beq_eq_false_iff_ne.mpr ?_
  rintro rfl
  exact h hc

/-- A directory has a slash at its end only if it is the root. -/
theorem Glob.trimSlashes_text_ofNames {ns : List (List TextUnit)} (h : ∀ n ∈ ns, IsName n) :
    Glob.trimSlashes (ofNames true ns).text = ns.flatMap fun n => '/' :: n.map TextUnit.shown := by
  rcases eq_or_ne ns [] with rfl | hne
  · rfl
  · rw [← text_ofNames hne]
    exact Glob.trimSlashes_eq_self (getLast?_text_ne_slash hne h)

/-! ### Failures below a directory -/

namespace Failure

/-- The failure where the directory of a refused pattern is moved below a directory. -/
def under (d : Path) : Failure → Failure
  | invalidPattern directory pattern => invalidPattern (d.text ++ directory) pattern
  | failure => failure

/-- **A failure that is moved keeps its wording.** -/
theorem message_under (d : Path) (failure : Failure) : (failure.under d).message = failure.message := by
  cases failure <;> rfl

end Failure

namespace PlacedDocument

variable {d : Path} {x : PlacedDocument}

/-- The document moved below a directory. -/
def under (d : Path) (x : PlacedDocument) : PlacedDocument := { x with path := d.under x.path }

/-- **The directory of a document moves with it.** -/
theorem trimSlashes_directory_under (hd : d.IsPlace) (hx : x.path.IsPlace) :
    Glob.trimSlashes (x.under d).directory = d.text ++ Glob.trimSlashes x.directory := by
  obtain ⟨ms, hms, hmn, rfl⟩ := hd.exists_names
  obtain ⟨ns, hns, hnn, hp⟩ := hx.exists_names
  have hall : ∀ m ∈ ms ++ ns, IsName m := fun m hm =>
    (List.mem_append.mp hm).elim (hmn m) (hnn m)
  have hpath : (x.under (ofNames true ms)).path = ofNames true (ms ++ ns) := by
    unfold under
    rw [hp]
    exact under_ofNames hms hns
  obtain ⟨ns, n, rfl⟩ := (List.eq_nil_or_concat' ns).resolve_left hns
  have hnns : ∀ m ∈ ns, IsName m := fun m hm => hnn m (List.mem_append_left _ hm)
  rw [← List.append_assoc] at hall hpath
  have hms' : ∀ m ∈ ms ++ ns, IsName m := fun m hm => hall m (List.mem_append_left _ hm)
  rw [directory, directory, hpath, hp, parent?_ofNames_concat hall, parent?_ofNames_concat hnn,
    Option.getD_some, Option.getD_some, Glob.trimSlashes_text_ofNames hms',
    Glob.trimSlashes_text_ofNames hnns, text_ofNames hms, List.flatMap_append]

/-! ### Settings -/

theorem writeSection_under {directory directory' : Text}
    (h : Glob.trimSlashes directory' = d.text ++ Glob.trimSlashes directory) (target : Text)
    (m : Settings) (s : Text × Section) : writeSection directory' (d.text ++ target) m s =
      (writeSection directory target m s).mapError (Failure.under d) := by
  unfold writeSection Glob.ofPattern?
  rw [h]
  cases Regex.ofTokens? (Token.ofPattern (Glob.belowDirectory s.1)) with
  | none => rfl
  | some r =>
    dsimp only [Option.map_some]
    unfold Glob.accepts
    rw [Text.after?_append_append]
    rfl

/-- **A document that is moved with its target writes the same.** -/
theorem write_under (hd : d.IsPlace) (hx : x.path.IsPlace) (target : Text) (m : Settings) :
    write (d.text ++ target) m (x.under d) = (write target m x).mapError (Failure.under d) := by
  refine foldlM_mapError (List.forall₂_same.mpr fun s _ m => ?_) m
  exact writeSection_under (trimSlashes_directory_under hd hx) target m s

/-- **Documents and a target that are moved together keep the settings**, or the pattern that has no
expression, which is refused in the directory that has been moved, in the same words.  Nothing is asked of
the target. -/
theorem settings_under (hd : d.IsPlace) {documents : List PlacedDocument}
    (h : ∀ x ∈ documents, x.path.IsPlace) (target : Path) (version : Version) :
    settings (documents.map (under d)) (d.under target) version =
        (settings documents target version).mapError (Failure.under d) ∧
      ∀ failure : Failure, (failure.under d).message = failure.message := by
  have hsteps : List.Forall₂ (fun y x => ∀ m, write (d.text ++ target.text) m y =
      (write target.text m x).mapError (Failure.under d))
      (documents.reverse.map (under d)) documents.reverse := by
    rw [List.forall₂_map_left_iff, List.forall₂_same]
    exact fun x hx => write_under hd (h x (List.mem_reverse.mp hx)) target.text
  refine ⟨?_, Failure.message_under d⟩
  rw [settings, text_under, ← List.map_reverse, foldlM_mapError hsteps, settings]
  cases documents.reverse.foldlM (write target.text) OrderedMap.empty <;> rfl

/-- A document in `/`, and one in a directory with the name `a`. -/
def twoPlaces : List PlacedDocument :=
  [⟨ofText "/a/.editorconfig".toList, ⟨[.preamble, ⟨some "b*".toList, ⟨[(['x'], ['u'])]⟩⟩]⟩⟩,
    ⟨ofText "/.editorconfig".toList, ⟨[.preamble, ⟨some "/a/**".toList, ⟨[(['y'], ['w'])]⟩⟩]⟩⟩]

/-- A document with a pattern that is refused. -/
def refusedPlace : List PlacedDocument :=
  [⟨ofText "/a/.editorconfig".toList, ⟨[.preamble, .headed "/[--c-b]".toList]⟩⟩]

theorem settings_under_twoPlaces :
    (ofText "/d[!.*(\x7b".toList).IsPlace ∧ (∀ x ∈ twoPlaces ++ refusedPlace, x.path.IsPlace) ∧
      settings (twoPlaces.map (under (ofText "/d[!.*(\x7b".toList)))
          ((ofText "/d[!.*(\x7b".toList).under (ofText "/a/bc".toList)) Version.current =
        .ok ⟨[(['y'], .text ['w']), (['x'], .text ['u'])]⟩ ∧
      settings (refusedPlace.map (under (ofText "/d[!.*(\x7b".toList)))
          ((ofText "/d[!.*(\x7b".toList).under (ofText "/a/bc".toList)) Version.current =
        .error (.invalidPattern "/d[!.*(\x7b/a".toList "/[--c-b]".toList) := by
  have hd : (ofText "/d[!.*(\x7b".toList).IsPlace :=
    ⟨by decide +kernel, by decide +kernel, by decide +kernel⟩
  have h : ∀ x ∈ twoPlaces ++ refusedPlace, x.path.IsPlace := by
    intro x hx
    simp only [twoPlaces, refusedPlace, List.cons_append, List.nil_append, List.mem_cons, List.not_mem_nil,
      or_false] at hx
    rcases hx with rfl | rfl | rfl
    · exact ⟨by decide +kernel, by decide +kernel, by decide +kernel⟩
    · exact ⟨by decide +kernel, by decide +kernel, by decide +kernel⟩
    · exact ⟨by decide +kernel, by decide +kernel, by decide +kernel⟩
  refine ⟨hd, h, ?_, ?_⟩
  · rw [(settings_under hd (fun x hx => h x (List.mem_append_left _ hx)) _ _).1]
    decide +kernel
  · rw [(settings_under hd (fun x hx => h x (List.mem_append_right _ hx)) _ _).1]
    decide +kernel

end PlacedDocument

end EditorSettings
