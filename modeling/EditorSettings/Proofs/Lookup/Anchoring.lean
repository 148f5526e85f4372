import EditorSettings.Lookup.Basic
import EditorSettings.Proofs.Lookup.Requests

/-!
# Where the sections of a document hold

A document is looked up in a directory above the target, and its sections hold in the parent of its path.
Both are the same directory for every name that a document can have except `.`
(`Request.parent?_places`): a name and `..` are components of the path, but a `.` at its end is none, so
the parent of such a path lies one directory higher.
-/

namespace EditorSettings

open EditorSettings.Path

namespace Path

variable {ns : List (List TextUnit)} {n : List TextUnit} {absolute : Bool}

/-- **A solid piece in a directory** has that directory as its parent. -/
theorem parent?_join (h : ∀ m ∈ ns, IsName m) (hn : IsSolid n) :
    ((ofNames absolute ns).join ⟨n⟩).parent? = some (ofNames absolute ns) := by
  rw [join_ofNames h hn.slash_not_mem]
  refine parent?_ofSolid_concat fun m hm => ?_
  rcases List.mem_append.mp hm with hm | hm
  · exact (h m hm).isSolid
  · rwa [List.mem_singleton.mp hm]

theorem parent?_congr {p q : Path} (hlead : p.lead = q.lead)
    (h : dropLastPiece? p.restPieces.reverse = dropLastPiece? q.restPieces.reverse) :
    p.parent? = q.parent? := by
  unfold restPieces at h
  unfold parent?
  rw [h, hlead]

theorem lead_slash_cons (us : List TextUnit) : (⟨slash :: us⟩ : Path).lead = [slash] := by
  unfold lead
  rw [pieces, if_pos rfl]
  rfl

theorem restPieces_slash_cons (us : List TextUnit) :
    (⟨slash :: us⟩ : Path).restPieces = pieces slash us := by
  rw [restPieces, lead_slash_cons]
  rfl

/-- **A `.` in a directory** has the parent of that directory as its parent. -/
theorem parent?_join_dot (h : ∀ m ∈ ns, IsName m) :
    ((ofNames true ns).join ⟨dot⟩).parent? = (ofNames true ns).parent? := by
  have hvoid : isVoid dot = true := by decide
  rw [join_ofNames h (by decide)]
  have hpieces : pieces slash (joinPieces (ns ++ [dot])) = ns ++ [dot] := by
    refine pieces_joinPieces (by simp) fun m hm => ?_
    rcases List.mem_append.mp hm with hm | hm
    · exact (h m hm).slash_not_mem
    · rw [List.mem_singleton.mp hm]
      decide
  change (⟨slash :: joinPieces (ns ++ [dot])⟩ : Path).parent? = (⟨slash :: joinPieces ns⟩ : Path).parent?
  refine parent?_congr ((lead_slash_cons _).trans (lead_slash_cons _).symm) ?_
  rw [restPieces_slash_cons, restPieces_slash_cons, hpieces, List.reverse_concat]
  unfold dropLastPiece?
  rw [List.dropWhile_cons_of_pos hvoid]
  rcases eq_or_ne ns [] with rfl | hne
  · rfl
  · rw [pieces_joinPieces hne fun m hm => (h m hm).slash_not_mem]

end Path

namespace Request

variable {current : Option Path} {target : Path} {options : Options} {r : Request}

theorem isSolid_ofText {name : Text} (h : isFileName name = true) (hd : name ≠ ".".toList) :
    IsSolid (ofText name).units := by
  by_cases hds : name = "..".toList
  · rw [hds]
    exact ⟨by decide, by decide⟩
  · exact (isName_ofText h hd hds).isSolid

/-- **The sections of a document hold in the directory in which it was looked up**, for every name that
documents can have except `.`.  What is found at a `.` holds in the directory above instead. -/
theorem parent?_places (h : Request.of current target options = .ok r) :
    r.places = (ancestorsUpTo r.root r.target).map (fun d => d.join (ofText options.fileName)) ∧
      ∀ d ∈ ancestorsUpTo r.root r.target,
        (options.fileName ≠ ".".toList →
          (d.join (ofText options.fileName)).parent? = some d ∧
            ∀ document : Document,
              PlacedDocument.directory ⟨d.join (ofText options.fileName), document⟩ = d.text) ∧
        (options.fileName = ".".toList → r.target.isAbsolute = true →
          (d.join (ofText options.fileName)).parent? = d.parent?) := by
  obtain ⟨hname, -, -, -, -, -, hfile⟩ := of_eq_ok_iff.mp h
  refine ⟨by rw [places, filesAbove, hfile], fun d hd => ?_⟩
  obtain ⟨ns, hns, rfl⟩ := exists_names_of_mem_directories h hd
  refine ⟨fun hdot => ?_, fun hdot habsolute => ?_⟩
  · have hparent : ((ofNames r.target.isAbsolute ns).join (ofText options.fileName)).parent? =
        some (ofNames r.target.isAbsolute ns) := parent?_join hns (isSolid_ofText hname hdot)
    refine ⟨hparent, fun document => ?_⟩
    rw [PlacedDocument.directory, hparent, Option.getD_some]
  · rw [habsolute, hdot]
    exact parent?_join_dot hns

/-- The request for `/w/a/x` where documents are called `..`. -/
def dotsRequest : Request := ⟨ofText "/w/a/x".toList, ofText ['/'], "..".toList, Version.current⟩

theorem parent?_places_dotsRequest :
    Request.of none (ofText "/w/a/x".toList) { fileName := "..".toList } = .ok dotsRequest ∧
      ofText "/w/a".toList ∈ ancestorsUpTo dotsRequest.root dotsRequest.target ∧
      "..".toList ≠ ".".toList ∧
      ((ofText "/w/a".toList).join (ofText "..".toList)).parent? = some (ofText "/w/a".toList) := by
  have h : Request.of none (ofText "/w/a/x".toList) { fileName := "..".toList } = .ok dotsRequest := by
    decide +kernel
  have hd : ofText "/w/a".toList ∈ ancestorsUpTo dotsRequest.root dotsRequest.target := by
    decide +kernel
  have hdot : "..".toList ≠ ".".toList := by decide +kernel
  exact ⟨h, hd, hdot, (((parent?_places h).2 _ hd).1 hdot).1⟩

/-- The request for `/w/a/x` where documents are called `.`. -/
def dotRequest : Request := ⟨ofText "/w/a/x".toList, ofText ['/'], ".".toList, Version.current⟩

/-- What is found at the place `/w/a/.`. -/
def dotTexts : List StoredText := [⟨ofText "/w/a/.".toList, "[/x]
k = v
".toList⟩]

/-- The document at `/w/a/.` holds in `/w`, so its section `[/x]` does not apply to `/w/a/x`. -/
theorem parent?_place_ne_directory :
    Request.of none (ofText "/w/a/x".toList) { fileName := ".".toList } = .ok dotRequest ∧
      ofText "/w/a".toList ∈ ancestorsUpTo dotRequest.root dotRequest.target ∧
      (ofText "/w/a".toList).join (ofText ".".toList) ∈ dotRequest.places ∧
      ((ofText "/w/a".toList).join (ofText ".".toList)).parent? = some (ofText "/w".toList) ∧
      ((ofText "/w/a".toList).join (ofText ".".toList)).parent? ≠ some (ofText "/w/a".toList) ∧
      Settings.lookUp (StoredText.lookup dotTexts) none (ofText "/w/a/x".toList)
        { fileName := ".".toList } = .ok ⟨[]⟩ := by
  refine ⟨?_, ?_, ?_, ?_, ?_, ?_⟩ <;> decide +kernel

end Request

end EditorSettings
