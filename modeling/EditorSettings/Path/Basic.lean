import EditorSettings.Text.Utf8

/-!
# File paths

A path is a sequence of units: a character, or a run of bytes that is no character.  Slashes divide it
into components.  Empty pieces and inner `.` pieces are no components, a leading slash is the root, and
a leading `.` of a relative path stays; two paths are the same path if their components are equal.

* `Path.components` is the view by which paths are compared (`Path.same`, `Path.isWithin`).
* `Path.join` and `Path.parent?` keep the units of the remaining text as they are.
* `length_parent?`: a parent is shorter, so going up from parent to parent ends.
-/

namespace EditorSettings

/-- A file path. -/
structure Path where
  /-- The units in order. -/
  units : List TextUnit
deriving DecidableEq, Repr

/-- A component of a path. -/
inductive Component
  /-- The leading slash of an absolute path. -/
  | root
  /-- The leading `.` of a relative path. -/
  | here
  /-- A `..`. -/
  | up
  /-- A name. -/
  | name (units : List TextUnit)
deriving DecidableEq, Repr

namespace Path

/-- The unit that divides components. -/
def slash : TextUnit := .char '/'

/-- The piece `.`. -/
def dot : List TextUnit := [.char '.']

/-- The piece `..`. -/
def dots : List TextUnit := [.char '.', .char '.']

/-- The empty path. -/
def empty : Path := ⟨[]⟩

instance : Inhabited Path := ⟨empty⟩

/-- The path with the characters of a text. -/
def ofText (t : Text) : Path := ⟨t.map .char⟩

/-- The path with the given bytes. -/
def ofBytes (bytes : List UInt8) : Path := ⟨TextUnit.ofBytes bytes⟩

/-- The text by which a path is shown and matched; bytes that form no character are replaced. -/
def text (p : Path) : Text := p.units.map TextUnit.shown

/-- Whether a path begins with a slash. -/
def isAbsolute (p : Path) : Bool := p.units.head? == some slash

/-! ### Components -/

/-- The component of a piece that is not the first one. -/
def component? (piece : List TextUnit) : Option Component :=
  if piece = [] ∨ piece = dot then none
  else if piece = dots then some .up
  else some (.name piece)

/-- The component of the first piece: nothing before the slash of an absolute path is its root. -/
def firstComponent? (absolute : Bool) (piece : List TextUnit) : Option Component :=
  if absolute then some .root
  else if piece = dot then some .here
  else component? piece

/-- The components of a path. -/
def components (p : Path) : List Component :=
  match pieces slash p.units with
  | [] => []
  | first :: rest => (firstComponent? p.isAbsolute first).toList ++ rest.filterMap component?

/-- Whether two paths have the same components. -/
def same (p q : Path) : Bool := p.components == q.components

/-- Whether `p` is `q` or lies below it, by components. -/
def isWithin (p q : Path) : Bool := q.components.isPrefixOf p.components

/-! ### Joining -/

/-- The path `q` seen from the directory `p`: `q` itself if it is absolute, else `q` behind `p`. -/
def join (p q : Path) : Path :=
  if q.isAbsolute then q
  else if p.units = [] ∨ p.units.getLast? = some slash then ⟨p.units ++ q.units⟩
  else ⟨p.units ++ slash :: q.units⟩

/-! ### Parents -/

/-- Whether a piece is no component. -/
def isVoid (piece : List TextUnit) : Bool := decide (piece = [] ∨ piece = dot)

/-- The pieces before the last one that is a component, without void pieces at their end, if there is
such a piece.  The pieces are given and returned from the last to the first. -/
def dropLastPiece? (reversed : List (List TextUnit)) : Option (List (List TextUnit)) :=
  match reversed.dropWhile isVoid with
  | [] => none
  | _ :: before => some (before.dropWhile isVoid)

/-- The text of pieces with slashes between them. -/
def joinPieces (ps : List (List TextUnit)) : List TextUnit := [slash].intercalate ps

/-- What a path begins with before its pieces: a slash, a leading `.`, or nothing. -/
def lead (p : Path) : List TextUnit :=
  match pieces slash p.units with
  | [] => []
  | first :: _ => if p.isAbsolute then [slash] else if first = dot then dot else []

/-- A path without its last component; none for the root and the empty path. -/
def parent? (p : Path) : Option Path :=
  match dropLastPiece? (pieces slash (p.units.drop p.lead.length)).reverse with
  | some before => some ⟨p.lead ++ joinPieces before.reverse⟩
  | none => if p.lead = dot then some empty else none

/-! ### A parent is shorter -/

theorem joinPieces_cons_cons (a b : List TextUnit) (ps : List (List TextUnit)) :
    joinPieces (a :: b :: ps) = a ++ slash :: joinPieces (b :: ps) := by
  simp [joinPieces, List.intercalate]

theorem length_joinPieces_append (as bs : List (List TextUnit)) :
    (joinPieces as).length ≤ (joinPieces (as ++ bs)).length := by
  induction as with
  | nil => simp [joinPieces]
  | cons a as ih =>
    cases as with
    | nil =>
      cases bs with
      | nil => simp
      | cons b bs => simp [joinPieces]
    | cons b as =>
      simp only [List.cons_append, joinPieces_cons_cons, List.length_append, List.length_cons] at ih ⊢
      omega

theorem length_joinPieces_concat (as : List (List TextUnit)) {p : List TextUnit} (h : p ≠ []) :
    (joinPieces as).length < (joinPieces (as ++ [p])).length := by
  have hp : 0 < p.length := List.length_pos_iff.mpr h
  induction as with
  | nil => simpa [joinPieces, List.intercalate] using hp
  | cons a as ih =>
    cases as with
    | nil => simp [joinPieces]
    | cons b as =>
      simp only [List.cons_append, joinPieces_cons_cons, List.length_append, List.length_cons] at ih ⊢
      omega

theorem exists_append_of_dropLastPiece? {ps before : List (List TextUnit)}
    (h : dropLastPiece? ps.reverse = some before) :
    ∃ voids p others, p ≠ [] ∧ ps = before.reverse ++ voids ++ [p] ++ others := by
  unfold dropLastPiece? at h
  split at h
  · exact absurd h (by simp)
  · next p before' hd =>
    obtain rfl := Option.some.inj h
    have hsplit := List.takeWhile_append_dropWhile (p := isVoid) (l := ps.reverse)
    have hsplit' := List.takeWhile_append_dropWhile (p := isVoid) (l := before')
    have hp : isVoid p = false := by
      have := List.head?_dropWhile_not isVoid ps.reverse
      rw [hd] at this
      simpa using this
    refine ⟨(before'.takeWhile isVoid).reverse, p, (ps.reverse.takeWhile isVoid).reverse, ?_, ?_⟩
    · rintro rfl
      simp [isVoid] at hp
    · rw [hd, ← hsplit'] at hsplit
      have := congrArg List.reverse hsplit
      simp only [List.reverse_append, List.reverse_cons, List.reverse_reverse] at this
      simpa using this.symm

/-- The beginning and the pieces of a path are the path. -/
theorem exists_units_eq_lead_append (p : Path) : ∃ rest, p.units = p.lead ++ rest := by
  unfold lead
  split
  · exact ⟨p.units, rfl⟩
  · next first others hp =>
    split
    · next ha =>
      cases hu : p.units with
      | nil => simp [isAbsolute, hu] at ha
      | cons u us =>
        simp only [isAbsolute, hu, List.head?_cons, beq_iff_eq, Option.some.injEq] at ha
        exact ⟨us, by rw [ha]; rfl⟩
    · split
      · next hf =>
        have hi := intercalate_pieces slash p.units
        rw [hp, hf] at hi
        cases others with
        | nil => exact ⟨[], by simpa [List.intercalate] using hi.symm⟩
        | cons o os => exact ⟨_, by simpa [List.intercalate] using hi.symm⟩
      · exact ⟨p.units, rfl⟩

theorem length_parent? {p d : Path} (h : p.parent? = some d) : d.units.length < p.units.length := by
  obtain ⟨rest, hrest⟩ := exists_units_eq_lead_append p
  unfold parent? at h
  split at h
  · next before hb =>
    obtain rfl := Option.some.inj h
    obtain ⟨voids, q, others, hq, hps⟩ := exists_append_of_dropLastPiece? hb
    have hlen : (p.units.drop p.lead.length).length = (joinPieces (before.reverse ++ voids ++ [q] ++
        others)).length := by
      rw [← hps, joinPieces, intercalate_pieces]
    have h1 := length_joinPieces_append before.reverse voids
    have h2 := length_joinPieces_concat (before.reverse ++ voids) hq
    have h3 := length_joinPieces_append (before.reverse ++ voids ++ [q]) others
    have h4 : p.lead.length ≤ p.units.length := by rw [hrest]; simp
    simp only [List.length_drop] at hlen
    simp only [List.length_append]
    omega
  · split at h
    · next hl =>
      obtain rfl := Option.some.inj h
      rw [hrest, hl]
      simp [empty, dot]
    · exact absurd h (by simp)

end Path

end EditorSettings
