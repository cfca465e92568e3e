import RouteDispatch.Proofs.Route.Spelling

/-!
# Equivalence paths

The compiler tells templates apart by their equivalence paths, which are texts.  Such a text is
itself a path, and its pieces are the literals of the template with a star for each capture; a
literal is never a star, so nothing is lost.  Two templates with one equivalence path accept the
same paths, and for any two others there is a path that only one of them accepts.
-/

namespace RouteDispatch
namespace Template

/-- The literals of the template can be pieces of a path, and none is the star that stands for a
capture. -/
def HasPlainLiterals (segments : List Segment) : Prop :=
  ∀ text, .literal text ∈ segments → Text.IsPiece text ∧ text ≠ "*"

theorem hasPlainLiterals_of_parse
    {route path : String} {params : List ParamSpec} {segments : List Segment}
    (h : parse route path params = .ok segments) : HasPlainLiterals segments := by
  intro text hmem
  refine ⟨isPiece_of_parse h hmem, ?_⟩
  rintro rfl
  have hreserved := (literal_of_parse h hmem).2.2
  simp [isReserved] at hreserved

theorem HasPlainLiterals.tail
    {s : Segment} {segments : List Segment} (h : HasPlainLiterals (s :: segments)) :
    HasPlainLiterals segments :=
  fun text hmem => h text (List.mem_cons_of_mem s hmem)

/-! ## Reading an equivalence path -/

theorem spells_join_behind (piece : String) (pieces : List String) :
    Spells (piece :: pieces)
      (piece.toList ++ (String.join (pieces.map ("/" ++ ·))).toList) := by
  induction pieces generalizing piece with
  | nil => simpa using Spells.last piece
  | cons next pieces ih =>
      have hnext := Spells.piece piece (ih next)
      simpa [String.join_cons] using hnext

/-- Pieces with a slash in front of each of them spell the pieces. -/
theorem spells_join (pieces : List String) :
    Spells pieces (String.join (pieces.map ("/" ++ ·))).toList := by
  cases pieces with
  | nil => exact Spells.nil
  | cons piece pieces =>
      have hpiece := Spells.slash (spells_join_behind piece pieces)
      simpa [String.join_cons] using hpiece

theorem pathPieces_join
    {pieces : List String} (h : ∀ piece ∈ pieces, Text.IsPiece piece) :
    pathPieces (String.join (pieces.map ("/" ++ ·))) = pieces := by
  refine pathPieces_of_isPathOf ⟨_, [], ?_, spells_join pieces, .inl rfl⟩ h
  rw [List.append_nil]

theorem isPiece_mark
    {segments : List Segment} (h : HasPlainLiterals segments) :
    ∀ piece ∈ segments.map Segment.mark, Text.IsPiece piece := by
  intro piece hpiece
  obtain ⟨s, hs, rfl⟩ := List.mem_map.mp hpiece
  cases s with
  | literal text => exact (h text hs).1
  | capture name param =>
      have hstar : Text.IsPiece "*" := by decide
      exact hstar

/-- The pieces of an equivalence path are the marks of the segments. -/
theorem pathPieces_equivalencePath
    {segments : List Segment} (h : HasPlainLiterals segments) :
    pathPieces (equivalencePath segments) = segments.map Segment.mark := by
  cases segments with
  | nil => decide
  | cons s segments =>
      have hjoin := pathPieces_join (isPiece_mark h)
      rwa [List.map_map] at hjoin

theorem equivalencePath_eq_of_marks_eq
    {a b : List Segment} (h : a.map Segment.mark = b.map Segment.mark) :
    equivalencePath a = equivalencePath b := by
  have hslashes : (a.map fun s => "/" ++ s.mark) = b.map fun s => "/" ++ s.mark := by
    have hmap := congrArg (List.map ("/" ++ ·)) h
    rwa [List.map_map, List.map_map] at hmap
  cases a with
  | nil =>
      have hempty : b = [] := by simpa using h.symm
      rw [hempty]
  | cons s a =>
      cases b with
      | nil => simp at h
      | cons t b =>
          simp only [equivalencePath]
          rw [hslashes]

theorem equivalencePath_eq_iff
    {a b : List Segment} (ha : HasPlainLiterals a) (hb : HasPlainLiterals b) :
    equivalencePath a = equivalencePath b ↔ a.map Segment.mark = b.map Segment.mark := by
  constructor
  · intro h
    rw [← pathPieces_equivalencePath ha, ← pathPieces_equivalencePath hb, h]
  · exact equivalencePath_eq_of_marks_eq

/-! ## Accepted paths -/

/-- A segment with plain text fits what its mark says. -/
theorem fits_eq_of_mark_eq
    {s t : Segment} (hs : ∀ text, s = .literal text → text ≠ "*")
    (ht : ∀ text, t = .literal text → text ≠ "*") (h : s.mark = t.mark) (piece : String) :
    s.fits piece = t.fits piece := by
  cases s with
  | literal x =>
      cases t with
      | literal y =>
          obtain rfl : x = y := h
          rfl
      | capture name param => exact absurd h (hs x rfl)
  | capture name param =>
      cases t with
      | literal y => exact absurd h.symm (ht y rfl)
      | capture name' param' => rfl

theorem fits_eq_of_marks_eq
    {a b : List Segment} (ha : HasPlainLiterals a) (hb : HasPlainLiterals b)
    (h : a.map Segment.mark = b.map Segment.mark) (pieces : List String) :
    fits a pieces = fits b pieces := by
  induction a generalizing b pieces with
  | nil =>
      obtain rfl : b = [] := by simpa using h.symm
      rfl
  | cons s a ih =>
      cases b with
      | nil => simp at h
      | cons t b =>
          obtain ⟨hmark, hmarks⟩ := List.cons.inj h
          cases pieces with
          | nil => rfl
          | cons piece pieces =>
              have hhead : s.fits piece = t.fits piece := by
                refine fits_eq_of_mark_eq ?_ ?_ hmark piece
                · rintro text rfl
                  exact (ha text List.mem_cons_self).2
                · rintro text rfl
                  exact (hb text List.mem_cons_self).2
              rw [fits, fits, hhead, ih ha.tail hb.tail hmarks]

/-! ## Telling templates apart -/

theorem HasPlainLiterals.head
    {s : Segment} {segments : List Segment} (h : HasPlainLiterals (s :: segments)) :
    ∀ text, s = .literal text → Text.IsPiece text := by
  rintro text rfl
  exact (h text List.mem_cons_self).1

theorem exists_piece_not_fits (text : String) :
    ∃ piece, Text.IsPiece piece ∧ (Segment.literal text).fits piece = false := by
  by_cases htext : text = "a"
  · exact ⟨"b", by decide, by simp [Segment.fits, htext]⟩
  · exact ⟨"a", by decide, by simp [Segment.fits, htext]⟩

theorem exists_piece_fits
    {s : Segment} (hs : ∀ text, s = .literal text → Text.IsPiece text) :
    ∃ piece, Text.IsPiece piece ∧ s.fits piece = true := by
  cases s with
  | literal text => exact ⟨text, hs text rfl, by simp [Segment.fits]⟩
  | capture name param => exact ⟨"x", by decide, rfl⟩

/-- Segments that the same pieces fit have one mark: a literal fits no second piece. -/
theorem mark_eq_of_fits_eq
    {s t : Segment} (hs : ∀ text, s = .literal text → Text.IsPiece text)
    (h : ∀ piece, Text.IsPiece piece → s.fits piece = t.fits piece) : s.mark = t.mark := by
  cases s with
  | literal x =>
      cases t with
      | literal y =>
          have hx := h x (hs x rfl)
          have hxy : y = x := by simpa [Segment.fits] using hx
          rw [hxy]
      | capture name param =>
          obtain ⟨other, hother, hnot⟩ := exists_piece_not_fits x
          exact absurd (hnot.symm.trans (h other hother)) Bool.false_ne_true
  | capture name param =>
      cases t with
      | literal y =>
          obtain ⟨other, hother, hnot⟩ := exists_piece_not_fits y
          exact absurd ((h other hother).trans hnot).symm Bool.false_ne_true
      | capture name' param' => rfl

/-- Some pieces of paths fit the template. -/
theorem exists_pieces_fit
    {segments : List Segment} (h : HasPlainLiterals segments) :
    ∃ pieces, (∀ piece ∈ pieces, Text.IsPiece piece) ∧ fits segments pieces = true := by
  refine ⟨fill segments (List.replicate (captureCount segments) "x"), ?_, fits_fill (by simp)⟩
  intro piece hpiece
  rcases mem_fill hpiece with hliteral | htext
  · exact (h piece hliteral).1
  · rw [List.eq_of_mem_replicate htext]
    decide

/-- Where the same pieces of paths fit two templates, the templates have the same marks: pieces that
fit one of them would tell them apart. -/
theorem marks_eq_of_fits_eq
    {a b : List Segment} (ha : HasPlainLiterals a) (hb : HasPlainLiterals b)
    (h : ∀ pieces, (∀ piece ∈ pieces, Text.IsPiece piece) → fits a pieces = fits b pieces) :
    a.map Segment.mark = b.map Segment.mark := by
  induction a generalizing b with
  | nil =>
      cases b with
      | nil => rfl
      | cons t b =>
          have hnone := h [] (by simp)
          simp [fits] at hnone
  | cons s a ih =>
      cases b with
      | nil =>
          have hnone := h [] (by simp)
          simp [fits] at hnone
      | cons t b =>
          have hcons : ∀ piece pieces, Text.IsPiece piece →
              (∀ other ∈ pieces, Text.IsPiece other) →
              (s.fits piece && fits a pieces) = (t.fits piece && fits b pieces) :=
            fun piece pieces hpiece hpieces =>
              h (piece :: pieces) (List.forall_mem_cons.mpr ⟨hpiece, hpieces⟩)
          -- A piece fits both heads or none: pieces that fit a tail may follow it.
          have hheads : ∀ piece, Text.IsPiece piece → s.fits piece = t.fits piece := by
            intro piece hpiece
            obtain ⟨behind, hbehind, hfits⟩ := exists_pieces_fit ha.tail
            obtain ⟨behind', hbehind', hfits'⟩ := exists_pieces_fit hb.tail
            have hboth := hcons piece behind hpiece hbehind
            have hboth' := hcons piece behind' hpiece hbehind'
            rw [hfits, Bool.and_true] at hboth
            rw [hfits', Bool.and_true] at hboth'
            cases hs : s.fits piece with
            | true =>
                rw [hs] at hboth
                exact (Bool.and_eq_true_iff.mp hboth.symm).1.symm
            | false =>
                rw [hs, Bool.false_and] at hboth'
                exact hboth'
          have htails : a.map Segment.mark = b.map Segment.mark := by
            obtain ⟨piece, hpiece, hs⟩ := exists_piece_fits ha.head
            refine ih ha.tail hb.tail fun pieces hpieces => ?_
            have hboth := hcons piece pieces hpiece hpieces
            rwa [← hheads piece hpiece, hs, Bool.true_and, Bool.true_and] at hboth
          rw [List.map_cons, List.map_cons, mark_eq_of_fits_eq ha.head hheads, htails]

/-- Templates have one equivalence path exactly when they accept the same paths. -/
theorem equivalencePath_eq_iff_accepts
    {a b : List Segment} (ha : HasPlainLiterals a) (hb : HasPlainLiterals b) :
    equivalencePath a = equivalencePath b ↔ ∀ path, accepts a path = accepts b path := by
  rw [equivalencePath_eq_iff ha hb]
  constructor
  · intro h path
    exact fits_eq_of_marks_eq ha hb h (pathPieces path)
  · intro h
    refine marks_eq_of_fits_eq ha hb fun pieces hpieces => ?_
    have haccepts := h (String.join (pieces.map ("/" ++ ·)))
    rwa [accepts, accepts, pathPieces_join hpieces] at haccepts

end Template
end RouteDispatch
