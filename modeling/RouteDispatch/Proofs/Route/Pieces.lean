import RouteDispatch.Route.Template
import Mathlib.Data.List.TakeWhile

/-!
# Walking through a path

A search cuts one piece after the other off the front of a path, skipping slashes and stopping at
the first question mark.  This module shows that the pieces met on the way are the non-empty texts
between the slashes of the part in front of the question mark.
-/

namespace RouteDispatch

namespace Text

/-! ## Fields behind a separator -/

theorem split_append_of_forall
    {p : Char → Bool} {field : List Char} (hfield : ∀ c ∈ field, p c = false)
    {sep : Char} (hsep : p sep = true) (rest : List Char) :
    split p (field ++ sep :: rest) = field :: split p rest := by
  induction field with
  | nil => simp [split, hsep]
  | cons c field ih =>
      have hc : p c = false := hfield c List.mem_cons_self
      have htail := ih fun x hx => hfield x (List.mem_cons_of_mem _ hx)
      rw [List.cons_append, split, htail]
      simp [hc, consField]

theorem split_eq_singleton
    {p : Char → Bool} {field : List Char} (hfield : ∀ c ∈ field, p c = false) :
    split p field = [field] := by
  induction field with
  | nil => rfl
  | cons c field ih =>
      have hc : p c = false := hfield c List.mem_cons_self
      have htail := ih fun x hx => hfield x (List.mem_cons_of_mem _ hx)
      rw [split, htail]
      simp [hc, consField]

/-! ## Fields on both sides of a separator -/

theorem consField_append
    (c : Char) {fields : List (List Char)} (h : fields ≠ []) (more : List (List Char)) :
    consField c (fields ++ more) = consField c fields ++ more := by
  obtain ⟨field, rest, rfl⟩ := List.exists_cons_of_ne_nil h
  rfl

theorem split_append_cons
    {p : Char → Bool} {sep : Char} (hsep : p sep = true) (front rest : List Char) :
    split p (front ++ sep :: rest) = split p front ++ split p rest := by
  induction front with
  | nil => simp [split, hsep]
  | cons c front ih =>
      rw [List.cons_append, split, split, ih]
      split
      · rfl
      · exact consField_append c (split_ne_nil p front) _

theorem join_append
    (sep : Char) {front : List (List Char)} (hfront : front ≠ []) {rest : List (List Char)}
    (hrest : rest ≠ []) : join sep (front ++ rest) = join sep front ++ sep :: join sep rest := by
  induction front with
  | nil => exact absurd rfl hfront
  | cons field front ih =>
      cases front with
      | nil =>
          obtain ⟨first, more, rfl⟩ := List.exists_cons_of_ne_nil hrest
          rfl
      | cons second front =>
          have htail := ih (List.cons_ne_nil second front)
          rw [List.cons_append] at htail
          rw [List.cons_append, List.cons_append, join, htail]
          · simp [join]
          · exact List.cons_ne_nil _ _

/-! ## Pieces -/

theorem pieces_cons_of_sep
    {p : Char → Bool} {sep : Char} (hsep : p sep = true) (rest : List Char) :
    pieces p (sep :: rest) = pieces p rest := by
  simp [pieces, split, hsep]

theorem pieces_append_of_forall
    {p : Char → Bool} {field : List Char} (hfield : ∀ c ∈ field, p c = false)
    (hne : field ≠ []) {sep : Char} (hsep : p sep = true) (rest : List Char) :
    pieces p (field ++ sep :: rest) = field :: pieces p rest := by
  simp [pieces, split_append_of_forall hfield hsep, hne]

theorem pieces_eq_singleton
    {p : Char → Bool} {field : List Char} (hfield : ∀ c ∈ field, p c = false)
    (hne : field ≠ []) :
    pieces p field = [field] := by
  simp [pieces, split_eq_singleton hfield, hne]

end Text

namespace Template

/-! ## The walk -/

/-- The non-empty texts between the slashes of a path, up to the query string. -/
def piecesOf (path : List Char) : List String :=
  (Text.pieces Text.isSolidus (path.takeWhile (· != '?'))).map String.ofList

theorem pathPieces_eq_piecesOf (path : String) :
    pathPieces path = piecesOf path.toList := rfl

/-- A path with no slash in front. -/
def IsBare (path : List Char) : Prop :=
  path.head? ≠ some '/'

theorem isBare_dropWhile (path : List Char) :
    IsBare (path.dropWhile Text.isSolidus) := by
  intro h
  have hhead := List.head?_dropWhile_not Text.isSolidus path
  rw [h] at hhead
  simp [Text.isSolidus] at hhead

/-- Slashes in front of a path hold no piece. -/
theorem piecesOf_dropWhile (path : List Char) :
    piecesOf (path.dropWhile Text.isSolidus) = piecesOf path := by
  induction path with
  | nil => rfl
  | cons c path ih =>
      by_cases hc : c = '/'
      · subst hc
        have hskip : piecesOf ('/' :: path) = piecesOf path := by
          have hsep : Text.isSolidus '/' = true := rfl
          simp [piecesOf, Text.pieces_cons_of_sep hsep]
        rw [hskip, ← ih]
        rfl
      · have hkeep : (c :: path).dropWhile Text.isSolidus = c :: path := by
          simp [Text.isSolidus, hc]
        rw [hkeep]

theorem piecesOf_of_isExhausted
    {path : List Char} (h : isExhausted path = true) : piecesOf path = [] := by
  cases path with
  | nil => rfl
  | cons c path =>
      have hc : c = '?' := by simpa [isExhausted] using h
      subst hc
      rfl

/-- The text in front of a bare path that is not exhausted is a piece: it holds a character and no
boundary. -/
theorem cutPiece_fst_ne_nil
    {path : List Char} (hbare : IsBare path) (h : isExhausted path = false) :
    (cutPiece path).1 ≠ [] := by
  cases path with
  | nil => simp [isExhausted] at h
  | cons c path =>
      have hq : c ≠ '?' := by simpa [isExhausted] using h
      have hs : c ≠ '/' := by
        intro hc
        exact hbare (by rw [hc]; rfl)
      simp [cutPiece, isBoundary, Text.isSolidus, hq, hs]

theorem eq_false_of_mem_cutPiece
    {path : List Char} {c : Char} (hc : c ∈ (cutPiece path).1) :
    Text.isSolidus c = false ∧ c ≠ '?' := by
  have hnot := List.mem_takeWhile_imp hc
  simpa [isBoundary] using hnot

theorem isBare_cutPiece (path : List Char) : IsBare (cutPiece path).2 := by
  unfold cutPiece
  dsimp only
  split
  · exact isBare_dropWhile _
  · simp [IsBare]

/-- Cutting a piece off a path leaves the other pieces. -/
theorem piecesOf_eq_cons
    {path : List Char} (hbare : IsBare path) (h : isExhausted path = false) :
    piecesOf path =
      String.ofList (cutPiece path).1 :: piecesOf (cutPiece path).2 := by
  have hne := cutPiece_fst_ne_nil hbare h
  have hfield : ∀ c ∈ (cutPiece path).1, Text.isSolidus c = false :=
    fun c hc => (eq_false_of_mem_cutPiece hc).1
  have hmark : ∀ c ∈ (cutPiece path).1, (c != '?') = true := by
    intro c hc
    simpa using (eq_false_of_mem_cutPiece hc).2
  have hsplit : path = (cutPiece path).1 ++ path.dropWhile fun c => !isBoundary c :=
    (List.takeWhile_append_dropWhile (l := path)).symm
  cases hbehind : path.dropWhile fun c => !isBoundary c with
  | nil =>
      have hpath : path = (cutPiece path).1 := by rw [hbehind] at hsplit; simpa using hsplit
      have hrest : (cutPiece path).2 = [] := by simp [cutPiece, hbehind]
      have hwhole : path.takeWhile (· != '?') = (cutPiece path).1 := by
        rw [← hpath] at hmark ⊢
        exact List.takeWhile_eq_self_iff.mpr hmark
      rw [piecesOf, hwhole, Text.pieces_eq_singleton hfield hne, hrest]
      rfl
  | cons c rest =>
      have hc : isBoundary c = true := by
        have hhead := List.head?_dropWhile_not (fun c => !isBoundary c) path
        rw [hbehind] at hhead
        simpa using hhead
      rw [hbehind] at hsplit
      by_cases hs : c = '/'
      · subst hs
        have hrest : (cutPiece path).2 = rest.dropWhile Text.isSolidus := by
          simp [cutPiece, hbehind]
        have hfront : path.takeWhile (· != '?') =
            (cutPiece path).1 ++ '/' :: rest.takeWhile (· != '?') := by
          refine (congrArg (List.takeWhile (· != '?')) hsplit).trans ?_
          rw [List.takeWhile_append_of_pos hmark]
          rfl
        rw [piecesOf, hfront, Text.pieces_append_of_forall hfield hne rfl, hrest,
          piecesOf_dropWhile]
        rfl
      · have hq : c = '?' := by simpa [isBoundary, Text.isSolidus, hs] using hc
        subst hq
        have hrest : (cutPiece path).2 = [] := by simp [cutPiece, hbehind]
        have hfront : path.takeWhile (· != '?') = (cutPiece path).1 := by
          refine (congrArg (List.takeWhile (· != '?')) hsplit).trans ?_
          rw [List.takeWhile_append_of_pos hmark]
          simp
        rw [piecesOf, hfront, Text.pieces_eq_singleton hfield hne, hrest]
        rfl

end Template
end RouteDispatch
