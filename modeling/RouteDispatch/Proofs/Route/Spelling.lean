import RouteDispatch.Proofs.Route.Linkage
import RouteDispatch.Proofs.Route.Pieces

/-!
# Paths for a template

A path for a template is made by putting a text in the place of every capture and writing the pieces
with slashes between them.  More slashes may stand where slashes stand, in front of the pieces and
behind them, and a query string may follow.  Where no piece is empty or holds a slash or a question
mark, a search meets just these pieces on the path; the literals of a template are such pieces.
-/

namespace RouteDispatch

/-- Whether a text can be a piece of a path. -/
def Text.IsPiece (text : String) : Prop :=
  text ≠ "" ∧ ∀ c ∈ text.toList, Text.isSolidus c = false ∧ c ≠ '?'

instance (text : String) : Decidable (Text.IsPiece text) :=
  decidable_of_iff (text ≠ "" ∧ (text.toList.all fun c => !Text.isSolidus c && c != '?') = true)
    (by simp [Text.IsPiece])

namespace Template

/-! ## Spelling pieces -/

/-- The characters are the pieces with slashes between them; there may be more slashes than
needed, also in front and behind. -/
inductive Spells : List String → List Char → Prop
  | nil : Spells [] []
  | slash {pieces : List String} {path : List Char} (h : Spells pieces path) :
    Spells pieces ('/' :: path)
  | last (piece : String) : Spells [piece] piece.toList
  | piece (piece : String) {pieces : List String} {path : List Char} (h : Spells pieces path) :
    Spells (piece :: pieces) (piece.toList ++ '/' :: path)

/-- The path spells the pieces, and a query string may follow. -/
def IsPathOf (pieces : List String) (path : String) : Prop :=
  ∃ front query, path.toList = front ++ query ∧ Spells pieces front ∧
    (query = [] ∨ query.head? = some '?')

theorem toList_ne_nil {text : String} (h : text ≠ "") : text.toList ≠ [] :=
  fun hnil => h (String.toList_injective (by simpa using hnil))

theorem pieces_of_spells
    {pieces : List String} {path : List Char} (h : Spells pieces path)
    (hpieces : ∀ piece ∈ pieces, Text.IsPiece piece) :
    (Text.pieces Text.isSolidus path).map String.ofList = pieces := by
  induction h with
  | nil => rfl
  | slash _ ih =>
      rw [Text.pieces_cons_of_sep rfl]
      exact ih hpieces
  | last piece =>
      obtain ⟨hne, hchars⟩ := hpieces piece List.mem_cons_self
      rw [Text.pieces_eq_singleton (fun c hc => (hchars c hc).1) (toList_ne_nil hne)]
      simp
  | piece piece _ ih =>
      obtain ⟨⟨hne, hchars⟩, hrest⟩ := List.forall_mem_cons.mp hpieces
      rw [Text.pieces_append_of_forall (fun c hc => (hchars c hc).1) (toList_ne_nil hne) rfl,
        List.map_cons, ih hrest, String.ofList_toList]

theorem ne_mark_of_spells
    {pieces : List String} {path : List Char} (h : Spells pieces path)
    (hpieces : ∀ piece ∈ pieces, Text.IsPiece piece) : ∀ c ∈ path, c ≠ '?' := by
  induction h with
  | nil => simp
  | slash _ ih => exact List.forall_mem_cons.mpr ⟨by decide, ih hpieces⟩
  | last piece => exact fun c hc => ((hpieces piece List.mem_cons_self).2 c hc).2
  | piece piece _ ih =>
      obtain ⟨⟨-, hchars⟩, hrest⟩ := List.forall_mem_cons.mp hpieces
      refine List.forall_mem_append.mpr ⟨fun c hc => (hchars c hc).2, ?_⟩
      exact List.forall_mem_cons.mpr ⟨by decide, ih hrest⟩

/-- A search meets the pieces that the path spells. -/
theorem pathPieces_of_isPathOf
    {pieces : List String} {path : String} (h : IsPathOf pieces path)
    (hpieces : ∀ piece ∈ pieces, Text.IsPiece piece) : pathPieces path = pieces := by
  obtain ⟨front, query, hpath, hspells, hquery⟩ := h
  have hfront : withoutQuery path = front := by
    have hmark : ∀ c ∈ front, (c != '?') = true := by
      simpa using ne_mark_of_spells hspells hpieces
    rw [withoutQuery, hpath, List.takeWhile_append_of_pos hmark]
    rcases hquery with rfl | hhead
    · simp
    · obtain ⟨rest, rfl⟩ := List.head?_eq_some_iff.mp hhead
      simp
  rw [pathPieces, hfront, pieces_of_spells hspells hpieces]

/-! ## The literals of a template -/

theorem isSolidus_of_mem_tokens
    {path token : String} (h : token ∈ tokens path) :
    ∀ c ∈ token.toList, Text.isSolidus c = false := by
  unfold tokens at h
  split at h
  · simp at h
  · obtain ⟨field, hfield, rfl⟩ := List.mem_map.mp h
    rw [String.toList_ofList]
    exact Text.eq_false_of_mem_split hfield

/-- A token that is read as a literal is the text of the literal, and holds something but no reserved
character. -/
theorem eq_of_parseToken
    {route path : String} {params : List ParamSpec} {before : List Segment} {token text : String}
    (h : parseToken route path params before token = .ok (.literal text)) :
    token = text ∧ text ≠ "" ∧ text.toList.any isReserved = false := by
  obtain ⟨hne, hreserved, ⟨-, hliteral⟩ | ⟨_, _, -, -, -, -, hcapture⟩⟩ := parseToken_cases h
  · obtain rfl := Segment.literal.inj hliteral
    exact ⟨rfl, hne, hreserved⟩
  · cases hcapture

theorem literal_of_parseTokens
    {route path : String} {params : List ParamSpec} {before segments : List Segment}
    {toks : List String} (h : parseTokens route path params before toks = .ok segments)
    {text : String} (hmem : .literal text ∈ segments) :
    .literal text ∈ before ∨
      (text ∈ toks ∧ text ≠ "" ∧ text.toList.any isReserved = false) := by
  induction toks generalizing before with
  | nil =>
      obtain rfl := Except.ok.inj h
      exact .inl hmem
  | cons token toks ih =>
      obtain ⟨s, htoken, hrest⟩ := parseTokens_cons_eq_ok_iff.mp h
      rcases ih hrest with hread | ⟨hmem, htext⟩
      · rcases List.mem_append.mp hread with hold | hnew
        · exact .inl hold
        · obtain rfl := List.mem_singleton.mp hnew
          obtain ⟨rfl, htext⟩ := eq_of_parseToken htoken
          exact .inr ⟨List.mem_cons_self, htext⟩
      · exact .inr ⟨List.mem_cons_of_mem _ hmem, htext⟩

/-- The literals of a template that is read are tokens of it without reserved characters. -/
theorem literal_of_parse
    {route path : String} {params : List ParamSpec} {segments : List Segment}
    (h : parse route path params = .ok segments) {text : String}
    (hmem : .literal text ∈ segments) :
    text ∈ tokens path ∧ text ≠ "" ∧ text.toList.any isReserved = false := by
  obtain ⟨hread, -⟩ := parse_eq_ok_iff_parseTokens.mp h
  exact (literal_of_parseTokens hread hmem).resolve_left List.not_mem_nil

/-- The literals of a template that is read can be pieces of a path. -/
theorem isPiece_of_parse
    {route path : String} {params : List ParamSpec} {segments : List Segment}
    (h : parse route path params = .ok segments) {text : String}
    (hmem : .literal text ∈ segments) : Text.IsPiece text := by
  obtain ⟨htoken, hne, hreserved⟩ := literal_of_parse h hmem
  refine ⟨hne, fun c hc => ⟨isSolidus_of_mem_tokens htoken c hc, ?_⟩⟩
  rintro rfl
  have hmark : text.toList.any isReserved = true := List.any_eq_true.mpr ⟨'?', hc, rfl⟩
  rw [hreserved] at hmark
  cases hmark

/-! ## Filling a template -/

/-- The pieces of a template with a text in the place of each capture. -/
def fill : List Segment → List String → List String
  | [], _ => []
  | .literal text :: segments, texts => text :: fill segments texts
  | .capture .. :: segments, text :: texts => text :: fill segments texts
  | .capture .. :: _, [] => []

/-- The names of the captures, in the order of the path. -/
def captureNames (segments : List Segment) : List String :=
  segments.filterMap fun s =>
    match s with
    | .literal _ => none
    | .capture name _ => some name

@[simp]
theorem captureCount_literal (text : String) (segments : List Segment) :
    captureCount (.literal text :: segments) = captureCount segments :=
  List.countP_cons_of_neg (by simp [Segment.isCapture])

@[simp]
theorem captureCount_capture (name : String) (param : Nat) (segments : List Segment) :
    captureCount (.capture name param :: segments) = captureCount segments + 1 :=
  List.countP_cons_of_pos rfl

theorem mem_fill
    {segments : List Segment} {texts : List String} {piece : String}
    (h : piece ∈ fill segments texts) : .literal piece ∈ segments ∨ piece ∈ texts := by
  induction segments generalizing texts with
  | nil => simp [fill] at h
  | cons s segments ih =>
      cases s with
      | literal text =>
          rcases List.mem_cons.mp h with rfl | hrest
          · exact .inl List.mem_cons_self
          · exact (ih hrest).imp_left (List.mem_cons_of_mem _)
      | capture name param =>
          cases texts with
          | nil => simp [fill] at h
          | cons text texts =>
              rcases List.mem_cons.mp h with rfl | hrest
              · exact .inr List.mem_cons_self
              · exact (ih hrest).imp (List.mem_cons_of_mem _) (List.mem_cons_of_mem _)

theorem fits_fill
    {segments : List Segment} {texts : List String} (h : texts.length = captureCount segments) :
    fits segments (fill segments texts) = true := by
  induction segments generalizing texts with
  | nil => rfl
  | cons s segments ih =>
      cases s with
      | literal text =>
          refine Bool.and_eq_true_iff.mpr ⟨by simp [Segment.fits], ih ?_⟩
          simpa using h
      | capture name param =>
          cases texts with
          | nil => simp at h
          | cons text texts =>
              refine Bool.and_eq_true_iff.mpr ⟨rfl, ih ?_⟩
              simpa using h

end Template
end RouteDispatch
