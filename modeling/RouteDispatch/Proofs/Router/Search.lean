import RouteDispatch.Proofs.Router.Matching

/-!
# Searching a trie

An item is preferred to another when it has a literal at the first difference of their patterns,
and with equal patterns when it is no older.  The main result is that a search gives an eligible
item preferred to all others, together with the texts that its captures take, and fails only when
no item is eligible.
-/

namespace RouteDispatch
namespace Trie

variable {α : Type}

open Template

/-! ## The best item for a path -/

/-- An item is preferred to another by the first difference of their patterns below the depth, and
with equal patterns when it is no older. -/
def Preferred (depth : Nat) (k other : Keyed α) : Prop :=
  Precedes (k.below depth) (other.below depth) ∨
    (pattern (k.below depth) = pattern (other.below depth) ∧ other.version ≤ k.version)

/-- The item is eligible for the pieces and preferred to every eligible item. -/
structure IsBest (version depth : Nat) (pieces : List String) (items : List (Keyed α))
    (k : Keyed α) : Prop where
  mem : k ∈ items
  eligible : k.Eligible version depth pieces
  preferred : ∀ other ∈ items, other.Eligible version depth pieces → Preferred depth k other

/-- What a search for the pieces gives: a best item and the texts of its captures behind those
taken before, or no item and only those taken before. -/
def Answers (version depth : Nat) (pieces : List String) (items : List (Keyed α))
    (taken : List Capture) : Option α × List Capture → Prop
  | (some a, all) => ∃ k, IsBest version depth pieces items k ∧ k.item = a ∧
      all = taken ++ captured depth (k.below depth) pieces
  | (none, all) => all = taken ∧ ∀ k ∈ items, ¬ k.Eligible version depth pieces

theorem Preferred.of_succ
    {depth : Nat} {k other : Keyed α} {s t : Segment}
    (h : Preferred (depth + 1) k other)
    (hk : k.below depth = s :: k.below (depth + 1))
    (hother : other.below depth = t :: other.below (depth + 1))
    (hst : s.isCapture = t.isCapture) :
    Preferred depth k other := by
  rcases h with hprecedes | ⟨hpattern, hversion⟩
  · refine .inl ?_
    rw [hk, hother]
    exact hprecedes.cons hst
  · refine .inr ⟨?_, hversion⟩
    rw [hk, hother]
    simpa [pattern, hst] using hpattern

/-- An item whose template ends within a node is eligible for one piece only as a literal of that
piece or as a capture. -/
theorem eligible_singleton_iff
    {version depth : Nat} {piece : String} {k : Keyed α} :
    k.Eligible version depth [piece] ↔
      (k.below depth = [.literal piece] ∨ ∃ name param, k.below depth = [.capture name param]) ∧
        k.version ≤ version := by
  constructor
  · intro h
    obtain ⟨s, hbelow, hs, hrest, hversion⟩ := Keyed.eligible_cons_iff.mp h
    rw [fits_nil_iff.mp hrest] at hbelow
    refine ⟨?_, hversion⟩
    cases s with
    | literal text =>
        have htext : text = piece := by simpa [Segment.fits] using hs
        exact .inl (htext ▸ hbelow)
    | capture name param => exact .inr ⟨name, param, hbelow⟩
  · rintro ⟨hbelow | ⟨name, param, hbelow⟩, hversion⟩
    · exact ⟨by simp [hbelow, fits, Segment.fits], hversion⟩
    · exact ⟨by simp [hbelow, fits, Segment.fits], hversion⟩

/-- The search at the last piece of a path. -/
theorem answers_ends
    {version depth : Nat} {piece : String} {items : List (Keyed α)} {s : Sorted α}
    (h : s.Holds depth items) (taken : List Capture) :
    Answers version depth [piece] items taken
      (match literalEnd? version piece
          (newestFirst (fun e => e.item.version) s.literalEnds),
        captureEnd? version (newestFirst (fun k => k.version) s.captureEnds) with
      | some k, _ => (some k.item, taken)
      | none, some k => (some k.item, taken ++ [⟨depth, piece⟩])
      | none, none => (none, taken)) := by
  cases hliteral : (newestFirst (fun e : LiteralEnd α => e.item.version) s.literalEnds).find?
      (fun e => e.hash == Text.segmentHash piece && e.text == piece && e.item.version ≤ version)
      with
  | some e =>
      obtain ⟨hmem, htest, hnewest⟩ := find?_newestFirst_eq_some hliteral
      simp only [Bool.and_eq_true, beq_iff_eq, decide_eq_true_eq] at htest
      obtain ⟨⟨-, htext⟩, hversion⟩ := htest
      obtain ⟨hitem, hbelow, -⟩ := (h.literalEnds e).mp hmem
      rw [htext] at hbelow
      simp only [literalEnd?, hliteral, Option.map_some]
      refine ⟨e.item, ⟨hitem, eligible_singleton_iff.mpr ⟨.inl hbelow, hversion⟩, ?_⟩, rfl, ?_⟩
      · intro other hother heligible
        obtain ⟨hends | ⟨name, param, hends⟩, hotherVersion⟩ := eligible_singleton_iff.mp heligible
        · have hotherMem := (h.literalEnds ⟨Text.segmentHash piece, piece, other⟩).mpr
            ⟨hother, hends, rfl⟩
          have hle := hnewest _ hotherMem (by simp [hotherVersion])
          exact .inr ⟨by rw [hbelow, hends], hle⟩
        · refine .inl ?_
          rw [hbelow, hends]
          exact precedes_of_head rfl rfl [] []
      · simp [hbelow, captured, Segment.isCapture]
  | none =>
      have hnone := find?_newestFirst_eq_none hliteral
      have hnoLiteral : ∀ k ∈ items, k.below depth = [.literal piece] → ¬ k.version ≤ version := by
        intro k hk hbelow hversion
        have hmem := (h.literalEnds ⟨Text.segmentHash piece, piece, k⟩).mpr ⟨hk, hbelow, rfl⟩
        have htest := hnone _ hmem
        simp [hversion] at htest
      cases hcapture : (newestFirst (fun k : Keyed α => k.version) s.captureEnds).find?
          (fun k => k.version ≤ version) with
      | some k =>
          obtain ⟨hmem, htest, hnewest⟩ := find?_newestFirst_eq_some hcapture
          obtain ⟨hitem, name, param, hbelow⟩ := (h.captureEnds k).mp hmem
          have hversion : k.version ≤ version := by simpa using htest
          simp only [literalEnd?, hliteral, Option.map_none, captureEnd?, hcapture]
          refine ⟨k, ⟨hitem, eligible_singleton_iff.mpr ⟨.inr ⟨name, param, hbelow⟩, hversion⟩,
            ?_⟩, rfl, ?_⟩
          · intro other hother heligible
            obtain ⟨hends | ⟨name', param', hends⟩, hotherVersion⟩ :=
              eligible_singleton_iff.mp heligible
            · exact absurd hotherVersion (hnoLiteral other hother hends)
            · have hotherMem := (h.captureEnds other).mpr ⟨hother, name', param', hends⟩
              have hle := hnewest other hotherMem (by simpa using hotherVersion)
              exact .inr ⟨by rw [hbelow, hends]; rfl, hle⟩
          · simp [hbelow, captured, Segment.isCapture]
      | none =>
          have hnoCapture := find?_newestFirst_eq_none hcapture
          simp only [literalEnd?, hliteral, Option.map_none, captureEnd?, hcapture]
          refine ⟨rfl, ?_⟩
          intro k hk heligible
          obtain ⟨hends | ⟨name, param, hends⟩, hversion⟩ := eligible_singleton_iff.mp heligible
          · exact hnoLiteral k hk hends hversion
          · have htest := hnoCapture k ((h.captureEnds k).mpr ⟨hk, name, param, hends⟩)
            simp [hversion] at htest

/-- An item is eligible for two pieces and more when it goes on through a literal of the first piece
or through a capture, and is eligible behind it. -/
theorem eligible_cons_cons_iff
    {version depth : Nat} {piece next : String} {more : List String} {k : Keyed α} :
    k.Eligible version depth (piece :: next :: more) ↔
      (k.goesOn depth piece ∨ k.capturesOn depth) ∧
        k.Eligible version (depth + 1) (next :: more) := by
  constructor
  · intro h
    obtain ⟨s, hbelow, hs, hrest⟩ := Keyed.eligible_cons_iff.mp h
    refine ⟨?_, hrest⟩
    obtain ⟨t, hnext, -, -⟩ := Keyed.eligible_cons_iff.mp hrest
    rw [hnext] at hbelow
    cases s with
    | literal text =>
        have htext : text = piece := by simpa [Segment.fits] using hs
        exact .inl ⟨t, _, htext ▸ hbelow⟩
    | capture name param => exact .inr ⟨name, param, t, _, hbelow⟩
  · rintro ⟨⟨t, rest, hbelow⟩ | ⟨name, param, t, rest, hbelow⟩, hrest⟩
    · refine Keyed.eligible_cons_iff.mpr ⟨.literal piece, ?_, by simp [Segment.fits], hrest⟩
      rw [Keyed.below_succ hbelow, hbelow]
    · refine Keyed.eligible_cons_iff.mpr ⟨.capture name param, ?_, rfl, hrest⟩
      rw [Keyed.below_succ hbelow, hbelow]

/-- A best item behind the literal of the first piece is best at the node. -/
theorem IsBest.of_literal
    {version depth : Nat} {piece next : String} {more : List String}
    {items : List (Keyed α)} {s : Sorted α} {g : Group α} {k : Keyed α}
    (hs : s.Holds depth items) (hg : g ∈ s.groups) (htext : g.text = piece)
    (h : IsBest version (depth + 1) (next :: more) g.items k) :
    IsBest version depth (piece :: next :: more) items k ∧
      captured depth (k.below depth) (piece :: next :: more) =
        captured (depth + 1) (k.below (depth + 1)) (next :: more) := by
  obtain ⟨hitem, hgoesOn⟩ := (hs.groups piece k).mp ⟨g, hg, htext, h.mem⟩
  have hbelow := hgoesOn.below_eq
  refine ⟨⟨hitem, eligible_cons_cons_iff.mpr ⟨.inl hgoesOn, h.eligible⟩, ?_⟩, ?_⟩
  · intro other hother heligible
    obtain ⟨hotherOn | hotherOn, hotherRest⟩ := eligible_cons_cons_iff.mp heligible
    · obtain ⟨g', hg', htext', hmem⟩ := (hs.groups piece other).mpr ⟨hother, hotherOn⟩
      have hsame : g' = g := hs.indexed.eq_of_text_eq hg' hg (htext'.trans htext.symm)
      rw [hsame] at hmem
      exact (h.preferred other hmem hotherRest).of_succ hbelow hotherOn.below_eq rfl
    · obtain ⟨name, param, hotherBelow⟩ := hotherOn.below_eq
      refine .inl ?_
      rw [hbelow, hotherBelow]
      exact precedes_of_head rfl rfl _ _
  · rw [hbelow, captured_cons]
    rfl

/-- A best item behind the capture is best at the node if no item behind the literal is eligible. -/
theorem IsBest.of_capture
    {version depth : Nat} {piece next : String} {more : List String}
    {items : List (Keyed α)} {s : Sorted α} {k : Keyed α}
    (hs : s.Holds depth items)
    (hnone : ∀ x ∈ items, x.goesOn depth piece → ¬ x.Eligible version (depth + 1) (next :: more))
    (h : IsBest version (depth + 1) (next :: more) s.captures k) :
    IsBest version depth (piece :: next :: more) items k ∧
      captured depth (k.below depth) (piece :: next :: more) =
        ⟨depth, piece⟩ :: captured (depth + 1) (k.below (depth + 1)) (next :: more) := by
  obtain ⟨hitem, hcapturesOn⟩ := (hs.captures k).mp h.mem
  obtain ⟨name, param, hbelow⟩ := hcapturesOn.below_eq
  refine ⟨⟨hitem, eligible_cons_cons_iff.mpr ⟨.inr hcapturesOn, h.eligible⟩, ?_⟩, ?_⟩
  · intro other hother heligible
    obtain ⟨hotherOn | hotherOn, hotherRest⟩ := eligible_cons_cons_iff.mp heligible
    · exact absurd hotherRest (hnone other hother hotherOn)
    · have hmem := (hs.captures other).mpr ⟨hother, hotherOn⟩
      obtain ⟨name', param', hotherBelow⟩ := hotherOn.below_eq
      exact (h.preferred other hmem hotherRest).of_succ hbelow hotherBelow rfl
  · rw [hbelow, captured_cons]
    rfl

/-! ## The search -/

/-- A search that goes on behind the first piece. -/
theorem find_node_goesOn
    {version depth : Nat} {path : List Char} {taken : List Capture}
    {literalEnds : List (LiteralEnd α)} {captureEnds : List (Keyed α)}
    {literals : List (UInt64 × String × Trie α)} {capture : Option (Trie α)}
    (hrest : isExhausted (cutPiece path).2 = false) :
    find version depth path taken (.node literalEnds captureEnds literals capture) =
      match (match literalChild? (String.ofList (cutPiece path).1) literals with
        | some child => find version (depth + 1) (cutPiece path).2 taken child
        | none => (none, taken)), capture with
      | (some a, taken), _ => (some a, taken)
      | (none, taken), none => (none, taken)
      | (none, taken), some child =>
        match find version (depth + 1) (cutPiece path).2
            (taken ++ [⟨depth, String.ofList (cutPiece path).1⟩]) child with
        | (some a, taken) => (some a, taken)
        | (none, more) => (none, more.take taken.length) := by
  rewrite [find, dif_neg (by simp [hrest])]
  rfl

/-- A search behind the first piece answers for the node too, if the subtrees of the node answer. -/
theorem answers_goesOn
    {version depth : Nat} {piece next : String} {more : List String}
    {items : List (Keyed α)} {s : Sorted α} {taken : List Capture}
    (hs : s.Holds depth items)
    {viaLiteral : Option α × List Capture}
    {viaCapture : Option (List Capture → Option α × List Capture)}
    (hliteral : (∃ g ∈ s.groups, g.text = piece ∧
        Answers version (depth + 1) (next :: more) g.items taken viaLiteral) ∨
      ((∀ g ∈ s.groups, g.text ≠ piece) ∧ viaLiteral = (none, taken)))
    (hcapture : (s.captures = [] ∧ viaCapture = none) ∨
      ∃ search, viaCapture = some search ∧ ∀ before,
        Answers version (depth + 1) (next :: more) s.captures before (search before)) :
    Answers version depth (piece :: next :: more) items taken
      (match viaLiteral, viaCapture with
        | (some a, taken), _ => (some a, taken)
        | (none, taken), none => (none, taken)
        | (none, taken), some search =>
          match search (taken ++ [⟨depth, piece⟩]) with
          | (some a, taken) => (some a, taken)
          | (none, more) => (none, more.take taken.length)) := by
  obtain ⟨answer, all⟩ := viaLiteral
  cases answer with
  | some a =>
      rcases hliteral with ⟨g, hg, htext, k, hbest, hitem, hall⟩ | ⟨-, hfalse⟩
      · obtain ⟨hnode, hcaptured⟩ := hbest.of_literal hs hg htext
        exact ⟨k, hnode, hitem, by rw [hall, hcaptured]⟩
      · simp at hfalse
  | none =>
      have hnone : all = taken ∧ ∀ x ∈ items, x.goesOn depth piece →
          ¬ x.Eligible version (depth + 1) (next :: more) := by
        rcases hliteral with ⟨g, hg, htext, hall, hnone⟩ | ⟨hnogroup, hall⟩
        · refine ⟨hall, ?_⟩
          intro x hx hgoesOn
          obtain ⟨g', hg', htext', hmem⟩ := (hs.groups piece x).mpr ⟨hx, hgoesOn⟩
          have hsame : g' = g := hs.indexed.eq_of_text_eq hg' hg (htext'.trans htext.symm)
          exact hnone x (hsame ▸ hmem)
        · refine ⟨congrArg Prod.snd hall, ?_⟩
          intro x hx hgoesOn
          obtain ⟨g, hg, htext, -⟩ := (hs.groups piece x).mpr ⟨hx, hgoesOn⟩
          exact absurd htext (hnogroup g hg)
      obtain ⟨rfl, hnoLiteral⟩ := hnone
      rcases hcapture with ⟨hempty, rfl⟩ | ⟨search, rfl, hsearch⟩
      · refine ⟨rfl, ?_⟩
        intro x hx heligible
        obtain ⟨hon | hon, hrest⟩ := eligible_cons_cons_iff.mp heligible
        · exact hnoLiteral x hx hon hrest
        · have hmem := (hs.captures x).mpr ⟨hx, hon⟩
          rw [hempty] at hmem
          exact absurd hmem List.not_mem_nil
      · have hfound := hsearch (all ++ [⟨depth, piece⟩])
        dsimp only
        generalize search (all ++ [⟨depth, piece⟩]) = found at hfound
        obtain ⟨answer, after⟩ := found
        cases answer with
        | some a =>
            obtain ⟨k, hbest, hitem, hall⟩ := hfound
            obtain ⟨hnode, hcaptured⟩ := hbest.of_capture hs hnoLiteral
            exact ⟨k, hnode, hitem, by rw [hall, hcaptured]; simp⟩
        | none =>
            obtain ⟨hafter, hnoCapture⟩ := hfound
            refine ⟨by rw [hafter]; simp, ?_⟩
            intro x hx heligible
            obtain ⟨hon | hon, hrest⟩ := eligible_cons_cons_iff.mp heligible
            · exact hnoLiteral x hx hon hrest
            · exact hnoCapture x ((hs.captures x).mpr ⟨hx, hon⟩) hrest

/-- A search of a trie built from items answers for them, if no template is longer than the trie is
high. -/
theorem answers_find
    {order : Iteration α} {version height depth : Nat} {items : List (Keyed α)} {t : Trie α}
    (hbuild : buildIn order height depth items = .ok t)
    (hheight : ∀ k ∈ items, k.segments.length ≤ depth + height)
    {path : List Char} (hbare : IsBare path) (hpath : isExhausted path = false)
    (taken : List Capture) :
    Answers version depth (piecesOf path) items taken (find version depth path taken t) := by
  induction height generalizing depth items path taken t with
  | zero =>
      simp only [buildIn, Except.ok.injEq] at hbuild
      subst hbuild
      have hfind : find version depth path taken (.node [] [] [] none : Trie α) =
          (none, taken) := by
        rw [find]
        simp [literalEnd?, captureEnd?, literalChild?]
      rw [hfind, piecesOf_eq_cons hbare hpath]
      refine ⟨rfl, ?_⟩
      intro k hk heligible
      obtain ⟨s, hbelow, -⟩ := Keyed.eligible_cons_iff.mp heligible
      have hshort : k.below depth = [] := List.drop_eq_nil_of_le (hheight k hk)
      simp [hshort] at hbelow
  | succ height ih =>
      obtain ⟨s, literals, capture, hof, rfl, hliterals, hcapture⟩ := buildIn_succ_cases hbuild
      have hs := Sorted.Holds.of hof
      rw [piecesOf_eq_cons hbare hpath]
      by_cases hrest : isExhausted (cutPiece path).2 = true
      · rw [find, dif_pos hrest, piecesOf_of_isExhausted hrest]
        exact answers_ends hs taken
      · have hrest' : isExhausted (cutPiece path).2 = false := by simpa using hrest
        have hbare' : IsBare (cutPiece path).2 := isBare_cutPiece path
        rw [find_node_goesOn hrest']
        obtain ⟨next, more, hpieces⟩ : ∃ next more, piecesOf (cutPiece path).2 = next :: more :=
          ⟨_, _, piecesOf_eq_cons hbare' hrest'⟩
        have hbelow : ∀ x ∈ items, x.segments.length ≤ depth + 1 + height := by
          intro x hx
          have hx' := hheight x hx
          omega
        rw [hpieces]
        have hspec := literalChild?_spec hs.indexed (order.visit_perm depth items s.groups)
          hliterals (String.ofList (cutPiece path).1)
        have hliteral :
            (∃ g ∈ s.groups, g.text = String.ofList (cutPiece path).1 ∧
              Answers version (depth + 1) (next :: more) g.items taken
                (match literalChild? (String.ofList (cutPiece path).1) literals with
                  | some child => find version (depth + 1) (cutPiece path).2 taken child
                  | none => (none, taken))) ∨
            ((∀ g ∈ s.groups, g.text ≠ String.ofList (cutPiece path).1) ∧
              (match literalChild? (String.ofList (cutPiece path).1) literals with
                | some child => find version (depth + 1) (cutPiece path).2 taken child
                | none => (none, taken)) = (none, taken)) := by
          cases hchild : literalChild? (String.ofList (cutPiece path).1) literals with
          | none =>
              rw [hchild] at hspec
              exact .inr ⟨hspec, rfl⟩
          | some child =>
              rw [hchild] at hspec
              obtain ⟨g, hg, htext, hsub⟩ := hspec
              refine .inl ⟨g, hg, htext, ?_⟩
              rw [← hpieces]
              refine ih hsub ?_ hbare' hrest' taken
              intro x hx
              exact hbelow x ((hs.groups g.text x).mp ⟨g, hg, rfl, hx⟩).1
        generalize (match literalChild? (String.ofList (cutPiece path).1) literals with
          | some child => find version (depth + 1) (cutPiece path).2 taken child
          | none => (none, taken)) = viaLiteral at hliteral ⊢
        rcases hcapture with ⟨hempty, rfl⟩ | ⟨child, hchild, rfl⟩
        · have hnode := answers_goesOn hs hliteral (.inl ⟨hempty, rfl⟩)
          obtain ⟨_ | a, all⟩ := viaLiteral
          · exact hnode
          · exact hnode
        · have hnode := answers_goesOn hs hliteral (.inr ⟨fun before =>
            find version (depth + 1) (cutPiece path).2 before child, rfl, fun before => by
              rw [← hpieces]
              refine ih hchild ?_ hbare' hrest' before
              intro x hx
              exact hbelow x ((hs.captures x).mp hx).1⟩)
          obtain ⟨_ | a, all⟩ := viaLiteral
          · exact hnode
          · exact hnode

theorem length_le_height {items : List (Keyed α)} {k : Keyed α} (hk : k ∈ items) :
    k.segments.length ≤ height items := by
  have hgrows : ∀ (items : List (Keyed α)) (h : Nat),
      h ≤ items.foldl (fun h k => max h k.segments.length) h := by
    intro items
    induction items with
    | nil => simp
    | cons x items ih =>
        intro h
        exact le_trans (Nat.le_max_left _ _) (ih _)
  have hgeneral : ∀ (items : List (Keyed α)) (h : Nat), k ∈ items →
      k.segments.length ≤ items.foldl (fun h k => max h k.segments.length) h := by
    intro items
    induction items with
    | nil => simp
    | cons x items ih =>
        intro h hx
        rcases List.mem_cons.mp hx with rfl | hx
        · exact le_trans (Nat.le_max_right _ _) (hgrows items _)
        · exact ih _ hx
  exact hgeneral items 0 hk

/-- A search of the trie of some items answers for them. -/
theorem answers_ofItemsIn
    {order : Iteration α} {version : Nat} {items : List (Keyed α)} {t : Trie α}
    (h : ofItemsIn order items = .ok t)
    {path : List Char} (hbare : IsBare path) (hpath : isExhausted path = false) :
    Answers version 0 (piecesOf path) items [] (find version 0 path [] t) := by
  refine answers_find h ?_ hbare hpath []
  intro k hk
  simpa using length_le_height hk

end Trie
end RouteDispatch
