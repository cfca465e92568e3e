import RouteDispatch.Proofs.Route.Pieces
import RouteDispatch.Proofs.Router.Iteration
import Mathlib.Data.List.Induction
import Mathlib.Data.List.Nodup
import Mathlib.Tactic.Common

/-!
# The items of a trie

A trie is specified through the list of items that it was built from.  This module says what the
patterns of templates are and when an item is eligible for the pieces of a path, and shows that a
node of the trie holds exactly its items, each where its template goes on.
-/

namespace RouteDispatch

namespace Template

/-! ## Patterns -/

/-- Which segments of a template are captures. -/
def pattern (segments : List Segment) : List Bool :=
  segments.map Segment.isCapture

/-- At the first difference of the two patterns `a` has a literal and `b` a capture. -/
def Precedes (a b : List Segment) : Prop :=
  ∃ shared restA restB,
    pattern a = shared ++ false :: restA ∧ pattern b = shared ++ true :: restB

/-- The texts that the captures of a template take from pieces, with the depths of the segments,
which are counted from `depth`. -/
def captured (depth : Nat) (segments : List Segment) (pieces : List String) : List Capture :=
  ((segments.zip pieces).zipIdx depth).filterMap fun entry =>
    if entry.1.1.isCapture then some ⟨entry.2, entry.1.2⟩ else none

theorem captured_cons
    (depth : Nat) (s : Segment) (segments : List Segment) (piece : String)
    (pieces : List String) :
    captured depth (s :: segments) (piece :: pieces) =
      (if s.isCapture then [⟨depth, piece⟩] else []) ++
        captured (depth + 1) segments pieces := by
  cases hs : s.isCapture <;> simp [captured, hs]

theorem precedes_of_head
    {s t : Segment} (hs : s.isCapture = false) (ht : t.isCapture = true)
    (a b : List Segment) : Precedes (s :: a) (t :: b) :=
  ⟨[], pattern a, pattern b, by simp [pattern, hs], by simp [pattern, ht]⟩

theorem Precedes.cons
    {a b : List Segment} (h : Precedes a b) {s t : Segment}
    (hst : s.isCapture = t.isCapture) : Precedes (s :: a) (t :: b) := by
  obtain ⟨shared, restA, restB, ha, hb⟩ := h
  refine ⟨s.isCapture :: shared, restA, restB, ?_, ?_⟩
  · simpa [pattern] using ha
  · simpa [pattern, hst] using hb

theorem fits_cons_iff {segments : List Segment} {piece : String} {pieces : List String} :
    fits segments (piece :: pieces) = true ↔
      ∃ s rest, segments = s :: rest ∧ s.fits piece = true ∧ fits rest pieces = true := by
  cases segments with
  | nil => simp [fits]
  | cons s rest => simp [fits]

theorem fits_nil_iff {segments : List Segment} :
    fits segments [] = true ↔ segments = [] := by
  cases segments <;> simp [fits]

end Template

/-! ## Items at a node -/

namespace Keyed

variable {α : Type}

/-- The segments of an item from a depth on. -/
def below (depth : Nat) (k : Keyed α) : List Segment :=
  k.segments.drop depth

/-- The item goes on from the depth through a literal. -/
def goesOn (depth : Nat) (text : String) (k : Keyed α) : Prop :=
  ∃ next rest, k.below depth = .literal text :: next :: rest

/-- The item goes on from the depth through a capture. -/
def capturesOn (depth : Nat) (k : Keyed α) : Prop :=
  ∃ name param next rest, k.below depth = .capture name param :: next :: rest

/-- The item may answer for the pieces of a path from the depth on. -/
def Eligible (version depth : Nat) (pieces : List String) (k : Keyed α) : Prop :=
  Template.fits (k.below depth) pieces = true ∧ k.version ≤ version

theorem below_succ {depth : Nat} {k : Keyed α} {s : Segment} {rest : List Segment}
    (h : k.below depth = s :: rest) : k.below (depth + 1) = rest := by
  unfold below at h ⊢
  rw [← List.tail_drop, h, List.tail_cons]

theorem goesOn.below_eq
    {depth : Nat} {text : String} {k : Keyed α} (h : k.goesOn depth text) :
    k.below depth = .literal text :: k.below (depth + 1) := by
  obtain ⟨next, rest, hbelow⟩ := h
  rw [below_succ hbelow, hbelow]

theorem capturesOn.below_eq
    {depth : Nat} {k : Keyed α} (h : k.capturesOn depth) :
    ∃ name param, k.below depth = .capture name param :: k.below (depth + 1) := by
  obtain ⟨name, param, next, rest, hbelow⟩ := h
  refine ⟨name, param, ?_⟩
  rw [below_succ hbelow, hbelow]

/-- An eligible item has a segment that fits the first piece, and is eligible behind it. -/
theorem eligible_cons_iff
    {version depth : Nat} {piece : String} {pieces : List String} {k : Keyed α} :
    k.Eligible version depth (piece :: pieces) ↔
      ∃ s, k.below depth = s :: k.below (depth + 1) ∧ s.fits piece = true ∧
        k.Eligible version (depth + 1) pieces := by
  constructor
  · rintro ⟨hfits, hversion⟩
    obtain ⟨s, rest, hbelow, hs, hrest⟩ := Template.fits_cons_iff.mp hfits
    have hnext := below_succ hbelow
    exact ⟨s, hnext ▸ hbelow, hs, hnext ▸ hrest, hversion⟩
  · rintro ⟨s, hbelow, hs, hrest, hversion⟩
    exact ⟨Template.fits_cons_iff.mpr ⟨s, _, hbelow, hs, hrest⟩, hversion⟩

end Keyed

namespace Trie

variable {α : Type}

open Template

/-! ## Lists with the newest version first -/

theorem mem_newestFirst {version : α → Nat} {a : α} {items : List α} :
    a ∈ newestFirst version items ↔ a ∈ items := by
  have hgeneral : ∀ sorted, a ∈ items.foldl (fun sorted b => insertNewest version b sorted) sorted ↔
      a ∈ sorted ∨ a ∈ items := by
    induction items with
    | nil => simp
    | cons b items ih =>
        intro sorted
        rw [List.foldl_cons, ih, mem_insertNewest, List.mem_cons]
        exact ⟨fun h => by tauto, fun h => by tauto⟩
  simpa [newestFirst] using hgeneral []

/-- The first entry that passes a test in a list with the newest first is the newest that does. -/
theorem find?_newestFirst_eq_some
    {version : α → Nat} {test : α → Bool} {a : α} {items : List α}
    (h : (newestFirst version items).find? test = some a) :
    a ∈ items ∧ test a = true ∧
      ∀ b ∈ items, test b = true → version b ≤ version a := by
  have hmem := mem_newestFirst.mp (List.mem_of_find?_eq_some h)
  obtain ⟨htest, front, behind, hsplit, hfront⟩ := List.find?_eq_some_iff_append.mp h
  refine ⟨hmem, htest, ?_⟩
  intro b hb hbtest
  have hsorted := pairwise_newestFirst version items
  rw [hsplit] at hsorted
  have hb' : b ∈ front ++ a :: behind := hsplit ▸ mem_newestFirst.mpr hb
  rcases List.mem_append.mp hb' with hbfront | hbrest
  · have hbfalse := hfront b hbfront
    simp [hbtest] at hbfalse
  · rcases List.mem_cons.mp hbrest with rfl | hbehind
    · exact Nat.le_refl _
    · have htail := (List.pairwise_append.mp hsorted).2.1
      exact (List.pairwise_cons.mp htail).1 b hbehind

theorem find?_newestFirst_eq_none
    {version : α → Nat} {test : α → Bool} {items : List α}
    (h : (newestFirst version items).find? test = none) :
    ∀ b ∈ items, test b = false := by
  intro b hb
  have hall := List.find?_eq_none.mp h b (mem_newestFirst.mpr hb)
  simpa using hall

/-! ## Groups of literals -/

/-- The item is in a group of the literal. -/
def Grouped (text : String) (k : Keyed α) (groups : List (Group α)) : Prop :=
  ∃ g ∈ groups, g.text = text ∧ k ∈ g.items

/-- Groups carry the hash of their literal, and no two the same one. -/
structure Indexed (groups : List (Group α)) : Prop where
  hashed : ∀ g ∈ groups, g.hash = Text.segmentHash g.text
  distinct : (groups.map Group.hash).Nodup

/-- Two groups of one literal are the same group. -/
theorem Indexed.eq_of_text_eq
    {groups : List (Group α)} (h : Indexed groups) {g g' : Group α}
    (hg : g ∈ groups) (hg' : g' ∈ groups) (htext : g.text = g'.text) : g = g' := by
  have hhash : g.hash = g'.hash := by rw [h.hashed g hg, h.hashed g' hg', htext]
  exact List.inj_on_of_nodup_map h.distinct hg hg' hhash

/-- An item joins the first group with the hash of its literal, which must be a group of that
literal, or opens a group at the end. -/
theorem addToGroup_cases
    {text : String} {k : Keyed α} {groups groups' : List (Group α)}
    (h : addToGroup text k groups = .ok groups') :
    (∃ front g behind, groups = front ++ g :: behind ∧ g.text = text ∧
      groups' = front ++ ⟨g.hash, g.text, g.items ++ [k]⟩ :: behind) ∨
    (Text.segmentHash text ∉ groups.map Group.hash ∧
      groups' = groups ++ [⟨Text.segmentHash text, text, [k]⟩]) := by
  induction groups generalizing groups' with
  | nil =>
      simp only [addToGroup, Except.ok.injEq] at h
      exact .inr ⟨by simp, by rw [← h, List.nil_append]⟩
  | cons g rest ih =>
      rw [addToGroup] at h
      by_cases hhash : g.hash = Text.segmentHash text
      · by_cases htext : g.text = text
        · simp only [if_pos hhash, if_pos htext, Except.ok.injEq] at h
          exact .inl ⟨[], g, rest, rfl, htext, by rw [← h, List.nil_append]⟩
        · simp [hhash, htext] at h
      · rw [if_neg hhash] at h
        cases hmore : addToGroup text k rest with
        | error c => simp [hmore, bind, Except.bind] at h
        | ok more =>
            simp only [hmore, bind, Except.bind, pure, Except.pure, Except.ok.injEq] at h
            subst h
            rcases ih hmore with ⟨front, g', behind, hrest, htext, hmore'⟩ | ⟨hfresh, hmore'⟩
            · exact .inl ⟨g :: front, g', behind, by simp [hrest], htext, by simp [hmore']⟩
            · refine .inr ⟨?_, by simp [hmore']⟩
              simpa [eq_comm] using ⟨hhash, by simpa using hfresh⟩

/-- Adding an item puts it into the group of its literal and moves no other. -/
theorem grouped_addToGroup
    {text : String} {k : Keyed α} {groups groups' : List (Group α)}
    (h : addToGroup text k groups = .ok groups') (t : String) (x : Keyed α) :
    Grouped t x groups' ↔ Grouped t x groups ∨ (t = text ∧ x = k) := by
  rcases addToGroup_cases h with ⟨front, g, behind, rfl, htext, rfl⟩ | ⟨-, rfl⟩
  · simp only [Grouped, List.mem_append, List.mem_cons, or_and_right, exists_or, exists_eq_left,
      List.mem_nil_iff, or_false, htext, eq_comm (a := text), and_or_left]
    constructor
    · rintro (hfront | (hold | hnew) | hbehind)
      · exact .inl (.inl hfront)
      · exact .inl (.inr (.inl hold))
      · exact .inr hnew
      · exact .inl (.inr (.inr hbehind))
    · rintro ((hfront | hold | hbehind) | hnew)
      · exact .inl hfront
      · exact .inr (.inl (.inl hold))
      · exact .inr (.inr hbehind)
      · exact .inr (.inl (.inr hnew))
  · simp only [Grouped, List.mem_append, List.mem_cons, or_and_right, exists_or, exists_eq_left,
      List.mem_nil_iff, or_false, eq_comm (a := text)]

theorem Indexed.addToGroup
    {text : String} {k : Keyed α} {groups groups' : List (Group α)}
    (hindexed : Indexed groups) (h : addToGroup text k groups = .ok groups') :
    Indexed groups' := by
  obtain ⟨hhashed, hdistinct⟩ := hindexed
  rcases addToGroup_cases h with ⟨front, g, behind, rfl, htext, rfl⟩ | ⟨hfresh, rfl⟩
  · refine ⟨?_, ?_⟩
    · intro x hx
      rcases List.mem_append.mp hx with hfront | hrest
      · exact hhashed x (List.mem_append_left _ hfront)
      · rcases List.mem_cons.mp hrest with rfl | hbehind
        · exact hhashed g (by simp)
        · exact hhashed x (by simp [hbehind])
    · simpa using hdistinct
  · refine ⟨?_, ?_⟩
    · intro x hx
      rcases List.mem_append.mp hx with hold | hnew
      · exact hhashed x hold
      · rw [List.mem_singleton.mp hnew]
    · rw [List.map_append]
      refine List.nodup_append.mpr ⟨hdistinct, List.nodup_singleton _, ?_⟩
      intro a ha b hb hab
      have hb' : b = Text.segmentHash text := List.mem_singleton.mp hb
      exact hfresh (hb' ▸ hab ▸ ha)

/-! ## The items of a node -/

/-- The sorted node holds exactly these items, each where its template goes on from the depth. -/
structure Sorted.Holds (depth : Nat) (items : List (Keyed α)) (s : Sorted α) : Prop where
  literalEnds : ∀ e, e ∈ s.literalEnds ↔
    e.item ∈ items ∧ e.item.below depth = [.literal e.text] ∧ e.hash = Text.segmentHash e.text
  captureEnds : ∀ k, k ∈ s.captureEnds ↔
    k ∈ items ∧ ∃ name param, k.below depth = [.capture name param]
  groups : ∀ text k, Grouped text k s.groups ↔ k ∈ items ∧ k.goesOn depth text
  captures : ∀ k, k ∈ s.captures ↔ k ∈ items ∧ k.capturesOn depth
  indexed : Indexed s.groups

theorem Sorted.holds_empty (depth : Nat) :
    Sorted.Holds depth [] ({} : Sorted α) := by
  refine ⟨?_, ?_, ?_, ?_, ?_⟩
  · simp
  · simp
  · simp [Grouped]
  · simp
  · exact ⟨by simp, by simp⟩

/-- A place for some of the items is as before when the added item does not belong there. -/
theorem place_keeps
    {here belongs : Prop} {x k : Keyed α} {items : List (Keyed α)}
    (h : here ↔ x ∈ items ∧ belongs) (hk : x = k → ¬ belongs) :
    here ↔ x ∈ items ++ [k] ∧ belongs := by
  rw [h, List.mem_append, List.mem_singleton]
  constructor
  · rintro ⟨hx, hbelongs⟩
    exact ⟨.inl hx, hbelongs⟩
  · rintro ⟨hx | hx, hbelongs⟩
    · exact ⟨hx, hbelongs⟩
    · exact absurd hbelongs (hk hx)

/-- A place for some of the items gains the added item when it belongs there. -/
theorem place_gains
    {here new belongs : Prop} {x k : Keyed α} {items : List (Keyed α)}
    (h : here ↔ x ∈ items ∧ belongs) (hk : new ↔ x = k ∧ belongs) :
    here ∨ new ↔ x ∈ items ++ [k] ∧ belongs := by
  rw [h, hk, List.mem_append, List.mem_singleton, or_and_right]

theorem Sorted.Holds.add
    {depth : Nat} {items : List (Keyed α)} {s s' : Sorted α} {k : Keyed α}
    (h : s.Holds depth items) (hadd : s.add depth k = .ok s') :
    s'.Holds depth (items ++ [k]) := by
  obtain ⟨hliteralEnds, hcaptureEnds, hgroups, hcaptures, hindexed⟩ := h
  rw [Sorted.add, ← Keyed.below] at hadd
  split at hadd
  next hbelow =>
    simp only [Except.ok.injEq] at hadd
    subst hadd
    refine ⟨fun e => place_keeps (hliteralEnds e) ?_, fun x => place_keeps (hcaptureEnds x) ?_,
      fun text x => place_keeps (hgroups text x) ?_, fun x => place_keeps (hcaptures x) ?_,
      hindexed⟩
    all_goals
      intro hx
      simp [hx, hbelow, Keyed.goesOn, Keyed.capturesOn]
  next text hbelow =>
    simp only [Except.ok.injEq] at hadd
    subst hadd
    refine ⟨fun e => ?_, fun x => place_keeps (hcaptureEnds x) ?_,
      fun t x => place_keeps (hgroups t x) ?_, fun x => place_keeps (hcaptures x) ?_, hindexed⟩
    · rw [List.mem_append]
      refine place_gains (hliteralEnds e) ?_
      obtain ⟨hash, t, x⟩ := e
      simp only [List.mem_singleton, LiteralEnd.mk.injEq]
      constructor
      · rintro ⟨rfl, rfl, rfl⟩
        exact ⟨rfl, hbelow, rfl⟩
      · rintro ⟨rfl, ht, hhash⟩
        have htext : text = t := by simpa [hbelow] using ht
        exact ⟨by rw [hhash, htext], htext.symm, rfl⟩
    all_goals
      intro hx
      simp [hx, hbelow, Keyed.goesOn, Keyed.capturesOn]
  next name param hbelow =>
    simp only [Except.ok.injEq] at hadd
    subst hadd
    refine ⟨fun e => place_keeps (hliteralEnds e) ?_, fun x => ?_,
      fun t x => place_keeps (hgroups t x) ?_, fun x => place_keeps (hcaptures x) ?_, hindexed⟩
    case refine_2 =>
      rw [List.mem_append]
      refine place_gains (hcaptureEnds x) ?_
      rw [List.mem_singleton]
      exact (and_iff_left_of_imp fun hx => ⟨name, param, hx ▸ hbelow⟩).symm
    all_goals
      intro hx
      simp [hx, hbelow, Keyed.goesOn, Keyed.capturesOn]
  next text rest hrest hbelow =>
    cases hgroup : addToGroup text k s.groups with
    | error c => simp [hgroup, bind, Except.bind] at hadd
    | ok groups =>
        simp only [hgroup, bind, Except.bind, pure, Except.pure, Except.ok.injEq] at hadd
        subst hadd
        have hne : rest ≠ [] := hrest
        have hgoesOn : ∀ t, k.goesOn depth t ↔ t = text := by
          intro t
          obtain ⟨next, rest, rfl⟩ := List.exists_cons_of_ne_nil hne
          simp [Keyed.goesOn, hbelow, eq_comm]
        refine ⟨fun e => place_keeps (hliteralEnds e) ?_, fun x => place_keeps (hcaptureEnds x) ?_,
          fun t x => ?_, fun x => place_keeps (hcaptures x) ?_, hindexed.addToGroup hgroup⟩
        case refine_3 =>
          rw [grouped_addToGroup hgroup]
          refine place_gains (hgroups t x) ?_
          rw [and_comm]
          refine and_congr_right fun hx => ?_
          rw [hx, hgoesOn]
        all_goals
          intro hx
          simp [hx, hbelow, Keyed.capturesOn, hne]
  next name param rest hrest hbelow =>
    simp only [Except.ok.injEq] at hadd
    subst hadd
    have hne : rest ≠ [] := hrest
    have hcapturesOn : k.capturesOn depth := by
      obtain ⟨next, rest, rfl⟩ := List.exists_cons_of_ne_nil hne
      exact ⟨name, param, next, rest, hbelow⟩
    refine ⟨fun e => place_keeps (hliteralEnds e) ?_, fun x => place_keeps (hcaptureEnds x) ?_,
      fun t x => place_keeps (hgroups t x) ?_, fun x => ?_, hindexed⟩
    case refine_4 =>
      rw [List.mem_append]
      refine place_gains (hcaptures x) ?_
      rw [List.mem_singleton]
      exact (and_iff_left_of_imp fun hx => hx ▸ hcapturesOn).symm
    all_goals
      intro hx
      simp [hx, hbelow, Keyed.goesOn, hne]

theorem bind_eq_ok_iff
    {ε β γ : Type} {c : Except ε β} {f : β → Except ε γ} {b : γ} :
    (c >>= f) = .ok b ↔ ∃ a, c = .ok a ∧ f a = .ok b := by
  cases c with
  | error e => simp [bind, Except.bind]
  | ok a => simp [bind, Except.bind]

/-- Items are sorted one after the other. -/
theorem Sorted.of_concat_eq_ok_iff
    {depth : Nat} {items : List (Keyed α)} {k : Keyed α} {s : Sorted α} :
    Sorted.of depth (items ++ [k]) = .ok s ↔
      ∃ before, Sorted.of depth items = .ok before ∧ before.add depth k = .ok s := by
  have hlast : Sorted.of depth (items ++ [k]) =
      Sorted.of depth items >>= fun before => before.add depth k := by
    rw [Sorted.of, List.foldlM_append, ← Sorted.of]
    simp
  rw [hlast, bind_eq_ok_iff]

theorem Sorted.Holds.of
    {depth : Nat} {items : List (Keyed α)} {s : Sorted α}
    (h : Sorted.of depth items = .ok s) :
    s.Holds depth items := by
  induction items using List.reverseRecOn generalizing s with
  | nil =>
      simp only [Sorted.of, List.foldlM_nil, pure, Except.pure, Except.ok.injEq] at h
      subst h
      exact Sorted.holds_empty depth
  | append_singleton items k ih =>
      obtain ⟨before, hitems, hadd⟩ := Sorted.of_concat_eq_ok_iff.mp h
      exact (ih hitems).add hadd

/-! ## The subtrees of a node -/

theorem exists_of_mapM_ok
    {ε β γ : Type} {f : β → Except ε γ} {inputs : List β} {outputs : List γ}
    (h : inputs.mapM f = .ok outputs) :
    (∀ c ∈ outputs, ∃ b ∈ inputs, f b = .ok c) ∧ (∀ b ∈ inputs, ∃ c ∈ outputs, f b = .ok c) := by
  induction inputs generalizing outputs with
  | nil =>
      simp only [List.mapM_nil, pure, Except.pure, Except.ok.injEq] at h
      simp [← h]
  | cons b inputs ih =>
      rw [List.mapM_cons] at h
      cases hb : f b with
      | error e => simp [hb, bind, Except.bind] at h
      | ok c =>
          cases hrest : inputs.mapM f with
          | error e => simp [hb, hrest, bind, Except.bind] at h
          | ok rest =>
              have houtputs : c :: rest = outputs := by
                simpa [hb, hrest, bind, Except.bind, pure, Except.pure] using h
              subst houtputs
              obtain ⟨hout, hin⟩ := ih hrest
              refine ⟨?_, ?_⟩
              · intro x hx
                rcases List.mem_cons.mp hx with rfl | hx
                · exact ⟨b, List.mem_cons_self, hb⟩
                · obtain ⟨y, hy, hfy⟩ := hout x hx
                  exact ⟨y, List.mem_cons_of_mem _ hy, hfy⟩
              · intro y hy
                rcases List.mem_cons.mp hy with rfl | hy
                · exact ⟨c, List.mem_cons_self, hb⟩
                · obtain ⟨x, hx, hfy⟩ := hin y hy
                  exact ⟨x, List.mem_cons_of_mem _ hx, hfy⟩

theorem exists_of_mapM_error
    {ε β γ : Type} {f : β → Except ε γ} {inputs : List β} {e : ε}
    (h : inputs.mapM f = .error e) : ∃ b ∈ inputs, f b = .error e := by
  induction inputs with
  | nil => simp [pure, Except.pure] at h
  | cons b inputs ih =>
      rw [List.mapM_cons] at h
      cases hb : f b with
      | error e' =>
          have he : e' = e := by simpa [hb, bind, Except.bind] using h
          exact ⟨b, List.mem_cons_self, he ▸ hb⟩
      | ok c =>
          cases hrest : inputs.mapM f with
          | ok rest => simp [hb, hrest, bind, Except.bind, pure, Except.pure] at h
          | error e' =>
              have he : e' = e := by simpa [hb, hrest, bind, Except.bind] using h
              obtain ⟨x, hx, hfx⟩ := ih (he ▸ hrest)
              exact ⟨x, List.mem_cons_of_mem _ hx, hfx⟩

/-- What a node is built from: its items, sorted, and one subtree for each way to go on. -/
theorem buildIn_succ_cases
    {order : Iteration α} {height depth : Nat} {items : List (Keyed α)} {t : Trie α}
    (h : buildIn order (height + 1) depth items = .ok t) :
    ∃ s literals capture, Sorted.of depth items = .ok s ∧
      t = .node (newestFirst (fun e => e.item.version) s.literalEnds)
        (newestFirst (fun k => k.version) s.captureEnds) literals capture ∧
      ((order.visit depth items s.groups).mapM fun g => do
        let child ← buildIn order height (depth + 1) g.items
        pure (g.hash, g.text, child)) = .ok literals ∧
      ((s.captures = [] ∧ capture = none) ∨
        ∃ child, buildIn order height (depth + 1) s.captures = .ok child ∧
          capture = some child) := by
  rw [buildIn] at h
  cases hs : Sorted.of depth items with
  | error c => simp [hs, bind, Except.bind] at h
  | ok s =>
      simp only [hs, bind, Except.bind] at h
      split at h
      next => simp at h
      next literals hliterals =>
        refine ⟨s, literals, ?_⟩
        by_cases hempty : s.captures = []
        · simp only [hempty, List.isEmpty_nil, if_true, pure, Except.pure, Except.ok.injEq] at h
          exact ⟨none, rfl, h.symm, hliterals, .inl ⟨hempty, rfl⟩⟩
        · cases hchild : buildIn order height (depth + 1) s.captures with
          | error c => simp [hempty, hchild, Except.map] at h
          | ok child =>
              simp only [List.isEmpty_iff, hempty, if_false, hchild, Except.map, pure,
                Except.pure, Except.ok.injEq] at h
              exact ⟨some child, rfl, h.symm, hliterals, .inr ⟨child, rfl, rfl⟩⟩

/-- The subtree behind a literal is the one built from the group of the literal, and there is one
for every group. -/
theorem literalChild?_spec
    {groups visited : List (Group α)} (hindexed : Indexed groups) (hvisited : visited.Perm groups)
    {subtree : List (Keyed α) → Except (Collision α) (Trie α)}
    {literals : List (UInt64 × String × Trie α)}
    (h : (visited.mapM fun g => do
      let child ← subtree g.items
      pure (g.hash, g.text, child)) = .ok literals)
    (piece : String) :
    match literalChild? piece literals with
    | some child => ∃ g ∈ groups, g.text = piece ∧ subtree g.items = .ok child
    | none => ∀ g ∈ groups, g.text ≠ piece := by
  obtain ⟨hout, hin⟩ := exists_of_mapM_ok h
  simp only [hvisited.mem_iff] at hin
  have hentry : ∀ {g : Group α} {l : UInt64 × String × Trie α},
      (do
        let child ← subtree g.items
        pure (g.hash, g.text, child) : Except (Collision α) _) = .ok l →
      l.1 = g.hash ∧ l.2.1 = g.text ∧ subtree g.items = .ok l.2.2 := by
    intro g l hl
    cases hchild : subtree g.items with
    | error c => simp [hchild, bind, Except.bind] at hl
    | ok child =>
        simp only [hchild, bind, Except.bind, pure, Except.pure, Except.ok.injEq] at hl
        simp [← hl]
  cases hfind : literals.find? fun l => l.1 == Text.segmentHash piece with
  | none =>
      simp only [literalChild?, hfind]
      intro g hg htext
      obtain ⟨l, hl, hbuilt⟩ := hin g hg
      have hother := List.find?_eq_none.mp hfind l hl
      rw [(hentry hbuilt).1, hindexed.hashed g hg, htext] at hother
      simp at hother
  | some l =>
      obtain ⟨hash, text, child⟩ := l
      obtain ⟨g, hg, hbuilt⟩ := hout _ (List.mem_of_find?_eq_some hfind)
      rw [hvisited.mem_iff] at hg
      obtain ⟨hhash, htext, hchild⟩ := hentry hbuilt
      have hpiece : hash = Text.segmentHash piece := by
        simpa using List.find?_some hfind
      simp only at hhash htext hchild
      simp only [literalChild?, hfind]
      by_cases hsame : text = piece
      · rw [if_pos hsame]
        exact ⟨g, hg, htext ▸ hsame, hchild⟩
      · rw [if_neg hsame]
        -- the group found has the hash of the piece, so no other group can be the one of the piece
        intro g' hg' htext'
        have hhash' : g'.hash = g.hash := by
          rw [hindexed.hashed g' hg', htext', ← hpiece, hhash]
        have hgroup := List.inj_on_of_nodup_map hindexed.distinct hg' hg hhash'
        exact hsame (by rw [htext, ← hgroup, htext'])

end Trie
end RouteDispatch
