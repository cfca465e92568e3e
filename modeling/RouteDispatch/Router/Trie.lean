import RouteDispatch.Call.View
import RouteDispatch.Text.Hash

/-!
# Segment tries

Items with templates and versions, arranged by segment.  A node holds the items whose templates end
there and the subtrees of those that go on; literals and captures are kept apart, and the lists of
ending items have the newest version first.  Literals that go on are told apart by their hash alone,
so two of them with one hash cannot live in one node, and building such a node fails.

A search prefers a literal to a capture at every node, and goes back to the capture when nothing
below the literal is old enough and fits.
-/

namespace RouteDispatch

/-- An item to be found, with its template and version. -/
structure Keyed (α : Type) where
  segments : List Segment
  version : Nat
  item : α

/-- A literal at which an item ends. -/
structure LiteralEnd (α : Type) where
  hash : UInt64
  text : String
  item : Keyed α

inductive Trie (α : Type) where
  | node (literalEnds : List (LiteralEnd α)) (captureEnds : List (Keyed α))
    (literals : List (UInt64 × String × Trie α)) (capture : Option (Trie α))

namespace Trie

variable {α : Type}

/-- Two literals with one hash that would go on from one node. -/
structure Collision (α : Type) where
  item : α
  text : String
  existing : String

/-- Puts an item into a list with the newest version first, behind all items of its version. -/
def insertNewest (version : α → Nat) (a : α) : List α → List α
  | [] => [a]
  | b :: rest => if version b < version a then a :: b :: rest else b :: insertNewest version a rest

/-- A list with the newest version first; items of one version keep their order. -/
def newestFirst (version : α → Nat) (items : List α) : List α :=
  items.foldl (fun sorted a => insertNewest version a sorted) []

theorem mem_insertNewest {version : α → Nat} {a b : α} {items : List α} :
    b ∈ insertNewest version a items ↔ b = a ∨ b ∈ items := by
  induction items with
  | nil => simp [insertNewest]
  | cons c rest ih =>
    rw [insertNewest]
    split
    next => simp
    next => simp only [List.mem_cons, ih, or_left_comm]

/-- Putting in an item keeps the newest version first. -/
theorem pairwise_insertNewest {version : α → Nat} {a : α} {items : List α}
    (h : items.Pairwise fun x y => version y ≤ version x) :
    (insertNewest version a items).Pairwise fun x y => version y ≤ version x := by
  induction items with
  | nil => simp [insertNewest]
  | cons c rest ih =>
    obtain ⟨hc, hr⟩ := List.pairwise_cons.1 h
    rw [insertNewest]
    split
    next hv =>
      refine List.pairwise_cons.2 ⟨fun b hb => ?_, h⟩
      rcases List.mem_cons.1 hb with rfl | hb
      · omega
      · have := hc b hb
        omega
    next hv =>
      refine List.pairwise_cons.2 ⟨fun b hb => ?_, ih hr⟩
      rcases mem_insertNewest.1 hb with rfl | hb
      · omega
      · exact hc b hb

/-- Of two items in the list, the one in front is no older. -/
theorem pairwise_newestFirst (version : α → Nat) (items : List α) :
    (newestFirst version items).Pairwise fun x y => version y ≤ version x :=
  List.foldlRecOn items _ List.Pairwise.nil fun _ h _ _ => pairwise_insertNewest h

/-- The items that go on from a node through one literal. -/
structure Group (α : Type) where
  hash : UInt64
  text : String
  items : List (Keyed α)

/-- Adds an item to the group of its literal, or starts a group at the end. -/
def addToGroup (text : String) (k : Keyed α) :
    List (Group α) → Except (Collision α) (List (Group α))
  | [] => .ok [⟨Text.segmentHash text, text, [k]⟩]
  | g :: rest =>
    if g.hash = Text.segmentHash text then
      if g.text = text then .ok (⟨g.hash, g.text, g.items ++ [k]⟩ :: rest)
      else .error ⟨k.item, text, g.text⟩
    else do
      let more ← addToGroup text k rest
      pure (g :: more)

/-- The items of a node sorted by how their templates go on from its depth. -/
structure Sorted (α : Type) where
  literalEnds : List (LiteralEnd α) := []
  captureEnds : List (Keyed α) := []
  groups : List (Group α) := []
  captures : List (Keyed α) := []

def Sorted.add (depth : Nat) (s : Sorted α) (k : Keyed α) : Except (Collision α) (Sorted α) :=
  match k.segments.drop depth with
  | [] => .ok s
  | [.literal text] =>
    .ok { s with literalEnds := s.literalEnds ++ [⟨Text.segmentHash text, text, k⟩] }
  | [.capture ..] => .ok { s with captureEnds := s.captureEnds ++ [k] }
  | .literal text :: _ => do
    let groups ← addToGroup text k s.groups
    pure { s with groups }
  | .capture .. :: _ => .ok { s with captures := s.captures ++ [k] }

def Sorted.of (depth : Nat) (items : List (Keyed α)) : Except (Collision α) (Sorted α) :=
  items.foldlM (Sorted.add depth) {}

/-- Builds the node at a depth from the items that reach it; at most `height` levels of segments are
left below it. -/
def build : (height : Nat) → (depth : Nat) → List (Keyed α) → Except (Collision α) (Trie α)
  | 0, _, _ => .ok (.node [] [] [] none)
  | height + 1, depth, items => do
    let s ← Sorted.of depth items
    let literals ← s.groups.mapM fun g => do
      let child ← build height (depth + 1) g.items
      pure (g.hash, g.text, child)
    let capture ←
      if s.captures.isEmpty then pure none
      else (build height (depth + 1) s.captures).map some
    pure (.node (newestFirst (fun e => e.item.version) s.literalEnds)
      (newestFirst (fun k => k.version) s.captureEnds) literals capture)

def height (items : List (Keyed α)) : Nat :=
  items.foldl (fun h k => max h k.segments.length) 0

def ofItems (items : List (Keyed α)) : Except (Collision α) (Trie α) :=
  build (height items) 0 items

/-- The newest item no newer than `version` that ends at a literal. -/
def literalEnd? (version : Nat) (piece : String) (ends : List (LiteralEnd α)) : Option (Keyed α) :=
  (ends.find? fun e =>
    e.hash == Text.segmentHash piece && e.text == piece && e.item.version ≤ version).map (·.item)

/-- The newest item no newer than `version` that ends at a capture. -/
def captureEnd? (version : Nat) (ends : List (Keyed α)) : Option (Keyed α) :=
  ends.find? fun k => k.version ≤ version

def literalChild? (piece : String) (literals : List (UInt64 × String × Trie α)) :
    Option (Trie α) :=
  match literals.find? fun l => l.1 == Text.segmentHash piece with
  | some (_, text, child) => if text = piece then some child else none
  | none => none

/-- Searches a node for a path that begins at its depth, without slashes in front.  The texts that
captures took on the way from the root are kept in order; a branch that fails takes back its own. -/
def find (version : Nat) (depth : Nat) (path : List Char) (taken : List Capture) :
    Trie α → Option α × List Capture
  | .node literalEnds captureEnds literals capture =>
    let piece := String.ofList (Template.cutPiece path).1
    let rest := (Template.cutPiece path).2
    if _ : Template.isExhausted rest then
      match literalEnd? version piece literalEnds, captureEnd? version captureEnds with
      | some k, _ => (some k.item, taken)
      | none, some k => (some k.item, taken ++ [⟨depth, piece⟩])
      | none, none => (none, taken)
    else
      let viaLiteral := match literalChild? piece literals with
        | some child => find version (depth + 1) rest taken child
        | none => (none, taken)
      match viaLiteral, capture with
      | (some a, taken), _ => (some a, taken)
      | (none, taken), none => (none, taken)
      | (none, taken), some child =>
        match find version (depth + 1) rest (taken ++ [⟨depth, piece⟩]) child with
        | (some a, taken) => (some a, taken)
        | (none, more) => (none, more.take taken.length)
termination_by path.length
decreasing_by all_goals exact Template.length_cutPiece_lt (Bool.eq_false_iff.2 ‹_›)

end Trie
end RouteDispatch
