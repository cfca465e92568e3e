import RouteDispatch.Router.Basic

/-!
# Orders of construction

A router has a tree for each method, and a node of a trie a subtree for each group of literals.
Methods and groups are keyed, and their order says nothing about a route.  This module states the
construction for any order in which they may be gone through, of its own at every node; the one that
builds the tables is the order of first use.
-/

namespace RouteDispatch

namespace Trie

variable {α : Type}

/-- An order in which the groups of every node are gone through. -/
structure Iteration (α : Type) where
  visit : (depth : Nat) → List (Keyed α) → List (Group α) → List (Group α)
  visit_perm : ∀ depth items groups, (visit depth items groups).Perm groups

/-- Groups are gone through in the order in which they were opened. -/
def Iteration.firstUse : Iteration α where
  visit := fun _ _ groups => groups
  visit_perm := fun _ _ groups => .refl groups

/-- Builds the node at a depth like `build`, with the groups of every node in the given order. -/
def buildIn (order : Iteration α) :
    (height : Nat) → (depth : Nat) → List (Keyed α) → Except (Collision α) (Trie α)
  | 0, _, _ => .ok (.node [] [] [] none)
  | height + 1, depth, items => do
    let s ← Sorted.of depth items
    let literals ← (order.visit depth items s.groups).mapM fun g => do
      let child ← buildIn order height (depth + 1) g.items
      pure (g.hash, g.text, child)
    let capture ←
      if s.captures.isEmpty then pure none
      else (buildIn order height (depth + 1) s.captures).map some
    pure (.node (newestFirst (fun e => e.item.version) s.literalEnds)
      (newestFirst (fun k => k.version) s.captureEnds) literals capture)

theorem buildIn_firstUse (height depth : Nat) (items : List (Keyed α)) :
    buildIn .firstUse height depth items = build height depth items := by
  induction height generalizing depth items with
  | zero => rfl
  | succ height ih =>
      simp only [buildIn, build, ih]
      rfl

def ofItemsIn (order : Iteration α) (items : List (Keyed α)) : Except (Collision α) (Trie α) :=
  buildIn order (height items) 0 items

theorem ofItemsIn_firstUse (items : List (Keyed α)) : ofItemsIn .firstUse items = ofItems items :=
  buildIn_firstUse (height items) 0 items

end Trie

namespace Router

/-- An order in which the methods of routes are gone through, and the groups of every node of their
tries. -/
structure Iteration where
  methods : List Route → List String
  methods_perm : ∀ routes, (methods routes).Perm (Router.methods routes)
  nodes : (method : String) → Trie.Iteration Route

/-- Methods and groups are gone through in the order of their first use. -/
def Iteration.firstUse : Iteration where
  methods := Router.methods
  methods_perm := fun routes => .refl (Router.methods routes)
  nodes := fun _ => .firstUse

def buildTreeIn (order : Trie.Iteration Route) (method : String) (routes : List Route) :
    Except BuildError MethodTree :=
  let root := routes.filter fun r => r.segments.isEmpty
  let nested := routes.filter fun r => !r.segments.isEmpty
  match Trie.ofItemsIn order (nested.map keyed) with
  | .ok trie => .ok ⟨method, Trie.newestFirst (fun r => r.version) root, trie⟩
  | .error c => .error (collisionError c)

/-- Builds a router like `build`, with methods and groups in the given order. -/
def buildIn (order : Iteration) (routes : List Route) : Except BuildError Router := do
  let trees ← (order.methods routes).mapM fun m =>
    buildTreeIn (order.nodes m) m (routes.filter fun r => r.method == m)
  pure ⟨trees⟩

theorem buildTreeIn_firstUse (method : String) (routes : List Route) :
    buildTreeIn .firstUse method routes = buildTree method routes := by
  have hitems := Trie.ofItemsIn_firstUse
    ((routes.filter fun r => !r.segments.isEmpty).map keyed)
  cases htrie : Trie.ofItems ((routes.filter fun r => !r.segments.isEmpty).map keyed) with
  | ok trie => simp [buildTreeIn, buildTree, hitems, htrie]
  | error c => simp [buildTreeIn, buildTree, hitems, htrie]

theorem buildIn_firstUse (routes : List Route) : buildIn .firstUse routes = build routes := by
  have htrees : (fun m => buildTreeIn (Iteration.firstUse.nodes m) m
        (routes.filter fun r => r.method == m)) =
      fun m => buildTree m (routes.filter fun r => r.method == m) :=
    funext fun m => buildTreeIn_firstUse m _
  unfold buildIn build
  rw [htrees]
  rfl

end Router
end RouteDispatch
