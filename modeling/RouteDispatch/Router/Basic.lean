import RouteDispatch.Route.Basic
import RouteDispatch.Router.Trie

/-!
# Routers

A router answers which route a request is for.  Routes are kept apart by method; those of the root
path stand in a list with the newest version first, and all others in a trie.
-/

namespace RouteDispatch

structure MethodTree where
  method : String
  root : List Route
  trie : Trie Route

structure Router where
  trees : List MethodTree

/-- A matched route and the texts that its captures took from the path. -/
structure RouteMatch where
  route : Route
  captures : List Capture

namespace Router

/-- The methods of some routes in the order of their first use. -/
def methods (routes : List Route) : List String :=
  routes.foldl (fun seen r => if seen.contains r.method then seen else seen ++ [r.method]) []

/-- A route with the keys by which the trie finds it. -/
def keyed (r : Route) : Keyed Route :=
  ⟨r.segments, r.version, r⟩

def collisionError (c : Trie.Collision Route) : BuildError :=
  .invalidPath c.item.name c.item.template
    ("segment '" ++ c.text ++ "' collides with '" ++ c.existing ++ "'")

def buildTree (method : String) (routes : List Route) : Except BuildError MethodTree :=
  let root := routes.filter fun r => r.segments.isEmpty
  let nested := routes.filter fun r => !r.segments.isEmpty
  match Trie.ofItems (nested.map keyed) with
  | .ok trie => .ok ⟨method, Trie.newestFirst (fun r => r.version) root, trie⟩
  | .error c => .error (collisionError c)

def build (routes : List Route) : Except BuildError Router := do
  let trees ← (methods routes).mapM fun m =>
    buildTree m (routes.filter fun r => r.method == m)
  pure ⟨trees⟩

def tree? (router : Router) (method : String) : Option MethodTree :=
  router.trees.find? fun t => t.method == method

def stripped (path : String) : List Char :=
  path.toList.dropWhile Text.isSolidus

/-- Finds the newest route of a tree, no newer than `version`, for a path without slashes in
front. -/
def MethodTree.find (tree : MethodTree) (path : List Char) (version : Nat) : Option RouteMatch :=
  if Template.isExhausted path then
    (tree.root.find? fun r => r.version ≤ version).map fun r => ⟨r, []⟩
  else
    match tree.trie.find version 0 path [] with
    | (some r, captures) => some ⟨r, captures⟩
    | (none, _) => none

/-- Finds the route for a request.  The path may carry a query string. -/
def find (router : Router) (method path : String) (version : Nat) : Option RouteMatch :=
  (router.tree? method).bind fun tree => MethodTree.find tree (stripped path) version

/-- The report of a search; none is made for a method without routes. -/
def report (router : Router) (method path : String) (version : Nat) : List Trace :=
  match router.tree? method with
  | none => []
  | some _ =>
    [.lookedUp method (String.ofList (stripped path)) version
      ((router.find method path version).map fun m => m.route.name)]

end Router
end RouteDispatch
