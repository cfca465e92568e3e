import RouteDispatch.Proofs.Route.Equivalence
import RouteDispatch.Proofs.Route.Table
import RouteDispatch.Proofs.Router.Search

/-!
# The route that a request resolves to

The router of a compiled table agrees with a linear search of its routes.  A route may answer a
request when its method is the request's, it is old enough and its template accepts the path; the
router gives the one of these that comes first by the patterns of the templates and then by
version, and gives nothing only when there is none.
-/

namespace RouteDispatch

namespace Template

theorem marks_eq_of_fits
    {a b : List Segment} {pieces : List String}
    (ha : fits a pieces = true) (hb : fits b pieces = true) (hpattern : pattern a = pattern b) :
    a.map Segment.mark = b.map Segment.mark := by
  induction pieces generalizing a b with
  | nil =>
      rw [fits_nil_iff.mp ha, fits_nil_iff.mp hb]
  | cons piece pieces ih =>
      obtain ⟨s, a, rfl, hs, ha⟩ := fits_cons_iff.mp ha
      obtain ⟨t, b, rfl, ht, hb⟩ := fits_cons_iff.mp hb
      simp only [pattern, List.map_cons, List.cons.injEq] at hpattern ⊢
      refine ⟨?_, ih ha hb hpattern.2⟩
      have hkind := hpattern.1
      cases s with
      | literal x =>
          cases t with
          | literal y =>
              have hx : x = piece := by simpa [Segment.fits] using hs
              have hy : y = piece := by simpa [Segment.fits] using ht
              rw [hx, hy]
          | capture name param => simp [Segment.isCapture] at hkind
      | capture name param =>
          cases t with
          | literal y => simp [Segment.isCapture] at hkind
          | capture name' param' => rfl

/-- Templates of one pattern that accept one path have one equivalence path. -/
theorem equivalencePath_eq_of_fits
    {a b : List Segment} {pieces : List String}
    (ha : fits a pieces = true) (hb : fits b pieces = true) (hpattern : pattern a = pattern b) :
    equivalencePath a = equivalencePath b :=
  equivalencePath_eq_of_marks_eq (marks_eq_of_fits ha hb hpattern)

end Template

namespace Router

open Template Trie

/-! ## The tree of a method -/

theorem mem_methods {routes : List Route} {method : String} :
    method ∈ methods routes ↔ ∃ r ∈ routes, r.method = method := by
  have hgeneral : ∀ seen : List String,
      method ∈ routes.foldl
        (fun seen r => if seen.contains r.method then seen else seen ++ [r.method]) seen ↔
      method ∈ seen ∨ ∃ r ∈ routes, r.method = method := by
    induction routes with
    | nil => simp
    | cons r routes ih =>
        intro seen
        rw [List.foldl_cons, ih]
        by_cases hseen : r.method ∈ seen
        · rw [if_pos (by simpa using hseen)]
          constructor
          · rintro (hmem | ⟨x, hx, hmethod⟩)
            · exact .inl hmem
            · exact .inr ⟨x, List.mem_cons_of_mem _ hx, hmethod⟩
          · rintro (hmem | ⟨x, hx, hmethod⟩)
            · exact .inl hmem
            · rcases List.mem_cons.mp hx with rfl | hx
              · exact .inl (hmethod ▸ hseen)
              · exact .inr ⟨x, hx, hmethod⟩
        · rw [if_neg (by simpa using hseen)]
          simp [or_assoc, eq_comm]
  simpa [methods] using hgeneral []

theorem method_buildTreeIn
    {order : Trie.Iteration Route} {method : String} {routes : List Route} {tree : MethodTree}
    (h : buildTreeIn order method routes = .ok tree) : tree.method = method := by
  unfold buildTreeIn at h
  cases htrie : ofItemsIn order ((routes.filter fun r => !r.segments.isEmpty).map keyed) with
  | error c => simp [htrie] at h
  | ok trie =>
      simp only [htrie, Except.ok.injEq] at h
      rw [← h]

/-- The tree of a method is built from the routes of the method, and a method without a tree has no
route. -/
theorem tree?_buildIn
    {order : Iteration} {routes : List Route} {router : Router}
    (h : buildIn order routes = .ok router) (method : String) :
    match router.tree? method with
    | some tree => buildTreeIn (order.nodes method) method
        (routes.filter fun r => r.method == method) = .ok tree
    | none => ∀ r ∈ routes, r.method ≠ method := by
  unfold buildIn at h
  cases hmap : (order.methods routes).mapM
      fun m => buildTreeIn (order.nodes m) m (routes.filter fun r => r.method == m) with
  | error e => simp [hmap, bind, Except.bind] at h
  | ok trees =>
      rw [hmap] at h
      have hrouter : router = ⟨trees⟩ := (Except.ok.inj h).symm
      subst hrouter
      obtain ⟨hout, hin⟩ := exists_of_mapM_ok hmap
      cases htree : tree? ⟨trees⟩ method with
      | some tree =>
          have hmethod : tree.method = method := by simpa using List.find?_some htree
          obtain ⟨m, -, hbuilt⟩ := hout tree (List.mem_of_find?_eq_some htree)
          have hm : m = method := (method_buildTreeIn hbuilt).symm.trans hmethod
          exact hm ▸ hbuilt
      | none =>
          intro r hr hmethod
          have hvisited := (order.methods_perm routes).mem_iff.mpr
            (mem_methods.mpr ⟨r, hr, hmethod⟩)
          obtain ⟨tree, htreeMem, hbuilt⟩ := hin method hvisited
          have hother := List.find?_eq_none.mp htree tree htreeMem
          simp [method_buildTreeIn hbuilt] at hother

/-! ## Searching the tree of a method -/

/-- The route fits the pieces of the path and is old enough. -/
def Suits (version : Nat) (pieces : List String) (r : Route) : Prop :=
  fits r.segments pieces = true ∧ r.version ≤ version

/-- The template of the route comes before that of the other, or they have one pattern and the route
is no older. -/
def Outranks (r other : Route) : Prop :=
  Precedes r.segments other.segments ∨
    (pattern r.segments = pattern other.segments ∧ other.version ≤ r.version)

theorem MethodTree.find_spec
    {order : Trie.Iteration Route} {method : String} {routes : List Route} {tree : MethodTree}
    (h : buildTreeIn order method routes = .ok tree)
    {path : List Char} (hbare : IsBare path) (version : Nat) :
    match MethodTree.find tree path version with
    | none => ∀ r ∈ routes, ¬ Suits version (piecesOf path) r
    | some m => m.route ∈ routes ∧ Suits version (piecesOf path) m.route ∧
        (∀ r ∈ routes, Suits version (piecesOf path) r → Outranks m.route r) ∧
        m.captures = captured 0 m.route.segments (piecesOf path) := by
  unfold buildTreeIn at h
  cases htrie : ofItemsIn order ((routes.filter fun r => !r.segments.isEmpty).map keyed) with
  | error c => simp [htrie] at h
  | ok trie =>
      simp only [htrie, Except.ok.injEq] at h
      subst h
      by_cases hpath : isExhausted path = true
      · rw [piecesOf_of_isExhausted hpath]
        have hsuits : ∀ r : Route, Suits version [] r ↔ r.segments = [] ∧ r.version ≤ version := by
          intro r
          rw [Suits, fits_nil_iff]
        simp only [MethodTree.find, if_pos hpath]
        cases hfind : (newestFirst (fun r : Route => r.version)
            (routes.filter fun r => r.segments.isEmpty)).find? (fun r => r.version ≤ version) with
        | none =>
            have hnone := find?_newestFirst_eq_none hfind
            intro r hr hsuit
            obtain ⟨hroot, hversion⟩ := (hsuits r).mp hsuit
            have htest := hnone r (List.mem_filter.mpr ⟨hr, by simp [hroot]⟩)
            simp [hversion] at htest
        | some r =>
            obtain ⟨hmem, htest, hnewest⟩ := find?_newestFirst_eq_some hfind
            obtain ⟨hr, hroot⟩ := List.mem_filter.mp hmem
            have hroot' : r.segments = [] := by simpa using hroot
            have hversion : r.version ≤ version := by simpa using htest
            refine ⟨hr, (hsuits r).mpr ⟨hroot', hversion⟩, ?_, ?_⟩
            · intro other hother hsuit
              obtain ⟨hotherRoot, hotherVersion⟩ := (hsuits other).mp hsuit
              have hle := hnewest other (List.mem_filter.mpr ⟨hother, by simp [hotherRoot]⟩)
                (by simpa using hotherVersion)
              exact .inr ⟨by rw [hroot', hotherRoot], hle⟩
            · simp [hroot', captured]
      · have hpath' : isExhausted path = false := by simpa using hpath
        have hanswers : Answers version 0 (piecesOf path) _ [] (Trie.find version 0 path [] trie) :=
          answers_ofItemsIn htrie hbare hpath'
        have hitems : ∀ r, Suits version (piecesOf path) r → r ∈ routes →
            keyed r ∈ (routes.filter fun r => !r.segments.isEmpty).map keyed ∧
              (keyed r).Eligible version 0 (piecesOf path) := by
          intro r hsuit hr
          have hnested : r.segments ≠ [] := by
            intro hroot
            have hfits := hsuit.1
            rw [hroot, piecesOf_eq_cons hbare hpath'] at hfits
            simp [fits] at hfits
          exact ⟨List.mem_map_of_mem (List.mem_filter.mpr ⟨hr, by simpa using hnested⟩), hsuit⟩
        simp only [MethodTree.find, if_neg hpath]
        generalize Trie.find version 0 path [] trie = found at hanswers ⊢
        obtain ⟨answer, all⟩ := found
        cases answer with
        | none =>
            intro r hr hsuit
            obtain ⟨hmem, heligible⟩ := hitems r hsuit hr
            exact hanswers.2 (keyed r) hmem heligible
        | some a =>
            obtain ⟨k, hbest, hitem, hall⟩ := hanswers
            obtain ⟨r, hr, rfl⟩ := List.mem_map.mp hbest.mem
            have hra : r = a := hitem
            subst hra
            refine ⟨(List.mem_filter.mp hr).1, hbest.eligible, ?_, hall⟩
            intro other hother hsuit
            obtain ⟨hmem, heligible⟩ := hitems other hsuit hother
            exact hbest.preferred (keyed other) hmem heligible

/-! ## Searching a table -/

/-- The match is a resolution of a request by the routes: its route may answer the request, and
comes before any other one that may, by the first difference of their patterns or by its version.
It holds the pieces of the path that stand at the captures of the route. -/
structure IsResolution (routes : List Route) (method path : String) (version : Nat)
    (m : RouteMatch) : Prop where
  registered : m.route ∈ routes
  answers : m.route.answers method path version = true
  first : ∀ r ∈ routes, r.answers method path version = true → r ≠ m.route →
    Precedes m.route.segments r.segments ∨
      (pattern m.route.segments = pattern r.segments ∧ r.version < m.route.version)
  captures : m.captures = captured 0 m.route.segments (pathPieces path)

theorem answers_iff {method path : String} {version : Nat} {r : Route} :
    r.answers method path version = true ↔
      r.method = method ∧ Suits version (pathPieces path) r := by
  simp only [Endpoint.answers, accepts, Suits, Bool.and_eq_true, beq_iff_eq, decide_eq_true_eq,
    and_assoc]
  rw [and_comm (a := r.version ≤ version)]

/-- Distinct routes that fit one path and have one pattern differ in version. -/
theorem version_ne_of_fits
    {routes : List Route} (h : RouteTable.AreDistinct routes) {a b : Route}
    (ha : a ∈ routes) (hb : b ∈ routes) (hab : a ≠ b) (hmethod : a.method = b.method)
    {pieces : List String} (hafits : fits a.segments pieces = true)
    (hbfits : fits b.segments pieces = true) (hpattern : pattern a.segments = pattern b.segments) :
    a.version ≠ b.version := by
  intro hversion
  have hequivalence : a.equivalence = b.equivalence := by
    rw [h.marked a ha, h.marked b hb, equivalencePath_eq_of_fits hafits hbfits hpattern]
  exact hab (h.eq_of_clashes ha hb ⟨hmethod, hequivalence, hversion⟩)

/-- The router of distinct routes finds a resolution of the request by them, or none of them may
answer. -/
theorem resolution_of_buildIn
    {order : Iteration} {routes : List Route} {router : Router}
    (hdistinct : RouteTable.AreDistinct routes) (hrouter : buildIn order routes = .ok router)
    (method path : String) (version : Nat) :
    match router.find method path version with
    | none => ∀ r ∈ routes, r.answers method path version = false
    | some m => IsResolution routes method path version m := by
  have hpieces : piecesOf (stripped path) = pathPieces path :=
    (piecesOf_dropWhile path.toList).trans (pathPieces_eq_piecesOf path).symm
  have htree := tree?_buildIn hrouter method
  have hfind : router.find method path version =
      (router.tree? method).bind
        fun tree => MethodTree.find tree (stripped path) version := rfl
  rw [hfind]
  cases hmethod : router.tree? method with
  | none =>
      rw [hmethod] at htree
      intro r hr
      by_contra hanswers
      have hr' := answers_iff.mp (by simpa using hanswers)
      exact htree r hr hr'.1
  | some tree =>
      rw [hmethod] at htree
      have hspec := MethodTree.find_spec htree (isBare_dropWhile path.toList) version
      rw [← stripped, hpieces] at hspec
      have hwithin : ∀ r, r ∈ routes.filter (fun r => r.method == method) ↔
          r ∈ routes ∧ r.method = method := by
        intro r
        simp
      rw [Option.bind_some]
      cases hfound : MethodTree.find tree (stripped path) version with
      | none =>
          rw [hfound] at hspec
          intro r hr
          by_contra hanswers
          have hr' := answers_iff.mp (by simpa using hanswers)
          exact hspec r ((hwithin r).mpr ⟨hr, hr'.1⟩) hr'.2
      | some m =>
          rw [hfound] at hspec
          obtain ⟨hmem, hsuits, houtranks, hcaptures⟩ := hspec
          obtain ⟨hroutes, hsame⟩ := (hwithin m.route).mp hmem
          refine ⟨hroutes, answers_iff.mpr ⟨hsame, hsuits⟩, ?_, hcaptures⟩
          intro r hr hranswers hne
          obtain ⟨hrmethod, hrsuits⟩ := answers_iff.mp hranswers
          rcases houtranks r ((hwithin r).mpr ⟨hr, hrmethod⟩) hrsuits with
            hprecedes | ⟨hpattern, hle⟩
          · exact .inl hprecedes
          · have hversions := version_ne_of_fits hdistinct hr hroutes hne
              (hrmethod.trans hsame.symm) hrsuits.1 hsuits.1 hpattern.symm
            exact .inr ⟨hpattern, by omega⟩

/-- A compiled table finds a resolution of the request by its routes, or none of them may answer. -/
theorem resolution_of_build
    {plugins : List Plugin} {definitions : List Definition} {table : RouteTable}
    (h : (RouteTable.build plugins definitions).2 = .ok table)
    (method path : String) (version : Nat) :
    match table.router.find method path version with
    | none => ∀ r ∈ table.routes, r.answers method path version = false
    | some m => IsResolution table.routes method path version m := by
  obtain ⟨hdistinct, hrouter⟩ := RouteTable.distinct_and_routed_of_build h
  rw [← buildIn_firstUse] at hrouter
  exact resolution_of_buildIn hdistinct hrouter method path version

/-- A compiled table finds nothing for a request only when no route of it may answer, and otherwise
finds a resolution of the request by its routes. -/
theorem find_resolves
    {plugins : List Plugin} {definitions : List Definition} {table : RouteTable}
    (h : (RouteTable.build plugins definitions).2 = .ok table)
    (method path : String) (version : Nat) :
    (table.router.find method path version = none ↔
      ∀ r ∈ table.routes, r.answers method path version = false) ∧
    ∀ m, table.router.find method path version = some m →
      IsResolution table.routes method path version m := by
  have hspec := resolution_of_build h method path version
  cases hfound : table.router.find method path version with
  | none =>
      rw [hfound] at hspec
      exact ⟨⟨fun _ => hspec, fun _ => rfl⟩, by simp⟩
  | some m =>
      rw [hfound] at hspec
      refine ⟨⟨by simp, fun hnone => ?_⟩, ?_⟩
      · have hsilent := hnone m.route hspec.registered
        simp [hspec.answers] at hsilent
      · rintro m' hm
        obtain rfl := Option.some.inj hm
        exact hspec

/-- Definitions whose templates compete for one path. -/
def competingDefinitions : List Definition :=
  let handler := Handler.raw fun _ => .create fun t => .done t
  [ ⟨"user", "GET", "/users/:id", [ParamSpec.path "id" .string], handler⟩,
    ⟨"self_2024_01_01", "GET", "/users/me", [], handler⟩,
    ⟨"user_2023_05_01", "GET", "/users/:id", [ParamSpec.path "id" .string], handler⟩ ]

/-- The literal is too new for the request, so the search goes back to the capture. -/
theorem find_resolves_competing :
    ∃ table, (RouteTable.build [] competingDefinitions).2 = .ok table ∧
      ((table.router.find "GET" "//users/me?x=1" 20231231).map fun m =>
        (m.route.name, m.captures.map Capture.text)) = some ("user_2023_05_01", ["me"]) ∧
      (table.router.find "GET" "//users/me?x=1" 20231231 = none ↔
        ∀ r ∈ table.routes, r.answers "GET" "//users/me?x=1" 20231231 = false) ∧
      ∀ m, table.router.find "GET" "//users/me?x=1" 20231231 = some m →
        IsResolution table.routes "GET" "//users/me?x=1" 20231231 m := by
  have hfound : ((RouteTable.build [] competingDefinitions).2.toOption.bind fun table =>
      (table.router.find "GET" "//users/me?x=1" 20231231).map fun m =>
        (m.route.name, m.captures.map Capture.text)) = some ("user_2023_05_01", ["me"]) := by
    decide +kernel
  cases htable : (RouteTable.build [] competingDefinitions).2 with
  | error e => simp [htable, Except.toOption] at hfound
  | ok table =>
      rw [htable] at hfound
      exact ⟨table, rfl, hfound, find_resolves htable "GET" "//users/me?x=1" 20231231⟩

end Router
end RouteDispatch
