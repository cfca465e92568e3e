import RouteDispatch.Proofs.Route.Registration
import RouteDispatch.Proofs.Router.Matching

/-!
# Duplicate routes

Where every definition is compiled and no name is used twice, a table is refused for duplicate routes
exactly when two of the routes answer the same requests.  The error names the first such pair: the
route that was registered first of all that repeat an earlier one, and the one it repeats.
-/

namespace RouteDispatch

/-- The route `b` is the first of the list that answers the requests of an earlier one, and `a` is
that one. -/
def Route.FirstRivals (routes : List Route) (a b : Route) : Prop :=
  ∃ front behind, routes = front ++ b :: behind ∧
    (front.Pairwise fun x y => ¬ x.Rivals y) ∧ a ∈ front ∧ a.Rivals b

/-- A list in which some element is related to one behind it has a first one that an earlier one is
related to. -/
theorem exists_first_of_not_pairwise
    {α : Type} {related : α → α → Prop} {xs : List α}
    (h : ¬ xs.Pairwise fun a b => ¬ related a b) :
    ∃ front a b behind, xs = front ++ b :: behind ∧
      (front.Pairwise fun x y => ¬ related x y) ∧ a ∈ front ∧ related a b := by
  induction xs using List.reverseRecOn with
  | nil => exact absurd List.Pairwise.nil h
  | append_singleton xs x ih =>
      by_cases hfront : xs.Pairwise fun a b => ¬ related a b
      · have hlast : ∃ a ∈ xs, related a x := by
          by_contra hnone
          refine h (List.pairwise_append.mpr ⟨hfront, List.pairwise_singleton _ _, ?_⟩)
          intro a ha b hb hab
          rw [List.mem_singleton.mp hb] at hab
          exact hnone ⟨a, ha, hab⟩
        obtain ⟨a, ha, hax⟩ := hlast
        exact ⟨xs, a, x, [], rfl, hfront, ha, hax⟩
      · obtain ⟨front, a, b, behind, rfl, hbefore, ha, hab⟩ := ih hfront
        exact ⟨front, a, b, behind ++ [x], by simp, hbefore, ha, hab⟩

/-- Two routes of a list answer the same requests exactly when there is a first such pair. -/
theorem Route.exists_firstRivals_iff {routes : List Route} :
    (∃ a b, FirstRivals routes a b) ↔ ∃ a b, [a, b].Sublist routes ∧ a.Rivals b := by
  constructor
  · rintro ⟨a, b, front, behind, rfl, -, ha, hrivals⟩
    have hpair : ([a] ++ [b]).Sublist (front ++ b :: behind) :=
      (List.singleton_sublist.mpr ha).append (List.singleton_sublist.mpr List.mem_cons_self)
    exact ⟨a, b, hpair, hrivals⟩
  · rintro ⟨a, b, hpair, hrivals⟩
    have hnot : ¬ routes.Pairwise fun x y => ¬ x.Rivals y := fun h =>
      List.pairwise_iff_forall_sublist.mp h hpair hrivals
    obtain ⟨front, a, b, behind, hsplit, hfront, ha, hab⟩ := exists_first_of_not_pairwise hnot
    exact ⟨a, b, front, behind, hsplit, hfront, ha, hab⟩

/-- Among checked routes with names of their own, conflicts are rivalries. -/
theorem Route.pairwise_not_conflicts_iff
    {routes : List Route} (hchecked : ∀ r ∈ routes, r.IsChecked)
    (hnames : (routes.map fun r => r.name).Nodup) :
    (routes.Pairwise fun a b => ¬ a.Conflicts b) ↔ routes.Pairwise fun a b => ¬ a.Rivals b := by
  have hnames' : routes.Pairwise fun a b => a.name ≠ b.name := List.pairwise_map.mp hnames
  constructor
  · intro h
    refine h.imp_of_mem ?_
    intro a b ha hb hfree hrivals
    exact hfree (.inr (((hchecked a ha).clashes_iff (hchecked b hb)).mpr hrivals))
  · intro h
    refine (h.and hnames').imp_of_mem ?_
    rintro a b ha hb ⟨hfree, hname⟩ (hsame | hclash)
    · exact hname hsame
    · exact hfree (((hchecked a ha).clashes_iff (hchecked b hb)).mp hclash)

/-- Nothing but a collision of literals keeps a router from being built. -/
theorem Router.eq_collisionError_of_build
    {routes : List Route} {e : BuildError} (h : build routes = .error e) :
    ∃ c, e = collisionError c := by
  unfold build at h
  cases htrees : (methods routes).mapM fun m =>
      buildTree m (routes.filter fun r => r.method == m) with
  | ok trees =>
      rw [htrees] at h
      cases h
  | error e' =>
      rw [htrees] at h
      obtain rfl : e' = e := Except.error.inj h
      obtain ⟨m, -, htree⟩ := Trie.exists_of_mapM_error htrees
      unfold buildTree at htree
      dsimp only at htree
      split at htree
      · cases htree
      next c _ => exact ⟨c, (Except.error.inj htree).symm⟩

namespace RouteTable

/-- A new name does not help a route that clashes with one of those before it. -/
theorem addRoute_eq_error_of_clashes
    {routes : List Route} (hdistinct : routes.Pairwise fun a b => ¬ a.Clashes b) {a b : Route}
    (hname : ∀ r ∈ routes, r.name ≠ b.name) (ha : a ∈ routes) (hclash : a.Clashes b) :
    addRoute routes b =
      .error (.duplicateRoute b.method b.equivalence b.version a.name b.name) := by
  have hnew : ¬ (routes.any fun r => r.name == b.name) = true := by
    simpa using hname
  obtain ⟨hmethod, hequivalence, hversion⟩ := hclash
  unfold addRoute
  rw [if_neg hnew]
  split
  next first hfirst =>
    have hfirstClash : first.Clashes b := by
      simpa [Route.Clashes, and_assoc] using List.find?_some hfirst
    have hsame : first = a :=
      eq_of_clashes_of_pairwise hdistinct (List.mem_of_find?_eq_some hfirst) ha
        ⟨hfirstClash.1.trans hmethod.symm, hfirstClash.2.1.trans hequivalence.symm,
          hfirstClash.2.2.trans hversion.symm⟩
    rw [hsame]
  next hnone =>
    have hother := List.find?_eq_none.mp hnone a ha
    simp [hmethod, hequivalence, hversion] at hother

/-- Registration stops at the first route that answers the requests of an earlier one. -/
theorem foldlM_addRoute_eq_error
    {routes : List Route} (hchecked : ∀ r ∈ routes, r.IsChecked)
    (hnames : (routes.map fun r => r.name).Nodup) {a b : Route} (h : Route.FirstRivals routes a b) :
    routes.foldlM addRoute [] =
      .error (.duplicateRoute b.method b.equivalence b.version a.name b.name) := by
  obtain ⟨front, behind, rfl, hfront, ha, hrivals⟩ := h
  have hcheckedFront : ∀ r ∈ front, r.IsChecked := fun r hr =>
    hchecked r (List.mem_append_left _ hr)
  have hclash : a.Clashes b :=
    ((hcheckedFront a ha).clashes_iff (hchecked b (by simp))).mpr hrivals
  rw [List.map_append] at hnames
  obtain ⟨hnamesFront, -, hnamesApart⟩ := List.nodup_append.mp hnames
  have hfree : front.Pairwise fun x y => ¬ x.Conflicts y :=
    (Route.pairwise_not_conflicts_iff hcheckedFront hnamesFront).mpr hfront
  have hregistered : front.foldlM addRoute [] = .ok front :=
    (foldlM_addRoute_eq_ok_iff List.Pairwise.nil).mpr ⟨hfree, rfl⟩
  have hadd : addRoute front b =
      .error (.duplicateRoute b.method b.equivalence b.version a.name b.name) := by
    refine addRoute_eq_error_of_clashes (hfree.imp fun hxy hclash => hxy (.inr hclash)) ?_ ha hclash
    intro r hr
    exact hnamesApart r.name (List.mem_map_of_mem hr) b.name (by simp)
  rw [List.foldlM_append, hregistered]
  change (addRoute front b >>= _) = _
  rw [hadd]
  rfl

/-- Nothing but two routes that answer the same requests is called a duplicate route. -/
theorem build_ne_duplicateRoute
    {plugins : List Plugin} {definitions : List Definition} {routes : List Route}
    (h : register plugins definitions = .ok routes)
    (method equivalence : String) (version : Nat) (first second : String) :
    (build plugins definitions).2 ≠
      .error (.duplicateRoute method equivalence version first second) := by
  rw [build_eq, h]
  change (Router.build routes >>= _) ≠ _
  intro hbuild
  cases hrouter : Router.build routes with
  | ok router =>
      rw [hrouter] at hbuild
      cases hbuild
  | error e =>
      obtain ⟨c, rfl⟩ := Router.eq_collisionError_of_build hrouter
      rw [hrouter] at hbuild
      cases Except.error.inj hbuild

/-- Among definitions that are compiled to routes with names of their own, a table is refused for
duplicate routes exactly when two of the routes answer the same requests; the error is about the
first such pair in the order of registration; and routes have one equivalence path exactly when they
accept the same paths. -/
theorem build_eq_duplicateRoute_iff
    {plugins : List Plugin} {definitions : List Definition} {routes : List Route}
    (hcompiles : List.Forall₂ (Compiles plugins) definitions routes)
    (hnames : (routes.map fun r => r.name).Nodup) :
    ((∃ method equivalence version first second, (build plugins definitions).2 =
        .error (.duplicateRoute method equivalence version first second)) ↔
      ∃ a b, [a, b].Sublist routes ∧ a.Rivals b) ∧
    (∀ method equivalence version first second, (build plugins definitions).2 =
        .error (.duplicateRoute method equivalence version first second) ↔
      ∃ a b, Route.FirstRivals routes a b ∧ b.method = method ∧ b.equivalence = equivalence ∧
        b.version = version ∧ a.name = first ∧ b.name = second) ∧
    ∀ a ∈ routes, ∀ b ∈ routes, a.equivalence = b.equivalence ↔
      ∀ path, Template.accepts a.segments path = Template.accepts b.segments path := by
  have hchecked : ∀ r ∈ routes, r.IsChecked := by
    intro r hr
    obtain ⟨d, -, hd⟩ := exists_compiles_of_mem hcompiles hr
    exact (isChecked_of_compiles hd).1
  have herror : ∀ a b, Route.FirstRivals routes a b → (build plugins definitions).2 =
      .error (.duplicateRoute b.method b.equivalence b.version a.name b.name) := by
    intro a b h
    rw [build_eq, register_eq_of_compiles hcompiles, foldlM_addRoute_eq_error hchecked hnames h]
    rfl
  have hrivals : ∀ method equivalence version first second, (build plugins definitions).2 =
      .error (.duplicateRoute method equivalence version first second) →
      ∃ a b, Route.FirstRivals routes a b := by
    intro method equivalence version first second h
    by_contra hnone
    have hfree : routes.Pairwise fun x y => ¬ x.Rivals y := by
      refine List.pairwise_iff_forall_sublist.mpr fun {a b} hpair hab => hnone ?_
      exact Route.exists_firstRivals_iff.mpr ⟨a, b, hpair, hab⟩
    have hregister := register_eq_ok_iff.mpr
      ⟨hcompiles, (Route.pairwise_not_conflicts_iff hchecked hnames).mpr hfree⟩
    exact build_ne_duplicateRoute hregister method equivalence version first second h
  refine ⟨?_, ?_, ?_⟩
  · rw [← Route.exists_firstRivals_iff]
    constructor
    · rintro ⟨method, equivalence, version, first, second, h⟩
      exact hrivals method equivalence version first second h
    · rintro ⟨a, b, h⟩
      exact ⟨_, _, _, _, _, herror a b h⟩
  · intro method equivalence version first second
    constructor
    · intro h
      obtain ⟨a, b, hab⟩ := hrivals method equivalence version first second h
      rw [herror a b hab] at h
      simp only [Except.error.injEq, BuildError.duplicateRoute.injEq] at h
      exact ⟨a, b, hab, h⟩
    · rintro ⟨a, b, hab, rfl, rfl, rfl, rfl, rfl⟩
      exact herror a b hab
  · intro a ha b hb
    exact (hchecked a ha).equivalence_eq_iff (hchecked b hb)

/-- Definitions of which the last one repeats the first in other words. -/
def rivalDefinitions : List Definition :=
  let handler := Handler.raw fun _ => .create fun t => .done t
  [ ⟨"user", "GET", "/users/:id", [ParamSpec.path "id" .string], handler⟩,
    ⟨"rename", "POST", "/users/:id", [ParamSpec.path "id" .string], handler⟩,
    ⟨"member", "GET", "//users/:name/", [ParamSpec.path "name" .string], handler⟩ ]

/-- The error names the two rivals and not the route of another method between them. -/
theorem build_eq_duplicateRoute_rival :
    ∃ routes, List.Forall₂ (Compiles []) rivalDefinitions routes ∧
      (routes.map fun r => r.name).Nodup ∧
      (build [] rivalDefinitions).2 =
        .error (.duplicateRoute "GET" "/users/*" 0 "user" "member") ∧
      ∃ a b, Route.FirstRivals routes a b ∧ a.name = "user" ∧ b.name = "member" := by
  have hroutes : (rivalDefinitions.map fun d => (d.route []).toOption.map fun r => r.name) =
      [some "user", some "rename", some "member"] := by
    decide +kernel
  have hbuild : (match (build [] rivalDefinitions).2 with
      | .ok _ => none
      | .error e => some e) = some (.duplicateRoute "GET" "/users/*" 0 "user" "member") := by
    decide +kernel
  have herror : (build [] rivalDefinitions).2 =
      .error (.duplicateRoute "GET" "/users/*" 0 "user" "member") := by
    split at hbuild
    next => cases hbuild
    next e he => rw [he, Option.some.inj hbuild]
  have hcompiled : ∀ {d : Definition} {name : String},
      ((d.route []).toOption.map fun r => r.name) = some name →
        ∃ r, Compiles [] d r ∧ r.name = name := by
    intro d name h
    cases hd : d.route [] with
    | error e => simp [hd, Except.toOption] at h
    | ok r => exact ⟨r, hd, by simpa [hd, Except.toOption] using h⟩
  simp only [rivalDefinitions, List.map_cons, List.map_nil, List.cons.injEq] at hroutes
  obtain ⟨huser, hrename, hmember, -⟩ := hroutes
  obtain ⟨user, huser, huserName⟩ := hcompiled huser
  obtain ⟨rename, hrename, hrenameName⟩ := hcompiled hrename
  obtain ⟨member, hmember, hmemberName⟩ := hcompiled hmember
  have hcompiles : List.Forall₂ (Compiles []) rivalDefinitions [user, rename, member] :=
    .cons huser (.cons hrename (.cons hmember .nil))
  have hnodup : ([user, rename, member].map fun r => r.name).Nodup := by
    simp [huserName, hrenameName, hmemberName]
  obtain ⟨a, b, hrivals, -, -, -, ha, hb⟩ :=
    ((build_eq_duplicateRoute_iff hcompiles hnodup).2.1 _ _ _ _ _).mp herror
  exact ⟨_, hcompiles, hnodup, herror, a, b, hrivals, ha, hb⟩

end RouteTable
end RouteDispatch
