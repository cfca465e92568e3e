import RouteDispatch.Proofs.Route.Registration
import RouteDispatch.Proofs.Router.Coexistence
import RouteDispatch.Proofs.Router.Publication
import Mathlib.Data.List.Find
import Mathlib.Data.List.Perm.Basic

/-!
# The order of definitions

Definitions may be given in any order, and the compiler may go through the methods and the groups of
its router in any order: it compiles a table in one of them exactly when it does in any other, and
the tables find the same route by a name and for a request, with the same captures.
-/

namespace RouteDispatch

theorem Route.Conflicts.symm {a b : Route} (h : a.Conflicts b) : b.Conflicts a := by
  rcases h with hname | ⟨hmethod, hequivalence, hversion⟩
  · exact .inl hname.symm
  · exact .inr ⟨hmethod.symm, hequivalence.symm, hversion.symm⟩

/-- Routes of which no two conflict can stand in any order. -/
theorem Route.pairwise_not_conflicts_of_perm
    {routes routes' : List Route} (h : routes.Perm routes')
    (hfree : routes.Pairwise fun a b => ¬ a.Conflicts b) :
    routes'.Pairwise fun a b => ¬ a.Conflicts b :=
  h.pairwise hfree fun hab hba => hab hba.symm

namespace RouteTable

/-- Compiles a table like `build`, with the methods and groups of its router in the given order. -/
def buildIn (order : Router.Iteration) (plugins : List Plugin) (definitions : List Definition) :
    Except BuildError RouteTable := do
  let routes ← register plugins definitions
  let router ← Router.buildIn order routes
  return ⟨routes, router⟩

theorem buildIn_firstUse (plugins : List Plugin) (definitions : List Definition) :
    buildIn .firstUse plugins definitions = (build plugins definitions).2 := by
  rw [build_eq, buildIn]
  simp only [Router.buildIn_firstUse]

/-- A table is compiled to the routes of its definitions, no two of which conflict. -/
theorem buildIn_eq_ok_iff
    {order : Router.Iteration} {plugins : List Plugin} {definitions : List Definition}
    {table : RouteTable} :
    buildIn order plugins definitions = .ok table ↔
      List.Forall₂ (Compiles plugins) definitions table.routes ∧
        (table.routes.Pairwise fun a b => ¬ a.Conflicts b) ∧
        Router.buildIn order table.routes = .ok table.router := by
  simp only [buildIn, Trie.bind_eq_ok_iff, register_eq_ok_iff]
  constructor
  · rintro ⟨routes, ⟨hcompiles, hfree⟩, router, hrouter, htable⟩
    obtain rfl : (⟨routes, router⟩ : RouteTable) = table := Except.ok.inj htable
    exact ⟨hcompiles, hfree, hrouter⟩
  · rintro ⟨hcompiles, hfree, hrouter⟩
    exact ⟨table.routes, ⟨hcompiles, hfree⟩, table.router, hrouter, rfl⟩

/-- Whether a table is compiled is a matter of its routes, and not of their order. -/
theorem exists_buildIn_of_perm
    {definitions definitions' : List Definition} (h : definitions.Perm definitions')
    {plugins : List Plugin} {order : Router.Iteration} (order' : Router.Iteration)
    (hbuild : ∃ table, buildIn order plugins definitions = .ok table) :
    ∃ table, buildIn order' plugins definitions' = .ok table := by
  obtain ⟨table, htable⟩ := hbuild
  obtain ⟨hcompiles, hfree, hrouter⟩ := buildIn_eq_ok_iff.mp htable
  obtain ⟨routes, hcompiles', hperm⟩ := List.perm_comp_forall₂ h.symm hcompiles
  have hcoexist := Router.exists_buildIn_iff.mp ⟨table.router, hrouter⟩
  obtain ⟨router, hrouter'⟩ : ∃ router, Router.buildIn order' routes = .ok router := by
    refine Router.exists_buildIn_iff.mpr ?_
    intro a ha b hb hmethod
    exact hcoexist a (hperm.mem_iff.mp ha) b (hperm.mem_iff.mp hb) hmethod
  have hfree' := Route.pairwise_not_conflicts_of_perm hperm.symm hfree
  exact ⟨⟨routes, router⟩, buildIn_eq_ok_iff.mpr ⟨hcompiles', hfree', hrouter'⟩⟩

/-- The routes of reordered definitions are those of the definitions, reordered. -/
theorem perm_of_compiles
    {plugins : List Plugin} {definitions definitions' : List Definition}
    (h : definitions.Perm definitions') {routes routes' : List Route}
    (hroutes : List.Forall₂ (Compiles plugins) definitions routes)
    (hroutes' : List.Forall₂ (Compiles plugins) definitions' routes') : routes.Perm routes' := by
  have hunique : Relator.RightUnique (Compiles plugins) := fun _ _ _ hr hr' =>
    Except.ok.inj (hr.symm.trans hr')
  exact List.rel_perm_imp hunique hroutes hroutes' h

/-- No two routes of a table have one name, so a name finds the same route in any order of them. -/
theorem route?_eq_of_perm
    {table table' : RouteTable} (h : table.routes.Perm table'.routes)
    (hfree : table.routes.Pairwise fun a b => ¬ a.Conflicts b) (name : String) :
    table.route? name = table'.route? name := by
  have hnames : (table.routes.map fun r => r.name).Nodup :=
    List.pairwise_map.mpr (hfree.imp fun hab hname => hab (.inl hname))
  refine List.find?_eq_find?_of_perm h ?_
  rintro a ⟨ha, haname⟩ b ⟨hb, hbname⟩
  have hname : a.name = b.name := by
    rw [beq_iff_eq] at haname hbname
    rw [haname, hbname]
  exact List.inj_on_of_nodup_map hnames ha hb hname

theorem areDistinct_of_compiles
    {plugins : List Plugin} {definitions : List Definition} {routes : List Route}
    (hcompiles : List.Forall₂ (Compiles plugins) definitions routes)
    (hfree : routes.Pairwise fun a b => ¬ a.Conflicts b) : AreDistinct routes where
  marked := by
    intro r hr
    obtain ⟨d, -, hd⟩ := exists_compiles_of_mem hcompiles hr
    exact (isChecked_of_compiles hd).1.marked
  distinct := hfree.imp fun hab hclash => hab (.inr hclash)

/-- The order in which definitions are registered and the orders in which the router is built decide
neither whether the table is compiled nor what it finds, by name or for a request. -/
theorem buildIn_perm
    {definitions definitions' : List Definition} (h : definitions.Perm definitions')
    (plugins : List Plugin) (order order' : Router.Iteration) :
    buildIn .firstUse plugins definitions = (build plugins definitions).2 ∧
    ((∃ table, buildIn order plugins definitions = .ok table) ↔
      ∃ table, buildIn order' plugins definitions' = .ok table) ∧
    ∀ table table', buildIn order plugins definitions = .ok table →
      buildIn order' plugins definitions' = .ok table' →
      (∀ name, table.route? name = table'.route? name) ∧
      ∀ method path version, table.find method path version = table'.find method path version := by
  refine ⟨buildIn_firstUse plugins definitions, ?_, ?_⟩
  · constructor
    · exact exists_buildIn_of_perm h order'
    · exact exists_buildIn_of_perm h.symm order
  · intro table table' htable htable'
    obtain ⟨hcompiles, hfree, hrouter⟩ := buildIn_eq_ok_iff.mp htable
    obtain ⟨hcompiles', hfree', hrouter'⟩ := buildIn_eq_ok_iff.mp htable'
    have hperm := perm_of_compiles h hcompiles hcompiles'
    constructor
    · exact route?_eq_of_perm hperm hfree
    · intro method path version
      have hfound := Router.resolution_of_buildIn (areDistinct_of_compiles hcompiles hfree)
        hrouter method path version
      have hfound' := Router.resolution_of_buildIn (areDistinct_of_compiles hcompiles' hfree')
        hrouter' method path version
      have hsame := Router.eq_of_answering hfound hfound' fun r _ => hperm.mem_iff
      unfold find
      rw [hsame]

/-- Methods and groups are gone through from the last one that was used first to the first one. -/
def lastUse : Router.Iteration where
  methods := fun routes => (Router.methods routes).reverse
  methods_perm := fun routes => (Router.methods routes).reverse_perm
  nodes := fun _ =>
    { visit := fun _ _ groups => groups.reverse
      visit_perm := fun _ _ groups => groups.reverse_perm }

/-- The competing definitions, turned around, are compiled to a table that finds the same route. -/
theorem buildIn_perm_competing :
    Router.competingDefinitions.Perm Router.competingDefinitions.reverse ∧
      ∃ table table', buildIn .firstUse [] Router.competingDefinitions = .ok table ∧
        buildIn lastUse [] Router.competingDefinitions.reverse = .ok table' ∧
        ((table.router.find "GET" "//users/me?x=1" 20231231).map fun m =>
          (m.route.name, m.captures.map Capture.text)) = some ("user_2023_05_01", ["me"]) ∧
        (∀ name, table.route? name = table'.route? name) ∧
        ∀ method path version,
          table.find method path version = table'.find method path version := by
  have hperm : Router.competingDefinitions.Perm Router.competingDefinitions.reverse :=
    (List.reverse_perm _).symm
  have hsame := buildIn_perm hperm [] .firstUse lastUse
  have hfound : ((buildIn .firstUse [] Router.competingDefinitions).toOption.bind fun table =>
      (table.router.find "GET" "//users/me?x=1" 20231231).map fun m =>
        (m.route.name, m.captures.map Capture.text)) = some ("user_2023_05_01", ["me"]) := by
    rw [hsame.1]
    decide +kernel
  cases htable : buildIn .firstUse [] Router.competingDefinitions with
  | error e => simp [htable, Except.toOption] at hfound
  | ok table =>
      rw [htable] at hfound
      obtain ⟨table', htable'⟩ := hsame.2.1.mp ⟨table, htable⟩
      obtain ⟨hnames, hrequests⟩ := hsame.2.2 table table' htable htable'
      exact ⟨hperm, table, table', rfl, htable', hfound, hnames, hrequests⟩

end RouteTable
end RouteDispatch
