import RouteDispatch.Proofs.Route.Compilation
import RouteDispatch.Proofs.Route.Equivalence

/-!
# Registering routes

The compiler registers one route after the other, and refuses the first that has the name of an
earlier one or clashes with an earlier one.  Clashes are found by equivalence paths; they are between
routes of one method and one version that accept the same paths, and between no others.
-/

namespace RouteDispatch

namespace Compiler

variable {α β : Type}

/-- What the computation gives when nothing was logged before. -/
def result (c : Compiler α) : Except BuildError α :=
  (c.run.run []).1

theorem result_check (r : Except BuildError α) : (check r).result = r := by
  cases r with
  | ok a => rfl
  | error e => rfl

theorem isBlind_report (entries : List Entry) (a : α) :
    IsBlind (do write entries; pure a) :=
  isBlind_bind (isBlind_write entries) fun _ => isBlind_pure a

/-- What follows a computation does not see its log, so the results are composed. -/
theorem result_bind (c : Compiler α) {f : α → Compiler β} (hf : ∀ a, IsBlind (f a)) :
    (c >>= f).result = c.result >>= fun a => (f a).result := by
  have hrun : (c >>= f).result =
      match c.run.run [] with
      | (.ok a, log) => ((f a).run.run log).1
      | (.error e, _) => .error e := by
    unfold result
    simp only [ExceptT.run_bind, StateT.run_bind]
    rcases c.run.run [] with ⟨_ | _, _⟩
    · rfl
    · rfl
  rw [hrun, result]
  rcases c.run.run [] with ⟨e | a, log⟩
  · rfl
  · exact hf a log []

theorem result_foldlM
    {step : β → α → Compiler β} (hstep : ∀ b a, IsBlind (step b a)) (inputs : List α) (start : β) :
    (inputs.foldlM step start).result = inputs.foldlM (fun b a => (step b a).result) start := by
  induction inputs generalizing start with
  | nil => rfl
  | cons a inputs ih =>
      rw [List.foldlM_cons, List.foldlM_cons, result_bind _ (isBlind_foldlM hstep inputs)]
      simp only [ih]

end Compiler

/-- The two routes answer the same requests: they have one method and one version, and accept the
same paths. -/
def Route.Rivals (a b : Route) : Prop :=
  a.method = b.method ∧ a.version = b.version ∧
    ∀ path, Template.accepts a.segments path = Template.accepts b.segments path

/-- The two routes cannot stand in one table. -/
def Route.Conflicts (a b : Route) : Prop :=
  a.name = b.name ∨ a.Clashes b

theorem Route.IsChecked.hasPlainLiterals {r : Route} (h : r.IsChecked) :
    Template.HasPlainLiterals r.segments :=
  Template.hasPlainLiterals_of_parse h.parsed

/-- Routes have one equivalence path exactly when they accept the same paths. -/
theorem Route.IsChecked.equivalence_eq_iff
    {a b : Route} (ha : a.IsChecked) (hb : b.IsChecked) :
    a.equivalence = b.equivalence ↔
      ∀ path, Template.accepts a.segments path = Template.accepts b.segments path := by
  rw [ha.marked, hb.marked]
  exact Template.equivalencePath_eq_iff_accepts ha.hasPlainLiterals hb.hasPlainLiterals

theorem Route.IsChecked.clashes_iff
    {a b : Route} (ha : a.IsChecked) (hb : b.IsChecked) : a.Clashes b ↔ a.Rivals b := by
  unfold Route.Clashes Route.Rivals
  rw [ha.equivalence_eq_iff hb, and_comm (a := ∀ path, _)]

namespace RouteTable

/-! ## The compiler without its log -/

/-- The routes of some definitions, registered one after the other. -/
def register (plugins : List Plugin) (definitions : List Definition) :
    Except BuildError (List Route) :=
  definitions.foldlM (fun routes d => d.route plugins >>= addRoute routes) []

theorem isBlind_addDefinition (plugins : List Plugin) (routes : List Route) (d : Definition) :
    (addDefinition plugins routes d).IsBlind := by
  unfold addDefinition
  refine Compiler.isBlind_bind (d.isBlind_compile plugins) fun r => ?_
  exact Compiler.isBlind_bind (Compiler.isBlind_check _) fun added => Compiler.isBlind_report _ added

theorem result_addDefinition (plugins : List Plugin) (routes : List Route) (d : Definition) :
    (addDefinition plugins routes d).result = d.route plugins >>= addRoute routes := by
  have hcompile : (d.compile plugins).result = d.route plugins := rfl
  unfold addDefinition
  rw [Compiler.result_bind _ fun r => Compiler.isBlind_bind (Compiler.isBlind_check _)
    fun added => Compiler.isBlind_report _ added, hcompile]
  refine congrArg (d.route plugins >>= ·) (funext fun r => ?_)
  rw [Compiler.result_bind _ fun added => Compiler.isBlind_report _ added, Compiler.result_check]
  cases addRoute routes r with
  | error e => rfl
  | ok added => rfl

/-- A table is made of the registered routes and of their router. -/
theorem build_eq (plugins : List Plugin) (definitions : List Definition) :
    (build plugins definitions).2 = (do
      let routes ← register plugins definitions
      let router ← Router.build routes
      return (⟨routes, router⟩ : RouteTable)) := by
  have hbuild : (build plugins definitions).2 = (compile plugins definitions).result := rfl
  have hregister : (definitions.foldlM (addDefinition plugins) []).result =
      register plugins definitions := by
    rw [Compiler.result_foldlM (isBlind_addDefinition plugins)]
    simp only [result_addDefinition]
    rfl
  rw [hbuild, compile, Compiler.result_bind _ fun routes => Compiler.isBlind_bind
    (Compiler.isBlind_check _) fun router => Compiler.isBlind_report _ _, hregister]
  refine congrArg (register plugins definitions >>= ·) (funext fun routes => ?_)
  rw [Compiler.result_bind _ fun router => Compiler.isBlind_report _ _, Compiler.result_check]
  cases Router.build routes with
  | error e => rfl
  | ok router => rfl

/-! ## Registering compiled routes -/

theorem addRoute_eq_ok_iff {routes added : List Route} {r : Route} :
    addRoute routes r = .ok added ↔
      (∀ other ∈ routes, ¬ other.Conflicts r) ∧ added = routes ++ [r] := by
  unfold addRoute
  split
  next hname =>
    obtain ⟨other, hother, hsame⟩ := List.any_eq_true.mp hname
    constructor
    · intro h
      cases h
    · rintro ⟨hfree, -⟩
      exact absurd (.inl (by simpa using hsame)) (hfree other hother)
  next hname =>
    split
    next first hfirst =>
      have hclash : first.Clashes r := by
        simpa [Route.Clashes, and_assoc] using List.find?_some hfirst
      constructor
      · intro h
        cases h
      · rintro ⟨hfree, -⟩
        exact absurd (.inr hclash) (hfree first (List.mem_of_find?_eq_some hfirst))
    next hfresh =>
      constructor
      · intro h
        refine ⟨?_, (Except.ok.inj h).symm⟩
        rintro other hother (hsame | ⟨hmethod, hequivalence, hversion⟩)
        · exact hname (List.any_eq_true.mpr ⟨other, hother, by simpa using hsame⟩)
        · have hother' := List.find?_eq_none.mp hfresh other hother
          simp [hmethod, hequivalence, hversion] at hother'
      · rintro ⟨-, rfl⟩
        rfl

/-- Routes are registered behind others when no two of all of them conflict. -/
theorem foldlM_addRoute_eq_ok_iff
    {start routes added : List Route} (hstart : start.Pairwise fun a b => ¬ a.Conflicts b) :
    routes.foldlM addRoute start = .ok added ↔
      (start ++ routes).Pairwise (fun a b => ¬ a.Conflicts b) ∧ added = start ++ routes := by
  induction routes generalizing start with
  | nil =>
      rw [List.append_nil, List.foldlM_nil]
      constructor
      · intro h
        exact ⟨hstart, (Except.ok.inj h).symm⟩
      · rintro ⟨-, rfl⟩
        rfl
  | cons r routes ih =>
      have hbehind : start ++ r :: routes = (start ++ [r]) ++ routes := by simp
      rw [List.foldlM_cons, hbehind]
      cases hadd : addRoute start r with
      | ok next =>
          obtain ⟨hfree, rfl⟩ := addRoute_eq_ok_iff.mp hadd
          refine ih (List.pairwise_append.mpr ⟨hstart, List.pairwise_singleton _ _, ?_⟩)
          intro other hother x hx
          rw [List.mem_singleton.mp hx]
          exact hfree other hother
      | error e =>
          constructor
          · intro h
            cases h
          · rintro ⟨hpairwise, -⟩
            have hfront := (List.pairwise_append.mp (List.pairwise_append.mp hpairwise).1).2.2
            have hok := addRoute_eq_ok_iff.mpr
              ⟨fun other hother => hfront other hother r List.mem_cons_self, rfl⟩
            rw [hadd] at hok
            cases hok

theorem exists_compiles_of_mem
    {plugins : List Plugin} {definitions : List Definition} {routes : List Route}
    (h : List.Forall₂ (Compiles plugins) definitions routes) {r : Route} (hr : r ∈ routes) :
    ∃ d ∈ definitions, Compiles plugins d r := by
  induction h with
  | nil => simp at hr
  | @cons d first definitions rest hd _ ih =>
      rcases List.mem_cons.mp hr with rfl | hrest
      · exact ⟨d, List.mem_cons_self, hd⟩
      · obtain ⟨d', hd', hcompiles⟩ := ih hrest
        exact ⟨d', List.mem_cons_of_mem _ hd', hcompiles⟩

theorem foldlM_addDefinition_eq
    {plugins : List Plugin} {definitions : List Definition} {routes : List Route}
    (h : List.Forall₂ (Compiles plugins) definitions routes) (start : List Route) :
    definitions.foldlM (fun routes d => d.route plugins >>= addRoute routes) start =
      routes.foldlM addRoute start := by
  induction h generalizing start with
  | nil => rfl
  | @cons d r definitions routes hr hrest ih =>
      have hroute : (d.route plugins >>= addRoute start) = addRoute start r := by
        rw [hr]
        rfl
      rw [List.foldlM_cons, List.foldlM_cons, hroute]
      exact congrArg (addRoute start r >>= ·) (funext ih)

/-- The registration of compiled definitions is that of their routes. -/
theorem register_eq_of_compiles
    {plugins : List Plugin} {definitions : List Definition} {routes : List Route}
    (h : List.Forall₂ (Compiles plugins) definitions routes) :
    register plugins definitions = routes.foldlM addRoute [] :=
  foldlM_addDefinition_eq h []

theorem compiles_of_foldlM_addDefinition
    {plugins : List Plugin} {definitions : List Definition} {start added : List Route}
    (h : definitions.foldlM (fun routes d => d.route plugins >>= addRoute routes) start =
      .ok added) :
    ∃ routes, List.Forall₂ (Compiles plugins) definitions routes := by
  induction definitions generalizing start with
  | nil => exact ⟨[], .nil⟩
  | cons d definitions ih =>
      rw [List.foldlM_cons] at h
      cases hroute : d.route plugins with
      | error e =>
          rw [hroute] at h
          cases h
      | ok r =>
          cases hadd : addRoute start r with
          | error e =>
              rw [hroute] at h
              change (addRoute start r >>= _) = _ at h
              rw [hadd] at h
              cases h
          | ok next =>
              rw [hroute] at h
              change (addRoute start r >>= _) = _ at h
              rw [hadd] at h
              obtain ⟨routes, hroutes⟩ := ih h
              exact ⟨r :: routes, .cons hroute hroutes⟩

/-- Definitions are registered when each of them is compiled and no two of their routes conflict. -/
theorem register_eq_ok_iff
    {plugins : List Plugin} {definitions : List Definition} {routes : List Route} :
    register plugins definitions = .ok routes ↔
      List.Forall₂ (Compiles plugins) definitions routes ∧
        routes.Pairwise fun a b => ¬ a.Conflicts b := by
  constructor
  · intro h
    obtain ⟨compiled, hcompiled⟩ := compiles_of_foldlM_addDefinition h
    rw [register_eq_of_compiles hcompiled, foldlM_addRoute_eq_ok_iff List.Pairwise.nil] at h
    obtain ⟨hpairwise, rfl⟩ := h
    exact ⟨hcompiled, hpairwise⟩
  · rintro ⟨hcompiled, hpairwise⟩
    rw [register_eq_of_compiles hcompiled, foldlM_addRoute_eq_ok_iff List.Pairwise.nil]
    exact ⟨hpairwise, rfl⟩

end RouteTable
end RouteDispatch
