import RouteDispatch.Proofs.Route.Table
import Mathlib.Data.List.Forall2

/-!
# The routes of a compiled table

The compiler writes a log and never reads it, so what a definition is compiled to depends on the
definition and the plugins alone (`Definition.route`).  A compiled table has the routes of its
definitions, one for each, in their order.
-/

namespace RouteDispatch

namespace Compiler

variable {α β : Type}

/-- What the computation gives is the same whatever the log was before. -/
def IsBlind (c : Compiler α) : Prop :=
  ∀ log log', (c.run.run log).1 = (c.run.run log').1

theorem isBlind_pure (a : α) : IsBlind (pure a : Compiler α) :=
  fun _ _ => rfl

theorem isBlind_throw (e : BuildError) : IsBlind (throw e : Compiler α) :=
  fun _ _ => rfl

theorem isBlind_write (entries : List Entry) : IsBlind (write entries) :=
  fun _ _ => rfl

theorem isBlind_check (result : Except BuildError α) : IsBlind (check result) := by
  cases result with
  | ok a => exact isBlind_pure a
  | error e => exact isBlind_throw e

theorem isBlind_bind
    {c : Compiler α} {f : α → Compiler β} (hc : IsBlind c) (hf : ∀ a, IsBlind (f a)) :
    IsBlind (c >>= f) := by
  intro log log'
  have hstep : ∀ l, ((c >>= f).run.run l).1 =
      match c.run.run l with
      | (.ok a, more) => ((f a).run.run more).1
      | (.error e, _) => .error e := by
    intro l
    simp only [ExceptT.run_bind, StateT.run_bind]
    rcases c.run.run l with ⟨_ | _, _⟩
    · rfl
    · rfl
  have hresult := hc log log'
  rw [hstep, hstep]
  rcases hrun : c.run.run log with ⟨result, more⟩
  rcases hrun' : c.run.run log' with ⟨result', more'⟩
  rw [hrun, hrun'] at hresult
  obtain rfl : result = result' := hresult
  cases result with
  | error e => rfl
  | ok a => exact hf a more more'

theorem isBlind_foldlM
    {step : β → α → Compiler β} (hstep : ∀ b a, IsBlind (step b a)) (inputs : List α) (start : β) :
    IsBlind (inputs.foldlM step start) := by
  induction inputs generalizing start with
  | nil => exact isBlind_pure start
  | cons a inputs ih =>
      rw [List.foldlM_cons]
      exact isBlind_bind (hstep start a) ih

end Compiler

theorem isBlind_attachOne (state : Signature × List Attachment) (plugin : Plugin) :
    (attachOne state plugin).IsBlind := by
  unfold attachOne
  refine Compiler.isBlind_bind (Compiler.isBlind_write _) fun _ => ?_
  refine Compiler.isBlind_bind (Compiler.isBlind_check _) fun answered => ?_
  obtain ⟨signature, answer⟩ := answered
  cases answer with
  | some context => exact Compiler.isBlind_pure _
  | none =>
      dsimp only
      split
      · exact Compiler.isBlind_throw _
      · exact Compiler.isBlind_pure _

/-- Whatever is attached was there before or is the plugin that was offered the route. -/
theorem ensures_attachOne (state : Signature × List Attachment) (plugin : Plugin) :
    (attachOne state plugin).Ensures fun result =>
      ∀ a ∈ result.2, a ∈ state.2 ∨ a.plugin = plugin := by
  unfold attachOne
  refine Compiler.ensures_bind (Compiler.ensures_trivial _) fun _ _ => ?_
  refine Compiler.ensures_bind (Compiler.ensures_trivial _) fun answered _ => ?_
  obtain ⟨signature, answer⟩ := answered
  cases answer with
  | some context =>
      refine Compiler.ensures_pure fun a ha => ?_
      rcases List.mem_append.mp ha with hold | hnew
      · exact .inl hold
      · exact .inr (List.mem_singleton.mp hnew ▸ rfl)
  | none =>
      dsimp only
      split
      · exact fun _ _ h => nomatch h
      · exact Compiler.ensures_pure fun a ha => .inl ha

theorem ensures_attach (plugins : List Plugin) (s : Signature) :
    (plugins.foldlM attachOne (s, [])).Ensures fun offered =>
      ∀ a ∈ offered.2, a.plugin ∈ plugins := by
  refine Compiler.ensures_foldlM_of_mem (fun state plugin hplugin hstate => ?_) (by simp)
  intro log offered hrun a ha
  rcases ensures_attachOne state plugin log offered hrun a ha with hold | hnew
  · exact hstate a hold
  · exact hnew ▸ hplugin

theorem Signature.attachments_of_compile
    {s : Signature} {attachments : List Attachment} {handler : Handler} {r : Route}
    (h : s.compile attachments handler = .ok r) : r.attachments = attachments := by
  obtain ⟨-, -, segments, -, rfl⟩ := Signature.of_compile h
  rfl

theorem Signature.params_of_compile
    {s : Signature} {attachments : List Attachment} {handler : Handler} {r : Route}
    (h : s.compile attachments handler = .ok r) : r.params = s.params := by
  obtain ⟨-, -, segments, -, rfl⟩ := Signature.of_compile h
  rfl

namespace Definition

/-- What the definition is compiled to. -/
def route (plugins : List Plugin) (d : Definition) : Except BuildError Route :=
  ((d.compile plugins).run.run []).1

theorem isBlind_compile (plugins : List Plugin) (d : Definition) :
    (d.compile plugins).IsBlind := by
  unfold Definition.compile
  refine Compiler.isBlind_bind (Compiler.isBlind_check _) fun version => ?_
  refine Compiler.isBlind_bind (Compiler.isBlind_foldlM isBlind_attachOne _ _) fun offered => ?_
  exact Compiler.isBlind_check _

theorem ensures_route (plugins : List Plugin) (d : Definition) :
    (d.compile plugins).Ensures fun r => d.route plugins = .ok r :=
  fun log _ hr => (d.isBlind_compile plugins [] log).trans hr

end Definition

/-! ## Names of parameters -/

/-- Where the search for a repeated name finds none, the names are distinct and new. -/
theorem nodup_of_firstRepeated
    {seen names : List String} (h : firstRepeated seen names = none) :
    names.Nodup ∧ ∀ name ∈ names, name ∉ seen := by
  induction names generalizing seen with
  | nil => simp
  | cons name rest ih =>
      unfold firstRepeated at h
      split at h
      · simp at h
      next hnew =>
        obtain ⟨hnodup, hrest⟩ := ih h
        refine ⟨List.nodup_cons.mpr ⟨fun hmem => ?_, hnodup⟩, ?_⟩
        · exact hrest name hmem List.mem_cons_self
        · intro other hother
          rcases List.mem_cons.mp hother with rfl | hbehind
          · simpa using hnew
          · exact fun hseen => hrest other hbehind (List.mem_cons_of_mem _ hseen)

theorem Signature.nodup_names_of_compile
    {s : Signature} {attachments : List Attachment} {handler : Handler} {r : Route}
    (h : s.compile attachments handler = .ok r) : (r.params.map ParamSpec.name).Nodup := by
  rw [Signature.params_of_compile h]
  exact (nodup_of_firstRepeated (Signature.of_compile h).1).1

namespace RouteTable

theorem eq_append_of_addRoute
    {routes routes' : List Route} {r : Route} (h : addRoute routes r = .ok routes') :
    routes' = routes ++ [r] := by
  unfold addRoute at h
  split at h
  · simp at h
  · split at h
    · simp at h
    · simpa using h.symm

/-- The definition is compiled to the route. -/
abbrev Compiles (plugins : List Plugin) (d : Definition) (r : Route) : Prop :=
  d.route plugins = .ok r

theorem ensures_compiles
    (plugins : List Plugin) (definitions : List Definition) (start : List Route) :
    (definitions.foldlM (addDefinition plugins) start).Ensures fun routes =>
      ∃ added, routes = start ++ added ∧ List.Forall₂ (Compiles plugins) definitions added := by
  induction definitions generalizing start with
  | nil => exact Compiler.ensures_pure ⟨[], by simp, .nil⟩
  | cons d definitions ih =>
      rw [List.foldlM_cons]
      have hadd : (addDefinition plugins start d).Ensures fun routes =>
          ∃ r, routes = start ++ [r] ∧ Compiles plugins d r := by
        unfold addDefinition
        refine Compiler.ensures_bind (d.ensures_route plugins) fun r hr => ?_
        refine Compiler.ensures_bind (Compiler.ensures_check
          fun routes hroutes => eq_append_of_addRoute hroutes) fun routes hroutes => ?_
        refine Compiler.ensures_bind (Compiler.ensures_trivial _) fun _ _ => ?_
        exact Compiler.ensures_pure ⟨r, hroutes, hr⟩
      refine Compiler.ensures_bind hadd ?_
      rintro _ ⟨r, rfl, hr⟩ log routes hrun
      obtain ⟨added, rfl, hadded⟩ := ih (start ++ [r]) log routes hrun
      exact ⟨r :: added, by simp, .cons hr hadded⟩

/-- A compiled table has the routes that its definitions are compiled to, in their order. -/
theorem compiles_of_build
    {plugins : List Plugin} {definitions : List Definition} {table : RouteTable}
    (h : (build plugins definitions).2 = .ok table) :
    List.Forall₂ (Compiles plugins) definitions table.routes := by
  have hcompile : (compile plugins definitions).Ensures fun table =>
      List.Forall₂ (Compiles plugins) definitions table.routes := by
    unfold compile
    refine Compiler.ensures_bind (ensures_compiles plugins definitions []) ?_
    rintro _ ⟨routes, rfl, hroutes⟩
    refine Compiler.ensures_bind (Compiler.ensures_trivial _) fun router _ => ?_
    refine Compiler.ensures_bind (Compiler.ensures_trivial _) fun _ _ => ?_
    exact Compiler.ensures_pure hroutes
  exact hcompile [] table h

/-- What a definition is compiled to has passed the checks of the compiler and keeps the handler. -/
theorem isChecked_of_compiles
    {plugins : List Plugin} {d : Definition} {r : Route} (h : Compiles plugins d r) :
    r.IsChecked ∧ r.handler = d.handler :=
  ensures_compileDefinition plugins d [] r h

/-- All attachments of what a definition is compiled to are those of the plugins. -/
theorem mem_plugins_of_compiles
    {plugins : List Plugin} {d : Definition} {r : Route} (h : Compiles plugins d r) :
    ∀ a ∈ r.attachments, a.plugin ∈ plugins := by
  have hcompile : (d.compile plugins).Ensures fun r => ∀ a ∈ r.attachments, a.plugin ∈ plugins := by
    unfold Definition.compile
    refine Compiler.ensures_bind (Compiler.ensures_trivial _) fun version _ => ?_
    refine Compiler.ensures_bind (ensures_attach plugins _) fun offered hoffered => ?_
    refine Compiler.ensures_check fun r hr => ?_
    rwa [Signature.attachments_of_compile hr]
  exact hcompile [] r h

/-- What holds of everything that a signature compiles to holds of the routes of a compiled
table. -/
theorem of_signature_of_build
    {property : Route → Prop}
    (hproperty : ∀ (s : Signature) (attachments : List Attachment) (handler : Handler) (r : Route),
      s.compile attachments handler = .ok r → property r)
    {plugins : List Plugin} {definitions : List Definition} {table : RouteTable}
    (h : (build plugins definitions).2 = .ok table) {r : Route} (hr : r ∈ table.routes) :
    property r := by
  have hdefinition : ∀ d : Definition, (d.compile plugins).Ensures property := by
    intro d
    unfold Definition.compile
    refine Compiler.ensures_bind (Compiler.ensures_trivial _) fun version _ => ?_
    refine Compiler.ensures_bind (Compiler.ensures_trivial _) fun offered _ => ?_
    exact Compiler.ensures_check fun r hr => hproperty _ _ _ r hr
  obtain ⟨i, hi, rfl⟩ := List.getElem_of_mem hr
  have hcompiles := compiles_of_build h
  have hi' : i < definitions.length := by rw [hcompiles.length_eq]; exact hi
  exact hdefinition _ [] _ (hcompiles.get hi' hi)

/-- Every route of a compiled table has passed the checks of the compiler. -/
theorem isChecked_of_build
    {plugins : List Plugin} {definitions : List Definition} {table : RouteTable}
    (h : (build plugins definitions).2 = .ok table) {r : Route} (hr : r ∈ table.routes) :
    r.IsChecked :=
  of_signature_of_build (fun _ _ _ _ hcompile => (Signature.isChecked_compile hcompile).1) h hr

/-- No two parameters of a route of a compiled table have one name. -/
theorem nodup_names_of_build
    {plugins : List Plugin} {definitions : List Definition} {table : RouteTable}
    (h : (build plugins definitions).2 = .ok table) {r : Route} (hr : r ∈ table.routes) :
    (r.params.map ParamSpec.name).Nodup :=
  of_signature_of_build (fun _ _ _ _ hcompile => Signature.nodup_names_of_compile hcompile) h hr

end RouteTable
end RouteDispatch
