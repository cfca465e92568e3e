import RouteDispatch.Route.Table
import Mathlib.Data.List.Pairwise

/-!
# What a compiled table guarantees

The table compiler may refuse a table, so what it guarantees is a property of every table that it
does not refuse.  `Compiler.Ensures` is that property of one computation, and the lemmas about it
follow the computations of the compiler.  The routes of a compiled table carry the equivalence path
of their segments, no two of them share method, equivalence path and version, and the router is
built from them.
-/

namespace RouteDispatch

namespace Compiler

/-- Every value that the computation gives has the property, whatever the log was before. -/
def Ensures {α : Type} (c : Compiler α) (property : α → Prop) : Prop :=
  ∀ log a, (c.run.run log).1 = .ok a → property a

variable {α β : Type}

theorem ensures_pure {property : α → Prop} {a : α} (h : property a) :
    Ensures (pure a) property := by
  intro log b hb
  have hab : a = b := Except.ok.inj hb
  exact hab ▸ h

theorem ensures_bind
    {c : Compiler α} {f : α → Compiler β} {middle : α → Prop} {property : β → Prop}
    (hc : Ensures c middle) (hf : ∀ a, middle a → Ensures (f a) property) :
    Ensures (c >>= f) property := by
  intro log b hb
  cases hrun : c.run.run log with
  | mk result log' =>
      have hstep : ((c >>= f).run.run log).1 =
          (match result with
            | .ok a => ((f a).run.run log').1
            | .error e => .error e) := by
        simp only [ExceptT.run_bind, StateT.run_bind, hrun]
        cases result with
        | ok a => rfl
        | error e => rfl
      rw [hstep] at hb
      cases result with
      | error e => simp at hb
      | ok a =>
          have ha : middle a := hc log a (by rw [hrun])
          exact hf a ha log' b hb

theorem ensures_check {result : Except BuildError α} {property : α → Prop}
    (h : ∀ a, result = .ok a → property a) :
    Ensures (check result) property := by
  intro log a ha
  cases result with
  | error e => simp [check] at ha
  | ok b =>
      have hba : b = a := Except.ok.inj ha
      exact h a (by rw [hba])

theorem ensures_trivial (c : Compiler α) : Ensures c fun _ => True :=
  fun _ _ _ => trivial

theorem ensures_foldlM_of_mem
    {step : β → α → Compiler β} {property : β → Prop} {inputs : List α}
    (hstep : ∀ b, ∀ a ∈ inputs, property b → Ensures (step b a) property)
    {start : β} (hstart : property start) : Ensures (inputs.foldlM step start) property := by
  induction inputs generalizing start with
  | nil => exact ensures_pure hstart
  | cons a inputs ih =>
      rw [List.foldlM_cons]
      refine ensures_bind (hstep start a List.mem_cons_self hstart) fun b hb => ih ?_ hb
      exact fun b a ha => hstep b a (List.mem_cons_of_mem _ ha)

theorem ensures_foldlM
    {step : β → α → Compiler β} {property : β → Prop}
    (hstep : ∀ b a, property b → Ensures (step b a) property)
    (inputs : List α) {start : β} (hstart : property start) :
    Ensures (inputs.foldlM step start) property :=
  ensures_foldlM_of_mem (fun b a _ => hstep b a) hstart

end Compiler

/-- The equivalence path of the route is the one of its segments. -/
def Route.IsMarked (r : Route) : Prop :=
  r.equivalence = Template.equivalencePath r.segments

/-- The two routes answer the same paths of one method at one version. -/
def Route.Clashes (a b : Route) : Prop :=
  a.method = b.method ∧ a.equivalence = b.equivalence ∧ a.version = b.version

/-- What the compiler has found out about the route: its segments are read from its template, and
its handler takes its parameters. -/
structure Route.IsChecked (r : Route) : Prop where
  parsed : Template.parse r.name r.template r.params = .ok r.segments
  marked : r.IsMarked
  taken : r.handler.check r.params = .ok ()

/-- What a signature is compiled to, and the checks that it has passed. -/
theorem Signature.of_compile
    {s : Signature} {attachments : List Attachment} {handler : Handler} {r : Route}
    (h : s.compile attachments handler = .ok r) :
    firstRepeated [] (s.params.map ParamSpec.name) = none ∧ handler.check s.params = .ok () ∧
      ∃ segments, Template.parse s.name s.path s.params = .ok segments ∧
        r = { name := s.name, method := s.method, version := s.version, template := s.path
              equivalence := Template.equivalencePath segments, segments, params := s.params
              attachments, handler } := by
  unfold Signature.compile at h
  cases hrepeated : firstRepeated [] (s.params.map ParamSpec.name) with
  | some param =>
      rw [hrepeated] at h
      cases h
  | none =>
      rw [hrepeated] at h
      cases htaken : handler.check s.params with
      | error reason =>
          rw [htaken] at h
          cases h
      | ok =>
          rw [htaken] at h
          cases hparse : Template.parse s.name s.path s.params with
          | error e =>
              rw [hparse] at h
              cases h
          | ok segments =>
              rw [hparse] at h
              exact ⟨rfl, rfl, segments, rfl, (Except.ok.inj h).symm⟩

theorem Signature.isChecked_compile
    {s : Signature} {attachments : List Attachment} {handler : Handler} {r : Route}
    (h : s.compile attachments handler = .ok r) : r.IsChecked ∧ r.handler = handler := by
  obtain ⟨-, htaken, segments, hparse, rfl⟩ := Signature.of_compile h
  exact ⟨⟨hparse, rfl, htaken⟩, rfl⟩

namespace RouteTable

/-- Where no route clashes with one behind it, clashing routes are the same. -/
theorem eq_of_clashes_of_pairwise
    {routes : List Route} (h : routes.Pairwise fun a b => ¬ a.Clashes b) {a b : Route}
    (ha : a ∈ routes) (hb : b ∈ routes) (hclash : a.Clashes b) : a = b := by
  have hsymm : Std.Symm fun a b : Route => ¬ a.Clashes b :=
    ⟨fun x y hxy hyx => hxy ⟨hyx.1.symm, hyx.2.1.symm, hyx.2.2.symm⟩⟩
  by_contra hab
  exact h.forall ha hb hab hclash

/-- The routes that a compiler may have collected. -/
structure AreDistinct (routes : List Route) : Prop where
  marked : ∀ r ∈ routes, r.IsMarked
  distinct : routes.Pairwise fun a b => ¬ a.Clashes b

theorem AreDistinct.eq_of_clashes
    {routes : List Route} (h : AreDistinct routes) {a b : Route}
    (ha : a ∈ routes) (hb : b ∈ routes) (hclash : a.Clashes b) : a = b :=
  eq_of_clashes_of_pairwise h.distinct ha hb hclash

theorem AreDistinct.addRoute
    {routes routes' : List Route} {r : Route}
    (h : AreDistinct routes) (hr : r.IsMarked) (hadd : addRoute routes r = .ok routes') :
    AreDistinct routes' := by
  unfold RouteTable.addRoute at hadd
  split at hadd
  · simp at hadd
  · split at hadd
    · simp at hadd
    next hfresh =>
      have hroutes : routes ++ [r] = routes' := by simpa using hadd
      subst hroutes
      refine ⟨?_, ?_⟩
      · intro x hx
        rcases List.mem_append.mp hx with hold | hnew
        · exact h.marked x hold
        · rw [List.mem_singleton.mp hnew]
          exact hr
      · refine List.pairwise_append.mpr ⟨h.distinct, List.pairwise_singleton _ _, ?_⟩
        intro x hx y hy hclash
        rw [List.mem_singleton.mp hy] at hclash
        obtain ⟨hmethod, hequivalence, hversion⟩ := hclash
        have hother := List.find?_eq_none.mp hfresh x hx
        simp [hmethod, hequivalence, hversion] at hother

theorem ensures_compileDefinition (plugins : List Plugin) (d : Definition) :
    (d.compile plugins).Ensures fun r => r.IsChecked ∧ r.handler = d.handler := by
  unfold Definition.compile
  refine Compiler.ensures_bind (Compiler.ensures_trivial _) fun version _ => ?_
  refine Compiler.ensures_bind (Compiler.ensures_trivial _) fun offered _ => ?_
  exact Compiler.ensures_check fun r hr => Signature.isChecked_compile hr

theorem ensures_addDefinition
    (plugins : List Plugin) {routes : List Route} (h : AreDistinct routes) (d : Definition) :
    (addDefinition plugins routes d).Ensures AreDistinct := by
  unfold addDefinition
  refine Compiler.ensures_bind (ensures_compileDefinition plugins d) fun r hr => ?_
  refine Compiler.ensures_bind
    (Compiler.ensures_check fun added hadd => h.addRoute hr.1.marked hadd) fun added hadded => ?_
  refine Compiler.ensures_bind (Compiler.ensures_trivial _) fun _ _ => ?_
  exact Compiler.ensures_pure hadded

theorem ensures_compile (plugins : List Plugin) (definitions : List Definition) :
    (compile plugins definitions).Ensures fun table =>
      AreDistinct table.routes ∧ Router.build table.routes = .ok table.router := by
  unfold compile
  have hnone : AreDistinct [] := ⟨by simp, List.Pairwise.nil⟩
  refine Compiler.ensures_bind
    (Compiler.ensures_foldlM (fun routes d h => ensures_addDefinition plugins h d)
      definitions hnone) fun routes hroutes => ?_
  have hrouted : (Compiler.check (Router.build routes)).Ensures
      fun router => Router.build routes = .ok router :=
    Compiler.ensures_check fun _ hrouter => hrouter
  refine Compiler.ensures_bind hrouted fun router hrouter => ?_
  refine Compiler.ensures_bind (Compiler.ensures_trivial _) fun _ _ => ?_
  exact Compiler.ensures_pure ⟨hroutes, hrouter⟩

/-- The routes of a compiled table are distinct, and its router is the one of its routes. -/
theorem distinct_and_routed_of_build
    {plugins : List Plugin} {definitions : List Definition} {table : RouteTable}
    (h : (build plugins definitions).2 = .ok table) :
    AreDistinct table.routes ∧ Router.build table.routes = .ok table.router :=
  ensures_compile plugins definitions [] table h

end RouteTable
end RouteDispatch
