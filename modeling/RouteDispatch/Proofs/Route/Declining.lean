import RouteDispatch.Proofs.Route.Slots

/-!
# Plugins that decline

A plugin that declines a route is to leave its parameters alone, and the compiler refuses the route
when their number is another one.  It looks at nothing but the number.  A plugin that takes out as
many parameters as it puts in is not noticed: its parameters are compiled into the route, and no
attachment accounts for them.
-/

namespace RouteDispatch

namespace Edit

/-- The plugin put the parameter among the others. -/
def Puts (e : Edit) (spec : ParamSpec) : Prop :=
  spec ∈ e.after.params ∧ spec ∉ e.before.params

/-- The plugin left as many parameters as there were, but other ones or in another order. -/
def Exchanges (e : Edit) : Prop :=
  e.after.params.length = e.before.params.length ∧ e.after.params ≠ e.before.params

/-- The plugin only put parameters in, or it only took some out. -/
def IsOneSided (e : Edit) : Prop :=
  e.before.params.Sublist e.after.params ∨ e.after.params.Sublist e.before.params

/-- The number of the parameters gives every change away that only puts in or only takes out. -/
theorem params_eq_iff_isOneSided {e : Edit}
    (hlength : e.after.params.length = e.before.params.length) :
    e.after.params = e.before.params ↔ e.IsOneSided := by
  constructor
  · intro hsame
    exact .inl (hsame ▸ List.Sublist.refl _)
  · rintro (hgrown | hshrunk)
    · exact (hgrown.eq_of_length hlength.symm).symm
    · exact hshrunk.eq_of_length hlength

/-- A parameter that was not there at first was put there by one of the plugins. -/
theorem Leads.exists_puts {s t : Signature} {edits : List Edit} (h : Leads s edits t)
    {spec : ParamSpec} (hspec : spec ∈ t.params) (hnew : spec ∉ s.params) :
    ∃ e ∈ edits, e.Puts spec := by
  induction h with
  | nil s => exact absurd hspec hnew
  | cons e _ ih =>
      by_cases hafter : spec ∈ e.after.params
      · exact ⟨e, List.mem_cons_self, hafter, hnew⟩
      · obtain ⟨later, hlater, hputs⟩ := ih hspec hafter
        exact ⟨later, List.mem_cons_of_mem _ hlater, hputs⟩

/-- A plugin whose edit is accepted attached itself, or what it put in came in exchange. -/
theorem attached_or_exchanges {e : Edit} (haccepted : e.IsAccepted) {spec : ParamSpec}
    (hputs : e.Puts spec) :
    (∃ a, e.attachment? = some a) ∨ e.context? = none ∧ e.Exchanges := by
  cases hcontext : e.context? with
  | some context => exact .inl ⟨_, by rw [attachment?, hcontext, Option.map_some]⟩
  | none =>
      refine .inr ⟨rfl, haccepted hcontext, fun hsame => hputs.2 ?_⟩
      exact hsame ▸ hputs.1

end Edit

namespace RouteTable

/-- A plugin that declines and leaves another number of parameters refuses the route.  So a plugin
that declined a compiled route left its parameters as they were unless it exchanged some, and a
parameter that is not from the definition was put there by an attached plugin or by one that
declined and exchanged it. -/
theorem params_of_declined (plugins : List Plugin) (d : Definition) :
    (∀ front e t behind, plugins = front.map Edit.plugin ++ e.plugin :: behind →
      d.IsEdited (front ++ [e]) t → (∀ earlier ∈ front, earlier.IsAccepted) →
      e.context? = none → e.after.params.length ≠ e.before.params.length →
      d.route plugins = .error (declinedAddition e.plugin.name e.after.name)) ∧
    ∀ r, Compiles plugins d r →
      ∃ edits t, edits.map Edit.plugin = plugins ∧ d.IsEdited edits t ∧
        r.params = t.params ∧ r.attachments = edits.filterMap Edit.attachment? ∧
        (∀ e ∈ edits, e.context? = none →
          e.after.params.length = e.before.params.length ∧
          (e.after.params = e.before.params ↔ e.IsOneSided)) ∧
        ∀ spec ∈ r.params, spec ∉ d.params →
          ∃ e ∈ edits, e.Puts spec ∧
            ((∃ a ∈ r.attachments, e.attachment? = some a) ∨ e.context? = none ∧ e.Exchanges) := by
  refine ⟨?_, fun r h => ?_⟩
  · rintro front e t behind rfl hedited hfront hdeclined hlength
    exact d.route_eq_error_of_not_isAccepted hedited hfront
      (fun haccepted => hlength (haccepted hdeclined)) behind
  · obtain ⟨edits, t, rfl, hedited, haccepted, hcompile⟩ := Definition.compiles_iff.mp h
    have hparams := Signature.params_of_compile hcompile
    have hattachments := Signature.attachments_of_compile hcompile
    have ⟨_, _, hleads⟩ := hedited
    refine ⟨edits, t, rfl, hedited, hparams, hattachments, fun e he hdeclined => ?_, ?_⟩
    · have hlength := haccepted e he hdeclined
      exact ⟨hlength, Edit.params_eq_iff_isOneSided hlength⟩
    · intro spec hspec hnew
      obtain ⟨e, he, hputs⟩ := hleads.exists_puts (hparams ▸ hspec) hnew
      refine ⟨e, he, hputs, (Edit.attached_or_exchanges (haccepted e he) hputs).imp_left ?_⟩
      rintro ⟨a, ha⟩
      exact ⟨a, hattachments ▸ List.mem_filterMap.mpr ⟨e, he, ha⟩, ha⟩

/-- Declines every route and leaves a parameter behind. -/
def litteringPlugin : Plugin where
  name := "littering"
  bind s := ⟨[], .ok (s.addParam (.query "y" .int), none)⟩
  modifyCall := Plugin.passCall
  modifyResult := Plugin.passResult

/-- A plugin that only adds is noticed behind any other, and one that leaves a route alone may
decline it. -/
theorem params_of_declined_team :
    teamDefinition.route [silentPlugin, litteringPlugin] =
      .error (declinedAddition "littering" "team") ∧
    ∃ r, Compiles tenantPlugins teamDefinition r ∧ r.attachments.length = 2 ∧
      ∃ edits t, edits.map Edit.plugin = tenantPlugins ∧ teamDefinition.IsEdited edits t ∧
        r.params = t.params ∧ r.attachments = edits.filterMap Edit.attachment? ∧
        (∀ e ∈ edits, e.context? = none →
          e.after.params.length = e.before.params.length ∧
          (e.after.params = e.before.params ↔ e.IsOneSided)) ∧
        ∀ spec ∈ r.params, spec ∉ teamDefinition.params →
          ∃ e ∈ edits, e.Puts spec ∧
            ((∃ a ∈ r.attachments, e.attachment? = some a) ∨
              e.context? = none ∧ e.Exchanges) := by
  constructor
  · let kept : Edit := ⟨silentPlugin, teamDefinition.signature 0, _, _, rfl⟩
    let littered : Edit := ⟨litteringPlugin, teamDefinition.signature 0, _, _, rfl⟩
    have hversion : versionOf teamDefinition.name = .ok 0 := by decide +kernel
    refine (params_of_declined [silentPlugin, litteringPlugin] teamDefinition).1 [kept] littered
      littered.after [] rfl ⟨0, hversion, ?_⟩ ?_ rfl (by decide)
    · exact .cons kept (.cons littered (.nil _))
    · exact List.forall_mem_singleton.mpr fun _ => rfl
  · have hcount : ((teamDefinition.route tenantPlugins).toOption.map fun r =>
        r.attachments.length) = some 2 := by
      decide +kernel
    obtain ⟨r, hroute, hr⟩ := Definition.exists_compiles_of_map hcount
    exact ⟨r, hroute, hr, (params_of_declined tenantPlugins teamDefinition).2 r hroute⟩

/-- Declines every route and puts one parameter in the place of all others. -/
def swappingPlugin : Plugin where
  name := "swap"
  bind s := ⟨[], .ok ({ s with params := [.query "y" .int] }, none)⟩
  modifyCall := Plugin.passCall
  modifyResult := Plugin.passResult

def landingDefinition : Definition :=
  ⟨"home", "GET", "/home", [.query "x" .int], .raw fun _ => .create fun t => .done t⟩

/-- The compiler accepts a parameter that no attached plugin put there, of a plugin that declined and
put it in the place of another. -/
theorem exchanged_landing :
    ∃ r e, Compiles [swappingPlugin] landingDefinition r ∧
      e.plugin = swappingPlugin ∧ landingDefinition.IsEdited [e] e.after ∧ e.context? = none ∧
      e.after.params ≠ e.before.params ∧ landingDefinition.params = [.query "x" .int] ∧
      r.params = [.query "y" .int] ∧ e.Puts (.query "y" .int) ∧ r.attachments = [] := by
  have hcompiled : ((landingDefinition.route [swappingPlugin]).toOption.map fun r =>
      (r.params, r.attachments.length)) = some ([ParamSpec.query "y" .int], 0) := by
    decide +kernel
  have hversion : versionOf landingDefinition.name = .ok 0 := by decide +kernel
  let e : Edit := ⟨swappingPlugin, landingDefinition.signature 0, _, _, rfl⟩
  obtain ⟨r, hroute, hr⟩ := Definition.exists_compiles_of_map hcompiled
  obtain ⟨hparams, hnone⟩ := Prod.mk.inj hr
  exact ⟨r, e, hroute, rfl, ⟨0, hversion, .cons e (.nil _)⟩, rfl, by decide, rfl, hparams,
    ⟨by decide, by decide⟩, List.eq_nil_of_length_eq_zero hnone⟩

end RouteTable
end RouteDispatch
