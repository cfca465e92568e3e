import RouteDispatch.Proofs.Route.Editing

/-!
# Slots

The slots of an attached plugin are the positions of the parameters that it added.  Plugins that do
nothing to the parameters but append to them share the positions behind the declared parameters out
among them, in their order and without a gap, and what a plugin added stays at its slots.
-/

namespace RouteDispatch

/-- The plugin leaves the parameters that it is offered as they are and may append others; it may do
anything to the rest of a signature. -/
def Plugin.Appends (p : Plugin) : Prop :=
  ∀ s t context?, (p.bind s).answer = .ok (t, context?) → s.params <+: t.params

namespace Edit

/-- The parameters behind as many as there were before. -/
def added (e : Edit) : List ParamSpec :=
  e.after.params.drop e.before.params.length

theorem params_eq {e : Edit} (h : e.plugin.Appends) :
    e.after.params = e.before.params ++ e.added :=
  (List.prefix_iff_eq_append.mp (h _ _ _ e.answered)).symm

theorem params_eq_of_declined {e : Edit} (h : e.plugin.Appends) (haccepted : e.IsAccepted)
    (hdeclined : e.context? = none) : e.after.params = e.before.params :=
  ((h _ _ _ e.answered).eq_of_length (haccepted hdeclined).symm).symm

/-- An accepted edit has a slot for each position behind the parameters that were there before. -/
theorem flatMap_slots {e : Edit} (haccepted : e.IsAccepted) :
    e.attachment?.toList.flatMap Attachment.slots =
      List.range' e.before.params.length (e.after.params.length - e.before.params.length) := by
  cases hcontext : e.context? with
  | none => simp [attachment?, hcontext, haccepted hcontext]
  | some context => simp [attachment?, hcontext]

namespace Leads

variable {s t : Signature} {edits : List Edit}

theorem params_prefix (h : Leads s edits t) (happends : ∀ e ∈ edits, e.plugin.Appends) :
    s.params <+: t.params := by
  induction h with
  | nil s => exact List.prefix_refl _
  | cons e _ ih =>
      obtain ⟨hfirst, hrest⟩ := List.forall_mem_cons.mp happends
      exact (hfirst _ _ _ e.answered).trans (ih hrest)

/-- The slots of all attachments, one after the other, are the positions behind the parameters that
were there at first. -/
theorem flatMap_slots (h : Leads s edits t) (happends : ∀ e ∈ edits, e.plugin.Appends)
    (haccepted : ∀ e ∈ edits, e.IsAccepted) :
    (edits.filterMap attachment?).flatMap Attachment.slots =
      List.range' s.params.length (t.params.length - s.params.length) := by
  induction h with
  | nil s => simp
  | @cons e edits t hrest ih =>
      obtain ⟨hfirst, hothers⟩ := List.forall_mem_cons.mp happends
      obtain ⟨hkept, hkeptOthers⟩ := List.forall_mem_cons.mp haccepted
      obtain ⟨new, hnew⟩ := Nat.exists_eq_add_of_le (hfirst _ _ _ e.answered).length_le
      obtain ⟨rest, hlast⟩ := Nat.exists_eq_add_of_le (hrest.params_prefix hothers).length_le
      rw [filterMap_attachment?_cons, List.flatMap_append, e.flatMap_slots hkept,
        ih hothers hkeptOthers, hlast, hnew, Nat.add_sub_cancel_left, Nat.add_sub_cancel_left,
        List.range'_append_1, Nat.add_assoc, Nat.add_sub_cancel_left]

/-- What a plugin added stays where it is. -/
theorem params_split (h : Leads s edits t) (happends : ∀ e ∈ edits, e.plugin.Appends) :
    ∀ e ∈ edits, e.before.params ++ e.added <+: t.params := by
  induction h with
  | nil s => simp
  | @cons e edits t hrest ih =>
      obtain ⟨hfirst, hothers⟩ := List.forall_mem_cons.mp happends
      refine List.forall_mem_cons.mpr ⟨?_, ih hothers⟩
      rw [← params_eq hfirst]
      exact hrest.params_prefix hothers

end Leads

/-- The slots of an attachment denote the parameters that its plugin added. -/
theorem map_slots {e : Edit} {a : Attachment} (h : e.attachment? = some a)
    {params : List ParamSpec} (happends : e.plugin.Appends)
    (hparams : e.before.params ++ e.added <+: params) :
    a.slots.map (params[·]?) = e.added.map some := by
  obtain ⟨context, -, rfl⟩ := Option.map_eq_some_iff.mp h
  obtain ⟨behind, rfl⟩ := hparams
  have hlength : e.after.params.length - e.before.params.length = e.added.length := by
    rw [params_eq happends, List.length_append, Nat.add_sub_cancel_left]
  dsimp only
  rw [hlength]
  refine List.ext_getElem (by simp) fun i hi hi' => ?_
  have hadded : i < e.added.length := by simpa using hi'
  rw [List.getElem_map, List.getElem_map, List.getElem_range', Nat.one_mul, List.append_assoc,
    List.getElem?_append_right (Nat.le_add_right _ _), Nat.add_sub_cancel_left,
    List.getElem?_append_left hadded, List.getElem?_eq_getElem hadded]

end Edit

namespace RouteTable

/-- Under plugins that do nothing to the parameters but append, the attachments of a compiled route
are those of the plugins that did not decline, in order; the declared parameters stay in front; and
the slots of the attachments, one after the other, are the positions behind them.  The slots of a
plugin denote the parameters that it added. -/
theorem slots_partition_of_appends
    {plugins : List Plugin} {d : Definition} {r : Route}
    (happends : ∀ p ∈ plugins, p.Appends) (h : Compiles plugins d r) :
    ∃ edits t, edits.map Edit.plugin = plugins ∧ d.IsEdited edits t ∧
      r.params = t.params ∧ r.attachments = edits.filterMap Edit.attachment? ∧
      d.params <+: r.params ∧
      r.attachments.flatMap Attachment.slots =
        List.range' d.params.length (r.params.length - d.params.length) ∧
      ∀ e ∈ edits,
        (e.context? = none → e.after.params = e.before.params) ∧
        ∀ a, e.attachment? = some a →
          e.after.params = e.before.params ++ e.added ∧
          a.slots.map (r.params[·]?) = e.added.map some := by
  obtain ⟨edits, t, rfl, hedited, haccepted, hcompile⟩ := Definition.compiles_iff.mp h
  have hall : ∀ e ∈ edits, e.plugin.Appends := fun e he => happends _ (List.mem_map_of_mem he)
  have hparams := Signature.params_of_compile hcompile
  have hattachments := Signature.attachments_of_compile hcompile
  have ⟨_, _, hleads⟩ := hedited
  refine ⟨edits, t, rfl, hedited, hparams, hattachments, ?_, ?_, fun e he => ⟨?_, ?_⟩⟩
  · rw [hparams]
    exact hleads.params_prefix hall
  · rw [hparams, hattachments]
    exact hleads.flatMap_slots hall haccepted
  · exact Edit.params_eq_of_declined (hall e he) (haccepted e he)
  · intro a ha
    rw [hparams]
    exact ⟨Edit.params_eq (hall e he), Edit.map_slots ha (hall e he) (hleads.params_split hall e he)⟩

/-- Puts a piece in front of the path and some parameters behind the others. -/
def extendingPlugin (name front : String) (added : List ParamSpec) : Plugin where
  name
  bind s := ⟨[], .ok
    ({ s with path := Template.prepend front s.path, params := s.params ++ added }, some none)⟩
  modifyCall := Plugin.passCall
  modifyResult := Plugin.passResult

/-- Declines every route as it is. -/
def silentPlugin : Plugin where
  name := "silent"
  bind s := ⟨[], .ok (s, none)⟩
  modifyCall := Plugin.passCall
  modifyResult := Plugin.passResult

theorem appends_extendingPlugin (name front : String) (added : List ParamSpec) :
    (extendingPlugin name front added).Appends := by
  rintro s t context? h
  obtain ⟨rfl, -⟩ := Prod.mk.inj (Except.ok.inj h)
  exact List.prefix_append _ _

theorem appends_silentPlugin : silentPlugin.Appends := by
  rintro s t context? h
  obtain ⟨rfl, -⟩ := Prod.mk.inj (Except.ok.inj h)
  exact List.prefix_refl _

/-- Two plugins that append, with one between them that declines. -/
def tenantPlugins : List Plugin :=
  [extendingPlugin "tenancy" "/:tenant" [.path "tenant" .string, .injected "user" .long],
    silentPlugin, extendingPlugin "paging" "" [.query "limit" .int]]

def teamDefinition : Definition :=
  ⟨"team", "GET", "/teams/:id", [.path "id" .int], .raw fun _ => .create fun t => .done t⟩

/-- The first plugin gets two slots and the last one gets one. -/
theorem slots_partition_team :
    ∃ r, (∀ p ∈ tenantPlugins, p.Appends) ∧ Compiles tenantPlugins teamDefinition r ∧
      r.attachments.map Attachment.slots = [[1, 2], [3]] ∧
      ∃ edits t, edits.map Edit.plugin = tenantPlugins ∧ teamDefinition.IsEdited edits t ∧
        r.params = t.params ∧ r.attachments = edits.filterMap Edit.attachment? ∧
        teamDefinition.params <+: r.params ∧
        r.attachments.flatMap Attachment.slots = List.range' teamDefinition.params.length
          (r.params.length - teamDefinition.params.length) ∧
        ∀ e ∈ edits,
          (e.context? = none → e.after.params = e.before.params) ∧
          ∀ a, e.attachment? = some a →
            e.after.params = e.before.params ++ e.added ∧
            a.slots.map (r.params[·]?) = e.added.map some := by
  have happends : ∀ p ∈ tenantPlugins, p.Appends := by
    refine List.forall_mem_cons.mpr ⟨appends_extendingPlugin _ _ _, ?_⟩
    refine List.forall_mem_cons.mpr ⟨appends_silentPlugin, ?_⟩
    exact List.forall_mem_singleton.mpr (appends_extendingPlugin _ _ _)
  have hslots : ((teamDefinition.route tenantPlugins).toOption.map fun r =>
      r.attachments.map Attachment.slots) = some [[1, 2], [3]] := by
    decide +kernel
  obtain ⟨r, hroute, hr⟩ := Definition.exists_compiles_of_map hslots
  exact ⟨r, happends, hroute, hr, slots_partition_of_appends happends hroute⟩

end RouteTable
end RouteDispatch
