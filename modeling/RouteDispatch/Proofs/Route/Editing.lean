import RouteDispatch.Proofs.Route.Registration
import RouteDispatch.Proofs.Router.Matching

/-!
# Signatures on their way through the plugins

While a route is compiled, each plugin is offered the signature that the plugin before it has left.
What a plugin makes of it is an edit, and the edits of all plugins lead from the definition to the
final signature.  The compiler accepts an edit unless the plugin declined and left another number of
parameters; the attachments of the route are those of the edits.
-/

namespace RouteDispatch

/-- What a plugin made of the signature that it was offered, and what it keeps if it attached
itself. -/
structure Edit where
  plugin : Plugin
  before : Signature
  after : Signature
  context? : Option PluginContext
  answered : (plugin.bind before).answer = .ok (after, context?)

namespace Edit

/-- How the plugin is attached, with the positions behind the parameters that were there before; a
plugin that declined is not attached. -/
def attachment? (e : Edit) : Option Attachment :=
  e.context?.map fun context =>
    ⟨e.plugin, context, List.range' e.before.params.length
      (e.after.params.length - e.before.params.length)⟩

theorem filterMap_attachment?_cons (e : Edit) (edits : List Edit) :
    (e :: edits).filterMap attachment? = e.attachment?.toList ++ edits.filterMap attachment? := by
  rw [List.filterMap_cons]
  cases e.attachment? with
  | none => rfl
  | some a => rfl

/-- A plugin that declined has left as many parameters as there were. -/
def IsAccepted (e : Edit) : Prop :=
  e.context? = none → e.after.params.length = e.before.params.length

instance (e : Edit) : Decidable e.IsAccepted :=
  inferInstanceAs (Decidable (_ → _))

/-- The edits lead from one signature to another: each starts where the one before it ends. -/
inductive Leads : Signature → List Edit → Signature → Prop
  | nil (s : Signature) : Leads s [] s
  | cons (e : Edit) {edits : List Edit} {t : Signature} :
      Leads e.after edits t → Leads e.before (e :: edits) t

theorem Leads.of_append {s t : Signature} {front behind : List Edit}
    (h : Leads s (front ++ behind) t) : ∃ u, Leads s front u ∧ Leads u behind t := by
  induction front generalizing s with
  | nil => exact ⟨s, .nil s, h⟩
  | cons e front ih =>
      cases h with
      | cons _ hrest =>
          obtain ⟨u, hfront, hbehind⟩ := ih hrest
          exact ⟨u, .cons e hfront, hbehind⟩

/-! ## Offering without the log -/

/-- The step of the compiler at one plugin, without its log. -/
abbrev offer (state : Signature × List Attachment) (p : Plugin) :
    Except BuildError (Signature × List Attachment) :=
  (attachOne state p).result

theorem offer_of_refused
    {s : Signature} {p : Plugin} {error : BuildError} (h : (p.bind s).answer = .error error)
    (attachments : List Attachment) : offer (s, attachments) p = .error error := by
  unfold offer attachOne
  dsimp only
  rw [h]
  rfl

/-- What the compiler makes of an edit. -/
theorem offer_eq (e : Edit) (attachments : List Attachment) :
    offer (e.before, attachments) e.plugin =
      if e.IsAccepted then .ok (e.after, attachments ++ e.attachment?.toList)
      else .error (declinedAddition e.plugin.name e.after.name) := by
  obtain ⟨p, before, after, context?, hanswered⟩ := e
  unfold offer attachOne
  dsimp only
  rw [hanswered]
  simp only [Compiler.check, pure_bind]
  cases context? with
  | some context =>
      have hslots : (List.range (after.params.length - before.params.length)).map
          (· + before.params.length) =
            List.range' before.params.length (after.params.length - before.params.length) := by
        rw [List.range'_eq_map_range]
        exact List.map_congr_left fun i _ => Nat.add_comm i _
      have haccepted : IsAccepted ⟨p, before, after, some context, hanswered⟩ :=
        fun hdeclined => absurd hdeclined (Option.some_ne_none context)
      rw [hslots, if_pos haccepted]
      rfl
  | none =>
      by_cases hlength : after.params.length = before.params.length
      · have haccepted : IsAccepted ⟨p, before, after, none, hanswered⟩ := fun _ => hlength
        rw [if_neg (not_not.mpr hlength), if_pos haccepted]
        exact congrArg (fun kept => Except.ok (after, kept)) (List.append_nil attachments).symm
      · have hrefused : ¬ IsAccepted ⟨p, before, after, none, hanswered⟩ :=
          fun haccepted => hlength (haccepted rfl)
        rw [if_pos hlength, if_neg hrefused]
        rfl

/-- Accepted edits are made one after the other, and all that attach are attached. -/
theorem Leads.foldlM_offer {s t : Signature} {edits : List Edit} (h : Leads s edits t)
    (haccepted : ∀ e ∈ edits, e.IsAccepted) (attachments : List Attachment) :
    (edits.map plugin).foldlM offer (s, attachments) =
      .ok (t, attachments ++ edits.filterMap attachment?) := by
  induction h generalizing attachments with
  | nil s => simp [pure, Except.pure]
  | @cons e edits t _ ih =>
      obtain ⟨hfirst, hrest⟩ := List.forall_mem_cons.mp haccepted
      rw [List.map_cons, List.foldlM_cons, offer_eq, if_pos hfirst]
      refine (ih hrest _).trans ?_
      rw [filterMap_attachment?_cons, List.append_assoc]

theorem exists_leads_of_foldlM_offer
    {plugins : List Plugin} {s t : Signature} {attachments attachments' : List Attachment}
    (h : plugins.foldlM offer (s, attachments) = .ok (t, attachments')) :
    ∃ edits, edits.map plugin = plugins ∧ Leads s edits t ∧ (∀ e ∈ edits, e.IsAccepted) ∧
      attachments' = attachments ++ edits.filterMap attachment? := by
  induction plugins generalizing s attachments with
  | nil =>
      obtain ⟨rfl, rfl⟩ := Prod.mk.inj (Except.ok.inj h)
      exact ⟨[], rfl, .nil s, by simp, by simp⟩
  | cons p plugins ih =>
      rw [List.foldlM_cons] at h
      cases hanswer : (p.bind s).answer with
      | error error =>
          rw [offer_of_refused hanswer] at h
          cases h
      | ok answer =>
          obtain ⟨after, context?⟩ := answer
          let e : Edit := ⟨p, s, after, context?, hanswer⟩
          have hoffer : offer (s, attachments) p = _ := e.offer_eq attachments
          by_cases haccepted : e.IsAccepted
          · rw [hoffer, if_pos haccepted] at h
            obtain ⟨edits, rfl, hleads, hall, rfl⟩ := ih h
            refine ⟨e :: edits, rfl, .cons e hleads, List.forall_mem_cons.mpr ⟨haccepted, hall⟩, ?_⟩
            rw [filterMap_attachment?_cons, List.append_assoc]
          · rw [hoffer, if_neg haccepted] at h
            cases h

end Edit

namespace Definition

/-- The signature that the first plugin is offered. -/
def signature (d : Definition) (version : Nat) : Signature :=
  ⟨d.name, d.method, version, d.path, d.params⟩

/-- The edits lead from the definition to the signature. -/
def IsEdited (d : Definition) (edits : List Edit) (t : Signature) : Prop :=
  ∃ version, versionOf d.name = .ok version ∧ Edit.Leads (d.signature version) edits t

theorem route_eq (plugins : List Plugin) (d : Definition) :
    d.route plugins = (do
      let version ← versionOf d.name
      let state ← plugins.foldlM Edit.offer (d.signature version, [])
      state.1.compile state.2 d.handler) := by
  have hroute : d.route plugins = (d.compile plugins).result := rfl
  unfold Definition.compile at hroute
  rw [hroute, Compiler.result_bind _ fun version => Compiler.isBlind_bind
    (Compiler.isBlind_foldlM isBlind_attachOne _ _) fun state => Compiler.isBlind_check _,
    Compiler.result_check]
  refine congrArg (versionOf d.name >>= ·) (funext fun version => ?_)
  rw [Compiler.result_bind _ fun state => Compiler.isBlind_check _,
    Compiler.result_foldlM isBlind_attachOne]
  simp only [Compiler.result_check]
  rfl

/-- A route is compiled by accepted edits of all plugins, one after the other, and from the
signature and the attachments that they lead to. -/
theorem compiles_iff {plugins : List Plugin} {d : Definition} {r : Route} :
    RouteTable.Compiles plugins d r ↔
      ∃ edits t, edits.map Edit.plugin = plugins ∧ d.IsEdited edits t ∧
        (∀ e ∈ edits, e.IsAccepted) ∧
        t.compile (edits.filterMap Edit.attachment?) d.handler = .ok r := by
  simp only [RouteTable.Compiles, route_eq, Trie.bind_eq_ok_iff]
  constructor
  · rintro ⟨version, hversion, ⟨t, attachments⟩, hoffered, hcompile⟩
    obtain ⟨edits, hplugins, hleads, haccepted, rfl⟩ := Edit.exists_leads_of_foldlM_offer hoffered
    exact ⟨edits, t, hplugins, ⟨version, hversion, hleads⟩, haccepted, hcompile⟩
  · rintro ⟨edits, t, rfl, ⟨version, hversion, hleads⟩, haccepted, hcompile⟩
    exact ⟨version, hversion, _, hleads.foldlM_offer haccepted [], hcompile⟩

/-- A route of which something can be computed is compiled. -/
theorem exists_compiles_of_map
    {α : Type} {plugins : List Plugin} {d : Definition} {f : Route → α} {a : α}
    (h : (d.route plugins).toOption.map f = some a) :
    ∃ r, RouteTable.Compiles plugins d r ∧ f r = a := by
  cases hroute : d.route plugins with
  | error e =>
      rw [hroute] at h
      cases h
  | ok r =>
      rw [hroute] at h
      exact ⟨r, hroute, Option.some.inj h⟩

/-- The first edit that is not accepted refuses the route, whatever plugins are behind. -/
theorem route_eq_error_of_not_isAccepted
    {d : Definition} {front : List Edit} {e : Edit} {t : Signature}
    (h : d.IsEdited (front ++ [e]) t) (hfront : ∀ earlier ∈ front, earlier.IsAccepted)
    (hrefused : ¬ e.IsAccepted) (behind : List Plugin) :
    d.route (front.map Edit.plugin ++ e.plugin :: behind) =
      .error (declinedAddition e.plugin.name e.after.name) := by
  obtain ⟨version, hversion, hleads⟩ := h
  obtain ⟨s, hbefore, hlast⟩ := hleads.of_append
  cases hlast
  have hoffered : (front.map Edit.plugin ++ e.plugin :: behind).foldlM Edit.offer
      (d.signature version, []) = .error (declinedAddition e.plugin.name e.after.name) := by
    rw [List.foldlM_append, hbefore.foldlM_offer hfront]
    change (e.plugin :: behind).foldlM Edit.offer _ = _
    rw [List.foldlM_cons, Edit.offer_eq, if_neg hrefused]
    rfl
  rw [route_eq, hversion]
  change ((front.map Edit.plugin ++ e.plugin :: behind).foldlM Edit.offer _ >>= _) = _
  rw [hoffered]
  rfl

end Definition
end RouteDispatch
