import RouteDispatch.Proofs.Session.Driving

/-!
# A call as a fold over its plugins

The outcome of a call with scripted plugins is a fold: the arguments pass the plugins from the first
to the last, then the handler, and the result passes the plugins from the first to the last.  It
does not matter which stages are deferred, or when in the run their tasks and the task of the
handler are resolved.
-/

namespace RouteDispatch

/-! ## Before the stages -/

/-- Nothing but its own record concerns the call. -/
structure Aspect.IsBlank (a : Aspect) : Prop where
  kept : ∀ t, a.kept t = none
  turns : a.turns = []
  marks : a.marks = []

/-- The call runs, and nothing else concerns it. -/
structure Aspect.IsFresh (a : Aspect) : Prop extends a.IsBlank where
  runs : ∃ view : CallView, view.stage.isTerminal = false ∧ a.footing? = some ⟨view, none, none⟩

namespace Dispatcher

variable (d : Dispatcher) (depth : Nat)

theorem present_take (p : Past) (r : Request) :
    (d.take depth p (.dispatch r)).world.calls[p.world.calls.length]? ≠ none := by
  have hdispatch := ((stable_present p.world.calls.length).serves d depth).upholds.dispatch d r
  have hact : Act.Triple _ (d.act depth (.dispatch r)) _ _ :=
    hdispatch.bind fun _ => Act.Keeps.pure ()
  rcases hact.take (p := p) ⟨by simp, trivial⟩
    with ⟨hpost, -⟩ | ⟨s, hpost | ⟨hfalse, -⟩, -⟩
  · exact hpost
  · exact hpost
  · exact hfalse.elim

/-- Nothing concerns a call that has not been made. -/
theorem isBlank_after
    (table : RouteTable) (steps : List Step) {c : CallId}
    (hnone : (d.after depth table steps).world.calls[c]? = none) :
    ((d.after depth table steps).world.aspect c).IsBlank := by
  have hserves : Act.Serves False (· ≠ c) (fun w => w.calls[c]? = none → (w.aspect c).IsBlank)
      (perform d depth) :=
    .of_aspect (stable_present c) (fun a _ ha _ => { ha with }) (fun a ha => ha.kept) d depth
  induction steps using List.reverseRecOn with
  | nil => exact ⟨fun t => by simp [after, World.aspect], rfl, rfl⟩
  | append_singleton steps step ih =>
      rw [d.after_append depth table steps [step]] at hnone ⊢
      have hother : ∀ r, step = .dispatch r →
          (d.after depth table steps).world.calls.length ≠ c := by
        rintro r rfl rfl
        exact d.present_take depth _ r hnone
      rcases (hserves.upholds.act step).take ⟨ih, hother⟩ with
        ⟨hpost, -⟩ | ⟨s, hpost | ⟨hfalse, -⟩, -⟩
      · exact hpost hnone
      · exact hpost hnone
      · exact hfalse.elim

end Dispatcher

/-! ## Starting the call -/

/-- The call has come to no stage yet. -/
def IsNew (c : CallId) (w : World) : Prop :=
  (w.aspect c).IsFresh

namespace Act

variable {c : CallId}

section Own

theorem write_new {e : Entry} (he : e.marksHandler c = false) :
    Keeps True (IsNew c) (write e) :=
  Triple.of_world fun w hw => Triple.write_last (by simpa [IsNew, he] using hw)

theorem editView_new {g : CallView → CallView} (hg : ∀ v, (g v).stage = v.stage) :
    Keeps True (IsNew c) (editView c g) := by
  refine Triple.of_world fun w hw => Triple.editCall_last ?_
  obtain ⟨view, hterminal, hf⟩ := hw.runs
  rw [IsNew, Aspect.aspect_editCall (fun call => { call with view := g call.view })
    (fun f => { f with view := g f.view }) fun _ => rfl, hf]
  exact ⟨{ hw with }, ⟨g view, by rw [hg]; exact hterminal, rfl⟩⟩

theorem enter_new {stage : Stage} (hstage : stage.isTerminal = false) :
    Keeps True (IsNew c) (enter c stage) := by
  refine Triple.of_world fun w hw => ?_
  obtain ⟨view, hterminal, hf⟩ := hw.runs
  obtain ⟨w', hexec, haspect⟩ := exec_enter hf stage
  refine Triple.of_exec_eq (b := Pure.pure ()) hexec (Triple.done ?_)
  rw [IsNew, haspect]
  exact ⟨{ hw with }, ⟨{ view with stage }, hstage, by simp [hterminal]⟩⟩

theorem calling_new
    {α : Type} {a : Act α} (ha : Keeps True (IsNew c) a) {piece : Piece}
    (hpiece : piece ≠ .handler) : Keeps True (IsNew c) (calling c piece a) := by
  refine ha.tryCatch (fun s => ?_) fun w _ => rfl
  cases s with
  | panic p =>
      refine (write_new ?_).bind fun _ => .throw _
      cases piece <;> simp_all [Entry.marksHandler]
  | tooDeep => exact (Keeps.pure ()).bind fun _ => .throw _

end Own

theorem Keeps.of_guarded
    {α : Type} {lax : Prop} {P : World → Prop} {a : Act α} {w w' : World} {v : α}
    (ha : Keeps lax P a) (hexec : (guarded a).exec w = (.ok (.ok v), w')) (hw : P w) : P w' := by
  have hrun := Triple.guarded ha w hw
  rwa [hexec] at hrun

section Start

variable {d : Dispatcher} {depth : Nat}

theorem serves_new : Serves True (· ≠ c) (IsNew c) (perform d depth) := by
  have hfalse : Stable (fun _ => True) fun _ => False := .of_history fun _ _ _ _ => id
  refine .of_stable (.of_aspect fun a footing ha hnone => ?_) hfalse (fun _ => False.elim) ?_
    d depth
  · obtain ⟨view, -, hf⟩ := ha.runs
    simp [hnone] at hf
  · intro w t cell h hw hcell hhandler
    refine .inr ((Aspect.keptFor_eq_none_iff c).mp ?_ h hhandler)
    simpa [World.aspect, hcell] using hw.kept t

theorem prepare_new (r : Request) (version : Nat) :
    Keeps True (IsNew c) (prepare d c r version) := by
  have hserves : Serves True (· ≠ c) (IsNew c) (perform d 0) := serves_new
  have hmatch : ∀ m, Keeps True (IsNew c) (noteMatch c m) := by
    refine fun m => Keeps.bind (editView_new ?_) fun _ => ?_
    · exact fun _ => rfl
    · exact (enter_new rfl).bind fun _ => Keeps.get fun w _ => write_new rfl
  exact prepare_triple (fun _ => hserves.allows.reportAll fun _ => Trace.isFor_of_mem_report) hmatch
    (fun b => calling_new (liftBinder_triple (fun _ _ => .inl) b) (by decide))
    (fun _ => enter_new rfl) (fun _ _ => id) fun _ _ => id

theorem start_new (r : Request) (version : Nat) (view : CallView) :
    Keeps True (IsNew c) (start (perform d depth) d c r version view) :=
  (write_new rfl).bind fun _ =>
    (calling_new (serves_new.run (holdsFor_none _) _) (by decide)).bind fun id =>
      (editView_new (g := fun v => { v with id }) fun _ => rfl).bind fun _ => prepare_new r version

end Start
end Act

/-! ## Dispatching the call -/

/-- When a call is made of the request, it is matched to the route and bound to the arguments, and
has this view then. -/
def Dispatcher.Binds (d : Dispatcher) (depth : Nat) (w : World) (r : Request) (route : Route)
    (args : Args) (view : CallView) : Prop :=
  let version := r.version.getD d.config.defaultVersion
  let received : CallView :=
    { method := r.method, path := r.path, version, transport := r.transport }
  ∃ w', (Act.guarded (Act.start (perform d depth) d w.calls.length r version received)).exec
      { w with calls := w.calls ++ [{ view := received }] } = (.ok (.ok (.ok (route, args))), w') ∧
    w'.calls[w.calls.length]?.map Call.view = some view

theorem Aspect.IsBlank.isNew
    {w : World} (h : (w.aspect w.calls.length).IsBlank) {view : CallView}
    (hstage : view.stage.isTerminal = false) :
    IsNew w.calls.length { w with calls := w.calls ++ [{ view }] } where
  kept := h.kept
  turns := h.turns
  marks := h.marks
  runs := ⟨view, hstage, by simp [World.aspect, Call.footing, Cell.fresh, Cell.outcome?]⟩

namespace Setting

variable {σ : Setting} {perform : Performer}

/-- A new call comes to its first stage. -/
theorem moving_of_isNew
    {w : World} (h : IsNew σ.call w) (hview : w.calls[σ.call]?.map Call.view = some σ.view)
    {o : Outcome} (ho : o = σ.goal) : σ.Moving true o (w.aspect σ.call) := by
  obtain ⟨view, hterminal, hf⟩ := h.runs
  obtain ⟨call, hcall, hfooting⟩ := Act.exists_call_of_footing hf
  obtain rfl : view = σ.view := by
    have hsame : call.view = view := congrArg Footing.view hfooting
    rw [hcall] at hview
    exact hsame.symm.trans (Option.some.inj hview)
  refine ⟨⟨none, nofun, σ.view.stage, hterminal, hf⟩, h.kept, fun _ => ⟨?_, ?_⟩, ho⟩
  · simp [h.marks]
  · simp [h.turns]

theorem awaitEnd_keeps (hd : σ.Drives perform) (into : TaskId) :
    Act.Keeps True (σ.When σ.State) (Act.awaitEnd perform σ.call into) := by
  refine Act.Triple.of_world fun w hw =>
    Act.awaitEnd_triple into (hd.state.report σ.call into) hw fun w' hlog hturns haspect hsound => ?_
  rw [haspect]
  exact hw (hsound.of_history (hturns ▸ List.Subset.refl _) (hlog ▸ List.prefix_refl _))

/-- When its dispatch has returned, a scripted call is at rest. -/
theorem dispatch_triple
    (hfits : σ.scripts.Fits σ.route) {d : Dispatcher} {depth : Nat} {w : World} {r : Request}
    {args : Args} (hcall : σ.call = w.calls.length) (hblank : (w.aspect σ.call).IsBlank)
    (hbinds : d.Binds depth w r σ.route args σ.view)
    (hgoal : σ.scripts.evaluate σ.replies σ.view σ.route.attachments.length args = σ.goal) :
    Act.Triple (· = w) (Act.dispatch (RouteDispatch.perform d depth) d r) (fun _ => σ.When σ.State)
      fun s w => σ.When σ.State w ∨ (True ∧ s = .tooDeep) := by
  obtain ⟨w', hexec, hview⟩ := hbinds
  have hd := σ.drives hfits d depth
  have hnew : IsNew w.calls.length w' := by
    refine (Act.start_new r _ _).of_guarded hexec ((hcall ▸ hblank).isNew ?_)
    rfl
  rw [← hcall] at hexec hview hnew
  have hmoving : σ.Moving true _ (w'.aspect σ.call) := moving_of_isNew hnew hview hgoal
  rw [Scripts.evaluate_eq] at hmoving
  have hstages := (callStage_spec hd hfits 0 args).weaken (fun _ => id) (fun _ _ => id)
    fun _ _ => And.left
  refine Act.Triple.step (v := σ.call) (by rw [hcall]; rfl) (Act.Triple.step hexec ?_)
  refine Act.Triple.bind (hstages.apply fun _ => hmoving) fun _ => ?_
  exact Act.Keeps.bind hd.state.allows.newTask fun into =>
    (awaitEnd_keeps hd into).bind fun _ => .pure into

end Setting

/-! ## The outcome -/

/-- The tasks that stages of the call were deferred to, and the task of its handler, have been
resolved or given up.  The handler, if it was invoked, has panicked or given a task that had no
consumer. -/
structure World.IsSettled (w : World) (c : CallId) : Prop where
  unkept : ∀ cell ∈ w.cells, ∀ h, cell.handler? = some h → h.call? ≠ some c
  answered : ∀ args, .mark (.invoked c args) ∈ w.log →
    (∃ p, .mark (.escaped c .handler p) ∈ w.log) ∨
      ∃ t p o, p.call = c ∧ (t, .attached (.handled p) o) ∈ w.turns

/-- A scripted call at rest has ended if all its tasks are settled. -/
theorem Setting.State.endOf_eq
    {σ : Setting} {w : World} (h : σ.State (w.aspect σ.call)) (hsettled : w.IsSettled σ.call) :
    endOf w.calls[σ.call]? = some σ.goal := by
  have hunkept : ∀ t k, (w.aspect σ.call).kept t ≠ some k := by
    intro t k hkept
    obtain ⟨cell, hcell, hkept⟩ := Option.bind_eq_some_iff.mp hkept
    obtain ⟨hhandler, hcall⟩ := (Aspect.keptFor_eq_some_iff σ.call).mp hkept
    exact hsettled.unkept cell (List.mem_of_getElem? hcell) k hhandler hcall
  cases h with
  | isOver hover =>
      obtain ⟨f, hf, -, hend | ⟨args, hinvoked, hescaped, hattached⟩⟩ := hover.footing
      · obtain ⟨call, hcall, rfl⟩ := Act.exists_call_of_footing hf
        simpa [endOf, hcall, Call.footing] using hend
      · rcases hsettled.answered args (List.mem_filter.mp hinvoked).1
          with ⟨p, hp⟩ | ⟨t, p, o, hp, hmem⟩
        · exact absurd (List.mem_filter.mpr ⟨hp, by simp [Entry.marksHandler]⟩) (hescaped p)
        · refine absurd (List.mem_filter.mpr ⟨hmem, ?_⟩) (hattached t p o)
          simp [Cell.Turn.bearsOn, Cell.Turn.handler?, Completion.call?, hp]
  | deferred _ kept => exact absurd (by rw [kept]; exact Function.update_self ..) (hunkept _ _)
  | called _ kept => exact absurd (by rw [kept]; exact Function.update_self ..) (hunkept _ _)

namespace Dispatcher

/-- Once the tasks of a call are settled, it has ended with what its scripts come to: a fold over
the plugins with the bound arguments, the handler, and a fold over the plugins with the result.
This is also what comes of scripts that defer no stage. -/
theorem endOf_eq_evaluate
    (d : Dispatcher) (depth : Nat) (table : RouteTable) (steps later : List Step) (r : Request)
    {route : Route} {args : Args} {view : CallView} {s : Scripts} {x : Replies} {c : CallId}
    {p : Past} (hc : c = (d.after depth table steps).world.calls.length)
    (hp : p = d.after depth table (steps ++ .dispatch r :: later))
    (hbinds : d.Binds depth (d.after depth table steps).world r route args view)
    (hfits : s.Fits route) (hdeep : .tooDeep ∉ p.stops) (hagrees : p.world.Agrees c x)
    (horderly : p.world.IsOrderly c) (hsettled : p.world.IsSettled c)
    (hcaptured : .mark (.escaped c .handler .alreadyResolved) ∉ p.world.log) :
    endOf p.world.calls[c]? = some (s.evaluate x view route.attachments.length args) ∧
      s.evaluate x view route.attachments.length args =
        (s.prompt x).evaluate x view route.attachments.length args := by
  let σ : Setting :=
    { call := c, route, view, scripts := s, replies := x
      goal := s.evaluate x view route.attachments.length args }
  refine ⟨?_, (s.evaluate_prompt x view _ args).symm⟩
  have hafter : p = later.foldl (d.take depth)
      (d.take depth (d.after depth table steps) (.dispatch r)) := by
    rw [hp, d.after_append, List.foldl_cons]
  have hblank : ((d.after depth table steps).world.aspect c).IsBlank :=
    d.isBlank_after depth table steps (by simp [hc])
  have hpresent :
      (d.take depth (d.after depth table steps) (.dispatch r)).world.calls[c]? ≠ none := by
    rw [hc]
    exact d.present_take depth _ r
  have hdispatch : Act.Triple _ (d.act depth (.dispatch r)) _ _ :=
    (Setting.dispatch_triple (σ := σ) hfits hc hblank hbinds rfl).bind fun _ => Act.Keeps.pure ()
  rw [hafter] at hdeep hagrees horderly hsettled hcaptured ⊢
  have hfirst : σ.When σ.State (d.take depth (d.after depth table steps) (.dispatch r)).world :=
    hdispatch.take_of_not_tooDeep rfl fun hstop => hdeep (d.stops_subset_foldl depth _ later hstop)
  have hlast := hfirst.foldl_take hfits d depth hpresent later hdeep
  exact (hlast ⟨hagrees, horderly, hcaptured⟩).endOf_eq hsettled

/-- The panics that have left foreign code. -/
def escapes (log : List Entry) : List (CallId × Piece × Panic) :=
  log.filterMap fun e => match e with
    | .mark (.escaped c piece p) => some (c, piece, p)
    | _ => none

theorem mem_escapes {log : List Entry} {c : CallId} {piece : Piece} {p : Panic} :
    (c, piece, p) ∈ escapes log ↔ .mark (.escaped c piece p) ∈ log := by
  rw [escapes, List.mem_filterMap]
  constructor
  · rintro ⟨e, hmem, he⟩
    split at he
    · simp only [Option.some.injEq, Prod.mk.injEq] at he
      obtain ⟨rfl, rfl, rfl⟩ := he
      exact hmem
    · contradiction
  · exact fun hmem => ⟨_, hmem, rfl⟩

/-- Leaves the way to the handler to a task, and puts the result into a list on the way back. -/
def patientPlugin : Plugin :=
  { name := "p"
    bind := Plugin.bindAlways
    modifyCall := fun _ _ args => .create fun g => .entrust g (fun o => match o with
      | .ok _ => .proceed (.args args) .skip
      | .error e => .abort e .skip) .skip
    modifyResult := fun _ _ v => .proceed (.result (.arr [v])) .skip }

def patientScripts : Scripts where
  call _ _ args := .defers fun _ => .proceed args
  result _ _ v := .ends (.proceed (.arr [v]))

theorem patientScripts_fits {route : Route}
    (h : ∀ a ∈ route.attachments, a.plugin = patientPlugin) : patientScripts.Fits route where
  call i a ha view args := by
    rw [h a (List.mem_of_getElem? ha)]
    refine .create fun g => .here (.defers g _ fun o => .here ?_)
    cases o with
    | ok v => exact .proceed _ fun _ => rfl
    | error e => exact .abort e _
  result i a ha view v := by
    rw [h a (List.mem_of_getElem? ha)]
    exact .here (.ends (.proceed _ fun _ => rfl))

/-- The task that the stage was deferred to is resolved, and then the task of the handler. -/
def patientPast : Past :=
  after {} nesting (echoTable [patientPlugin])
    [.dispatch { method := "GET", path := "/echo" }, .code (.settle 0 (.ok .null) fun _ => .skip),
      .code (.settle 2 (.ok (.int 7)) fun _ => .skip)]

theorem binds_patient :
    ∃ route args view, Binds {} nesting { table := echoTable [patientPlugin] }
        { method := "GET", path := "/echo" } route args view ∧
      route.attachments.length = 1 ∧ ∀ a ∈ route.attachments, a.plugin = patientPlugin := by
  have hbinds : ∃ route args view a, Binds {} nesting { table := echoTable [patientPlugin] }
      { method := "GET", path := "/echo" } route args view ∧ route.attachments = [a] ∧
        a.plugin = patientPlugin := by
    with_unfolding_all exact ⟨_, _, _, _, ⟨_, rfl, rfl⟩, rfl, rfl⟩
  obtain ⟨route, args, view, a, hbinds, ha, hplugin⟩ := hbinds
  exact ⟨route, args, view, hbinds, by simp [ha], by simpa [ha] using hplugin⟩

/-- The stage waits and is resolved, the handler waits and is resolved, the call has ended. -/
def arePatient : List (TaskId × Cell.Turn Completion) → Bool
  | [(0, .attached (.resume _ _) none), (0, .settled (.ok .null) (.run (.resume _ _))),
      (2, .attached (.handled p) none), (2, .settled (.ok (.int 7)) (.run (.handled _))),
      (1, .settled (.ok (.arr [.int 7])) .quiet)] => p.call == 0
  | _ => false

theorem turns_patientPast :
    ∃ k f k' f' p p', p.call = 0 ∧ patientPast.world.turns =
      [(0, .attached (.resume k f) none), (0, .settled (.ok .null) (.run (.resume k' f'))),
        (2, .attached (.handled p) none), (2, .settled (.ok (.int 7)) (.run (.handled p'))),
        (1, .settled (.ok (.arr [.int 7])) .quiet)] := by
  have hturns : arePatient patientPast.world.turns = true := by decide +kernel
  unfold arePatient at hturns
  split at hturns
  · next k f k' f' p p' heq => exact ⟨k, f, k', f', p, p', by simpa using hturns, heq⟩
  · contradiction

theorem not_escaped_patientPast (c : CallId) (piece : Piece) (p : Panic) :
    .mark (.escaped c piece p) ∉ patientPast.world.log := by
  have hescapes : escapes patientPast.world.log = [] := by decide +kernel
  simp [← mem_escapes, hescapes]

theorem endOf_patientPast : endOf patientPast.world.calls[0]? = some (.ok (.arr [.int 7])) := by
  obtain ⟨route, args, view, hbinds, hlength, hplugins⟩ := binds_patient
  obtain ⟨k, f, k', f', p, p', hp, hturns⟩ := turns_patientPast
  let x : Replies :=
    { fate := fun _ => some (.ok .null), panicked := fun _ => none
      handled := fun _ => .ok (.int 7) }
  have hagrees : patientPast.world.Agrees 0 x := by
    constructor
    all_goals simp [hturns, not_escaped_patientPast, x]
    · rintro t k f o - - rfl - -
      rfl
    · rintro args t p o - - - rfl -
      rfl
  have horderly : patientPast.world.IsOrderly 0 := by
    constructor
    · rintro ⟨before, e, behind, hlog, -, front, point, q, rfl⟩
      exact not_escaped_patientPast 0 (.plugin point) q (by simp [hlog])
    all_goals simp [hturns, not_escaped_patientPast]
  have hsettled : patientPast.world.IsSettled 0 := by
    have hcells : patientPast.world.cells.all (fun cell => cell.handler?.isNone) = true := by
      decide +kernel
    refine ⟨fun cell hcell h hh => ?_, fun args _ => .inr ⟨2, p, none, hp, by simp [hturns]⟩⟩
    simpa [hh] using List.all_eq_true.mp hcells cell hcell
  have hend := (endOf_eq_evaluate {} nesting (echoTable [patientPlugin]) [] _ _ rfl rfl hbinds
    (patientScripts_fits hplugins) (by decide +kernel) hagrees horderly hsettled
    (not_escaped_patientPast 0 .handler .alreadyResolved)).1
  rw [hlength] at hend
  exact hend

/-- Resolves its task twice. -/
def hastyHandler : Handler :=
  .raw fun _ => .resolved (.ok .null) fun t => .complete t (.ok .null) (.done t)

/-- The table with one route, to which the plugin and the handler belong. -/
def hastyTable : RouteTable :=
  (RouteTable.build [patientPlugin] [⟨"echo", "GET", "/echo", [], hastyHandler⟩]).2.toOption.getD
    .empty

/-- The task that the stage was deferred to is resolved, and the handler panics. -/
def overdonePast : Past :=
  after {} nesting hastyTable
    [.dispatch { method := "GET", path := "/echo" }, .code (.settle 0 (.ok .null) fun _ => .skip)]

/-- The stage waits and is resolved, and the handler has a task that nobody waits for. -/
def areOverdone : List (TaskId × Cell.Turn Completion) → Bool
  | [(0, .attached (.resume _ _) none), (0, .settled (.ok .null) (.run (.resume _ _))),
      (2, .settled (.ok .null) .quiet)] => true
  | _ => false

theorem turns_overdonePast :
    ∃ k f k' f', overdonePast.world.turns =
      [(0, .attached (.resume k f) none), (0, .settled (.ok .null) (.run (.resume k' f'))),
        (2, .settled (.ok .null) .quiet)] := by
  have hturns : areOverdone overdonePast.world.turns = true := by decide +kernel
  unfold areOverdone at hturns
  split at hturns
  · next k f k' f' heq => exact ⟨k, f, k', f', heq⟩
  · contradiction

/-- A second resolution is not a panic that a guard captures: if the handler ends in one, the call
does not end. -/
theorem not_endOf_overdonePast :
    ∃ route args view x, Binds {} nesting { table := hastyTable }
        { method := "GET", path := "/echo" } route args view ∧
      patientScripts.Fits route ∧ .tooDeep ∉ overdonePast.stops ∧
      overdonePast.world.Agrees 0 x ∧ overdonePast.world.IsOrderly 0 ∧
      overdonePast.world.IsSettled 0 ∧
      endOf overdonePast.world.calls[0]? ≠
        some (patientScripts.evaluate x view route.attachments.length args) := by
  have hbinds : ∃ route args view a, Binds {} nesting { table := hastyTable }
      { method := "GET", path := "/echo" } route args view ∧ route.attachments = [a] ∧
        a.plugin = patientPlugin := by
    with_unfolding_all exact ⟨_, _, _, _, ⟨_, rfl, rfl⟩, rfl, rfl⟩
  obtain ⟨route, args, view, a, hbinds, ha, hplugin⟩ := hbinds
  obtain ⟨k, f, k', f', hturns⟩ := turns_overdonePast
  have hescapes : escapes overdonePast.world.log =
      [(0, .handler, .alreadyResolved), (0, .deferred (.call 0), .alreadyResolved)] := by
    decide +kernel
  have hunlost : ∀ point, .mark (.spent 0 point .lost) ∉ overdonePast.world.log := by
    have hlog : overdonePast.world.log.all (fun e => !e.loses 0) = true := by decide +kernel
    intro point hmem
    simpa [Entry.loses] using List.all_eq_true.mp hlog _ hmem
  let x : Replies :=
    { fate := fun _ => some (.ok .null), panicked := fun _ => none
      handled := fun _ => .error Panic.alreadyResolved.failure }
  refine ⟨route, args, view, x, hbinds, patientScripts_fits (by simpa [ha] using hplugin),
    by decide +kernel, ?_, ?_, ⟨?_, ?_⟩, ?_⟩
  · constructor
    all_goals simp [hturns, hunlost, ← mem_escapes, hescapes, x]
    · rintro t k f o - - rfl - -
      rfl
  · constructor
    · rintro ⟨before, e, behind, hlog, -, front, point, q, rfl⟩
      have hmem : (0, .plugin point, q) ∈ escapes overdonePast.world.log :=
        mem_escapes.mpr (by simp [hlog])
      simp [hescapes] at hmem
    all_goals simp [hturns, hunlost]
  · have hcells : overdonePast.world.cells.all (fun cell => cell.handler?.isNone) = true := by
      decide +kernel
    intro cell hcell h hh
    simpa [hh] using List.all_eq_true.mp hcells cell hcell
  · exact fun _ _ => .inl ⟨.alreadyResolved, mem_escapes.mp (by simp [hescapes])⟩
  · have hnone : (endOf overdonePast.world.calls[0]?).isNone = true := by decide +kernel
    rw [Option.isNone_iff_eq_none.mp hnone]
    simp

end Dispatcher
end RouteDispatch
