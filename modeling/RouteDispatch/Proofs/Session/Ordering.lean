import RouteDispatch.Proofs.Session.Folding
import RouteDispatch.Proofs.Session.Journey

/-!
# Stages come in order

Whatever its plugins and its handler do, and in whatever order tasks are resolved, a call passes its
stops in the order of the plan: none is begun twice, and none is begun before the one in front of it
has been passed.  The stages that it enters are those of the itinerary, up to one at which it may
fail.  This holds of the log after every run.
-/

namespace RouteDispatch

open Track

variable {c : CallId} {n : Nat}

/-! ## Turns of the task that waits -/

/-- A completion handler of the call that has its turn finds the call at the stop where it was left. -/
theorem Track.IsAtRest.turned
    {w : World} {t : TaskId} {cell cell' : Cell Completion} {h : Completion}
    (hw : (w.track c).IsAtRest c n) (hcell : w.cells[t]? = some cell)
    (hhandler : cell.handler? = some h) (hother : ¬ h.IsFor (· ≠ c))
    (hafter : cell'.handler? = none) (turn : Cell.Turn Completion) :
    ∃ j, h.Resumes c n j ∧ ((w.turn t turn cell').track c).Begun n j := by
  have hkept : (w.track c).kept t = some h := by
    have := (Aspect.keptFor_eq_some_iff c).mpr ⟨hhandler, Completion.call?_of_not_isFor hother⟩
    simpa [World.track, World.aspect, hcell] using this
  cases hw with
  | loose reaches loose => simp [loose.unkept t] at hkept
  | @waiting k j task f reaches away resumes kept =>
      rw [kept] at hkept
      by_cases ht : t = task
      · subst ht
        obtain rfl : k = h := by simpa using hkept
        refine ⟨j, resumes, f, ?_, away, fun u => ?_⟩
        · exact reaches.of_eq reaches.footing rfl rfl rfl rfl
        · rw [track_turn (List.getElem?_eq_some_iff.mp hcell).1, kept,
            Setting.keptFor_of_handler?_eq_none hafter]
          simp [Function.update_idem]
      · rw [Function.update_of_ne ht] at hkept
        contradiction

namespace Act

/-! ## Jobs -/

theorem serves_of_unkept (d : Dispatcher) (depth : Nat) {Q : Track → Prop}
    (hQ : ∀ t, Q t → t.footing? ≠ none ∧ ∀ task, t.kept task = none) :
    Serves False (· ≠ c) (fun w => Q (w.track c)) (RouteDispatch.perform d depth) := by
  have hfalse : Stable (fun _ => True) fun _ => False := .of_history fun _ _ _ _ => id
  refine .of_stable (.of_track fun t ht => (hQ t ht).1) hfalse (fun _ => False.elim) ?_ d depth
  intro w t cell h hw hcell hhandler
  refine .inr ((Aspect.keptFor_eq_none_iff c).mp ?_ h hhandler)
  simpa [World.track, World.aspect, hcell] using (hQ _ hw).2 t

theorem stable_isAtRest (c : CallId) (n : Nat) :
    Stable (· ≠ c) fun w => (w.track c).IsAtRest c n := by
  refine .of_track fun t ht => ?_
  obtain ⟨f, hf, -⟩ := ht.footing
  simp [hf]

section Turned

variable {w : World} {t : TaskId} {cell cell' : Cell Completion} {h : Completion}
  (hw : (w.track c).IsAtRest c n) (hcell : w.cells[t]? = some cell) (hother : ¬ h.IsFor (· ≠ c))

include hw hcell hother

theorem found_track {a : Act Unit} {o : Outcome}
    (ha : ∀ j, h.Resumes c n j → BringsToRest c n (Begun n j) a)
    (hsettle : cell.settle o = some (cell', .run h)) :
    Triple (· = w.turn t (.settled o (.run h)) cell') a (fun _ w => (w.track c).IsAtRest c n)
      fun s w => (w.track c).IsAtRest c n ∨ (False ∧ s = .tooDeep) := by
  obtain ⟨hafter, hhandler⟩ := Cell.handler?_of_settle hsettle
  obtain ⟨j, hres, hbegun⟩ := hw.turned hcell hhandler hother hafter (.settled o (.run h))
  exact Triple.stops ((ha j hres).apply hbegun) fun _ _ => .inl

theorem givenUp_track {perform : Performer} (hp : Reports c n perform)
    (habandon : cell.abandon = (cell', some h)) :
    Triple (· = w.turn t (.abandoned (some h)) cell') (giveUp perform h)
      (fun _ w => (w.track c).IsAtRest c n)
      fun s w => (w.track c).IsAtRest c n ∨ (False ∧ s = .tooDeep) := by
  have hafter := (Cell.abandon_fst cell).1
  have hhandler := Cell.abandon_snd cell
  rw [habandon] at hafter hhandler
  obtain ⟨j, hres, hbegun⟩ := hw.turned hcell hhandler.symm hother hafter (.abandoned (some h))
  exact Triple.stops ((giveUp_track hp hres).apply hbegun) fun _ _ => .inl

end Turned

/-- Jobs up to any depth leave the call at rest. -/
theorem drives (c : CallId) (n : Nat) (d : Dispatcher) (depth : Nat) :
    Drives c n (RouteDispatch.perform d depth) := by
  induction depth with
  | zero =>
      refine ⟨fun hQ => serves_of_unkept d 0 hQ, ⟨stable_isAtRest c n, fun _ _ _ => .throw _,
        fun _ _ _ => .throw _, fun _ _ _ => .throw _, ?_, ?_⟩, ?_, ?_⟩
      · exact fun hw hcell hsettle hother =>
          found_track hw hcell hother (fun _ _ => Triple.throw fun _ => Begun.isAtRest) hsettle
      · exact fun hw hcell habandon hother =>
          givenUp_track hw hcell hother (fun _ _ => .throw _) habandon
      · exact fun _ _ => Triple.throw fun _ => Begun.isAtRest
      · exact fun _ _ _ => Triple.throw fun _ => Passed.isAtRest
  | succ depth ih =>
      refine ⟨fun hQ => serves_of_unkept d (depth + 1) hQ, ih.rest.succ ?_ ?_, ?_, ?_⟩
      · exact fun hw hcell hsettle hother =>
          found_track hw hcell hother (fun _ hres => complete_track ih hres _) hsettle
      · exact fun hw hcell habandon hother =>
          givenUp_track hw hcell hother (ih.rest.upholds.reportJob d c) habandon
      · exact fun o hres => complete_track ih hres o
      · exact fun hroute hpoint htakes => goOn_track ih hroute hpoint htakes

end Act

/-! ## Before the first stop -/

/-- The call has come to `k` stages and to no stop. -/
def Track.Opens (n k : Nat) (t : Track) : Prop :=
  ∃ f, t.Reaches n k 0 f ∧ t.IsLoose f

theorem Track.Opens.isAtRest {k : Nat} {t : Track} (h : t.Opens n k) : t.IsAtRest c n := by
  obtain ⟨f, hreach, hloose⟩ := h
  exact .loose hreach hloose

namespace Act

variable {perform : Performer} {k : Nat}

theorem Keeps.opens {α : Type} {a : Act α}
    (h : Keeps False (fun w => (w.track c).Opens n k) a) :
    Triple (fun w => (w.track c).Opens n k) a (fun _ w => (w.track c).Opens n k)
      fun _ w => (w.track c).IsAtRest c n :=
  h.sure.stops fun _ _ => Opens.isAtRest

theorem opens_serves (hd : Drives c n perform) :
    Serves False (· ≠ c) (fun w => (w.track c).Opens n k) perform := by
  refine hd.others fun t ht => ?_
  obtain ⟨f, hreach, hloose⟩ := ht
  exact ⟨by simp [hreach.footing], hloose.unkept⟩

theorem enter_opens {s : Stage} (hs : (itinerary n)[k]? = some s) (hk : k < 2 * n + 4) :
    Triple (fun w => (w.track c).Opens n k) (enter c s) (fun _ w => (w.track c).Opens n (k + 1))
      fun _ w => (w.track c).IsAtRest c n := by
  refine Triple.of_world fun w hw => ?_
  obtain ⟨f, hreach, hloose⟩ := hw
  obtain ⟨w', f', hexec, hreach', hheld, hkept⟩ := exec_enter_reaches hreach hs hk
  exact Triple.of_exec_eq (b := Pure.pure ()) hexec
    (Triple.done ⟨f', hreach', hloose.of_eq hheld hkept⟩)

theorem editView_opens {g : CallView → CallView} (hg : ∀ v, (g v).stage = v.stage) :
    Keeps False (fun w => (w.track c).Opens n k) (editView c g) := by
  refine Triple.of_world fun w hw => Triple.editCall_last ?_
  obtain ⟨f, hreach, hloose⟩ := hw
  rw [track_editCall (fun call => { call with view := g call.view })
    (fun f => { f with view := g f.view }) fun _ => rfl, hreach.footing]
  exact ⟨{ f with view := g f.view }, hreach.of_eq rfl rfl rfl (hg _) rfl, hloose.of_eq rfl rfl⟩

theorem noteMatch_opens (m : RouteMatch) :
    Triple (fun w => (w.track c).Opens n 1) (noteMatch c m) (fun _ w => (w.track c).Opens n 2)
      fun _ w => (w.track c).IsAtRest c n := by
  refine Triple.bind (editView_opens ?_).opens fun _ => ?_
  · exact fun _ => rfl
  refine Triple.bind (enter_opens rfl (by omega)) fun _ => Triple.get fun w hw => ?_
  exact (write_silent ⟨rfl, rfl⟩).opens.apply hw

/-- A call that is matched and bound has come to three stages. -/
theorem prepare_opens (hd : Drives c n perform) (d : Dispatcher) (r : Request) (version : Nat) :
    Triple (fun w => (w.track c).Opens n 1) (prepare d c r version)
      (fun result w => (w.track c).IsAtRest c n ∧
        ∀ bound, result = .ok bound → (w.track c).Opens n 3)
      fun _ w => (w.track c).IsAtRest c n := by
  refine prepare_triple (Q := fun w => (w.track c).Opens n 2)
    (fun _ => ((opens_serves hd).allows.reportAll fun _ => Trace.isFor_of_mem_report).opens)
    noteMatch_opens
    (fun b => (calling_track (liftBinder_triple (fun _ _ => .inl) b) c .binder).opens)
    (fun bound => (enter_opens rfl (by omega)).weaken (fun _ => id) (fun _ w hw => ?_) fun _ _ => id)
    (fun _ _ hw => ⟨hw.isAtRest, by simp⟩) fun _ _ hw => ⟨hw.isAtRest, by simp⟩
  exact ⟨hw.isAtRest, fun _ _ => hw⟩

theorem start_opens (hd : Drives c n perform) (d : Dispatcher) (r : Request) (version : Nat)
    (view : CallView) :
    Triple (fun w => (w.track c).Opens n 1) (start perform d c r version view)
      (fun result w => (w.track c).IsAtRest c n ∧
        ∀ bound, result = .ok bound → (w.track c).Opens n 3)
      fun _ w => (w.track c).IsAtRest c n := by
  have hnumber := calling_track (Q := Opens n 1)
    ((opens_serves hd).run (holdsFor_none _) (d.listener.onStart view)) c .onStart
  refine Triple.bind (write_silent ⟨rfl, rfl⟩).opens fun _ => ?_
  refine Triple.bind hnumber.opens fun id => ?_
  refine Triple.bind (editView_opens ?_).opens fun _ =>
    prepare_opens hd d r version
  exact fun _ => rfl

/-! ## Dispatching the call -/

/-- A new call has been received, and nothing else has happened to it. -/
theorem opens_newCall {w : World} (hblank : w.track w.calls.length = ⟨none, fun _ => none, [], []⟩)
    {view : CallView} (hstage : view.stage = .received) :
    Opens n 1 (World.track w.calls.length { w with calls := w.calls ++ [{ view }] }) := by
  have htrack : World.track w.calls.length { w with calls := w.calls ++ [{ view }] } =
      ⟨some ⟨view, none, none⟩, fun _ => none, [], []⟩ := by
    have hkept := congrArg Track.kept hblank
    have hmilestones := congrArg Track.milestones hblank
    have hmoves := congrArg Track.moves hblank
    simp only [World.track, World.aspect] at hkept hmilestones hmoves
    simp [World.track, World.aspect, hkept, hmilestones, hmoves, Call.footing, Cell.fresh,
      Cell.outcome?]
  rw [htrack]
  refine ⟨_, ⟨.running ⟨rfl, rfl, rfl, ?_⟩ (by omega) rfl, rfl⟩, fun point => by simp, fun _ => rfl⟩
  rw [hstage]
  rfl

/-- A panic in front of the first stop is one more way to leave the call at rest. -/
theorem guarded_opens {α : Type} {k' : Nat} {a : Act (Except CallError α)}
    (ha : Triple (fun w => (w.track c).Opens n k) a
      (fun result w => (w.track c).IsAtRest c n ∧ ∀ v, result = .ok v → (w.track c).Opens n k')
      fun _ w => (w.track c).IsAtRest c n) :
    Triple (fun w => (w.track c).Opens n k) (guarded a)
      (fun result w => (w.track c).IsAtRest c n ∧
        ∀ v, result.bind id = .ok v → (w.track c).Opens n k')
      fun _ w => (w.track c).IsAtRest c n := by
  refine (Triple.guarded ha).weaken (fun _ => id) (fun result w hw => ?_) fun _ _ => And.right
  cases result with
  | ok v => exact hw
  | error e =>
      obtain ⟨p, w₀, -, hrest, rfl, -⟩ := hw
      refine ⟨?_, fun v hv => by simp [Except.bind] at hv⟩
      rwa [track_silent ⟨rfl, rfl⟩]

/-- A call that is bound sets out for its first stop, and any other one fails. -/
theorem launch_track (hd : Drives c n perform) {prepared : Except CallError (Route × Args)}
    (hroute : ∀ route args, prepared = .ok (route, args) → route.attachments.length = n) :
    Triple (fun w => (w.track c).IsAtRest c n ∧
        ∀ bound, prepared = .ok bound → (w.track c).Opens n 3)
      (launch perform c prepared) (fun _ w => (w.track c).IsAtRest c n)
      fun _ w => (w.track c).IsAtRest c n := by
  rcases prepared with e | ⟨route, args⟩
  · exact (finish_error_track hd.reports e).strengthen fun _ => And.left
  · exact (callStage_track hd (hroute route args rfl) (Nat.zero_le _) args).strengthen
      fun _ hw => hw.2 _ rfl

theorem awaitEnd_track (hd : Drives c n perform) (into : TaskId) :
    BringsToRest c n (IsAtRest c n) (awaitEnd perform c into) := by
  refine Triple.of_world fun w hw => ?_
  refine Triple.stops (awaitEnd_triple into (hd.rest.report c into) hw ?_)
    fun _ _ hw => hw.resolve_right And.left
  intro w' hlog _ haspect
  rwa [show w'.track c = w.track c by simp [World.track, hlog, haspect]]

/-- A call whose route has `n` plugins is at rest when its dispatch has returned. -/
theorem dispatch_track (d : Dispatcher) (depth : Nat) {w : World} (r : Request)
    (hblank : w.track w.calls.length = ⟨none, fun _ => none, [], []⟩)
    (hbinds : ∀ route args view, d.Binds depth w r route args view →
      route.attachments.length = n) :
    Triple (· = w) (dispatch (RouteDispatch.perform d depth) d r)
      (fun _ w' => (w'.track w.calls.length).IsAtRest w.calls.length n)
      fun _ w' => (w'.track w.calls.length).IsAtRest w.calls.length n := by
  have hd := drives w.calls.length n d depth
  have hprepared := guarded_opens (start_opens hd d r (r.version.getD d.config.defaultVersion)
    { method := r.method, path := r.path, version := r.version.getD d.config.defaultVersion
      transport := r.transport })
  refine Triple.step rfl (Triple.bind_exec (hprepared.apply (opens_newCall hblank rfl))
    fun prepared w₁ hexec hw₁ => ?_)
  have hroute : ∀ route args, prepared.bind id = .ok (route, args) →
      route.attachments.length = n := by
    rcases prepared with e | e | ⟨route, args⟩
    · simp [Except.bind]
    · simp [Except.bind]
    · rintro _ _ ⟨⟩
      obtain ⟨f, hreach, -⟩ := hw₁.2 _ rfl
      obtain ⟨call, hcall, -⟩ := exists_call_of_footing hreach.footing
      exact hbinds route args call.view ⟨w₁, hexec, by rw [hcall, Option.map_some]⟩
  refine Triple.bind ((launch_track hd hroute).strengthen ?_) fun _ =>
    Triple.bind hd.rest.allows.newTask.sure fun into =>
      Triple.bind (awaitEnd_track hd into) fun _ => Triple.pure fun _ => id
  rintro _ rfl
  exact hw₁

end Act

/-! ## Runs -/

/-- A call at rest has come to its stages and stops in their order. -/
theorem Track.IsAtRest.inOrder {w : World} (h : (w.track c).IsAtRest c n) :
    InOrder c n w.log := by
  obtain ⟨k, m, f, hreach, -, -⟩ := h.exists_reaches
  obtain ⟨stages, hvisits, hfollows⟩ := hreach.stands.exists_visits
  have hmilestones : RouteDispatch.milestones c w.log = (schedule n).take m := hreach.milestones
  refine ⟨?_, ?_, ?_, fun move hmove => ?_⟩
  · exact hmilestones ▸ List.take_prefix m _
  · exact hvisits.entered ▸ hfollows
  · exact hvisits.entered ▸ hvisits.chained
  · refine hfollows.isTerminal_of_mem_dropLast ?_
    rw [← hvisits.chained]
    exact List.mem_map_of_mem hmove

namespace Dispatcher

/-- What a call is bound to is decided by the request and the world. -/
theorem Binds.unique
    {d : Dispatcher} {depth : Nat} {w : World} {r : Request} {route route' : Route}
    {args args' : Args} {view view' : CallView} (h : d.Binds depth w r route args view)
    (h' : d.Binds depth w r route' args' view') : route = route' ∧ args = args' ∧ view = view' := by
  obtain ⟨w₁, hexec, hview⟩ := h
  obtain ⟨w₂, hexec', hview'⟩ := h'
  rw [hexec] at hexec'
  simp only [Prod.mk.injEq, Except.ok.injEq] at hexec'
  obtain ⟨⟨rfl, rfl⟩, rfl⟩ := hexec'
  rw [hview] at hview'
  exact ⟨rfl, rfl, Option.some.inj hview'⟩

variable (d : Dispatcher) (depth : Nat)

/-- Nothing has happened to a call that has not been made. -/
theorem track_after_of_none
    (table : RouteTable) (steps : List Step)
    (hnone : (d.after depth table steps).world.calls[c]? = none) :
    (d.after depth table steps).world.track c = ⟨none, fun _ => none, [], []⟩ := by
  have hblank := d.isBlank_after depth table steps hnone
  have hinv := d.inv_absent_after depth hnone
  have hsilent : ∀ e ∈ (d.after depth table steps).world.log, e.IsSilent c :=
    fun e he => Entry.isSilent_of_not_concerns (hinv.facts.stands.2 e he)
  have hmilestones : milestones c (d.after depth table steps).world.log = [] :=
    List.filterMap_eq_nil_iff.mpr fun e he => (hsilent e he).1
  have hmoves : moves c (d.after depth table steps).world.log = [] :=
    List.filterMap_eq_nil_iff.mpr fun e he => (hsilent e he).2
  have hkept := funext hblank.kept
  simp only [World.aspect] at hkept
  simp [World.track, World.aspect, hnone, hmilestones, hmoves, hkept]

/-- The step that makes a call leaves it at rest. -/
theorem isAtRest_take
    {p : Past} (r : Request)
    (hblank : p.world.track p.world.calls.length = ⟨none, fun _ => none, [], []⟩)
    (hbinds : ∀ route args view, d.Binds depth p.world r route args view →
      route.attachments.length = n) :
    ((d.take depth p (.dispatch r)).world.track p.world.calls.length).IsAtRest
      p.world.calls.length n := by
  have hdispatch : Act.Triple (· = p.world) (d.act depth (.dispatch r))
      (fun _ w => (w.track p.world.calls.length).IsAtRest p.world.calls.length n)
      fun _ w => (w.track p.world.calls.length).IsAtRest p.world.calls.length n :=
    (Act.dispatch_track d depth r hblank hbinds).bind fun _ => Act.Triple.pure fun _ => id
  rcases hdispatch.take rfl with ⟨hpost, -⟩ | ⟨s, hstop, -⟩
  · exact hpost
  · exact hstop

/-- A call at rest stays so in every step that is taken later. -/
theorem isAtRest_foldl
    {p : Past} (hp : (p.world.track c).IsAtRest c n) (hpresent : p.world.calls[c]? ≠ none)
    (steps : List Step) :
    ((steps.foldl (d.take depth) p).world.track c).IsAtRest c n := by
  induction steps generalizing p with
  | nil => exact hp
  | cons step rest ih =>
      have hlt : c < p.world.calls.length := by simpa using hpresent
      refine ih ?_ ((stable_present c).take d depth hpresent step)
      have hact := ((Act.drives c n d depth).rest.upholds.act step).take (p := p)
        ⟨hp, fun _ _ => Nat.ne_of_gt hlt⟩
      rcases hact with ⟨hpost, -⟩ | ⟨s, hpost | ⟨hfalse, -⟩, -⟩
      · exact hpost
      · exact hpost
      · exact hfalse.elim

/-- In every run the call that a dispatch makes passes its stages in order, if the route to which it
is matched and bound, when there is one, has `n` plugins. -/
theorem inOrder_of_dispatch
    (table : RouteTable) (steps later : List Step) (r : Request) {p : Past}
    (hc : c = (d.after depth table steps).world.calls.length)
    (hp : p = d.after depth table (steps ++ .dispatch r :: later))
    (hbinds : ∀ route args view, d.Binds depth (d.after depth table steps).world r route args view →
      route.attachments.length = n) :
    InOrder c n p.world.log := by
  have hafter : p = later.foldl (d.take depth)
      (d.take depth (d.after depth table steps) (.dispatch r)) := by
    rw [hp, d.after_append, List.foldl_cons]
  have hblank := d.track_after_of_none depth table steps (c := c) (by simp [hc])
  have hpresent :
      (d.take depth (d.after depth table steps) (.dispatch r)).world.calls[c]? ≠ none := by
    rw [hc]
    exact d.present_take depth _ r
  have hrest : ((d.take depth (d.after depth table steps) (.dispatch r)).world.track c).IsAtRest
      c n := by
    subst hc
    exact d.isAtRest_take depth r hblank hbinds
  rw [hafter]
  exact (d.isAtRest_foldl depth hrest hpresent later).inOrder

theorem inOrder_patientPast :
    (∀ route args view, Binds {} nesting { table := echoTable [patientPlugin] }
        { method := "GET", path := "/echo" } route args view → route.attachments.length = 1) ∧
      InOrder 0 1 patientPast.world.log ∧
      milestones 0 patientPast.world.log = schedule 1 := by
  have hbinds : ∀ route args view, Binds {} nesting { table := echoTable [patientPlugin] }
      { method := "GET", path := "/echo" } route args view → route.attachments.length = 1 := by
    intro route args view hbinds
    obtain ⟨route', args', view', hbinds', hlength, -⟩ := binds_patient
    rw [(hbinds.unique hbinds').1, hlength]
  exact ⟨hbinds, inOrder_of_dispatch {} nesting (echoTable [patientPlugin]) [] _ _ rfl rfl hbinds,
    by decide +kernel⟩

end Dispatcher
end RouteDispatch
