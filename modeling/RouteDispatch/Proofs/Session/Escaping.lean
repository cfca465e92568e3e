import RouteDispatch.Proofs.Session.Delivery
import RouteDispatch.Proofs.Session.Unwinding

/-!
# What unwinds out of a dispatch

The panic of a second resolution passes all guards, however deep they are nested, and nothing else
comes out of a dispatch.  A call whose caller has no task yet reports no end, so only its foreign
code can stop its stages; and the report of its end stops only with the listener's code, as long as
no code has reached the task that the caller is to be given.
-/

namespace RouteDispatch

variable {c : CallId} {w : World}

/-- A panic of a second resolution has left foreign code of a call that nobody waits for. -/
def Leaving (c : CallId) (s : Stop) (w : World) : Prop :=
  Unawaited c w ∧ (s = .panic .alreadyResolved → HasUnwound c w.log)

namespace Act

section Unawaited

variable {perform : Performer}
  (hp : ∀ job, Abides (Unawaited c) (fun _ => Unawaited c) (perform job)) {p : Pipeline}
  (hc : p.call = c)

theorem left_leaving {s : Stop} (h : Left (fun _ => Unawaited c) (LeftUnawaited c) c s w) :
    Leaving c s w := by
  cases s with
  | panic q => exact ⟨h.1, fun hs => h.2 rfl (Stop.panic.inj hs)⟩
  | tooDeep => exact ⟨h, fun hs => by simp at hs⟩

theorem guarded_leaves {α : Type} {a : Act α}
    (ha : Triple (Unawaited c) a (fun _ => Unawaited c) (Leaving c)) :
    Triple (Unawaited c) (guarded a) (fun _ => Unawaited c)
      fun s w => s.isHard = true ∧ Leaving c s w := by
  refine ha.guarded.weaken (fun _ => id) (fun result w hw => ?_) fun _ _ => id
  cases result with
  | ok v => exact hw
  | error e =>
      obtain ⟨q, w₀, -, hleft, rfl, -⟩ := hw
      exact hleft.1

theorem finish_unawaited (o : Outcome) (stopped : Stop → World → Prop) :
    Triple (fun w => Unawaited c w ∧ w.isRunning c = true) (finish perform c o)
      (fun _ => Unawaited c) stopped := by
  refine Triple.of_world ?_
  rintro w ⟨hw, hrunning⟩
  refine Discipline.finish_triple hrunning (fun _ _ _ _ => hw.finished) (fun _ => id) ?_
  intro call ending into hcall hsettle
  have hhandler := (Cell.handler?_of_settle hsettle).2
  rw [hw call hcall] at hhandler
  simp [Cell.Settling.handler?] at hhandler

theorem finishOrReport_unawaited (o : Outcome) (late : World → Entry)
    (stopped : Stop → World → Prop) :
    Triple (Unawaited c)
      (do
        let w ← get
        if w.isRunning c then finish perform c o else write (late w))
      (fun _ => Unawaited c) stopped := by
  refine Triple.get fun w hw => ?_
  by_cases hrunning : w.isRunning c = true
  · rw [if_pos hrunning]
    exact (finish_unawaited _ _).apply ⟨hw, hrunning⟩
  · rw [if_neg hrunning]
    exact Triple.write_last hw

include hc

theorem fail_unawaited (e : CallError) (stopped : Stop → World → Prop) :
    Triple (Unawaited c) (fail perform p e) (fun _ => Unawaited c) stopped :=
  hc ▸ finishOrReport_unawaited _ _ _

theorem succeed_unawaited (v : Json) (stopped : Stop → World → Prop) :
    Triple (Unawaited c) (succeed perform p v) (fun _ => Unawaited c) stopped :=
  hc ▸ finishOrReport_unawaited _ _ _

theorem release_unawaited (point : Point) (stopped : Stop → World → Prop) :
    Triple (Unawaited c) (release perform (some ⟨p, point⟩)) (fun _ => Unawaited c) stopped := by
  refine withHeld_triple (fun k hk => ?_) (Triple.pure fun _ => id)
  obtain rfl := Option.some.inj hk
  refine Triple.of_world fun w hw => Triple.step rfl ?_
  refine (fail_unawaited hc _ _).apply ?_
  exact Unawaited.edit hw.1 p.call rfl fun _ => id

include hp

theorem runPlugin_leaves (point : Point) (plugin : String) (code : CallView → Code .nothing) :
    Triple (Unawaited c) (runPlugin perform p point plugin code) (fun _ => Unawaited c)
      fun s w => s.isHard = true ∧ Leaving c s w := by
  have hd := discipline_unawaited c
  refine Triple.bind (hd.enter p.call (by cases point <;> rfl)) fun _ => Triple.get fun w hw => ?_
  refine Triple.write ?_
  cases w.calls[p.call]? with
  | none => exact Triple.done hw
  | some call =>
      refine Triple.editCall (Triple.apply (Triple.bind (guarded_leaves ?_) fun result => ?_)
        (Unawaited.edit hw p.call rfl fun _ => id))
      · refine Triple.bind ((hd.pluginCode hp ⟨p, point⟩ point (code call.view)).stops ?_)
          fun _ => release_unawaited hc point _
        subst hc
        exact fun _ _ => left_leaving
      · cases result with
        | ok v => exact Triple.pure fun _ => id
        | error e => exact fail_unawaited hc e _

theorem resultStage_leaves (index : Nat) (v : Json) :
    Triple (Unawaited c) (resultStage perform p index v) (fun _ => Unawaited c)
      fun s w => s.isHard = true ∧ Leaving c s w := by
  unfold Act.resultStage
  cases p.route.attachments[index]? with
  | none => exact succeed_unawaited hc v _
  | some a => exact runPlugin_leaves hp hc _ _ _

theorem runHandler_leaves
    (hhandled : ∀ o, Triple (Unawaited c) (perform (.complete (.handled p) o))
      (fun _ => Unawaited c) (Leaving c)) (args : Args) :
    Triple (Unawaited c) (runHandler perform p args) (fun _ => Unawaited c)
      fun s w => s.isHard = true ∧ Leaving c s w := by
  have hd := discipline_unawaited c
  refine Triple.bind (hd.enter p.call rfl) fun _ => Triple.get fun w hw => ?_
  refine Triple.write (Triple.write (Triple.apply (Triple.bind (guarded_leaves ?_) fun result => ?_)
    hw))
  · have hhandler : Triple (Unawaited c)
        (calling p.call .handler (run perform none (p.route.handler.invoke args)))
        (fun _ => Unawaited c) (Leaving c) := by
      subst hc
      exact (hd.calling_failing (hd.run hp none _) p.call rfl).stops fun _ _ => left_leaving
    refine Triple.bind hhandler fun t => Triple.of_world fun w hw => ?_
    -- A task that has a consumer is refused with another panic.
    · refine Triple.attachOr ?_ (fun _ _ _ _ => hw) fun _ _ o _ _ => (hhandled o).apply hw
      exact Triple.step rfl (Triple.raise fun w' hw' => ⟨hw' ▸ hw, fun hs => by simp at hs⟩)
  · cases result with
    | ok v => exact Triple.pure fun _ => id
    | error e => exact fail_unawaited hc e _

end Unawaited

section Launch

variable (d : Dispatcher) (depth : Nat)

/-- The result of a handler goes its way back as the call went to the handler. -/
theorem handled_leaves {p : Pipeline} (hc : p.call = c) (o : Outcome) :
    Triple (Unawaited c) (RouteDispatch.perform d depth (.complete (.handled p) o))
      (fun _ => Unawaited c) (Leaving c) := by
  have hd := discipline_unawaited c
  cases depth with
  | zero => exact Triple.throw fun w hw => ⟨hw, fun hs => by simp at hs⟩
  | succ depth =>
      cases o with
      | ok v =>
          have hstage := (resultStage_leaves (hd.perform d depth) hc 0 v).stops fun _ _ => And.right
          exact Triple.of_world fun w hw => Triple.write (hstage.apply hw)
      | error e => exact fail_unawaited hc e _

/-- Only a panic of a second resolution leaves the stages of the call, out of its foreign code. -/
theorem launch_leaves (prepared : Except CallError (Route × Args)) :
    Triple (fun w => Unawaited c w ∧ w.isRunning c = true)
      (launch (RouteDispatch.perform d depth) c prepared) (fun _ => Unawaited c)
      fun s w => s.isHard = true ∧ Leaving c s w := by
  have hp := (discipline_unawaited c).perform d depth
  cases prepared with
  | error e => exact finish_unawaited _ _
  | ok prepared =>
      obtain ⟨route, args⟩ := prepared
      refine Triple.of_world fun w hw => Triple.apply ?_ hw.1
      unfold launch
      dsimp only
      unfold Act.callStage
      cases route.attachments[0]? with
      | none => exact runHandler_leaves hp rfl (handled_leaves d depth rfl) args
      | some a => exact runPlugin_leaves hp rfl _ _ _

end Launch

end Act

/-! ## Dispatches -/

theorem Inv.isRunning_of_preparing {f : Frame} (h : Inv c (f.inPhase .preparing) w) :
    w.isRunning c = true := by
  obtain ⟨call, hcall, -, hending, -⟩ := h.facts.stands
  exact World.isRunning_iff.mpr ⟨call, hcall, by rw [hending]; rfl⟩

/-- A call does not end while it is prepared. -/
theorem Inv.running_of_start {calm : Bool}
    (h : Inv w.calls.length { strict := calm, phase := .absent } w) (d : Dispatcher) (depth : Nat)
    (r : Request) (version : Nat)
    {view : CallView} (hview : view.stage.isTerminal = false) :
    Act.Triple (· = { w with calls := w.calls ++ [{ view }] })
      (Act.guarded (Act.start (perform d depth) d w.calls.length r version view))
      (fun _ w' => w'.isRunning w.calls.length = true) fun _ _ => True := by
  have hstart := Act.guarded_keeps (Act.start_keeps (perform_good d w.calls.length depth)
    (Frame.inPhase { strict := calm, phase := .absent } .preparing) d w.calls.length r version
    view fun _ => rfl)
  have hnew := Inv.newOwn (f := { strict := calm, phase := .absent }) h rfl rfl rfl view hview
  exact (hstart.apply hnew).weaken (fun _ => id) (fun _ _ hw => hw.isRunning_of_preparing)
    fun _ _ _ => trivial

/-- A dispatch goes on while no panic of a second resolution has left foreign code. -/
theorem CalmSince.dispatch {calm : Bool}
    (h : Inv w.calls.length { strict := calm, phase := .absent } w) (d : Dispatcher) (depth : Nat)
    (r : Request) :
    Act.Triple (· = w) (Act.dispatch (perform d depth) d r) (fun _ => CalmSince w.log)
      (UnwoundSince w.log) :=
  have hd := discipline_unwinding w.log
  hd.dispatch (hd.perform d depth) (fun hw _ _ => hw) (fun _ _ => ⟨[], by simp, by simp⟩)
    fun _ version hview => h.running_of_start d depth r version hview

theorem not_closed_of_not_concerns
    {log : List Entry} (h : ∀ e ∈ log, e.concerns c = false) : ¬ Closed c log := by
  rintro ⟨e, hmem, hcloses⟩
  have hincidental := Entry.isIncidental_of_not_concerns (h e hmem)
  have hopen := (Entry.isIncidental_iff.mp hincidental).2.1
  exact Bool.false_ne_true (hopen.symm.trans hcloses)

/-- Whatever comes of a dispatch, panics fail its call while it is running. -/
theorem Answers.dispatch {calm : Bool}
    (h : Inv w.calls.length { strict := calm, phase := .absent } w) (d : Dispatcher) (depth : Nat)
    (r : Request) :
    Act.Triple (· = w) (Act.dispatch (perform d depth) d r)
      (fun _ => Answers w.calls.length none) fun _ => Answers w.calls.length none := by
  have hd := discipline_answers w.calls.length
  refine hd.dispatch (hd.perform d depth) (fun {w' call ending into outcome} hw hcall hattach => ?_)
    (fun view hview => ?_) fun _ version hview => h.running_of_start d depth r version hview
  · have hsame := (Cell.outcome?_of_attach hattach).2
    have hafter := Inv.getElem?_modify_self hcall fun call =>
      { call with ending, answer := some into }
    obtain ⟨x, hx, hopen⟩ := hw.made
    obtain rfl : call = x := Option.some.inj (hcall.symm.trans hx)
    refine hw.keep rfl ?_ ⟨_, hafter, fun hnone => hopen (hsame ▸ hnone)⟩
    simp [endOf, hcall, hafter, hsame]
  · set call : Call := { view := view }
    have hcall : (w.calls ++ [call])[w.calls.length]? = some call := List.getElem?_concat_length
    have hend : endOf (w.calls ++ [call])[w.calls.length]? = none := by
      rw [hcall]
      rfl
    have hconcerns : ∀ e ∈ w.log, e.concerns w.calls.length = false := h.facts.stands.2
    refine ⟨⟨call, hcall, fun _ => hview⟩, ?_, fun p _ hoccurs => ?_⟩
    · exact iff_of_false (not_closed_of_not_concerns hconcerns) (not_not.mpr hend)
    · obtain ⟨before, e, behind, hlog, hfails, -⟩ := hoccurs
      obtain ⟨piece, -, rfl⟩ := Entry.fails_iff.mp hfails
      change w.log = _ at hlog
      have hother := hconcerns (.mark (.escaped w.calls.length piece p)) (by simp [hlog])
      simp [Entry.concerns] at hother

/-! ## The task of the caller -/

/-- Foreign code has not resolved the task and has left no completion handler with it. -/
def IsLeftAlone (t : TaskId) (w : World) : Prop :=
  .mark (.resolved t) ∉ w.log ∧ ∀ turn, (t, turn) ∈ w.turns → turn.handler? = none

theorem stable_not_isLeftAlone (t : TaskId) :
    Stable (fun _ => True) fun w => ¬ IsLeftAlone t w :=
  .of_history fun _ _ hturns hlog hw h => hw
    ⟨fun hmem => h.1 (hlog.subset hmem), fun turn hmem => h.2 turn (hturns hmem)⟩

/-- Only the panic of a second resolution comes out of a dispatch, out of foreign code of its call,
unless the task that the caller is to be given was not left alone. -/
def StopsOnly (c : CallId) (t : TaskId) (s : Stop) (w : World) : Prop :=
  (s.isHard = true ∧ (s = .panic .alreadyResolved → HasUnwound c w.log)) ∨ ¬ IsLeftAlone t w

namespace Act

section Report

variable (d : Dispatcher) (depth : Nat) {f : Frame} {t : TaskId} {o : Outcome}

theorem answer_leaves (o' : Outcome) :
    Triple (Inv c (f.inPhase (.reporting t o))) (answer (RouteDispatch.perform d depth) c t o')
      (fun _ _ => True) fun _ w => ¬ IsLeftAlone t w := by
  refine Triple.bind (m := fun settled w => settled = false → .mark (.resolved t) ∈ w.log) ?_
    fun settled => ?_
  · refine Triple.get fun w hw => ?_
    obtain ⟨call, -, -, ht, -, -, hopen⟩ := hw.facts.stands
    have hcell : w.cells[t]? = some w.cells[t] := List.getElem?_eq_getElem ht
    rw [hcell]
    dsimp only
    cases hsettle : w.cells[t].settle o' with
    | none =>
        have hdone := Cell.settle_eq_none_iff.mp hsettle
        refine Triple.done fun _ => hopen.resolve_left ?_
        simpa [outcomeOf, hcell] using hdone
    | some result =>
        obtain ⟨cell', follow⟩ := result
        refine Triple.setCell ?_
        cases follow with
        | quiet => exact Triple.done fun hs => by simp at hs
        | wake label => exact Triple.write (Triple.done fun hs => by simp at hs)
        | run k =>
            have htouched : ¬ IsLeftAlone t (w.turn t (.settled o' (.run k)) cell') := by
              intro halone
              have hnone := halone.2 (.settled o' (.run k)) (by simp)
              simp [Cell.Turn.handler?] at hnone
            have hjob := ((stable_not_isLeftAlone t).serves d depth).complete k o'
              fun _ _ => trivial
            refine Triple.bind (Triple.apply (hjob.stops fun s w hs => ?_) htouched) fun _ =>
              Triple.pure fun _ _ hs => by simp at hs
            exact hs.resolve_right fun hlax => hlax.1
  · cases settled with
    | true => exact Triple.pure fun _ _ => trivial
    | false =>
        refine Triple.of_world fun w hresolved => Triple.write (Triple.raise ?_)
        rintro _ rfl halone
        exact halone.1 (List.mem_append_left _ (hresolved rfl))

theorem report_leaves :
    Triple (Inv c (f.inPhase (.due t o))) (RouteDispatch.perform d depth (.report c t o))
      (fun _ _ => True) (StopsOnly c t) := by
  cases depth with
  | zero => exact Triple.throw fun w _ => .inl ⟨rfl, by simp⟩
  | succ depth =>
      have htell := (tell_own (perform_good d c depth) f d t o).guarded
      refine Triple.bind (htell.stops ?_) fun result => ?_
      · rintro s w ⟨hhard, -, hescaped⟩
        refine .inl ⟨hhard, fun hs => ?_⟩
        obtain ⟨front, hlog⟩ := hescaped _ hs
        exact ⟨.onEnd, by simp [hlog]⟩
      · cases result with
        | ok v => exact (answer_leaves d depth o).stops fun _ _ => .inr
        | error e =>
            refine ((answer_leaves (f := f) (o := o) d depth (.error e)).stops
              fun _ _ => .inr).strengthen ?_
            rintro _ ⟨p, w₀, hsoft, ⟨hkept, -⟩, rfl, -⟩
            exact (hkept.inv hsoft).logged rfl fun _ => rfl

end Report

/-- No stop comes out of a dispatch but a panic of a second resolution that has left foreign code of
its call. -/
theorem dispatch_leaves (d : Dispatcher) (depth : Nat) {f : Frame} (hmoving : f.moving = 0)
    (haims : f.aims = []) (r : Request) :
    Triple (fun w => Inv c (f.inPhase .absent) w ∧ w.calls.length = c)
      (dispatch (RouteDispatch.perform d depth) d r) (fun _ _ => True)
      fun s w => (s.isHard = true ∧ Leaving c s w) ∨
        ∃ t, answerOf w.calls[c]? = some t ∧ StopsOnly c t s w := by
  have hgood := perform_good d c depth
  have hd := discipline_unawaited c
  unfold dispatch
  refine Triple.of_world ?_
  rintro w ⟨hw, hc⟩
  refine Triple.step rfl ?_
  rw [hc]
  set version := r.version.getD d.config.defaultVersion
  set view : CallView := { method := r.method, path := r.path, version, transport := r.transport }
  have hpreparing : Inv c (f.inPhase .preparing) { w with
      calls := w.calls ++ [{ view }], log := w.log ++ [.mark (.started c)] } :=
    hw.newOwn rfl haims hc view rfl
  have hunawaited : Unawaited c { w with calls := w.calls ++ [{ view }] } := by
    intro call hcall
    rw [← hc, List.getElem?_concat_length] at hcall
    exact Option.some.inj hcall ▸ rfl
  have hinv := guarded_keeps (start_keeps hgood (f.inPhase .preparing) d c r version view
    fun _ => rfl)
  have hleaves := guarded_leaves
    ((hd.start (hd.perform d depth) d c r version view).stops fun _ _ => left_leaving)
  refine Triple.bind (((hinv.apply hpreparing).and (hleaves.apply hunawaited)).stops
    fun _ _ hs => .inl hs.2) fun prepared => ?_
  refine Triple.of_world fun w hw => ?_
  have hinv := (launch_own hgood f hmoving (prepared.bind id)).apply hw.1
  have hleaves := (launch_leaves d depth (prepared.bind id)).apply
    ⟨hw.2, hw.1.isRunning_of_preparing⟩
  refine Triple.bind ((hinv.and hleaves).stops fun _ _ hs => .inl hs.2) fun _ => ?_
  refine Triple.of_world fun w hw => Triple.newTask ?_
  refine Triple.bind (m := fun _ _ => True)
    (awaitEnd_own hw.1 haims (fun _ _ => trivial) fun o => ?_)
    fun _ => Triple.pure fun _ _ => trivial
  refine ((hgood.reportOwn f w.cells.length o).and (report_leaves d depth)).weaken (fun _ => id)
    (fun _ _ _ => trivial) ?_
  rintro s w' ⟨⟨⟨g, hphase, hg⟩, -⟩, hstops⟩
  exact .inr ⟨_, hg.facts.stands.answerOf_iff.mpr hphase, hstops⟩

end Act

/-! ## What comes of a dispatch -/

/-- Of a call that had not been made the earlier log tells nothing. -/
theorem HasUnwound.of_append
    {log new : List Entry} (h : HasUnwound c (log ++ new))
    (hlog : ∀ e ∈ log, e.concerns c = false) : HasUnwound c new := by
  obtain ⟨piece, hmem⟩ := h
  refine ⟨piece, (List.mem_append.mp hmem).resolve_left fun hold => ?_⟩
  simpa [Entry.concerns] using hlog _ hold

theorem Occurs.append_left
    {p : Panic} {log new : List Entry} (h : Occurs (EscapesOpen c p) new)
    (hlog : ∀ e ∈ log, e.concerns c = false) : Occurs (EscapesOpen c p) (log ++ new) := by
  obtain ⟨before, e, behind, rfl, hfails, hopen⟩ := h
  refine ⟨log ++ before, e, behind, (List.append_assoc ..).symm, hfails, ?_⟩
  rintro ⟨x, hx, hcloses⟩
  rcases List.mem_append.mp hx with hold | hnew
  · exact not_closed_of_not_concerns hlog ⟨x, hold, hcloses⟩
  · exact hopen ⟨x, hnew, hcloses⟩

/-- A call that has ended and whose caller has a task was reported, and the task got its end, unless
a panic left the listener. -/
theorem Inv.given_of_endOf
    {f : Frame} {t : TaskId} {o : Outcome} (h : Inv c (f.inPhase (.settled t)) w)
    (hend : endOf w.calls[c]? = some o) :
    told c w.log = [o] ∧
      ((∀ p, .mark (.escaped c .onEnd p) ∉ w.log) → outcomeOf w.cells t = some o) := by
  obtain ⟨call, hcall, -, -, ⟨hending, -⟩ | ⟨o', hending, htold, hgiven⟩⟩ := h.facts.stands
  · simp [endOf, hcall, hending, Cell.outcome?] at hend
  · obtain rfl : o' = o := by simpa [endOf, hcall, hending, Cell.outcome?] using hend
    refine ⟨htold, fun hlistener => ?_⟩
    obtain ⟨o'', houtcome, rfl | ⟨⟨p, hp⟩, -⟩⟩ := hgiven
    · exact houtcome
    · exact (hlistener p hp).elim

namespace Dispatcher

/-- A dispatch stops exactly if a panic of a second resolution has left foreign code of its call,
and with that panic, which has left nothing but more foreign code on its way.  Otherwise it gives
the caller's task.  Any other panic that leaves the preparation, a plugin or the handler while the
call is running fails the call.  It is assumed that no code has reached the task that the caller is
still to be given. -/
theorem unwinds_iff_of_dispatch
    (d : Dispatcher) (depth : Nat) (table : RouteTable) (steps : List Step) (r : Request)
    {w w' : World} {c : CallId} {result : Except Stop TaskId}
    (hw : (d.after depth table steps).world = w) (hc : w.calls.length = c)
    (hdispatch : (Act.dispatch (perform d depth) d r).exec w = (result, w'))
    (hdeep : result ≠ .error .tooDeep)
    (halone : ∀ t, answerOf w'.calls[c]? = some t → IsLeftAlone t w') :
    ∃ new, w'.log = w.log ++ new ∧
      ((∃ s, result = .error s) ↔ HasUnwound c new) ∧
      (∀ s, result = .error s → s = .panic .alreadyResolved ∧
        ∃ calm unwinding, new = calm ++ unwinding ∧ (∀ e ∈ calm, e.unwinds = false) ∧
          ∀ e ∈ unwinding, e.isUnwinding = true) ∧
      (∀ t, result = .ok t → (∀ e ∈ new, e.unwinds = false) ∧
        answerOf w'.calls[c]? = some t) ∧
      ∀ p, p ≠ .alreadyResolved → Occurs (EscapesOpen c p) new →
        endOf w'.calls[c]? = some (.error p.failure) ∧
          ∀ t, result = .ok t → told c w'.log = [.error p.failure] ∧
            ((∀ q, .mark (.escaped c .onEnd q) ∉ w'.log) →
              outcomeOf w'.cells t = some (.error p.failure)) := by
  subst hw hc
  have hinv := d.inv_absent_after depth (List.getElem?_eq_none (Nat.le_refl
    (d.after depth table steps).world.calls.length))
  generalize d.after depth table steps = past at *
  have hcalm := CalmSince.dispatch hinv d depth r _ rfl
  have hanswers := Answers.dispatch hinv d depth r _ rfl
  let f : Frame := { strict := past.isCalm, phase := .absent }
  have hleaves := Act.dispatch_leaves (f := f) d depth rfl rfl r _ ⟨hinv, rfl⟩
  have hkept := Act.dispatch_own (perform_good d _ depth) f rfl rfl d r _ ⟨hinv, rfl⟩
  have hother := hinv.facts.stands.2
  rw [hdispatch] at hcalm hanswers hleaves hkept
  cases result with
  | ok t =>
      obtain ⟨calm, hlog, hcalm⟩ := hcalm
      have hanswer : answerOf w'.calls[past.world.calls.length]? = some t :=
        hkept.facts.stands.answerOf_iff.mpr rfl
      refine ⟨calm, hlog, ⟨?_, ?_⟩, fun s hs => by simp at hs, ?_, fun p hp hoccurs => ?_⟩
      · rintro ⟨s, hs⟩
        simp at hs
      · rintro ⟨piece, hmem⟩
        simpa [Entry.unwinds] using hcalm _ hmem
      · rintro _ ⟨⟩
        exact ⟨hcalm, hanswer⟩
      · have hend := hanswers.endOf_of_occurs hp (hlog ▸ hoccurs.append_left hother)
        refine ⟨hend, ?_⟩
        rintro _ ⟨⟩
        exact hkept.given_of_endOf hend
  | error s =>
      obtain ⟨-, calm, unwinding, hlog, hcalm, hunwinding⟩ := hcalm
      have hleft : s.isHard = true ∧ (s = .panic .alreadyResolved →
          HasUnwound past.world.calls.length w'.log) := by
        rcases hleaves with ⟨hhard, hleaving⟩ | ⟨t, hanswer, hstops | htouched⟩
        · exact ⟨hhard, hleaving.2⟩
        · exact hstops
        · exact (htouched (halone t hanswer)).elim
      obtain rfl : s = .panic .alreadyResolved := by
        rcases s with (_ | _ | _) | _
        · rfl
        · simp [Stop.isHard] at hleft
        · simp [Stop.isHard] at hleft
        · exact (hdeep rfl).elim
      rw [List.append_assoc] at hlog
      refine ⟨calm ++ unwinding, hlog, ⟨fun _ => ?_, fun _ => ⟨_, rfl⟩⟩, ?_, fun t ht => by
        simp at ht, fun p hp hoccurs => ⟨?_, fun t ht => by simp at ht⟩⟩
      · exact (hlog ▸ hleft.2 rfl).of_append hother
      · rintro _ ⟨⟩
        exact ⟨rfl, calm, unwinding, rfl, hcalm, hunwinding⟩
      · exact hanswers.endOf_of_occurs hp (hlog ▸ hoccurs.append_left hother)

/-- Panics at once. -/
def brokenPlugin : Plugin :=
  { name := "broken"
    bind := Plugin.bindAlways
    modifyCall := fun _ _ _ => .panic (.text "boom")
    modifyResult := Plugin.passResult }

/-- Lets the call go on and then resolves a task twice. -/
def doublingPlugin : Plugin :=
  { name := "doubling"
    bind := Plugin.bindAlways
    modifyCall := fun _ _ args => .proceed (.args args) (.create fun t =>
      .complete t (.ok .null) (.complete t (.ok .null) .skip))
    modifyResult := Plugin.passResult }

/-- What comes of a dispatch to a route that the plugins are attached to. -/
def pluginRun (plugins : List Plugin) : Except Stop TaskId × World :=
  (Act.dispatch (perform {} nesting) {} { method := "GET", path := "/echo" }).exec
    (after {} nesting (echoTable plugins) []).world

/-- The log shows a panic at a place in front of which the call has not ended. -/
theorem occurs_of_getElem?
    {c : CallId} {p : Panic} {log : List Entry} (n : Nat)
    (hfails : log[n]?.any (Entry.fails c p) = true)
    (hopen : (log.take n).any (Entry.closes c) = false) : Occurs (EscapesOpen c p) log := by
  obtain ⟨e, he, hfails⟩ : ∃ e, log[n]? = some e ∧ e.fails c p = true := by
    simpa [Option.any_eq_true] using hfails
  obtain ⟨hlt, rfl⟩ := List.getElem?_eq_some_iff.mp he
  refine ⟨log.take n, log[n], log.drop (n + 1), ?_, hfails, ?_⟩
  · rw [List.getElem_cons_drop, List.take_append_drop]
  · simpa [Closed] using hopen

/-- A plugin lets the call go on to another one, whose panic fails the call, and then its own panic
unwinds.  Without it the caller gets the failure. -/
theorem unwinds_pluginRun :
    ((pluginRun [doublingPlugin, brokenPlugin]).1 = .error (.panic .alreadyResolved) ∧
      HasUnwound 0 (pluginRun [doublingPlugin, brokenPlugin]).2.log ∧
      endOf (pluginRun [doublingPlugin, brokenPlugin]).2.calls[0]? =
        some (.error (Panic.failure (.text "boom")))) ∧
    (pluginRun [brokenPlugin]).1 = .ok 0 ∧ ¬ HasUnwound 0 (pluginRun [brokenPlugin]).2.log ∧
      told 0 (pluginRun [brokenPlugin]).2.log = [.error (Panic.failure (.text "boom"))] := by
  have hruns := fun plugins hdeep halone => unwinds_iff_of_dispatch {} nesting (echoTable plugins)
    [] { method := "GET", path := "/echo" } rfl rfl
    (show _ = ((pluginRun plugins).1, (pluginRun plugins).2) from rfl) hdeep halone
  constructor
  · have hstop : (pluginRun [doublingPlugin, brokenPlugin]).1 =
        .error (.panic .alreadyResolved) := by
      decide +kernel
    have hnone : answerOf (pluginRun [doublingPlugin, brokenPlugin]).2.calls[0]? = none := by
      decide +kernel
    have hfails : Occurs (EscapesOpen 0 (.text "boom"))
        (pluginRun [doublingPlugin, brokenPlugin]).2.log :=
      occurs_of_getElem? 11 (by decide +kernel) (by decide +kernel)
    obtain ⟨new, hlog, hstops, -, -, hfailure⟩ := hruns _ (by simp [hstop])
      fun t ht => absurd (hnone.symm.trans ht) (Option.some_ne_none t).symm
    obtain rfl : _ = new := hlog
    exact ⟨hstop, hstops.mp ⟨_, hstop⟩, (hfailure _ (by simp) hfails).1⟩
  · have hgiven : (pluginRun [brokenPlugin]).1 = .ok 0 := by decide +kernel
    have hanswer : answerOf (pluginRun [brokenPlugin]).2.calls[0]? = some 0 := by decide +kernel
    have hresolved : (pluginRun [brokenPlugin]).2.log.any (Entry.resolves 0) = false := by
      decide +kernel
    have hturns : (pluginRun [brokenPlugin]).2.turns.all (·.2.handler?.isNone) = true := by
      decide +kernel
    have hfails : Occurs (EscapesOpen 0 (.text "boom")) (pluginRun [brokenPlugin]).2.log :=
      occurs_of_getElem? 8 (by decide +kernel) (by decide +kernel)
    have halone : IsLeftAlone 0 (pluginRun [brokenPlugin]).2 := by
      refine ⟨fun hmem => ?_, fun turn hmem => ?_⟩
      · simpa [Entry.resolves] using List.any_eq_false.mp hresolved _ hmem
      · simpa using List.all_eq_true.mp hturns _ hmem
    obtain ⟨new, hlog, hstops, -, -, hfailure⟩ := hruns _ (by simp [hgiven])
      fun t ht => Option.some.inj (hanswer.symm.trans ht) ▸ halone
    obtain rfl : _ = new := hlog
    refine ⟨hgiven, fun hunwound => ?_, ((hfailure _ (by simp) hfails).2 0 hgiven).1⟩
    obtain ⟨s, hs⟩ := hstops.mpr hunwound
    simp [hgiven] at hs

end Dispatcher
end RouteDispatch
