import RouteDispatch.Session.Dispatch
import RouteDispatch.Proofs.Session.Reporting

/-!
# Dispatching a call

A call that is made is numbered, matched and bound, and only then passes its stages.  Until its
caller is given a task nobody waits for its end, so that no stop which a guard may capture leaves
the stages.  The task of the caller is new, so nothing in the world resolves it but the report of
the end.
-/

namespace RouteDispatch

variable {c : CallId} {f : Frame} {w : World}

/-! ## A new call -/

theorem Inv.newOther (h : Inv c f w) (hc : w.calls.length ≠ c) (view : CallView) :
    Inv c f { w with
      calls := w.calls ++ [{ view }]
      log := w.log ++ [.mark (.started w.calls.length)] } := by
  have hstarted : Inv c f { w with log := w.log ++ [.mark (.started w.calls.length)] } :=
    h.loggedOther (by simpa [Entry.concerns] using hc)
  have hsame := getElem?_append_singleton_ne hc ({ view } : Call)
  refine ⟨?_, ?_⟩
  · dsimp only
    rw [hsame]
    exact hstarted.facts
  · intro d call hd hcall t ht
    dsimp only at hcall ⊢
    rw [hsame]
    by_cases hnew : w.calls.length = d
    · subst hnew
      rw [List.getElem?_concat_length] at hcall
      obtain rfl := Option.some.inj hcall
      simp [Cell.fresh, Cell.handler?] at ht
    · rw [getElem?_append_singleton_ne hnew] at hcall
      exact h.apart d call hd hcall t ht

theorem Inv.newOwn (h : Inv c f w) (hphase : f.phase = .absent) (haims : f.aims = [])
    (hc : w.calls.length = c) (view : CallView) (hstage : view.stage.isTerminal = false) :
    Inv c (f.inPhase .preparing) { w with
      calls := w.calls ++ [{ view }]
      log := w.log ++ [.mark (.started c)] } := by
  have hnone : w.calls[c]? = none := by
    rw [List.getElem?_eq_none_iff]
    exact Nat.le_of_eq hc
  have hfacts := h.facts
  rw [hnone] at hfacts
  have hcall : (w.calls ++ [({ view } : Call)])[c]? = some { view } := by
    rw [← hc, List.getElem?_concat_length]
  refine ⟨?_, ?_⟩
  · dsimp only
    rw [hcall]
    exact hfacts.open hphase haims view hstage
  · intro d call hd hother t ht
    dsimp only at hother ⊢
    rw [getElem?_append_singleton_ne (hc.trans_ne hd.symm)] at hother
    have hfree := h.apart d call hd hother t ht
    rw [hcall]
    exact ⟨hfree.1, by simp [answerOf]⟩

/-- The call gets a new task for its caller, which nothing else resolves. -/
theorem Inv.awaited
    {φ : Phase} (h : Inv c (f.inPhase .launching) w) (haims : f.aims = []) {call : Call}
    (hcall : w.calls[c]? = some call) (ending : Cell TaskId)
    (houtcome : ending.outcome? = call.ending.outcome?) (hidle : φ.isIdle = false)
    (hstands : Stands c (some { call with ending, answer := some w.cells.length })
      (w.cells ++ [.fresh]) w.log φ) :
    Inv c (f.inPhase φ) { w with
      cells := w.cells ++ [.fresh]
      calls := w.calls.modify c fun call =>
        { call with ending, answer := some w.cells.length } } := by
  obtain ⟨x, hx, hanswer, -⟩ := h.facts.stands
  obtain rfl : call = x := Option.some.inj (hcall.symm.trans hx)
  have hnew := h.newTask.1.facts
  dsimp only at hnew
  rw [hcall] at hnew
  have hunaimed : ∀ cell ∈ w.cells ++ [.fresh], ∀ k, cell.handler? = some k →
      k.target? ≠ some w.cells.length := by
    intro cell hcell k hk htarget
    rcases List.mem_append.mp hcell with hold | hfresh
    · exact Nat.lt_irrefl _ (h.facts.aimed cell hold k hk _ htarget).1
    · rw [List.mem_singleton.mp hfresh] at hk
      simp [Cell.fresh, Cell.handler?] at hk
  have hfacts := hnew.await { call with ending, answer := some w.cells.length } haims rfl
    hanswer hunaimed rfl rfl houtcome rfl hidle hstands
  have hcall' := Inv.getElem?_modify_self hcall fun call =>
    { call with ending, answer := some w.cells.length }
  refine ⟨?_, ?_⟩
  · dsimp only
    rw [hcall']
    exact hfacts
  · intro d other hd hother t ht
    dsimp only at hother ⊢
    rw [Inv.getElem?_modify_other hd] at hother
    have hlt := (h.apart d other hd hother t ht).1
    rw [hcall']
    refine ⟨Nat.lt_of_lt_of_le hlt (by simp), ?_⟩
    simpa [answerOf] using Nat.ne_of_gt hlt

namespace Act

/-! ## Preparing a call -/

theorem write_keeps {e : Entry} (f : Frame) (he : e.isIncidental c = true)
    (hpresent : e.concerns c = true → f.phase.isAbsent = false) (stopped : Stop → World → Prop) :
    Triple (Inv c f) (write e) (fun _ => Inv c f) stopped := by
  refine Triple.of_world fun w hw => Triple.write_last (hw.logged he fun habsent => ?_)
  by_contra hconcerns
  have := hpresent (by simpa using hconcerns)
  simp [habsent] at this

theorem editView_keeps
    (f : Frame) (d : CallId) (g : CallView → CallView) (hstage : ∀ v, (g v).stage = v.stage)
    (stopped : Stop → World → Prop) :
    Triple (Inv c f) (editView d g) (fun _ => Inv c f) stopped := by
  refine Triple.of_world fun w hw => Triple.editCall_last ?_
  by_cases hd : d = c
  · subst hd
    cases hcall : w.calls[d]? with
    | none =>
        rw [List.modify_eq_self (List.getElem?_eq_none_iff.mp hcall)]
        exact hw
    | some call =>
        have hfacts := hw.facts
        rw [hcall] at hfacts
        exact hw.editOwn hcall _ (hfacts.recall (n := f.moving) (Nat.le_refl _) rfl rfl
          (.inl (hstage _))) rfl
  · exact hw.editOther hd _ fun call _ t ht => .inl ht

theorem reportAll_keeps
    (f : Frame) (reports : List Trace)
    (hreports : ∀ r ∈ reports, (Entry.trace r).concerns c = false)
    (stopped : Stop → World → Prop) :
    Triple (Inv c f) (reportAll reports) (fun _ => Inv c f) stopped := by
  rintro w hw
  change Inv c f { w with log := w.log ++ reports.map .trace }
  induction reports generalizing w with
  | nil => simpa using hw
  | cons r rest ih =>
      have hr := hreports r (by simp)
      have hfirst := hw.loggedOther hr
      have hrest := ih (fun x hx => hreports x (List.mem_cons_of_mem _ hx)) _ hfirst
      simpa using hrest

theorem noteMatch_keeps
    (f : Frame) (d : CallId) (m : RouteMatch) (hpresent : d = c → f.phase.isAbsent = false)
    (stopped : Stop → World → Prop) :
    Triple (Inv c f) (noteMatch d m) (fun _ => Inv c f) stopped := by
  unfold noteMatch
  refine Triple.bind (editView_keeps f d _ ?_ _) fun _ => ?_
  · exact fun _ => rfl
  refine Triple.bind (enter_keeps f d .matched (fun hown => ⟨rfl, hpresent hown⟩) _) fun _ => ?_
  refine Triple.get fun w hw => ((write_keeps f rfl fun hconcerns => hpresent ?_) _).apply hw
  simpa [Entry.concerns, World.callRef] using hconcerns

/-- A search reports nothing but itself. -/
theorem eq_lookedUp_of_mem_report
    {router : Router} {method path : String} {version : Nat} {t : Trace}
    (h : t ∈ router.report method path version) :
    ∃ text found, t = .lookedUp method text version found := by
  unfold Router.report at h
  split at h
  · simp at h
  · exact ⟨_, _, List.mem_singleton.mp h⟩

theorem liftBinder_triple
    {α : Type} {P : World → Prop} {stopped : Stop → World → Prop}
    (hpanic : ∀ p w, P w → stopped (.panic p) w) (b : Binder α) :
    Triple P (liftBinder b) (fun _ => P) stopped := by
  unfold liftBinder
  cases b.run with
  | ok result => exact Triple.pure fun _ => id
  | error p => exact Triple.raise (hpanic p)

/-- A call is looked up, matched, bound and moved on; it may fail in between. -/
theorem prepare_triple
    {dispatcher : Dispatcher} {d : CallId} {r : Request} {version : Nat} {P Q : World → Prop}
    {post : Except CallError (Route × Args) → World → Prop} {stopped : Stop → World → Prop}
    (hreport : ∀ router : Router,
      Triple P (reportAll (router.report r.method r.path version)) (fun _ => P) stopped)
    (hmatch : ∀ m, Triple P (noteMatch d m) (fun _ => Q) stopped)
    (hbinder : ∀ b : Binder (List ParamValue),
      Triple Q (calling d .binder (liftBinder b)) (fun _ => Q) stopped)
    (henter : ∀ bound, Triple Q (enter d .bound) (fun _ => post (.ok bound)) stopped)
    (hunmatched : ∀ e w, P w → post (.error e) w) (hunbound : ∀ e w, Q w → post (.error e) w) :
    Triple P (prepare dispatcher d r version) post stopped := by
  refine Triple.get fun w hw => Triple.apply (Triple.bind (hreport _) fun _ => ?_) hw
  cases w.table.router.find r.method r.path version with
  | none => exact Triple.pure (hunmatched _)
  | some m =>
      refine Triple.bind (hmatch m) fun _ => ?_
      cases r.sources with
      | error e => exact Triple.pure (hunbound e)
      | ok sources =>
          refine Triple.bind (hbinder _) fun result => ?_
          cases result with
          | error e => exact Triple.pure (hunbound e)
          | ok values => exact Triple.bind (henter _) fun _ => Triple.pure fun _ => id

theorem prepare_keeps
    (f : Frame) (dispatcher : Dispatcher) (d : CallId) (r : Request) (version : Nat)
    (hpresent : d = c → f.phase.isAbsent = false) :
    Triple (Inv c f) (prepare dispatcher d r version) (fun _ => Inv c f) (Kept c f false) := by
  refine prepare_triple (fun router => reportAll_keeps f _ (fun t ht => ?_) _)
    (fun m => noteMatch_keeps f d m hpresent _)
    (fun b => calling_kept (liftBinder_triple (fun p w hw => hw.kept _) b) d .binder hpresent)
    (fun _ => enter_keeps f d .bound (fun hown => ⟨rfl, hpresent hown⟩) _)
    (fun _ _ => id) fun _ _ => id
  obtain ⟨text, found, rfl⟩ := eq_lookedUp_of_mem_report ht
  rfl

section Jobs

variable {perform : Performer} (hp : Good c perform)

include hp

theorem start_keeps
    (f : Frame) (dispatcher : Dispatcher) (d : CallId) (r : Request) (version : Nat)
    (view : CallView) (hpresent : d = c → f.phase.isAbsent = false) :
    Triple (fun w => Inv c f { w with log := w.log ++ [.mark (.started d)] })
      (start perform dispatcher d r version view) (fun _ => Inv c f) (Kept c f false) := by
  unfold start
  refine Triple.of_world fun w hw => Triple.write ?_
  have honStart := calling_kept (run_keeps hp f none (dispatcher.listener.onStart view)) d .onStart
    hpresent
  refine Triple.bind (Triple.apply honStart hw) fun id => ?_
  refine Triple.bind (editView_keeps f d _ ?_ _) fun _ => ?_
  · exact fun _ => rfl
  exact prepare_keeps f dispatcher d r version hpresent

/-! ## Passing the stages -/

theorem launch_other
    (f : Frame) {d : CallId} (hd : d ≠ c) (prepared : Except CallError (Route × Args)) :
    Triple (Inv c f) (launch perform d prepared) (fun _ => Inv c f) (Kept c f false) := by
  unfold launch
  cases prepared with
  | ok prepared =>
      have hcall := callStage_keeps hp f ⟨d, prepared.1⟩ 0 prepared.2
      rw [if_neg hd] at hcall
      exact hcall.stops fun _ _ => Kept.undriven
  | error e => exact finish_other hp f hd (.error e)

/-- While nobody waits for the end of the call, no stop that a guard may capture leaves its
stages. -/
theorem launch_own
    (f : Frame) (hmoving : f.moving = 0) (prepared : Except CallError (Route × Args)) :
    Triple (Inv c (f.inPhase .preparing)) (launch perform c prepared)
      (fun _ => Inv c (f.inPhase .launching))
      fun s w => s.isHard = true ∧ Kept c (f.inPhase .launching) true s w := by
  have hhard : ∀ s w, Kept c (f.inPhase .launching) true s w →
      s.isHard = true ∧ Kept c (f.inPhase .launching) true s w := by
    intro s w hkept
    refine ⟨?_, hkept⟩
    by_contra hsoft
    have hphase := (hkept.soft (by simpa using hsoft)).2 rfl
    simp [Frame.inPhase, Phase.isSettled] at hphase
  refine Triple.of_world fun w hw => ?_
  have hlaunched : Inv c ((f.inPhase .launching).plus 1) w := by
    have hfacts := hw.facts.launch rfl
    refine ⟨?_, hw.apart⟩
    rw [Frame.plus, Frame.inPhase, hmoving]
    exact hfacts
  unfold launch
  cases prepared with
  | ok prepared =>
      have hcall := callStage_keeps hp (f.inPhase .launching) ⟨c, prepared.1⟩ 0 prepared.2
      rw [if_pos rfl, beq_self_eq_true] at hcall
      exact (hcall.stops hhard).apply hlaunched
  | error e =>
      obtain ⟨call, hcall, -, hending, -⟩ := hw.facts.stands
      have hfinish := finish_own hp (f.inPhase .launching) (.error e)
      refine (hfinish.stops hhard).apply ⟨.of_plus hlaunched _, ?_⟩
      simp [endOf, hcall, hending, Cell.fresh, Cell.outcome?]

/-! ## The task of the caller -/

theorem give_other (f : Frame) {d : CallId} (hd : d ≠ c) :
    Triple (Inv c f)
      (do
        let result ← newTask .fresh
        awaitEnd perform d result
        Pure.pure result)
      (fun _ => Inv c f) (Kept c f false) := by
  refine Triple.of_world fun w hw => Triple.newTask ?_
  obtain ⟨hnew, hfree⟩ := hw.newTask
  refine Triple.bind (m := fun _ => Inv c f) ?_ fun _ => Triple.pure fun _ => id
  unfold awaitEnd
  refine Triple.get ?_
  rintro _ rfl
  cases hcall : w.calls[d]? with
  | none => exact Triple.raise fun w' hw' => (hw' ▸ hnew).kept _
  | some call =>
      simp only [Option.bind_some]
      cases hattach : call.ending.attach w.cells.length with
      | none => exact Triple.raise fun w' hw' => (hw' ▸ hnew).kept _
      | some result =>
          obtain ⟨ending, outcome⟩ := result
          obtain ⟨-, hhandler⟩ := Cell.handler?_of_attach hattach
          have hedited := hnew.editOther hd (fun call =>
              { call with ending, answer := some w.cells.length }) fun before _ t ht => by
            rw [hhandler] at ht
            split at ht
            · exact .inr (Option.some.inj ht ▸ hfree)
            · simp at ht
          refine Triple.editCall ?_
          cases outcome with
          | none => exact Triple.done hedited
          | some o =>
              refine reportOther_keeps hp f hd hedited ?_ o
              dsimp only
              rw [List.getElem?_modify_ne _ _ hd]
              exact hfree

omit hp in
/-- The caller gets a new task, which waits for the end of the call or gets the report of it. -/
theorem awaitEnd_own
    {f : Frame} {w : World} (hw : Inv c (f.inPhase .launching) w) (haims : f.aims = [])
    {post : Unit → World → Prop} {stopped : Stop → World → Prop}
    (hwaits : ∀ w', Inv c (f.inPhase (.settled w.cells.length)) w' → post () w')
    (hdue : ∀ o, Triple (Inv c (f.inPhase (.due w.cells.length o)))
      (perform (.report c w.cells.length o)) post stopped) :
    Triple (· = { w with cells := w.cells ++ [.fresh] }) (awaitEnd perform c w.cells.length) post
      stopped := by
  obtain ⟨call, hcall, -, hending, htold⟩ := hw.facts.stands
  have hlt : w.cells.length < (w.cells ++ [Cell.fresh]).length := by simp
  have hopen : IsOpen w.cells.length (w.cells ++ [.fresh]) w.log :=
    .inl (by simp [outcomeOf, Cell.fresh, Cell.outcome?])
  unfold awaitEnd
  refine Triple.get ?_
  rintro _ rfl
  dsimp only
  rw [hcall, Option.bind_some]
  rcases hending with hfresh | ⟨o, hcached⟩
  · have hattach : call.ending.attach w.cells.length =
        some (.waiting (.handler w.cells.length), none) := by
      rw [hfresh]
      rfl
    rw [hattach]
    refine Triple.editCall (Triple.done (hwaits _ (hw.awaited haims hcall _ ?_ rfl
      ⟨_, rfl, rfl, hlt, .inl ⟨rfl, htold, hopen⟩⟩)))
    rw [hfresh]
    rfl
  · have hattach : call.ending.attach w.cells.length = some (.taken o, some o) := by
      rw [hcached]
      rfl
    rw [hattach]
    refine Triple.editCall ?_
    have hinv : Inv c (f.inPhase (.due w.cells.length o)) _ := hw.awaited haims hcall (.taken o)
      (by rw [hcached]; rfl) rfl ⟨_, rfl, rfl, hlt, rfl, htold, hopen⟩
    exact (hdue o).apply hinv

theorem give_own (f : Frame) (haims : f.aims = []) :
    Triple (Inv c (f.inPhase .launching))
      (do
        let result ← newTask .fresh
        awaitEnd perform c result
        Pure.pure result)
      (fun t => Inv c (f.inPhase (.settled t)))
      fun s w => ∃ t, Kept c (f.inPhase (.settled t)) false s w := by
  refine Triple.of_world fun w hw => Triple.newTask ?_
  refine Triple.bind (m := fun _ => Inv c (f.inPhase (.settled w.cells.length)))
    (awaitEnd_own hw haims (fun _ => id) fun o => ?_) fun _ => Triple.pure fun _ => id
  exact (hp.reportOwn f _ o).stops fun _ _ hkept => ⟨_, hkept.undriven⟩

/-! ## Dispatching -/

theorem dispatch_other (f : Frame) (dispatcher : Dispatcher) (r : Request) :
    Triple (fun w => Inv c f w ∧ w.calls.length ≠ c) (dispatch perform dispatcher r)
      (fun _ => Inv c f) (Kept c f false) := by
  unfold dispatch
  refine Triple.of_world ?_
  rintro w ⟨hw, hc⟩
  refine Triple.step rfl ?_
  have hstart := guarded_keeps (start_keeps hp f dispatcher w.calls.length r
    (r.version.getD dispatcher.config.defaultVersion)
    { method := r.method, path := r.path
      version := r.version.getD dispatcher.config.defaultVersion, transport := r.transport }
    fun hown => absurd hown hc)
  refine Triple.bind (Triple.apply (hstart.stops fun _ _ => And.right) (hw.newOther hc _))
    fun prepared => ?_
  exact Triple.bind (launch_other hp f hc _) fun _ => give_other hp f hc

theorem dispatch_own
    (f : Frame) (hmoving : f.moving = 0) (haims : f.aims = []) (dispatcher : Dispatcher)
    (r : Request) :
    Triple (fun w => Inv c (f.inPhase .absent) w ∧ w.calls.length = c)
      (dispatch perform dispatcher r) (fun t => Inv c (f.inPhase (.settled t)))
      fun s w => (∃ t, Kept c (f.inPhase (.settled t)) false s w) ∨
        (s.isHard = true ∧ ∃ g, g.phase.standing = some none ∧ Inv c g w) := by
  unfold dispatch
  refine Triple.of_world ?_
  rintro w ⟨hw, hc⟩
  refine Triple.step rfl ?_
  rw [hc]
  have hstart := guarded_keeps (start_keeps hp (f.inPhase .preparing) dispatcher c r
    (r.version.getD dispatcher.config.defaultVersion)
    { method := r.method, path := r.path
      version := r.version.getD dispatcher.config.defaultVersion, transport := r.transport }
    fun _ => rfl)
  refine Triple.bind (Triple.apply (hstart.stops ?_) (hw.newOwn rfl haims hc _ rfl))
    fun prepared => ?_
  · rintro s w' ⟨hhard, ⟨g, hphase, hg⟩, -⟩
    exact .inr ⟨hhard, g, hphase, hg⟩
  · refine Triple.bind ((launch_own hp f hmoving _).stops ?_)
      fun _ => (give_own hp f haims).stops fun _ _ => .inl
    rintro s w' ⟨hhard, ⟨g, hphase, hg⟩, -⟩
    exact .inr ⟨hhard, g, hphase, hg⟩

end Jobs

end Act
end RouteDispatch
