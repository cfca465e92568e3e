import RouteDispatch.Proofs.Session.Keeping

/-!
# The end of a call

A call ends in one act: it enters its last stage, the cell of its end gets the outcome, and if its
caller has a task by then the end is reported.  `Ending` says when the invariant allows that.
-/

namespace RouteDispatch

variable {c : CallId} {f : Frame} {w : World}

/-- If the call is running it may end with the outcome, and then the invariant holds inside the
frame; if it has ended it holds already. -/
structure Ending (c : CallId) (f : Frame) (o : Outcome) (w : World) : Prop where
  loose : Inv c f.loose w
  active : f.phase.isIdle = false
  late : endOf w.calls[c]? ≠ none → Inv c f w
  mayClose : endOf w.calls[c]? = none → MayClose c f w.calls[c]? w.cells w.log o
  strict : endOf w.calls[c]? = none → Inv c f w ∨ ∃ m, o = .error (.internal m)

/-- What ending a call needs of the invariant of another call, or of its own. -/
def MayEnd (c : CallId) (f : Frame) (d : CallId) (o : Outcome) (w : World) : Prop :=
  (d = c → Ending c f o w) ∧ (d ≠ c → Inv c f w)

theorem Ending.closed
    {o : Outcome} (h : Ending c f o w) {call : Call} (hcall : w.calls[c]? = some call)
    (hrunning : call.ending.outcome? = none) (ending : Cell TaskId)
    (hending : ending.outcome? = some o) (φ : Phase) (hidle : φ.isIdle = false)
    (hstands : Stands c
      (some { call with view := { call.view with stage := .ofOutcome o }, ending }) w.cells
      (w.log ++ [.trace (.entered (w.callRef c) call.view.stage (.ofOutcome o))]) φ) :
    Inv c ((f.knowing true).inPhase φ)
      { w with
        log := w.log ++ [.trace (.entered (w.callRef c) call.view.stage (.ofOutcome o))]
        calls := (w.calls.modify c fun call =>
          { call with view := { call.view with stage := .ofOutcome o } }).modify c fun call =>
          { call with ending } } := by
  have hnone : endOf w.calls[c]? = none := by simp [endOf, hcall, hrunning]
  have hclose := h.mayClose hnone
  rw [hcall] at hclose
  let last : Call := { call with view := { call.view with stage := .ofOutcome o }, ending }
  have hfacts : Facts c ((f.knowing true).inPhase φ) (some last) w.cells
      (w.log ++ [.trace (.entered (w.callRef c) call.view.stage (.ofOutcome o))]) := by
    rcases h.strict hnone with hinv | hinternal
    · have hfacts := hinv.facts
      rw [hcall] at hfacts
      exact hfacts.close last hrunning hclose rfl rfl rfl hending rfl _ hidle
        (fun hstrict => .inl hstrict) hstands
    · have hfacts := h.loose.facts
      rw [hcall] at hfacts
      exact hfacts.close last hrunning ⟨hclose.severed, hclose.captured⟩ rfl rfl rfl hending rfl _
        hidle (fun _ => .inr hinternal) hstands
  refine h.loose.replaceOwn _ hcall ?_ ?_ ?_ ?_ hfacts
  · exact Inv.getElem?_modify_self (w := { w with calls := w.calls.modify c _ })
      (Inv.getElem?_modify_self hcall _) _
  · intro d hd
    exact (Inv.getElem?_modify_other (w := { w with calls := w.calls.modify c _ }) hd _).trans
      (Inv.getElem?_modify_other hd _)
  · rfl
  · rfl

theorem World.isRunning_iff {d : CallId} :
    w.isRunning d = true ↔ ∃ call, w.calls[d]? = some call ∧ call.ending.outcome? = none := by
  unfold World.isRunning
  cases hcall : w.calls[d]? with
  | none => simp
  | some call => simp [Cell.state_eq_waiting_iff]

namespace Act

/-! ## Entering a stage -/

theorem exec_enter_open
    {d : CallId} {call : Call} (hcall : w.calls[d]? = some call)
    (hopen : call.view.stage.isTerminal = false) (stage : Stage) :
    (enter d stage).exec w =
      (.ok (), { w with
        log := w.log ++ [.trace (.entered (w.callRef d) call.view.stage stage)]
        calls := w.calls.modify d fun call =>
          { call with view := { call.view with stage } } }) := by
  unfold enter
  rw [exec_get_bind, hcall]
  simp only [hopen, Bool.false_eq_true, if_false]
  rfl

/-- A call that is in a last stage stays there. -/
theorem exec_enter_last
    {d : CallId} {call : Call} (hcall : w.calls[d]? = some call)
    (hlast : call.view.stage.isTerminal = true) (stage : Stage) :
    (enter d stage).exec w = (.ok (), w) := by
  unfold enter
  rw [exec_get_bind, hcall]
  simp only [hlast, if_true]
  rfl

/-- A stage that is not the last keeps the invariant, and so does any stage of another call. -/
theorem enter_keeps
    (f : Frame) (d : CallId) (stage : Stage)
    (hown : d = c → stage.isTerminal = false ∧ f.phase.isAbsent = false)
    (stopped : Stop → World → Prop) :
    Triple (Inv c f) (enter d stage) (fun _ => Inv c f) stopped := by
  unfold enter
  refine Triple.get fun w hw => ?_
  cases hcall : w.calls[d]? with
  | none => exact Triple.done hw
  | some call =>
      dsimp only
      by_cases hlast : call.view.stage.isTerminal = true
      · rw [if_pos hlast]
        exact Triple.done hw
      · rw [if_neg hlast]
        have hopen : call.view.stage.isTerminal = false := by simpa using hlast
        refine Triple.write (Triple.editCall_last ?_)
        by_cases hd : d = c
        · subst hd
          obtain ⟨hstage, hpresent⟩ := hown rfl
          have hentry : Inv d f { w with log := w.log ++
              [.trace (.entered (w.callRef d) call.view.stage stage)] } := by
            refine hw.logged ?_ fun habsent => ?_
            · simp [Entry.isIncidental, Entry.startsStage, Entry.closes, Entry.spends, Entry.end?,
                hstage]
            · simp [hpresent] at habsent
          have hfacts := hentry.facts
          rw [show ({ w with log := _ } : World).calls[d]? = some call from hcall] at hfacts
          exact hentry.editOwn hcall _ (hfacts.recall (n := f.moving) (Nat.le_refl _) rfl rfl
            (.inr ⟨hopen, hstage⟩)) rfl
        · have hentry : Inv c f { w with log := w.log ++
              [.trace (.entered (w.callRef d) call.view.stage stage)] } := by
            refine hw.loggedOther ?_
            simpa [Entry.concerns, World.callRef] using hd
          exact hentry.editOther hd _ fun call _ t ht => .inl ht

/-! ## Ending another call -/

theorem refuse_other (f : Frame) {d : CallId} (hd : d ≠ c) :
    Triple (Inv c f) (refuse d) (fun _ => Inv c f) (Kept c f false) := by
  unfold refuse
  refine Triple.of_world fun w hw => Triple.write (Triple.raise ?_)
  rintro _ rfl
  have hrefused : Inv c f { w with log := w.log ++ [.mark (.refused d)] } :=
    hw.loggedOther (by simpa [Entry.concerns] using hd)
  exact hrefused.kept _

section Jobs

variable {perform : Performer} (hp : Good c perform)

include hp

/-- The report of another call's end resolves the task that the call waits for. -/
theorem reportOther_keeps
    (f : Frame) {d : CallId} (hd : d ≠ c) {w : World} (hw : Inv c f w)
    {t : TaskId} (hfree : IsFree w.calls[c]? w.cells t) (o : Outcome) :
    Triple (· = w) (perform (.report d t o)) (fun _ => Inv c f) (Kept c f false) := by
  have hreport := hp.reportOther (f.aiming (some t)) d t o hd (by simp [Frame.aiming])
  refine Triple.apply (hreport.weaken (fun _ => id) (fun _ _ => Inv.unaiming)
    fun _ _ hkept => hkept.unaiming) (hw.aiming (some t) ?_)
  exact fun u hu => Option.some.inj hu ▸ hfree

theorem conclude_other (f : Frame) {d : CallId} (hd : d ≠ c) (o : Outcome) :
    Triple (Inv c f) (conclude perform d o) (fun _ => Inv c f) (Kept c f false) := by
  unfold conclude
  refine Triple.get fun w hw => ?_
  cases hcall : w.calls[d]? with
  | none => exact (refuse_other f hd).apply hw
  | some call =>
      simp only [Option.bind_some]
      cases hsettle : call.ending.settle o with
      | none => exact (refuse_other f hd).apply hw
      | some result =>
          obtain ⟨ending, follow⟩ := result
          obtain ⟨hnone, hhandler⟩ := Cell.handler?_of_settle hsettle
          have hedited : Inv c f { w with calls := w.calls.modify d fun call =>
              { call with ending } } := by
            refine hw.editOther hd _ fun before hbefore t ht => ?_
            simp [hnone] at ht
          refine Triple.editCall ?_
          cases follow with
          | quiet => exact Triple.done hedited
          | wake label => exact Triple.done hedited
          | run t =>
              refine reportOther_keeps hp f hd hedited ?_ o
              have hfree := hw.apart d call hd hcall t hhandler
              dsimp only
              rw [List.getElem?_modify_ne _ _ hd]
              exact hfree

theorem finish_other (f : Frame) {d : CallId} (hd : d ≠ c) (o : Outcome) :
    Triple (Inv c f) (finish perform d o) (fun _ => Inv c f) (Kept c f false) :=
  Triple.bind (enter_keeps f d _ (fun hown => absurd hown hd) _) fun _ =>
    conclude_other hp f hd o

/-! ## Ending the call itself -/

/-- A running call ends.  If its caller has a task the end is reported at once. -/
theorem finish_own (f : Frame) (o : Outcome) :
    Triple (fun w => Ending c f o w ∧ endOf w.calls[c]? = none)
      (finish perform c o) (fun _ => Inv c f) (Kept c f true) := by
  unfold finish
  refine Triple.of_world ?_
  rintro w ⟨hw, hnone⟩
  obtain ⟨call, hcall⟩ := hw.loose.exists_call (Inv.isAbsent_of_isIdle hw.active)
  have hrunning : call.ending.outcome? = none := by simpa [endOf, hcall] using hnone
  have hopen := (hw.loose.facts.staged call hcall).1 hrunning
  have hstands := hw.loose.facts.stands
  rw [hcall] at hstands
  refine Triple.step (exec_enter_open hcall hopen _) ?_
  unfold conclude
  refine Triple.get ?_
  rintro _ rfl
  dsimp only
  rw [Inv.getElem?_modify_self hcall]
  simp only [Option.bind_some]
  change Stands c (some call) w.cells w.log f.phase at hstands
  have htold : told c (w.log ++ [.trace (.entered (w.callRef c) call.view.stage (.ofOutcome o))]) =
      told c w.log := by
    simp [Entry.end?]
  have hactive := hw.active
  cases hφ : f.phase with
  | absent => simp [hφ, Phase.isIdle] at hactive
  | preparing => simp [hφ, Phase.isIdle] at hactive
  | due t o' =>
      rw [hφ] at hstands
      obtain ⟨x, hx, -, -, hending, -⟩ := hstands
      obtain rfl : call = x := Option.some.inj hx
      simp [hending, Cell.outcome?] at hrunning
  | reporting t o' =>
      rw [hφ] at hstands
      obtain ⟨x, hx, -, -, hending, -⟩ := hstands
      obtain rfl : call = x := Option.some.inj hx
      simp [hending, Cell.outcome?] at hrunning
  | launching =>
      rw [hφ] at hstands
      obtain ⟨x, hx, hanswer, hending, htold'⟩ := hstands
      obtain rfl : call = x := Option.some.inj hx
      have hfresh : call.ending = .fresh := by
        rcases hending with hfresh | ⟨o', hcached⟩
        · exact hfresh
        · simp [hcached, Cell.outcome?] at hrunning
      have hsettle : call.ending.settle o = some (.cached o false, .quiet) := by
        rw [hfresh]
        rfl
      rw [hsettle]
      refine Triple.editCall (Triple.done ?_)
      have hclosed := hw.closed hcall hrunning (.cached o false) rfl
        .launching rfl ⟨_, rfl, hanswer, .inr ⟨o, rfl⟩, htold.trans htold'⟩
      exact hclosed.forget f hφ (Nat.le_refl _) (fun _ => rfl) id fun _ => id
  | settled t =>
      rw [hφ] at hstands
      obtain ⟨x, hx, hanswer, ht, hstate⟩ := hstands
      obtain rfl : call = x := Option.some.inj hx
      rcases hstate with ⟨hending, htold', hisOpen⟩ | ⟨o', hending, -⟩
      · have hsettle : call.ending.settle o = some (.taken o, .run t) := by
          rw [hending]
          rfl
        rw [hsettle]
        refine Triple.editCall ?_
        have hclosed := hw.closed hcall hrunning (.taken o) rfl
          (.due t o) rfl ⟨_, rfl, hanswer, ht, rfl, htold.trans htold', hisOpen.append _⟩
        have hreport := hp.reportOwn (f.knowing true) t o
        obtain ⟨moving, aims, ended, strict, phase⟩ := f
        obtain rfl : phase = .settled t := hφ
        refine (hreport.weaken (fun _ => id) (fun _ w' hw' => ?_) fun s w' hs => ?_).apply hclosed
        · exact hw'.forget _ rfl (Nat.le_refl _) (fun _ => rfl) id fun _ => id
        · exact ⟨hs.sound, fun hsoft => ⟨(hs.soft hsoft).1.unknowing, fun _ => rfl⟩⟩
      · simp [hending, Cell.outcome?] at hrunning

/-! ## Ends that come late -/

/-- A call is ended unless it has ended, which is then reported. -/
theorem finishOrReport_keeps
    (f : Frame) (d : CallId) (o : Outcome) (late : World → Entry)
    (hlate : ∀ w, (late w).isIncidental c = true)
    (hconcerns : ∀ w, (late w).concerns c = true → d = c) :
    Triple (MayEnd c f d o)
      (do
        let w ← get
        if w.isRunning d then finish perform d o else write (late w))
      (fun _ => Inv c f) (Kept c f (d == c)) := by
  refine Triple.get fun w hw => ?_
  by_cases hown : d = c
  · subst hown
    have hending := hw.1 rfl
    have hdrives : (d == d) = true := by simp
    rw [hdrives]
    by_cases hrunning : w.isRunning d = true
    · rw [if_pos hrunning]
      obtain ⟨call, hcall, hnone⟩ := World.isRunning_iff.mp hrunning
      exact (finish_own hp f o).apply ⟨hending, by simp [endOf, hcall, hnone]⟩
    · rw [if_neg hrunning]
      have hpresent := Inv.isAbsent_of_isIdle hending.active
      obtain ⟨call, hcall⟩ := hending.loose.exists_call hpresent
      have hended : endOf w.calls[d]? ≠ none := by
        intro hnone
        exact hrunning (World.isRunning_iff.mpr ⟨call, hcall, by simpa [endOf, hcall] using hnone⟩)
      refine Triple.write_last ((hending.late hended).logged (hlate w) fun habsent => ?_)
      simp [hpresent] at habsent
  · have hinv := hw.2 hown
    have hdrives : (d == c) = false := by simpa using hown
    rw [hdrives]
    by_cases hrunning : w.isRunning d = true
    · rw [if_pos hrunning]
      exact (finish_other hp f hown o).apply hinv
    · rw [if_neg hrunning]
      refine Triple.write_last (hinv.logged (hlate w) fun _ => ?_)
      by_contra hconcerns'
      exact hown (hconcerns w (by simpa using hconcerns'))

theorem fail_keeps (f : Frame) (p : Pipeline) (e : CallError) :
    Triple (MayEnd c f p.call (.error e)) (fail perform p e) (fun _ => Inv c f)
      (Kept c f (p.call == c)) := by
  refine finishOrReport_keeps hp f p.call (.error e)
    (fun w => .trace (.lateFailure (w.callRef p.call) p.route.name e)) (fun _ => rfl) ?_
  intro w hconcerns
  simpa [Entry.concerns, World.callRef] using hconcerns

theorem succeed_keeps (f : Frame) (p : Pipeline) (v : Json) :
    Triple (MayEnd c f p.call (.ok v)) (succeed perform p v) (fun _ => Inv c f)
      (Kept c f (p.call == c)) := by
  refine finishOrReport_keeps hp f p.call (.ok v)
    (fun w => .trace (.lateResult (w.callRef p.call) p.route.name)) (fun _ => rfl) ?_
  intro w hconcerns
  simpa [Entry.concerns, World.callRef] using hconcerns

end Jobs

end Act
end RouteDispatch
