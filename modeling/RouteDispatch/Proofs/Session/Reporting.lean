import RouteDispatch.Proofs.Session.Passing

/-!
# Reporting the end of a call

The listener is told of the end of a call once, and then the task of the caller is resolved.  If
foreign code has resolved that task before, the resolution is refused, which is a hard stop.  With
the reports every kind of job keeps the invariant, so by induction on the depth of nesting all jobs
do.
-/

namespace RouteDispatch

variable {c : CallId} {f : Frame} {w : World}

/-! ## Entries of a report -/

theorem Inv.ended {t : TaskId} {o : Outcome} (h : Inv c (f.inPhase (.due t o)) w) :
    Inv c (f.inPhase (.reporting t o)) { w with log := w.log ++ [.mark (.ended c o)] } := by
  obtain ⟨call, hcall, hanswer, ht, hending, htold, hopen⟩ := h.facts.stands
  refine ⟨h.facts.entry (.of_idle rfl (by simp) rfl rfl (by simp)) ?_ (fun _ => rfl)
    ⟨call, hcall, hanswer, ht, hending, ?_, hopen.append _⟩, h.apart⟩
  · simp [Phase.isIdle]
  · simp [htold, Entry.end?]

/-- A second resolution of the caller's task is refused only if foreign code has resolved the
task. -/
theorem Inv.refused {t : TaskId} {o : Outcome} (h : Inv c (f.inPhase (.reporting t o)) w)
    (hresolved : .mark (.resolved t) ∈ w.log) :
    Inv c (f.inPhase (.reporting t o)) { w with log := w.log ++ [.mark (.refused c)] } := by
  have hstands := h.facts.stands
  obtain ⟨call, hcall, hanswer, -⟩ := hstands
  have hanswer' : answerOf w.calls[c]? = some t := by simp [answerOf, hcall, hanswer]
  exact ⟨h.facts.entry (.of_idle rfl (by simp) rfl rfl fun _ => ⟨t, hanswer', hresolved⟩) id id
    (h.facts.stands.append rfl (by simp [Frame.inPhase, Phase.isAbsent])), h.apart⟩

/-- What the caller's task may be resolved with after the listener was told of an outcome. -/
def MayAnswer (c : CallId) (o o' : Outcome) (log : List Entry) : Prop :=
  o' = o ∨ ((∃ p, .mark (.escaped c .onEnd p) ∈ log) ∧ ∃ m, o' = .error (.internal m))

theorem Inv.answered
    {t : TaskId} {o o' : Outcome} (h : Inv c (f.inPhase (.reporting t o)) w)
    (hmay : MayAnswer c o o' w.log) {cell cell' : Cell Completion} (hcell : w.cells[t]? = some cell)
    (turn : Cell.Turn Completion) (hafter : cell'.outcome? = some o')
    (hnone : cell'.handler? = none) {n : Nat} (hn : n ≤ cellLoad c cell + f.moving) :
    Inv c { f.inPhase (.settled t) with moving := n } (w.turn t turn cell') := by
  obtain ⟨call, hcall, hanswer, ht, hending, htold, hopen⟩ := h.facts.stands
  have hlength : (w.cells.set t cell').length = w.cells.length := by simp
  have hset := carried_set (c := c) hcell cell' w.calls[c]?
  have hload : cellLoad c cell' = 0 := by simp [cellLoad, hnone]
  have hstands : Stands c w.calls[c]? (w.cells.set t cell') w.log (.settled t) :=
    ⟨call, hcall, hanswer, by rwa [hlength], .inr ⟨o, hending, htold, o',
      by rw [outcomeOf_set_self hcell, hafter], hmay⟩⟩
  refine ⟨h.facts.recell ?_ (Nat.le_of_eq hlength.symm) ?_ ?_ (fun _ => rfl) hstands, ?_⟩
  · simp only [Frame.inPhase, World.turn_cells]
    omega
  · intro x hx k hk u hu
    rcases List.mem_or_eq_of_mem_set hx with hmem | rfl
    · have hfree := h.facts.aimed x hmem k hk u hu
      exact ⟨hlength.symm ▸ hfree.1, hfree.2⟩
    · simp [hnone] at hk
  · simp [Frame.inPhase, Phase.isIdle]
  · intro d other hd hother u hu
    have hfree := h.apart d other hd hother u hu
    exact ⟨hlength.symm ▸ hfree.1, hfree.2⟩

namespace Act

section Jobs

variable {perform : Performer} (hp : Good c perform)

include hp

/-! ## The report of another call -/

theorem tell_other (f : Frame) (dispatcher : Dispatcher) {d : CallId} (hd : d ≠ c) (o : Outcome) :
    Triple (Inv c f) (tell perform dispatcher d o) (fun _ => Inv c f) (Kept c f false) := by
  unfold tell
  refine Triple.of_world fun w hw => Triple.write ?_
  have hended : Inv c f { w with log := w.log ++ [.mark (.ended d o)] } :=
    hw.loggedOther (by simpa [Entry.concerns] using hd)
  have hlistener := fun code : Code .nothing =>
    calling_kept (run_keeps hp f none code) d .onEnd fun hown => absurd hown hd
  refine Triple.get ?_
  rintro _ rfl
  dsimp only
  cases w.calls[d]? with
  | none => exact Triple.done hended
  | some call =>
      cases o with
      | ok v => exact (hlistener _).apply hended
      | error e => exact (hlistener _).apply hended

theorem answer_other (f : Frame) {d : CallId} (hd : d ≠ c) {t : TaskId} (ht : t ∈ f.aims)
    (o : Outcome) :
    Triple (Inv c f) (answer perform d t o) (fun _ => Inv c f) (Kept c f false) := by
  unfold answer
  refine Triple.bind ((settle_keeps hp f t o).weaken (fun w hw => ⟨hw, fun hanswer => ?_⟩)
    (fun _ _ => id) fun _ _ => id) fun settled => ?_
  · exact absurd hanswer (hw.facts.free t ht).2
  · cases settled with
    | true => exact Triple.pure fun _ => id
    | false => exact refuse_other f hd

theorem report_other (f : Frame) (dispatcher : Dispatcher) {d : CallId} (hd : d ≠ c) {t : TaskId}
    (ht : t ∈ f.aims) (o : Outcome) :
    Triple (Inv c f) (report perform dispatcher d t o) (fun _ => Inv c f) (Kept c f false) := by
  unfold report
  refine Triple.bind ((guarded_keeps (tell_other hp f dispatcher hd o)).stops fun _ _ => And.right)
    fun result => ?_
  cases result with
  | ok v => exact answer_other hp f hd ht o
  | error e => exact answer_other hp f hd ht (.error e)

/-! ## The report of the call itself -/

theorem tell_own (f : Frame) (dispatcher : Dispatcher) (t : TaskId) (o : Outcome) :
    Triple (Inv c (f.inPhase (.due t o))) (tell perform dispatcher c o)
      (fun _ => Inv c (f.inPhase (.reporting t o)))
      fun s w => Kept c (f.inPhase (.reporting t o)) false s w ∧ JustEscaped c .onEnd s w := by
  unfold tell
  refine Triple.of_world fun w hw => Triple.write (Triple.get ?_)
  rintro _ rfl
  dsimp only
  have hended := hw.ended
  cases w.calls[c]? with
  | none => exact Triple.done hended
  | some call =>
      cases o with
      | ok v => exact (calling_keeps (run_keeps hp _ none _) c .onEnd fun _ => rfl).apply hended
      | error e => exact (calling_keeps (run_keeps hp _ none _) c .onEnd fun _ => rfl).apply hended

/-- After a stop in the resolution of the caller's task the call has ended. -/
theorem answer_own (f : Frame) (t : TaskId) (o o' : Outcome) :
    Triple
      (fun w => Inv c ((f.knowing true).inPhase (.reporting t o)) w ∧ MayAnswer c o o' w.log)
      (answer perform c t o') (fun _ => Inv c (f.inPhase (.settled t)))
      (Kept c (f.inPhase (.settled t)) true) := by
  unfold answer
  refine Triple.bind (m := fun settled w =>
    match settled with
    | true => Inv c ((f.knowing true).inPhase (.settled t)) w
    | false => Inv c ((f.knowing true).inPhase (.reporting t o)) w ∧ .mark (.resolved t) ∈ w.log)
    ?_ fun settled => ?_
  -- Only foreign code can have resolved the task before; then the end is refused.
  · unfold settle
    refine Triple.get ?_
    rintro w ⟨hw, hmay⟩
    obtain ⟨call, hcall, hanswer, ht, hending, htold, hopen⟩ := hw.facts.stands
    have hcell : w.cells[t]? = some w.cells[t] := List.getElem?_eq_getElem ht
    rw [hcell]
    dsimp only
    cases hsettle : w.cells[t].settle o' with
    | none =>
        have hdone := Cell.settle_eq_none_iff.mp hsettle
        refine Triple.done ⟨hw, hopen.resolve_left ?_⟩
        simpa [outcomeOf, hcell] using hdone
    | some result =>
        obtain ⟨cell', follow⟩ := result
        obtain ⟨-, hafter⟩ := Cell.outcome?_of_settle hsettle
        obtain ⟨hnone, hhandler⟩ := Cell.handler?_of_settle hsettle
        refine Triple.setCell ((follow_keeps hp ((f.knowing true).inPhase (.settled t)) hsettle
          ?_ ?_).weaken (fun _ => id) ?_ ?_)
        · intro k hk u hu
          have hfree := hw.facts.aimed _ (List.mem_of_getElem? hcell) k (hhandler.trans hk) u hu
          exact ⟨by simpa using hfree.1, hfree.2⟩
        · exact fun n hn => hw.answered hmay hcell _ hafter hnone hn
        · rintro settled w' ⟨rfl, hw'⟩
          exact hw'
        · exact fun s w' hkept => ⟨hkept.sound, fun hsoft => ⟨hkept.inv hsoft, fun _ => rfl⟩⟩
  · cases settled with
    | true =>
        refine Triple.pure fun w hw => ?_
        have hknown : Inv c ((f.inPhase (.settled t)).knowing true) w := hw
        exact hknown.unknowing
    | false =>
        refine Triple.of_world ?_
        rintro w ⟨hw, hresolved⟩
        unfold refuse
        refine Triple.write (Triple.raise ?_)
        rintro _ rfl
        exact (hw.refused hresolved).kept_of_hard rfl rfl

theorem report_own (f : Frame) (dispatcher : Dispatcher) (t : TaskId) (o : Outcome) :
    Triple (Inv c (f.inPhase (.due t o))) (report perform dispatcher c t o)
      (fun _ => Inv c (f.inPhase (.settled t))) (Kept c (f.inPhase (.settled t)) true) := by
  unfold report
  refine Triple.of_world fun w hw => ?_
  have hknown : Inv c ((f.knowing true).inPhase (.due t o)) w := by
    obtain ⟨call, hcall, -, -, hending, -⟩ := hw.facts.stands
    refine hw.knowing ?_ true
    simp [endOf, hcall, hending, Cell.outcome?]
  have htell := (tell_own hp (f.knowing true) dispatcher t o).guarded
  refine Triple.bind (Triple.apply (htell.stops ?_) hknown) fun result => ?_
  · rintro s w' ⟨hhard, hkept, -⟩
    exact .of_hard hkept.sound hhard
  · cases result with
    | ok v =>
        exact (answer_own hp f t o o).strengthen fun _ hw => ⟨hw, .inl rfl⟩
    | error e =>
        refine (answer_own hp f t o (.error e)).strengthen ?_
        rintro _ ⟨p, w₀, hsoft, ⟨hkept, hescaped⟩, rfl, rfl⟩
        obtain ⟨front, hfront⟩ := hescaped p rfl
        refine ⟨(hkept.inv hsoft).logged rfl fun _ => rfl, .inr ⟨⟨p, ?_⟩, _, rfl⟩⟩
        simp [hfront]

end Jobs

end Act

/-! ## All jobs -/

/-- Jobs keep the invariant of every call, however deep they may be nested. -/
theorem perform_good (dispatcher : Dispatcher) (c : CallId) (depth : Nat) :
    Good c (perform dispatcher depth) := by
  -- A job hands further jobs to the depth below, so each case needs the hypothesis as a whole.
  induction depth with
  | zero =>
      refine ⟨fun f h o _ => ?_, fun f k payload => ?_, fun f d t o _ _ => ?_, fun f t o => ?_⟩
      · exact Act.Triple.throw fun w hw => hw.kept_of_hard rfl rfl
      · exact Act.Triple.throw fun w hw => hw.kept_of_hard rfl rfl
      · exact Act.Triple.throw fun w hw => hw.kept _
      · exact Act.Triple.throw fun w hw => hw.kept_of_hard rfl rfl
  | succ depth ih =>
      exact
        { complete := fun f h o htarget => Act.complete_keeps ih f h o htarget
          goOn := fun f k payload => Act.goOn_keeps ih f k payload
          reportOther := fun f d t o hd ht => Act.report_other ih f dispatcher hd ht o
          reportOwn := fun f t o => Act.report_own ih f dispatcher t o }

end RouteDispatch
