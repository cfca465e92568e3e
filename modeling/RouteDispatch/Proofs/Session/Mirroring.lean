import RouteDispatch.Proofs.Session.Mirror
import RouteDispatch.Proofs.Session.Dispatching

/-!
# Work for one call in two runs

Everything that the library does for a call in two mirrored worlds matches, if the code of the call
is local and the jobs match that it causes.  There is one lemma for each operation, and an induction
on pairs of alike code.  By induction on the depth all jobs of the call match, and so does its
dispatch.
-/

namespace RouteDispatch

/-- What is seen of a call at first. -/
def Request.firstView (d : Dispatcher) (r : Request) : CallView :=
  { method := r.method
    path := r.path
    version := r.version.getD d.config.defaultVersion
    transport := r.transport }

/-- What a dispatch does once the call has been made. -/
def Act.pursue (perform : Performer) (d : Dispatcher) (c : CallId) (r : Request) :
    Act TaskId := do
  let view := r.firstView d
  let prepared ← guarded (start perform d c r view.version view)
  launch perform c (prepared.bind id)
  let result ← newTask .fresh
  awaitEnd perform c result
  pure result

theorem Act.exec_dispatch (perform : Performer) (d : Dispatcher) (r : Request) (w : World) :
    (Act.dispatch perform d r).exec w = (Act.pursue perform d w.calls.length r).exec
      { w with calls := w.calls ++ [{ view := r.firstView d }] } :=
  rfl

namespace Scene

abbrev AlikeContinuations (S : Scene) : Continuation → Continuation → Prop :=
  Continuation.Alike S.ids S.call S.call'

/-- Jobs that are the same work for the call. -/
inductive AlikeJobs (S : Scene) (ρ : Pairing) : Job → Job → Prop
  | complete {h h' : Completion} (hh : S.AlikeCompletions ρ h h') (o : Outcome) :
      AlikeJobs S ρ (.complete h o) (.complete h' o)
  | goOn {k k' : Continuation} (hk : S.AlikeContinuations k k') (payload : Payload) :
      AlikeJobs S ρ (.goOn k payload) (.goOn k' payload)
  | report {into into' : TaskId} (hinto : (into, into') ∈ ρ) (o : Outcome) :
      AlikeJobs S ρ (.report S.call into o) (.report S.call' into' o)

/-- The jobs that are performed for the call match. -/
def Performs (S : Scene) (perform : Performer) : Prop :=
  ∀ {ρ : Pairing} {job job' : Job}, S.AlikeJobs ρ job job' →
    S.Mirrors ρ (perform job) (perform job')

namespace Matches

variable {S : Scene} {ρ : Pairing} {α β : Type}

/-! ## Single changes -/

theorem write {e e' : Entry} (he : e.anonymous = e'.anonymous)
    (hown : ∀ d, e.concerns d = true → d = S.call) :
    S.Mirrors ρ (Act.write e) (Act.write e') :=
  modify fun _ _ _ _ hw => hw.logged he hown

/-- An entry that is about the call. -/
theorem write_own {e e' : Entry} (he : e.anonymous = e'.anonymous)
    (hown : ∀ d, e.concerns d = (S.call == d)) : S.Mirrors ρ (Act.write e) (Act.write e') :=
  write he fun d hd => (eq_of_beq ((hown d).symm.trans hd)).symm

/-- An entry that is about no call. -/
theorem write_free {e e' : Entry} (he : e.anonymous = e'.anonymous)
    (hfree : ∀ d, e.concerns d = false) : S.Mirrors ρ (Act.write e) (Act.write e') :=
  write he fun d hd => absurd hd (by simp [hfree d])

theorem editCall {g g' : Call → Call} (hg : ∀ ρ' x x', ρ ⊆ ρ' → Call.Alike S.ids ρ' x x' →
    (g x).Alike S.ids ρ' (g' x')) :
    S.Mirrors ρ (Act.editCall S.call g) (Act.editCall S.call' g') :=
  modify fun ρ' _ _ hsub hw => hw.edited fun x x' => hg ρ' x x' hsub

theorem editView {g g' : CallView → CallView}
    (hg : ∀ v v', v.Alike S.ids v' → (g v).Alike S.ids (g' v')) :
    S.Mirrors ρ (Act.editView S.call g) (Act.editView S.call' g') :=
  editCall fun _ _ _ _ hx => ⟨hg _ _ hx.view, hx.held, hx.ending, hx.answer⟩

theorem enter (stage : Stage) :
    S.Mirrors ρ (Act.enter S.call stage) (Act.enter S.call' stage) := by
  refine get fun ρ' w w' _ hw => ?_
  obtain ⟨x, x', hx, hx', halike⟩ := hw.call
  simp only [hx, hx', halike.view.stage]
  by_cases hlast : x.view.stage.isTerminal = true
  · rw [if_pos hlast, if_pos hlast]
    exact (skip ()).here hw
  · rw [if_neg hlast, if_neg hlast]
    refine here (seq (write_own rfl fun _ => rfl) fun _ _ => editView ?_) hw
    rintro v v' ⟨hid, hv⟩
    exact ⟨hid, by rw [hv]⟩

theorem setCell (hS : S.IsSet) {t t' : TaskId} (ht : (t, t') ∈ ρ)
    {cell cell' : Cell Completion} (hcell : cell.Alike (S.AlikeCompletions ρ) cell')
    (turn turn' : Cell.Turn Completion) :
    S.Mirrors ρ (Act.setCell t turn cell) (Act.setCell t' turn' cell') :=
  modify fun _ _ _ hsub hw =>
    hw.turned hS (hsub ht) (hcell.mono fun _ _ hh => hh.mono hsub) turn turn'

theorem newTask :
    S.Matches ρ (Act.newTask .fresh) (Act.newTask .fresh) fun ρ' t t' => (t, t') ∈ ρ' :=
  fun _ _ _ _ hw => ⟨_, List.subset_append_left _ _, hw.created, .ok (by simp)⟩

theorem tick : S.Mirrors ρ Act.tick Act.tick :=
  fun ρ' _ w w' hw => ⟨ρ', List.Subset.refl _, hw.others w.names w'.names _ _, .ok trivial⟩

theorem register (name : String) (t t' : TaskId) :
    S.Mirrors ρ (MonadStateOf.modifyGet fun w => ((), World.register name t w) : Act Unit)
      (MonadStateOf.modifyGet fun w => ((), World.register name t' w)) :=
  modify fun _ w w' _ hw => hw.others _ _ w.ticks w'.ticks

theorem unregister (name : String) :
    S.Mirrors ρ (MonadStateOf.modifyGet fun w => ((), World.unregister name w) : Act Unit)
      (MonadStateOf.modifyGet fun w => ((), World.unregister name w)) :=
  modify fun _ w w' _ hw => hw.others _ _ w.ticks w'.ticks

/-! ## Guards -/

theorem calling {a a' : Act α} {R : Pairing → α → α → Prop} (ha : S.Matches ρ a a' R)
    (piece : Piece) :
    S.Matches ρ (Act.calling S.call piece a) (Act.calling S.call' piece a') R := by
  refine tryCatch ha fun s => ?_
  cases s with
  | panic p => exact seq (write_own rfl fun _ => rfl) fun _ _ => throw _
  | tooDeep => exact throw _

theorem guarded {a a' : Act α} {R : Pairing → α → α → Prop} (ha : S.Matches ρ a a' R) :
    S.Matches ρ (Act.guarded a) (Act.guarded a') fun ρ' => EndAlike (R ρ') := by
  refine tryCatch (ha.map fun _ _ _ => .ok) fun s => ?_
  cases s with
  | tooDeep => exact throw _
  | panic p =>
      cases p with
      | alreadyResolved => exact throw _
      | _ => exact seq (write_free rfl fun _ => rfl) fun _ _ => pure fun _ _ => .error _

/-! ## Tasks -/

section Jobs

variable {perform : Performer} (hS : S.IsSet) (hp : S.Performs perform)

include hS hp

theorem settle {t t' : TaskId} (ht : (t, t') ∈ ρ) (o : Outcome) :
    S.Matches ρ (Act.settle perform t o) (Act.settle perform t' o) fun _ b b' => b = b' := by
  refine get fun ρ' w w' hsub hw => ?_
  obtain ⟨x, x', hx, hx', halike⟩ := hw.cells (hsub ht)
  have hsettle := halike.settle o
  simp only [hx, hx']
  generalize x.settle o = result, x'.settle o = result' at hsettle ⊢
  cases hsettle with
  | none => exact here (pure fun _ _ => rfl) hw
  | @some a a' hr =>
      obtain ⟨cell, follow⟩ := a
      obtain ⟨cell', follow'⟩ := a'
      obtain ⟨hcell, hfollow⟩ := hr
      refine here (seq (setCell hS (hsub ht) hcell _ _) fun _ _ => ?_) hw
      cases hfollow with
      | quiet => exact pure fun _ _ => rfl
      | wake label => exact seq (write_free rfl fun _ => rfl) fun _ _ => pure fun _ _ => rfl
      | run hh => exact seq (hp (.complete hh o)) fun _ _ => pure fun _ _ => rfl

/-- The mark of a resolution stands in both logs or in neither. -/
theorem settleMarked {t t' : TaskId} (ht : (t, t') ∈ ρ) (o : Outcome) :
    S.Matches ρ (Act.settleMarked perform t o) (Act.settleMarked perform t' o)
      fun _ b b' => b = b' := by
  refine get fun ρ' w w' hsub hw => ?_
  obtain ⟨x, x', hx, hx', halike⟩ := hw.cells (hsub ht)
  simp only [World.awaits, hx, hx', halike.outcome?]
  by_cases hwaits : x'.outcome?.isNone = true
  · rw [if_pos hwaits, if_pos hwaits]
    exact here (seq (write_free rfl fun _ => rfl) fun _ _ => settle hS hp (hsub ht) o) hw
  · rw [if_neg hwaits, if_neg hwaits]
    exact here (settle hS hp (hsub ht) o) hw

theorem resolve {t t' : TaskId} (ht : (t, t') ∈ ρ) (o : Outcome) :
    S.Mirrors ρ (Act.resolve perform t o) (Act.resolve perform t' o) := by
  refine (settle hS hp ht o).bind fun _ b b' _ hb => ?_
  obtain rfl := hb
  cases b with
  | true => exact skip ()
  | false => exact raise _

theorem attachOr {refused refused' : Act Unit} (hrefused : S.Mirrors ρ refused refused')
    {t t' : TaskId} (ht : (t, t') ∈ ρ) {h h' : Completion} (hh : S.AlikeCompletions ρ h h') :
    S.Mirrors ρ (Act.attachOr perform refused t h) (Act.attachOr perform refused' t' h') := by
  refine get fun ρ' w w' hsub hw => ?_
  obtain ⟨x, x', hx, hx', halike⟩ := hw.cells (hsub ht)
  have hattach := halike.attach (hh.mono hsub)
  simp only [hx, hx', Option.bind_some]
  generalize x.attach h = result, x'.attach h' = result' at hattach ⊢
  cases hattach with
  | none => exact here (seq (hrefused.mono hsub) fun _ _ => raise _) hw
  | @some a a' hr =>
      obtain ⟨cell, outcome⟩ := a
      obtain ⟨cell', outcome'⟩ := a'
      obtain ⟨hcell, rfl⟩ := hr
      refine here (seq (setCell hS (hsub ht) hcell _ _) fun _ _ => ?_) hw
      cases outcome with
      | none => exact skip ()
      | some o => exact hp (.complete (hh.mono hsub) o)

theorem attach {t t' : TaskId} (ht : (t, t') ∈ ρ) {h h' : Completion}
    (hh : S.AlikeCompletions ρ h h') :
    S.Mirrors ρ (Act.attach perform t h) (Act.attach perform t' h') :=
  attachOr hS hp (skip ()) ht hh

theorem derive {t t' : TaskId} (ht : (t, t') ∈ ρ) {handler handler' : TaskId → Completion}
    (hhandler : ∀ ρ' into into', ρ ⊆ ρ' → (into, into') ∈ ρ' →
      S.AlikeCompletions ρ' (handler into) (handler' into')) :
    S.Matches ρ (Act.derive perform t handler) (Act.derive perform t' handler')
      fun ρ' into into' => (into, into') ∈ ρ' := by
  refine newTask.bind fun ρ' into into' hsub hinto => ?_
  refine seq (attach hS hp (hsub ht) (hhandler ρ' into into' hsub hinto)) fun _ _ => ?_
  exact pure fun _ hsub' => hsub' hinto

omit hp in
theorem poll {t t' : TaskId} (ht : (t, t') ∈ ρ) (waker : String) :
    S.Matches ρ (Act.poll t waker) (Act.poll t' waker) fun _ o o' => o = o' := by
  refine get fun ρ' w w' hsub hw => ?_
  obtain ⟨x, x', hx, hx', halike⟩ := hw.cells (hsub ht)
  simp only [hx, hx']
  rcases halike.poll waker with ⟨refusal, h, h'⟩ | ⟨cell, cell', o, h, h', hcell⟩
  · simp only [h, h']
    exact here (raise _) hw
  · simp only [h, h']
    exact here (seq (setCell hS (hsub ht) hcell _ _) fun _ _ => pure fun _ _ => rfl) hw

/-! ## The end of the call -/

omit hS hp in
theorem refuse : S.Mirrors ρ (Act.refuse S.call) (Act.refuse S.call') :=
  seq (write_own rfl fun _ => rfl) fun _ _ => raise _

omit hS in
theorem conclude (o : Outcome) :
    S.Mirrors ρ (Act.conclude perform S.call o) (Act.conclude perform S.call' o) := by
  refine get fun ρ' w w' _ hw => ?_
  obtain ⟨x, x', hx, hx', halike⟩ := hw.call
  have hsettle := halike.ending.settle o
  simp only [hx, hx', Option.bind_some]
  generalize x.ending.settle o = result, x'.ending.settle o = result' at hsettle ⊢
  cases hsettle with
  | none => exact here refuse hw
  | @some a a' hr =>
      obtain ⟨ending, follow⟩ := a
      obtain ⟨ending', follow'⟩ := a'
      obtain ⟨hending, hfollow⟩ := hr
      refine here (seq (editCall fun _ _ _ hsub hcall => ?_) fun _ _ => ?_) hw
      · exact ⟨hcall.view, hcall.held, hending.mono fun _ _ hmem => hsub hmem, hcall.answer⟩
      · cases hfollow with
        | run hinto => exact hp (.report hinto o)
        | quiet => exact skip ()
        | wake label => exact skip ()

omit hS in
theorem finish (o : Outcome) :
    S.Mirrors ρ (Act.finish perform S.call o) (Act.finish perform S.call' o) :=
  seq (enter _) fun _ _ => conclude hp o

omit hS in
/-- The caller's tasks wait for the end of the call. -/
theorem awaitEnd {into into' : TaskId} (hinto : (into, into') ∈ ρ) :
    S.Mirrors ρ (Act.awaitEnd perform S.call into) (Act.awaitEnd perform S.call' into') := by
  refine get fun ρ' w w' hsub hw => ?_
  obtain ⟨x, x', hx, hx', halike⟩ := hw.call
  have hattach := halike.ending.attach (hsub hinto)
  simp only [hx, hx', Option.bind_some]
  generalize x.ending.attach into = result, x'.ending.attach into' = result' at hattach ⊢
  cases hattach with
  | none => exact here (raise _) hw
  | @some a a' hr =>
      obtain ⟨ending, outcome⟩ := a
      obtain ⟨ending', outcome'⟩ := a'
      obtain ⟨hending, rfl⟩ := hr
      refine here (seq (editCall fun _ _ _ hsub' hcall => ?_) fun _ _ => ?_) hw
      · exact ⟨hcall.view, hcall.held, hending.mono fun _ _ hmem => hsub' hmem,
          .some (hsub' (hsub hinto))⟩
      · cases outcome with
        | none => exact skip ()
        | some o => exact hp (.report (hsub hinto) o)

omit hS in
/-- The call is ended unless it has ended, which is then reported. -/
theorem finishOrReport (o : Outcome) {late late' : World → Entry}
    (hlate : ∀ w w', (late w).anonymous = (late' w').anonymous)
    (hown : ∀ w d, (late w).concerns d = (S.call == d)) :
    S.Mirrors ρ
      (do
        let w ← MonadState.get
        if w.isRunning S.call then Act.finish perform S.call o else Act.write (late w))
      (do
        let w ← MonadState.get
        if w.isRunning S.call' then Act.finish perform S.call' o else Act.write (late' w)) := by
  refine get fun ρ' w w' _ hw => ?_
  obtain ⟨x, x', hx, hx', halike⟩ := hw.call
  simp only [World.isRunning, hx, hx', halike.ending.state]
  by_cases hrunning : (x'.ending.state == .waiting) = true
  · rw [if_pos hrunning, if_pos hrunning]
    exact here (finish hp o) hw
  · rw [if_neg hrunning, if_neg hrunning]
    exact here (write_own (hlate w w') (hown w)) hw

omit hS in
theorem fail {p p' : Pipeline} (hpipe : p.Alike S.ids S.call S.call' p') (e : CallError) :
    S.Mirrors ρ (Act.fail perform p e) (Act.fail perform p' e) := by
  unfold Act.fail
  rw [hpipe.call, hpipe.call', hpipe.route]
  exact finishOrReport hp _ (fun _ _ => rfl) fun _ _ => rfl

omit hS in
theorem succeed {p p' : Pipeline} (hpipe : p.Alike S.ids S.call S.call' p') (v : Json) :
    S.Mirrors ρ (Act.succeed perform p v) (Act.succeed perform p' v) := by
  unfold Act.succeed
  rw [hpipe.call, hpipe.call', hpipe.route]
  exact finishOrReport hp _ (fun _ _ => rfl) fun _ _ => rfl

/-! ## Using the continuation -/

omit hS hp in
theorem place {k k' : Continuation} (hk : S.AlikeContinuations k k') (p : Place) :
    S.Mirrors ρ (Act.place k p) (Act.place k' p) := by
  unfold Act.place
  rw [hk.pipeline.call, hk.pipeline.call', hk.point]
  exact editCall fun _ _ _ _ hcall => ⟨hcall.view, rfl, hcall.ending, hcall.answer⟩

omit hS hp in
theorem spend {k k' : Continuation} (hk : S.AlikeContinuations k k') (fate : Fate) :
    S.Mirrors ρ (Act.spend k fate) (Act.spend k' fate) := by
  unfold Act.spend
  rw [hk.pipeline.call, hk.pipeline.call', hk.point]
  refine seq (editCall fun _ _ _ _ hcall => ?_) fun _ _ => write_own rfl fun _ => rfl
  exact ⟨hcall.view, rfl, hcall.ending, hcall.answer⟩

omit hS hp in
theorem holds {k k' : Continuation} (hk : S.AlikeContinuations k k') :
    S.Matches ρ (Act.holds k) (Act.holds k') fun _ b b' => b = b' := by
  unfold Act.holds
  rw [hk.pipeline.call, hk.pipeline.call', hk.point]
  refine get fun ρ' w w' _ hw => ?_
  obtain ⟨x, x', hx, hx', halike⟩ := hw.call
  simp only [hx, hx', halike.held]
  exact .pure hw rfl

omit hS hp in
theorem withHeld {own own' : Option Continuation} (hown : Option.Rel S.AlikeContinuations own own')
    {use use' : Continuation → Act α} {otherwise otherwise' : Act α} {R : Pairing → α → α → Prop}
    (huse : ∀ k k', S.AlikeContinuations k k' → S.Matches ρ (use k) (use' k') R)
    (hother : S.Matches ρ otherwise otherwise' R) :
    S.Matches ρ (Act.withHeld own use otherwise) (Act.withHeld own' use' otherwise') R := by
  cases hown with
  | none => exact hother
  | some hk =>
      refine (holds hk).bind fun ρ' b b' hsub hb => ?_
      obtain rfl := hb
      cases b with
      | true => exact (huse _ _ hk).mono hsub
      | false => exact hother.mono hsub

omit hS hp in
theorem forfeit {own own' : Option Continuation}
    (hown : Option.Rel S.AlikeContinuations own own') :
    S.Mirrors ρ (Act.forfeit own) (Act.forfeit own') :=
  withHeld hown (fun _ _ hk => spend hk .lost) (skip ())

omit hS hp in
theorem look {own own' : Option Continuation} (hown : Option.Rel S.AlikeContinuations own own') :
    S.Matches ρ (Act.look own) (Act.look own') fun _ => Option.Rel (Held.Alike S.ids) := by
  refine withHeld hown (fun k k' hk => ?_) (pure fun _ _ => .none)
  rw [hk.pipeline.call, hk.pipeline.call', hk.point]
  refine get fun ρ' w w' _ hw => ?_
  obtain ⟨x, x', hx, hx', halike⟩ := hw.call
  simp only [hx, hx']
  exact .pure hw (.some ⟨rfl, halike.view⟩)

section Own

variable {own own' : Option Continuation} (hown : Option.Rel S.AlikeContinuations own own')

include hown

omit hS in
theorem proceed (payload : Payload) :
    S.Mirrors ρ (Act.proceed perform own payload) (Act.proceed perform own' payload) := by
  refine withHeld hown (fun k k' hk => ?_) (skip ())
  have htakes : k'.takes payload = k.takes payload := by
    unfold Continuation.takes
    rw [hk.point]
  rw [htakes]
  by_cases hfits : k.takes payload = true
  · rw [if_pos hfits, if_pos hfits]
    exact seq (spend hk .proceeded) fun _ _ => hp (.goOn hk payload)
  · rw [if_neg hfits, if_neg hfits]
    exact skip ()

omit hS in
theorem abort (e : CallError) :
    S.Mirrors ρ (Act.abort perform own e) (Act.abort perform own' e) :=
  withHeld hown (fun _ _ hk => seq (spend hk .aborted) fun _ _ => fail hp hk.pipeline e) (skip ())

omit hS in
theorem release : S.Mirrors ρ (Act.release perform own) (Act.release perform own') :=
  withHeld hown (fun _ _ hk => seq (spend hk .dropped) fun _ _ => fail hp hk.pipeline _) (skip ())

theorem entrust {t t' : TaskId} (ht : (t, t') ∈ ρ) {f f' : Outcome → Code .nothing}
    (hf : ∀ o, (f o).Alike S.ids ρ (f' o)) :
    S.Mirrors ρ (Act.entrust perform own t f) (Act.entrust perform own' t' f') :=
  withHeld hown (fun _ _ hk => seq (place hk .task) fun _ _ =>
    attachOr hS hp (place hk .code) ht (.resume hk hf)) (attach hS hp ht (.code hf))

end Own

/-- What a task is given up with is dropped in both worlds. -/
theorem abandon {t t' : TaskId} (ht : (t, t') ∈ ρ) :
    S.Mirrors ρ (Act.abandon perform t) (Act.abandon perform t') := by
  refine get fun ρ' w w' hsub hw => ?_
  obtain ⟨x, x', hx, hx', halike⟩ := hw.cells (hsub ht)
  obtain ⟨hcell, hhandler⟩ := halike.abandon
  simp only [hx, hx']
  refine here (seq (setCell hS (hsub ht) hcell _ _) fun _ _ => ?_) hw
  generalize x.abandon.2 = handler, x'.abandon.2 = handler' at hhandler ⊢
  cases hhandler with
  | none => exact skip ()
  | some hh =>
      cases hh with
      | resume hk _ => exact seq (place hk .code) fun _ _ => release hp (.some hk)
      | _ => exact skip ()

/-! ## Foreign code -/

/-- Alike code does the same in two mirrored worlds. -/
theorem run {own own' : Option Continuation} (hown : Option.Rel S.AlikeContinuations own own')
    {y : Yield} {code code' : Code y} (h : code.Alike S.ids ρ code') :
    S.Matches ρ (Act.run perform own code) (Act.run perform own' code') (y.Alike S.ids) := by
  induction h with
  | done hv => exact pure fun _ hsub => hv.mono hsub
  | panic p => exact raise p
  | log hr _ ih => exact seq (write_free (congrArg Entry.remark hr) fun _ => rfl) fun _ _ => ih
  | create _ ih =>
      exact newTask.bind fun _ t t' hsub ht => (ih t t').mono (List.cons_subset.mpr ⟨ht, hsub⟩)
  | settle o ht _ ih =>
      exact (settleMarked hS hp ht o).bind fun _ b _ hsub hb => hb ▸ (ih b).mono hsub
  | attach ht hf _ _ ih => exact seq (attach hS hp ht (.code hf)) fun _ _ => ih
  | entrust ht hf _ _ ih => exact seq (entrust hS hp hown ht hf) fun _ _ => ih
  | transform ht hf _ _ ih =>
      refine (derive hS hp ht fun ρ' _ _ hsub hinto => ?_).bind fun _ u u' hsub hu =>
        (ih u u').mono (List.cons_subset.mpr ⟨hu, hsub⟩)
      exact .transform (fun o => (hf o).mono hsub) hinto
  | chain ht hf _ _ ih =>
      refine (derive hS hp ht fun ρ' _ _ hsub hinto => ?_).bind fun _ u u' hsub hu =>
        (ih u u').mono (List.cons_subset.mpr ⟨hu, hsub⟩)
      exact .chain (fun o => (hf o).mono hsub) hinto
  | poll waker ht _ ih =>
      exact (poll hS ht waker).bind fun _ o _ hsub ho => ho ▸ (ih o).mono hsub
  | @state ρ _ t t' _ _ ht _ ih =>
      refine get fun ρ' w w' hsub hw => ?_
      obtain ⟨x, x', hx, hx', halike⟩ := hw.cells (hsub ht)
      simp only [World.taskState, hx, hx', halike.state]
      exact here ((ih _).mono hsub) hw
  | abandon ht _ ih => exact seq (abandon hS hp ht) fun _ _ => ih
  | proceed payload _ ih => exact seq (proceed hp hown payload) fun _ _ => ih
  | abort e _ ih => exact seq (abort hp hown e) fun _ _ => ih
  | release _ ih => exact seq (release hp hown) fun _ _ => ih
  | inspect _ ih => exact (look hown).bind fun _ held held' hsub hh => (ih held held' hh).mono hsub
  | register name _ ih => exact seq (register name _ _) fun _ _ => ih
  | unregister name _ ih => exact seq (unregister name) fun _ _ => ih
  | tick _ ih => exact tick.seq fun n n' => ih n n'

/-! ## Passing the stages -/

theorem runHolding {k k' : Continuation} (hk : S.AlikeContinuations k k') (piece : Piece)
    {code code' : Code .nothing} (hcode : code.Alike S.ids ρ code') :
    S.Mirrors ρ (Act.runHolding perform k piece code) (Act.runHolding perform k' piece code') := by
  have hrun : S.Mirrors ρ (Act.calling k.pipeline.call piece (Act.run perform (some k) code))
      (Act.calling k'.pipeline.call piece (Act.run perform (some k') code')) := by
    rw [hk.pipeline.call, hk.pipeline.call']
    exact calling (run hS hp (.some hk) hcode).mirrors piece
  refine seq (tryCatch hrun fun s => ?_) fun _ _ => release hp (.some hk)
  exact seq (forfeit (.some hk)) fun _ _ => throw s

theorem runPlugin {p p' : Pipeline} (hpipe : p.Alike S.ids S.call S.call' p') (point : Point)
    (plugin : String) {code code' : CallView → Code .nothing}
    (hcode : ∀ v v', v.Alike S.ids v' → (code v).Alike S.ids [] (code' v')) :
    S.Mirrors ρ (Act.runPlugin perform p point plugin code)
      (Act.runPlugin perform p' point plugin code') := by
  have hk : S.AlikeContinuations ⟨p, point⟩ ⟨p', point⟩ := ⟨hpipe, rfl⟩
  unfold Act.runPlugin
  rw [hpipe.call, hpipe.call', hpipe.route]
  refine seq (enter _) fun _ _ => get fun ρ' w w' _ hw => ?_
  obtain ⟨x, x', hx, hx', halike⟩ := hw.call
  simp only [hx, hx']
  refine here (seq (write_own rfl fun _ => rfl) fun _ _ => seq (place hk .code) fun _ _ => ?_) hw
  refine bind (guarded (runHolding hS hp hk _ ?_)) fun _ result result' _ hresult => ?_
  · exact (hcode _ _ halike.view).mono (List.nil_subset _)
  · cases hresult with
    | ok => exact skip ()
    | error e => exact fail hp hpipe e

theorem runHandler {p p' : Pipeline} (hpipe : p.Alike S.ids S.call S.call' p') (args : Args) :
    S.Mirrors ρ (Act.runHandler perform p args) (Act.runHandler perform p' args) := by
  unfold Act.runHandler
  rw [hpipe.call, hpipe.call', hpipe.route]
  refine seq (enter _) fun _ _ => get fun ρ' w w' _ hw => here ?_ hw
  refine seq (write_own rfl fun _ => rfl) fun _ _ => seq (write_own rfl fun _ => rfl) fun _ _ => ?_
  refine bind (R := fun _ => EndAlike fun _ _ => True)
    (guarded (bind (calling (run hS hp .none ?_) .handler) fun _ t t' _ ht => ?_))
    fun _ result result' _ hresult => ?_
  · exact (hpipe.code.handler args).mono (List.nil_subset _)
  · exact attach hS hp ht (.handled hpipe)
  · cases hresult with
    | ok => exact skip ()
    | error e => exact fail hp hpipe e

theorem callStage {p p' : Pipeline} (hpipe : p.Alike S.ids S.call S.call' p') (index : Nat)
    (args : Args) :
    S.Mirrors ρ (Act.callStage perform p index args) (Act.callStage perform p' index args) := by
  unfold Act.callStage
  rw [hpipe.route]
  cases ha : p.route.attachments[index]? with
  | none => exact runHandler hS hp hpipe args
  | some a =>
      have hlocal := hpipe.code.plugins a (List.mem_of_getElem? ha)
      exact runPlugin hS hp hpipe _ _ fun _ _ => hlocal.modifyCall a.binding args

theorem resultStage {p p' : Pipeline} (hpipe : p.Alike S.ids S.call S.call' p') (index : Nat)
    (v : Json) :
    S.Mirrors ρ (Act.resultStage perform p index v) (Act.resultStage perform p' index v) := by
  unfold Act.resultStage
  rw [hpipe.route]
  cases ha : p.route.attachments[index]? with
  | none => exact succeed hp hpipe v
  | some a =>
      have hlocal := hpipe.code.plugins a (List.mem_of_getElem? ha)
      exact runPlugin hS hp hpipe _ _ fun _ _ => hlocal.modifyResult a.binding v

/-! ## Jobs -/

theorem goOn {k k' : Continuation} (hk : S.AlikeContinuations k k') (payload : Payload) :
    S.Mirrors ρ (Act.goOn perform k payload) (Act.goOn perform k' payload) := by
  unfold Act.goOn
  rw [hk.point]
  split
  · exact callStage hS hp hk.pipeline _ _
  · exact resultStage hS hp hk.pipeline _ _
  · exact skip ()

theorem tell {d : Dispatcher} (hlistener : d.listener.IsLocal S.ids) (o : Outcome) :
    S.Mirrors ρ (Act.tell perform d S.call o) (Act.tell perform d S.call' o) := by
  refine seq (write_own rfl fun _ => rfl) fun _ _ => get fun ρ' w w' _ hw => ?_
  obtain ⟨x, x', hx, hx', halike⟩ := hw.call
  simp only [hx, hx']
  refine here (calling ?_ .onEnd) hw
  cases o with
  | ok v =>
      exact (run hS hp .none ((hlistener.onSucceed v halike.view).mono (List.nil_subset _))).mirrors
  | error e =>
      exact (run hS hp .none ((hlistener.onFail e halike.view).mono (List.nil_subset _))).mirrors

theorem answer {into into' : TaskId} (hinto : (into, into') ∈ ρ) (o : Outcome) :
    S.Mirrors ρ (Act.answer perform S.call into o) (Act.answer perform S.call' into' o) := by
  refine (settle hS hp hinto o).bind fun _ b b' _ hb => ?_
  obtain rfl := hb
  cases b with
  | true => exact skip ()
  | false => exact refuse

theorem report {d : Dispatcher} (hlistener : d.listener.IsLocal S.ids) {into into' : TaskId}
    (hinto : (into, into') ∈ ρ) (o : Outcome) :
    S.Mirrors ρ (Act.report perform d S.call into o) (Act.report perform d S.call' into' o) := by
  refine (guarded (tell hS hp hlistener o)).bind fun ρ' result result' hsub hresult => ?_
  cases hresult with
  | ok => exact answer hS hp (hsub hinto) o
  | error e => exact answer hS hp (hsub hinto) (.error e)

theorem complete {h h' : Completion} (hh : S.AlikeCompletions ρ h h') (o : Outcome) :
    S.Mirrors ρ (Act.complete perform h o) (Act.complete perform h' o) := by
  cases hh with
  | code hf => exact (run hS hp .none (hf o)).mirrors
  | @resume k k' _ _ hk hf =>
      refine seq (place hk .code) fun _ _ => ?_
      rw [hk.point]
      exact runHolding hS hp hk _ (hf o)
  | transform hf hinto =>
      refine (guarded (run hS hp .none (hf o))).bind fun ρ' result result' hsub hresult => ?_
      cases hresult with
      | ok hv =>
          obtain rfl := hv
          exact resolve hS hp (hsub hinto) _
      | error e => exact resolve hS hp (hsub hinto) _
  | chain hf hinto =>
      refine (guarded (run hS hp .none (hf o))).bind fun ρ' result result' hsub hresult => ?_
      cases hresult with
      | ok ht => exact attach hS hp ht (.relay (hsub hinto))
      | error e => exact resolve hS hp (hsub hinto) _
  | relay hinto => exact resolve hS hp hinto o
  | @handled p p' hpipe =>
      cases o with
      | error e => exact fail hp hpipe e
      | ok v =>
          have hreturned : S.Mirrors ρ (Act.write (.mark (.returned p.call)))
              (Act.write (.mark (.returned p'.call))) := by
            rw [hpipe.call, hpipe.call']
            exact write_own rfl fun _ => rfl
          exact hreturned.seq fun _ _ => resultStage hS hp hpipe 0 v

/-! ## Dispatch -/

omit hS hp in
theorem reportAll {reports : List Trace}
    (hfree : ∀ t ∈ reports, ∀ d, (Entry.trace t).concerns d = false) :
    S.Mirrors ρ (Act.reportAll reports) (Act.reportAll reports) := by
  refine modify fun ρ' w w' _ hw => ?_
  induction reports generalizing w w' with
  | nil => simpa using hw
  | cons t rest ih =>
      have hfirst := hw.logged (e := .trace t) rfl fun d hd =>
        absurd hd (by simp [hfree t (by simp)])
      simpa using ih (fun x hx => hfree x (List.mem_cons_of_mem _ hx)) _ _ hfirst

omit hS hp in
theorem noteMatch (m : RouteMatch) :
    S.Mirrors ρ (Act.noteMatch S.call m) (Act.noteMatch S.call' m) := by
  refine seq (editView ?_) fun _ _ => seq (enter _) fun _ _ => get fun ρ' w w' _ hw => ?_
  · rintro v v' ⟨hid, hv⟩
    exact ⟨hid, by rw [hv]⟩
  · exact here (write_own rfl fun _ => rfl) hw

omit hS hp in
theorem liftBinder (b : Binder α) :
    S.Matches ρ (Act.liftBinder b) (Act.liftBinder b) fun _ result result' => result = result' := by
  unfold Act.liftBinder
  cases b.run with
  | ok result => exact pure fun _ _ => rfl
  | error p => exact raise p

/-- A call that is prepared in two worlds with one table gets the same route and arguments. -/
abbrev AlikePreparations (S : Scene) :
    Except CallError (Route × Args) → Except CallError (Route × Args) → Prop :=
  EndAlike fun a a' => a' = a ∧ a.1.IsLocal S.ids

omit hS hp in
theorem prepare (d : Dispatcher) (htable : S.start'.table = S.start.table)
    (hlocal : S.start.table.IsLocal S.ids) (r : Request) (version : Nat) :
    S.Matches ρ (Act.prepare d S.call r version) (Act.prepare d S.call' r version)
      fun _ => AlikePreparations S := by
  refine get fun ρ' w w' _ hw => ?_
  rw [hw.table', htable, hw.table]
  refine here (seq (reportAll fun t ht => ?_) fun _ _ => ?_) hw
  · obtain ⟨text, found, rfl⟩ := Act.eq_lookedUp_of_mem_report ht
    exact fun _ => rfl
  · cases hfind : S.start.table.router.find r.method r.path version with
    | none => exact pure fun _ _ => .error _
    | some m =>
        refine seq (noteMatch m) fun _ _ => ?_
        cases r.sources with
        | error e => exact pure fun _ _ => .error e
        | ok sources =>
            refine (calling (liftBinder _) .binder).bind fun ρ'' result result' _ hresult => ?_
            obtain rfl := hresult
            cases result with
            | error e => exact pure fun _ _ => .error e
            | ok values =>
                exact seq (enter _) fun _ _ => pure fun _ _ => .ok ⟨rfl, hlocal _ _ _ m hfind⟩

theorem start {d : Dispatcher} (hlistener : d.listener.IsLocal S.ids)
    (htable : S.start'.table = S.start.table) (hlocal : S.start.table.IsLocal S.ids) (r : Request)
    (version : Nat) (view : CallView) :
    S.Matches ρ (Act.start perform d S.call r version view)
      (Act.start perform d S.call' r version view) fun _ => AlikePreparations S := by
  refine seq (write_own rfl fun _ => rfl) fun _ _ => ?_
  refine bind (calling (run hS hp .none ?_) .onStart) fun ρ' id id' _ hid => ?_
  · exact (hlistener.onStart view).mono (List.nil_subset _)
  · refine seq (editView ?_) fun _ _ => prepare d htable hlocal r version
    rintro v v' ⟨-, hv⟩
    exact ⟨hid, by rw [hv]⟩

theorem launch {prepared prepared' : Except CallError (Route × Args)}
    (hprepared : AlikePreparations S prepared prepared') :
    S.Mirrors ρ (Act.launch perform S.call prepared) (Act.launch perform S.call' prepared') := by
  cases hprepared with
  | error e => exact finish hp _
  | @ok a a' ha =>
      obtain ⟨rfl, hlocal⟩ := ha
      obtain ⟨route, args⟩ := a'
      have hpipe : Pipeline.Alike S.ids S.call S.call' ⟨S.call, route⟩ ⟨S.call', route⟩ :=
        ⟨rfl, rfl, rfl, hlocal⟩
      exact callStage hS hp hpipe 0 args

/-- Once the call has been made in both worlds, its dispatch matches. -/
theorem pursue {d : Dispatcher} (hlistener : d.listener.IsLocal S.ids)
    (htable : S.start'.table = S.start.table) (hlocal : S.start.table.IsLocal S.ids)
    (r : Request) :
    S.Mirrors ρ (Act.pursue perform d S.call r) (Act.pursue perform d S.call' r) := by
  refine (guarded (start hS hp hlistener htable hlocal r _ _)).bind
    fun ρ' prepared prepared' _ hprepared => seq (launch hS hp ?_) fun _ _ =>
      newTask.bind fun ρ'' into into' _ hinto => seq (awaitEnd hp hinto) fun _ _ =>
        pure fun _ _ => trivial
  cases hprepared with
  | ok h => exact h
  | error e => exact .error e

end Jobs

/-- All jobs of the call match. -/
theorem perform {d : Dispatcher} (hS : S.IsSet) (hlistener : d.listener.IsLocal S.ids)
    (depth : Nat) : S.Performs (RouteDispatch.perform d depth) := by
  intro ρ job job' hjob
  induction depth generalizing ρ job job' with
  | zero => cases hjob <;> exact throw _
  | succ depth ih =>
      cases hjob with
      | complete hh o => exact complete hS ih hh o
      | goOn hk payload => exact goOn hS ih hk payload
      | report hinto o => exact report hS ih hlistener hinto o

end Matches
end Scene
end RouteDispatch
