import RouteDispatch.Proofs.Session.Dispatching

/-!
# Conditions that panics may break

A stable condition holds when an act stops as well as when it gives a value.  What can be said of a
panic on its way out is often less, and differs from panic to panic.  A discipline says what holds
while work goes on, what holds when a stop comes out of it, and what holds when a panic has just
left a piece of foreign code whose panics fail the call, until the call has been failed.  Acts abide
by a discipline if the single changes and the failing of calls do.
-/

namespace RouteDispatch

/-- A panic that leaves the piece fails the call for which it was run. -/
def Piece.failsCall : Piece → Bool
  | .onStart | .binder | .plugin _ | .handler => true
  | .deferred _ | .onEnd => false

/-- The entry neither moves a call to another stage nor tells of a panic that left a piece of
foreign code. -/
def Entry.isPlain : Entry → Bool
  | .trace (.entered ..) | .mark (.escaped ..) => false
  | _ => true

/-- The edit leaves the end of a call and its stage alone. -/
def Call.IsMinor (g : Call → Call) : Prop :=
  ∀ call, (g call).ending = call.ending ∧ (g call).view.stage = call.view.stage

namespace World

/-- The world in which code that held a continuation has lost it. -/
def forfeited (w : World) (k : Continuation) : World :=
  { w with
    calls := w.calls.modify k.pipeline.call fun call => { call with held := none }
    log := w.log ++ [.mark (.spent k.pipeline.call k.point .lost)] }

/-- The world in which a panic was captured. -/
def caught (w : World) (p : Panic) : World :=
  { w with log := w.log ++ [.trace (.panicCaptured p.message)] }

/-- The world in which a call has gone from one stage to another. -/
def moved (w : World) (c : CallId) (source stage : Stage) : World :=
  { w with
    log := w.log ++ [.trace (.entered (w.callRef c) source stage)]
    calls := w.calls.modify c fun call => { call with view := { call.view with stage } } }

/-- The world in which a call has ended with an outcome, which leaves a cell behind for its end. -/
def finished (w : World) (c : CallId) (call : Call) (o : Outcome) (ending : Cell TaskId) : World :=
  let last := if call.view.stage.isTerminal then w else w.moved c call.view.stage (.ofOutcome o)
  { last with calls := last.calls.modify c fun call => { call with ending } }

end World

namespace Act

/-- The act goes on from worlds that meet a condition to such worlds, and what holds at a stop holds
when it stops. -/
def Abides {α : Type} (P : World → Prop) (Q : Stop → World → Prop) (a : Act α) : Prop :=
  Triple P a (fun _ => P) Q

/-- What holds when a stop leaves a piece of foreign code whose panics fail the call. -/
def Left (Q : Stop → World → Prop) (R : CallId → Panic → World → Prop) (c : CallId) :
    Stop → World → Prop
  | .panic p => R c p
  | .tooDeep => Q .tooDeep

/-- What holds behind a guard: all is as it should be, or a panic was captured, which may have left
foreign code of the call. -/
def Guarded {α : Type} (P : World → Prop) (Q : Stop → World → Prop)
    (R : CallId → Panic → World → Prop) (c : CallId) : Except CallError α → World → Prop
  | .ok _, w => P w
  | .error e, w => ∃ q w₀, Stop.isHard (.panic q) = false ∧ (R c q w₀ ∨ Q (.panic q) w₀) ∧
      w = w₀.caught q ∧ e = q.failure

/-- While work goes on `P` holds, and `Q` when a stop comes out of it; `R` holds when a panic is
about to fail a call. -/
structure Discipline (P : World → Prop) (Q : Stop → World → Prop)
    (R : CallId → Panic → World → Prop) : Prop where
  stop : ∀ {w : World} (s : Stop), P w → Q s w
  turn : ∀ {w : World} (t : TaskId) (turn : Cell.Turn Completion) (cell : Cell Completion),
    P w → P (w.turn t turn cell)
  logged : ∀ {w : World} {e : Entry}, P w → e.isPlain = true → P { w with log := w.log ++ [e] }
  newTask : ∀ {w : World}, P w → P { w with cells := w.cells ++ [.fresh] }
  edit : ∀ {w : World} (c : CallId) {g : Call → Call}, P w → Call.IsMinor g →
    P { w with calls := w.calls.modify c g }
  others : ∀ {w : World} (names : List (String × TaskId)) (ticks : Nat), P w →
    P { w with names, ticks }
  moved : ∀ {w : World} {c : CallId} {call : Call} {stage : Stage}, P w →
    w.calls[c]? = some call → stage.isTerminal = false → P (w.moved c call.view.stage stage)
  finished : ∀ {w : World} {c : CallId} {call : Call} {o : Outcome} {ending : Cell TaskId}
    {follow : Cell.Settling TaskId}, P w → w.calls[c]? = some call →
    call.ending.settle o = some (ending, follow) → P (w.finished c call o ending)
  escaped : ∀ {w : World} (c : CallId) {piece : Piece} {p : Panic}, Q (.panic p) w →
    piece.failsCall = false → Q (.panic p) { w with log := w.log ++ [.mark (.escaped c piece p)] }
  forfeited : ∀ {w : World} {s : Stop} (k : Continuation), Q s w → Q s (w.forfeited k)
  captured : ∀ {w : World} {p : Panic}, Q (.panic p) w → Stop.isHard (.panic p) = false →
    P (w.caught p)
  -- A panic that has to fail a call is on its way from here on.
  leaves : ∀ {w : World} (c : CallId) {piece : Piece} {p : Panic}, Q (.panic p) w →
    piece.failsCall = true → R c p { w with log := w.log ++ [.mark (.escaped c piece p)] }
  lost : ∀ {w : World} {c : CallId} {p : Panic} (k : Continuation), R c p w →
    R c p (w.forfeited k)
  hard : ∀ {w : World} {c : CallId} {p : Panic}, R c p w → Stop.isHard (.panic p) = true →
    Q (.panic p) w
  late : ∀ {w : World} {c : CallId} {p : Panic}, R c p w → Stop.isHard (.panic p) = false →
    (w.caught p).isRunning c = false → P (w.caught p)
  failed : ∀ {w : World} {c : CallId} {p : Panic} {call : Call} {ending : Cell TaskId}
    {follow : Cell.Settling TaskId}, R c p w → Stop.isHard (.panic p) = false →
    (w.caught p).calls[c]? = some call →
    call.ending.settle (.error p.failure) = some (ending, follow) →
    P ((w.caught p).finished c call (.error p.failure) ending)

variable {P : World → Prop} {Q : Stop → World → Prop} {R : CallId → Panic → World → Prop}

namespace Abides

variable {α β : Type}

theorem pure (v : α) : Abides P Q (Pure.pure v : Act α) :=
  Triple.pure fun _ => id

theorem bind {a : Act α} {f : α → Act β} (ha : Abides P Q a) (hf : ∀ v, Abides P Q (f v)) :
    Abides P Q (a >>= f) :=
  Triple.bind ha hf

theorem get {f : World → Act α} (hf : ∀ w, Abides P Q (f w)) :
    Abides P Q (MonadState.get >>= f) :=
  Triple.get fun w hw => (hf w).apply hw

theorem withHeld {own : Option Continuation} {use : Continuation → Act α} {otherwise : Act α}
    (huse : ∀ k, Abides P Q (use k)) (hother : Abides P Q otherwise) :
    Abides P Q (Act.withHeld own use otherwise) :=
  withHeld_triple (fun k _ => (huse k).strengthen fun _ => And.left) hother

theorem look (own : Option Continuation) : Abides P Q (look own) :=
  withHeld (fun _ => get fun _ => .pure _) (.pure none)

/-- What code still held when it stopped is lost. -/
theorem holding
    {a : Act α} {k : Continuation} {S : Stop → World → Prop}
    (ha : Triple P a (fun _ => P) S) (hlost : ∀ s w, S s w → S s (w.forfeited k)) :
    Triple P (tryCatch a fun stop => do
      forfeit (some k)
      MonadExcept.throw stop) (fun _ => P) S := by
  refine Triple.tryCatch ha fun s => ?_
  refine Triple.bind (m := fun _ => S s) ?_ fun _ => Triple.throw fun _ => id
  refine withHeld_triple (fun k' hk => ?_) (Triple.pure fun _ => id)
  obtain rfl := Option.some.inj hk
  refine Triple.of_world fun w hw => Triple.editCall (Triple.write_last ?_)
  exact hlost s w hw.1

end Abides

namespace Discipline

variable {α : Type} (h : Discipline P Q R)

include h

/-! ## Single changes -/

theorem throw (s : Stop) : Abides P Q (MonadExcept.throw s : Act α) :=
  Triple.throw fun _ => h.stop s

theorem write {e : Entry} (he : e.isPlain = true) : Abides P Q (write e) :=
  fun _ hw => h.logged hw he

theorem editCall (c : CallId) {g : Call → Call} (hg : Call.IsMinor g) :
    Abides P Q (Act.editCall c g) :=
  fun _ hw => h.edit c hw hg

theorem setCell (t : TaskId) (turn : Cell.Turn Completion) (cell : Cell Completion) :
    Abides P Q (setCell t turn cell) :=
  fun _ hw => h.turn t turn cell hw

theorem enter (c : CallId) {stage : Stage} (hstage : stage.isTerminal = false)
    {stopped : Stop → World → Prop} :
    Triple P (Act.enter c stage) (fun _ => P) stopped := by
  refine Triple.get fun w hw => ?_
  cases hcall : w.calls[c]? with
  | none => exact Triple.done hw
  | some call =>
      dsimp only
      by_cases hlast : call.view.stage.isTerminal = true
      · rw [if_pos hlast]
        exact Triple.done hw
      · rw [if_neg hlast]
        exact Triple.write (Triple.editCall_last (h.moved hw hcall hstage))

theorem createTask : Abides P Q (Act.newTask .fresh) :=
  Triple.of_world fun _ hw => Triple.step rfl (Triple.step rfl (Triple.done (h.newTask hw)))

theorem tick : Abides P Q tick :=
  Triple.of_world fun w hw => Triple.step rfl (Triple.step rfl (Triple.done
    (h.others w.names (w.ticks + 1) hw)))

theorem register (name : String) (t : TaskId) :
    Abides P Q (modify (World.register name t) : Act Unit) :=
  fun w hw => h.others _ w.ticks hw

theorem unregister (name : String) : Abides P Q (modify (World.unregister name) : Act Unit) :=
  fun w hw => h.others _ w.ticks hw

/-! ## Guards -/

/-- A panic of a piece whose panics do not fail the call goes on its way. -/
theorem calling {a : Act α} (ha : Abides P Q a) (c : CallId) {piece : Piece}
    (hpiece : piece.failsCall = false) : Abides P Q (Act.calling c piece a) := by
  refine (Triple.calling ha c piece).stops ?_
  rintro (p | _) w hw
  · obtain ⟨w₀, hw₀, rfl⟩ := hw
    exact h.escaped c hw₀ hpiece
  · exact hw

theorem calling_failing {a : Act α} (ha : Abides P Q a) (c : CallId) {piece : Piece}
    (hpiece : piece.failsCall = true) :
    Triple P (Act.calling c piece a) (fun _ => P) (Left Q R c) := by
  refine (Triple.calling ha c piece).stops ?_
  rintro (p | _) w hw
  · obtain ⟨w₀, hw₀, rfl⟩ := hw
    exact h.leaves c hw₀ hpiece
  · exact hw

theorem guarded {a : Act α} (ha : Abides P Q a) : Abides P Q (Act.guarded a) := by
  refine (Triple.guarded ha).weaken (fun _ => id) (fun result w hw => ?_) fun _ _ => And.right
  cases result with
  | ok v => exact hw
  | error e =>
      obtain ⟨p, w₀, hsoft, hw₀, rfl, -⟩ := hw
      exact h.captured hw₀ hsoft

/-! ## Stages -/

/-- The guard lets a panic through that is hard, whatever piece of foreign code it left. -/
theorem guarded_failing
    {a : Act α} {c : CallId}
    (ha : Triple P a (fun _ => P) fun s w => Left Q R c s w ∨ Q s w) :
    Triple P (Act.guarded a) (Guarded P Q R c) Q := by
  refine ha.guarded.weaken (fun _ => id) (fun result w hw => ?_) ?_
  · cases result with
    | ok v => exact hw
    | error e => exact hw
  · rintro (q | _) w ⟨hhard, hleft | hw⟩
    · exact h.hard hleft hhard
    · exact hw
    · exact hleft
    · exact hw

/-- Behind the foreign code of a stage comes more work, which any other panic may leave. -/
theorem guarded_stage
    {a : Act α} {rest : α → Act Unit} {c : CallId} (ha : Triple P a (fun _ => P) (Left Q R c))
    (hrest : ∀ v, Abides P Q (rest v)) : Triple P (Act.guarded (a >>= rest)) (Guarded P Q R c) Q :=
  h.guarded_failing
    (Triple.bind (ha.stops fun _ _ => .inl) fun v => (hrest v).stops fun _ _ => .inr)

section Jobs

variable {perform : Performer} (hp : ∀ job, Abides P Q (perform job))

include hp

/-! ## Tasks -/

theorem settle (t : TaskId) (o : Outcome) : Abides P Q (settle perform t o) := by
  refine Abides.get fun w => ?_
  cases w.cells[t]? with
  | none => exact .pure _
  | some cell =>
      dsimp only
      cases cell.settle o with
      | none => exact .pure _
      | some result =>
          obtain ⟨cell', follow⟩ := result
          refine (h.setCell t _ _).bind fun _ => ?_
          cases follow with
          | quiet => exact .pure _
          | wake label => exact (h.write rfl).bind fun _ => .pure _
          | run k => exact (hp _).bind fun _ => .pure _

theorem settleMarked (t : TaskId) (o : Outcome) : Abides P Q (settleMarked perform t o) := by
  refine Abides.get fun w => ?_
  by_cases hwaits : w.awaits t = true
  · rw [if_pos hwaits]
    exact (h.write rfl).bind fun _ => h.settle hp t o
  · rw [if_neg hwaits]
    exact h.settle hp t o

theorem resolve (t : TaskId) (o : Outcome) : Abides P Q (resolve perform t o) := by
  refine (h.settle hp t o).bind fun settled => ?_
  cases settled with
  | true => exact .pure ()
  | false => exact h.throw _

theorem attachOr {refused : Act Unit} (hrefused : Abides P Q refused) (t : TaskId)
    (k : Completion) : Abides P Q (attachOr perform refused t k) := by
  refine Abides.get fun w => ?_
  cases (w.cells[t]?).bind (Cell.attach k) with
  | none => exact hrefused.bind fun _ => h.throw _
  | some result =>
      obtain ⟨cell, outcome⟩ := result
      refine (h.setCell t _ _).bind fun _ => ?_
      cases outcome with
      | none => exact .pure ()
      | some o => exact hp _

theorem attach (t : TaskId) (k : Completion) : Abides P Q (attach perform t k) :=
  h.attachOr hp (.pure ()) t k

theorem derive (t : TaskId) (handler : TaskId → Completion) :
    Abides P Q (derive perform t handler) :=
  h.createTask.bind fun into => (h.attach hp t (handler into)).bind fun _ => .pure into

omit hp in
theorem poll (t : TaskId) (waker : String) : Abides P Q (poll t waker) := by
  refine Abides.get fun w => ?_
  cases w.cells[t]? with
  | none => exact .pure _
  | some cell =>
      dsimp only
      cases cell.poll waker with
      | error refusal => exact h.throw _
      | ok result => exact (h.setCell t _ _).bind fun _ => .pure _

/-! ## The end of a call -/

omit h hp in
/-- A call that is running ends, and then its end is reported if somebody waits for it. -/
theorem finish_triple
    {w : World} {c : CallId} {o : Outcome} {post : Unit → World → Prop}
    {stopped : Stop → World → Prop} (hrunning : w.isRunning c = true)
    (hfinished : ∀ call ending follow, w.calls[c]? = some call →
      call.ending.settle o = some (ending, follow) → P (w.finished c call o ending))
    (hunawaited : ∀ w', P w' → post () w')
    (hawaited : ∀ call ending into, w.calls[c]? = some call →
      call.ending.settle o = some (ending, .run into) →
      Triple P (perform (.report c into o)) post stopped) :
    Triple (· = w) (finish perform c o) post stopped := by
  obtain ⟨call, hcall, hnone⟩ := World.isRunning_iff.mp hrunning
  obtain ⟨⟨ending, follow⟩, hsettle⟩ : ∃ result, call.ending.settle o = some result := by
    refine Option.ne_none_iff_exists'.mp fun hrefused => ?_
    exact Cell.settle_eq_none_iff.mp hrefused hnone
  have hfinished := hfinished call ending follow hcall hsettle
  unfold World.finished at hfinished
  have hentered : ∃ last, (Act.enter c (.ofOutcome o)).exec w = (.ok (), last) ∧
      (last.calls[c]?.bind fun call => call.ending.settle o) = some (ending, follow) ∧
      P { last with calls := last.calls.modify c fun call => { call with ending } } := by
    by_cases hlast : call.view.stage.isTerminal = true
    · rw [if_pos hlast] at hfinished
      exact ⟨w, exec_enter_last hcall hlast _, by rw [hcall]; exact hsettle, hfinished⟩
    · rw [if_neg hlast] at hfinished
      have hopen : call.view.stage.isTerminal = false := by simpa using hlast
      refine ⟨_, exec_enter_open hcall hopen _, ?_, hfinished⟩
      dsimp only
      rw [Inv.getElem?_modify_self hcall]
      exact hsettle
  obtain ⟨last, hexec, hend, hlast⟩ := hentered
  refine Triple.step hexec (Triple.get ?_)
  rintro _ rfl
  rw [hend]
  refine Triple.editCall ?_
  cases follow with
  | quiet => exact Triple.done (hunawaited _ hlast)
  | wake label => exact Triple.done (hunawaited _ hlast)
  | run into => exact (hawaited call ending into hcall hsettle).apply hlast

omit h in
theorem finish_running {w : World} {c : CallId} {o : Outcome} (hrunning : w.isRunning c = true)
    (hfinished : ∀ call ending follow, w.calls[c]? = some call →
      call.ending.settle o = some (ending, follow) → P (w.finished c call o ending)) :
    Triple (· = w) (finish perform c o) (fun _ => P) Q :=
  finish_triple hrunning hfinished (fun _ => id) fun _ _ _ _ _ => hp _

/-- A call is ended unless it has ended, which is then reported. -/
theorem finishOrReport (c : CallId) (o : Outcome) {late : World → Entry}
    (hlate : ∀ w, (late w).isPlain = true) :
    Abides P Q (do
      let w ← MonadState.get
      if w.isRunning c then finish perform c o else Act.write (late w)) := by
  refine Triple.get fun w hw => ?_
  by_cases hrunning : w.isRunning c = true
  · rw [if_pos hrunning]
    exact finish_running hp hrunning fun _ _ _ => h.finished hw
  · rw [if_neg hrunning]
    exact (h.write (hlate w)).apply hw

theorem fail (p : Pipeline) (e : CallError) : Abides P Q (Act.fail perform p e) :=
  h.finishOrReport hp p.call _ fun _ => rfl

theorem succeed (p : Pipeline) (v : Json) : Abides P Q (Act.succeed perform p v) :=
  h.finishOrReport hp p.call _ fun _ => rfl

/-- The failure that a guard makes of a panic fails the call. -/
theorem fail_guarded (p : Pipeline) (e : CallError) {α : Type} :
    Triple (Guarded (α := α) P Q R p.call (.error e)) (Act.fail perform p e) (fun _ => P) Q := by
  refine Triple.of_world ?_
  rintro _ ⟨q, w₀, hsoft, hleft | hw, rfl, rfl⟩
  · refine Triple.get ?_
    rintro _ rfl
    by_cases hrunning : (w₀.caught q).isRunning p.call = true
    · rw [if_pos hrunning]
      exact finish_running hp hrunning fun _ _ _ => h.failed hleft hsoft
    · rw [if_neg hrunning]
      exact (h.write rfl).apply (h.late hleft hsoft (by simpa using hrunning))
  · exact (h.fail hp p _).apply (h.captured hw hsoft)

/-! ## Using a continuation -/

omit hp in
theorem place (k : Continuation) (p : Place) : Abides P Q (place k p) :=
  h.editCall _ fun _ => ⟨rfl, rfl⟩

omit hp in
theorem spend (k : Continuation) (fate : Fate) : Abides P Q (spend k fate) :=
  Abides.bind (h.editCall _ fun _ => ⟨rfl, rfl⟩) fun _ => h.write rfl

theorem proceed (own : Option Continuation) (payload : Payload) :
    Abides P Q (proceed perform own payload) := by
  refine Abides.withHeld (fun k => ?_) (.pure ())
  by_cases htakes : k.takes payload = true
  · rw [if_pos htakes]
    exact (h.spend k _).bind fun _ => hp _
  · rw [if_neg htakes]
    exact .pure ()

theorem abort (own : Option Continuation) (e : CallError) : Abides P Q (abort perform own e) :=
  Abides.withHeld (fun k => (h.spend k _).bind fun _ => h.fail hp k.pipeline e) (.pure ())

theorem release (own : Option Continuation) : Abides P Q (release perform own) :=
  Abides.withHeld (fun k => (h.spend k _).bind fun _ => h.fail hp k.pipeline _) (.pure ())

theorem entrust (own : Option Continuation) (t : TaskId) (f : Outcome → Code .nothing) :
    Abides P Q (entrust perform own t f) :=
  Abides.withHeld (fun k => (h.place k _).bind fun _ => h.attachOr hp (h.place k _) t _)
    (h.attach hp t _)

theorem abandon (t : TaskId) : Abides P Q (abandon perform t) := by
  refine Abides.get fun w => ?_
  cases w.cells[t]? with
  | none => exact .pure ()
  | some cell =>
      dsimp only
      refine (h.setCell t _ _).bind fun _ => ?_
      cases cell.abandon.2 with
      | none => exact .pure ()
      | some k =>
          cases k with
          | resume k f => exact (h.place k _).bind fun _ => h.release hp _
          | _ => exact .pure ()

/-! ## Foreign code -/

theorem run (own : Option Continuation) {y : Yield} (code : Code y) :
    Abides P Q (run perform own code) := by
  induction code with
  | done v => exact .pure v
  | panic p => exact h.throw _
  | log r next ih => exact (h.write rfl).bind fun _ => ih
  | create next ih => exact h.createTask.bind fun t => ih t
  | settle t o next ih => exact (h.settleMarked hp t o).bind fun settled => ih settled
  | attach t f next _ ih => exact (h.attach hp t _).bind fun _ => ih
  | entrust t f next _ ih => exact (h.entrust hp own t f).bind fun _ => ih
  | transform t f next _ ih => exact (h.derive hp t _).bind fun into => ih into
  | chain t f next _ ih => exact (h.derive hp t _).bind fun into => ih into
  | poll t waker next ih => exact (h.poll t waker).bind fun o => ih o
  | state t next ih => exact Abides.get fun w => ih _
  | abandon t next ih => exact (h.abandon hp t).bind fun _ => ih
  | proceed payload next ih => exact (h.proceed hp own payload).bind fun _ => ih
  | abort e next ih => exact (h.abort hp own e).bind fun _ => ih
  | release next ih => exact (h.release hp own).bind fun _ => ih
  | inspect next ih => exact (Abides.look own).bind fun held => ih held
  | register name t next ih => exact (h.register name t).bind fun _ => ih
  | find name next ih => exact Abides.get fun w => ih _
  | unregister name next ih => exact (h.unregister name).bind fun _ => ih
  | tick next ih => exact h.tick.bind fun n => ih n

/-! ## Passing the stages -/

/-- The code of a plugin's turn; a panic of it fails the call. -/
theorem pluginCode (k : Continuation) (point : Point) (code : Code .nothing) :
    Triple P (tryCatch (Act.calling k.pipeline.call (.plugin point) (Act.run perform (some k) code))
      fun stop => do
        forfeit (some k)
        MonadExcept.throw stop) (fun _ => P) (Left Q R k.pipeline.call) := by
  refine Abides.holding (h.calling_failing (h.run hp _ code) _ rfl) ?_
  rintro (p | _) w hw
  · exact h.lost k hw
  · exact h.forfeited k hw

theorem runPlugin (p : Pipeline) (point : Point) (plugin : String)
    (code : CallView → Code .nothing) : Abides P Q (runPlugin perform p point plugin code) := by
  refine Abides.bind (h.enter p.call (by cases point <;> rfl)) fun _ => Abides.get fun w => ?_
  refine (h.write rfl).bind fun _ => ?_
  cases w.calls[p.call]? with
  | none => exact .pure ()
  | some call =>
      refine (h.place ⟨p, point⟩ .code).bind fun _ => ?_
      refine Triple.bind (h.guarded_stage (h.pluginCode hp ⟨p, point⟩ point (code call.view))
        fun _ => h.release hp _) fun result => ?_
      cases result with
      | ok v => exact Triple.pure fun _ => id
      | error e => exact h.fail_guarded hp p e

theorem runHandler (p : Pipeline) (args : Args) : Abides P Q (runHandler perform p args) := by
  refine Abides.bind (h.enter p.call rfl) fun _ => Abides.get fun w => ?_
  refine (h.write rfl).bind fun _ => (h.write rfl).bind fun _ => ?_
  refine Triple.bind (h.guarded_stage (h.calling_failing (h.run hp none _) p.call rfl)
    fun t => h.attach hp t (.handled p)) fun result => ?_
  cases result with
  | ok v => exact Triple.pure fun _ => id
  | error e => exact h.fail_guarded hp p e

theorem callStage (p : Pipeline) (index : Nat) (args : Args) :
    Abides P Q (callStage perform p index args) := by
  unfold Act.callStage
  cases p.route.attachments[index]? with
  | none => exact h.runHandler hp p args
  | some a => exact h.runPlugin hp p _ _ _

theorem resultStage (p : Pipeline) (index : Nat) (v : Json) :
    Abides P Q (resultStage perform p index v) := by
  unfold Act.resultStage
  cases p.route.attachments[index]? with
  | none => exact h.succeed hp p v
  | some a => exact h.runPlugin hp p _ _ _

/-! ## Jobs -/

theorem goOn (k : Continuation) (payload : Payload) : Abides P Q (Act.goOn perform k payload) := by
  unfold Act.goOn
  split
  · exact h.callStage hp _ _ _
  · exact h.resultStage hp _ _ _
  · exact .pure ()

omit hp in
theorem refuse (c : CallId) : Abides P Q (refuse c) :=
  (h.write rfl).bind fun _ => h.throw _

theorem tell (d : Dispatcher) (c : CallId) (o : Outcome) : Abides P Q (tell perform d c o) := by
  refine (h.write rfl).bind fun _ => Abides.get fun w => ?_
  cases w.calls[c]? with
  | none => exact .pure ()
  | some call =>
      refine h.calling ?_ c rfl
      cases o with
      | ok v => exact h.run hp none _
      | error e => exact h.run hp none _

theorem answer (c : CallId) (into : TaskId) (o : Outcome) :
    Abides P Q (answer perform c into o) := by
  refine (h.settle hp into o).bind fun settled => ?_
  cases settled with
  | true => exact .pure ()
  | false => exact h.refuse c

theorem report (d : Dispatcher) (c : CallId) (into : TaskId) (o : Outcome) :
    Abides P Q (Act.report perform d c into o) := by
  refine (h.guarded (h.tell hp d c o)).bind fun result => ?_
  cases result with
  | ok v => exact h.answer hp c into o
  | error e => exact h.answer hp c into (.error e)

theorem complete (k : Completion) (o : Outcome) : Abides P Q (Act.complete perform k o) := by
  cases k with
  | code f => exact h.run hp none (f o)
  | resume k f =>
      refine (h.place k _).bind fun _ => Abides.bind ?_ fun _ => h.release hp _
      exact Abides.holding (h.calling (h.run hp _ (f o)) _ rfl) fun s w => h.forfeited k
  | transform f into =>
      refine (h.guarded (h.run hp none (f o))).bind fun result => ?_
      cases result with
      | ok mapped => exact h.resolve hp into mapped
      | error e => exact h.resolve hp into (.error e)
  | chain f into =>
      refine (h.guarded (h.run hp none (f o))).bind fun result => ?_
      cases result with
      | ok t => exact h.attach hp t _
      | error e => exact h.resolve hp into (.error e)
  | relay into => exact h.resolve hp into o
  | handled p =>
      cases o with
      | ok v => exact (h.write rfl).bind fun _ => h.resultStage hp p 0 v
      | error e => exact h.fail hp p e

/-! ## Dispatch -/

omit hp in
theorem reportAll
    {reports : List Trace} (hreports : ∀ t ∈ reports, (Entry.trace t).isPlain = true)
    {stopped : Stop → World → Prop} :
    Triple P (Act.reportAll reports) (fun _ => P) stopped := by
  rintro w hw
  change P { w with log := w.log ++ reports.map .trace }
  induction reports generalizing w with
  | nil => simpa using hw
  | cons t rest ih =>
      have hfirst := h.logged hw (hreports t (by simp))
      simpa using ih (fun x hx => hreports x (List.mem_cons_of_mem _ hx)) _ hfirst

omit hp in
theorem noteMatch (c : CallId) (m : RouteMatch) {stopped : Stop → World → Prop} :
    Triple P (noteMatch c m) (fun _ => P) stopped := by
  refine Triple.of_world fun w hw => Triple.editCall ?_
  refine Triple.bind ((h.enter c rfl).apply (h.edit c hw fun _ => ⟨rfl, rfl⟩)) fun _ => ?_
  exact Triple.get fun w hw => Triple.write_last (h.logged hw rfl)

/-- Only a panic that fails the call leaves the preparation of a call. -/
theorem start (d : Dispatcher) (c : CallId) (r : Request) (version : Nat) (view : CallView) :
    Triple P (start perform d c r version view) (fun _ => P) (Left Q R c) := by
  refine Triple.of_world fun w hw => Triple.write ?_
  refine Triple.bind ((h.calling_failing (h.run hp none _) c rfl).apply (h.logged hw rfl))
    fun number => Triple.of_world fun w hw => Triple.editCall ?_
  refine Triple.apply (prepare_triple (fun router => h.reportAll fun t ht => ?_)
    (fun m => h.noteMatch c m)
    (fun b => h.calling_failing (liftBinder_triple (fun p w => h.stop _) b) c rfl)
    (fun _ => h.enter c rfl) (fun _ _ => id) fun _ _ => id) (h.edit c hw fun _ => ⟨rfl, rfl⟩)
  obtain ⟨text, found, rfl⟩ := eq_lookedUp_of_mem_report ht
  rfl

theorem guarded_start (d : Dispatcher) (c : CallId) (r : Request) (version : Nat)
    (view : CallView) :
    Triple P (Act.guarded (Act.start perform d c r version view)) (Guarded P Q R c) Q :=
  h.guarded_failing ((h.start hp d c r version view).stops fun _ _ => .inl)

/-- A call that could not be prepared is running and ends; a panic of its preparation fails it. -/
theorem launch (c : CallId) (prepared : Except CallError (Except CallError (Route × Args))) :
    Triple (fun w => Guarded P Q R c prepared w ∧ w.isRunning c = true)
      (launch perform c (prepared.bind id)) (fun _ => P) Q := by
  refine Triple.of_world ?_
  rintro w ⟨hw, hrunning⟩
  rcases prepared with e | e | ⟨route, args⟩
  · obtain ⟨q, w₀, hsoft, hleft | hstopped, rfl, rfl⟩ := hw
    · exact finish_running hp hrunning fun _ _ _ => h.failed hleft hsoft
    · exact finish_running hp hrunning fun _ _ _ => h.finished (h.captured hstopped hsoft)
  · exact finish_running hp hrunning fun _ _ _ => h.finished hw
  · exact (h.callStage hp ⟨c, route⟩ 0 args).apply hw

/-- What waiting for the end of a call has to keep. -/
def Awaits (P : World → Prop) (c : CallId) : Prop :=
  ∀ {w : World} {call : Call} {ending : Cell TaskId} {into : TaskId} {outcome : Option Outcome},
    P w → w.calls[c]? = some call → call.ending.attach into = some (ending, outcome) →
    P { w with calls := w.calls.modify c fun call => { call with ending, answer := some into } }

theorem awaitEnd {c : CallId} (hawaits : Awaits P c) (into : TaskId) :
    Abides P Q (awaitEnd perform c into) := by
  refine Triple.get fun w hw => ?_
  cases hcall : w.calls[c]? with
  | none => exact (h.throw _).apply hw
  | some call =>
      rw [Option.bind_some]
      cases hattach : call.ending.attach into with
      | none => exact (h.throw _).apply hw
      | some result =>
          obtain ⟨ending, outcome⟩ := result
          refine Triple.editCall ?_
          have hawaited := hawaits hw hcall hattach
          cases outcome with
          | none => exact Triple.done hawaited
          | some o => exact (hp _).apply hawaited

/-- A dispatch abides if its call does not end while it is prepared. -/
theorem dispatch
    {d : Dispatcher} {r : Request} {w : World} (hawaits : Awaits P w.calls.length)
    (hnew : ∀ view, view.stage.isTerminal = false → P { w with calls := w.calls ++ [{ view }] })
    (hstarted : ∀ view version, view.stage.isTerminal = false →
      Triple (· = { w with calls := w.calls ++ [{ view }] })
        (Act.guarded (Act.start perform d w.calls.length r version view))
        (fun _ w' => w'.isRunning w.calls.length = true) fun _ _ => True) :
    Triple (· = w) (dispatch perform d r) (fun _ => P) Q := by
  refine Triple.step rfl ?_
  refine Triple.bind (m := fun prepared w' => Guarded P Q R w.calls.length prepared w' ∧
    w'.isRunning w.calls.length = true) ?_ fun prepared => ?_
  · exact (((h.guarded_start hp d _ r _ _).apply (hnew _ rfl)).and (hstarted _ _ rfl)).stops
      fun _ _ => And.left
  · refine Triple.bind (h.launch hp _ prepared) fun _ => h.createTask.bind fun t => ?_
    exact (h.awaitEnd hp hawaits t).bind fun _ => .pure t

end Jobs

/-- All jobs abide by a discipline. -/
theorem perform (d : Dispatcher) (depth : Nat) (job : Job) :
    Abides P Q (RouteDispatch.perform d depth job) := by
  induction depth generalizing job with
  | zero => exact h.throw _
  | succ depth ih =>
      cases job with
      | complete k o => exact h.complete ih k o
      | goOn k payload => exact h.goOn ih k payload
      | report c into o => exact h.report ih d c into o

end Discipline

end Act
end RouteDispatch
