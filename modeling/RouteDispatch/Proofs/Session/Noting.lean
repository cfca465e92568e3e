import Mathlib.Data.List.Basic
import Mathlib.Data.List.Induction
import RouteDispatch.Proofs.Session.Dispatching

/-!
# Listeners that note what they are told

A listener may note all that it is told before it does anything else.  Nothing that the library does
depends on the log, so in a run with such a listener everything comes out as it does without the
notes.  Each note stands right behind a mark: that of the start of a call or that of its end.  So
the marks of a log say when the listener is called, and there is no call of it without a mark.
-/

namespace RouteDispatch

/-! ## Notes -/

/-- What a call asks for. -/
def CallView.asked (v : CallView) : CallView :=
  { method := v.method, path := v.path, version := v.version, transport := v.transport }

/-- What a listener writes down when it is told of the start of a call, or of its end. -/
abbrev Notes := CallView → Option Outcome → Json

/-- The listener that notes what it is told, and then goes on as before. -/
def Listener.noting (note : Notes) (l : Listener) : Listener where
  onStart v := .note (note v.asked none) (l.onStart v)
  onSucceed v result := .note (note v.asked (some (.ok result))) (l.onSucceed v result)
  onFail v e := .note (note v.asked (some (.error e))) (l.onFail v e)

def Dispatcher.noting (note : Notes) (d : Dispatcher) : Dispatcher :=
  { d with listener := d.listener.noting note }

/-- The call that the listener is told of behind the entry: its start, or its end with an
outcome. -/
def Entry.notice? : Entry → Option (CallId × Option Outcome)
  | .mark (.started c) => some (c, none)
  | .mark (.ended c o) => some (c, some o)
  | _ => none

/-- The mark of a notice. -/
def Mark.ofNotice (c : CallId) : Option Outcome → Mark
  | none => .started c
  | some o => .ended c o

theorem Entry.notice?_eq_some_iff {e : Entry} {c : CallId} {o? : Option Outcome} :
    e.notice? = some (c, o?) ↔ e = .mark (.ofNotice c o?) := by
  constructor
  · intro h
    unfold Entry.notice? at h
    split at h
    · obtain ⟨rfl, rfl⟩ := Prod.mk.inj (Option.some.inj h)
      rfl
    · obtain ⟨rfl, rfl⟩ := Prod.mk.inj (Option.some.inj h)
      rfl
    · cases h
  · rintro rfl
    cases o? <;> rfl

/-- What the call at a place asks for. -/
def askedAt (calls : List Call) (c : CallId) : Option CallView :=
  calls[c]?.map fun call => call.view.asked

theorem askedAt_eq_some {calls : List Call} {c : CallId} {call : Call}
    (hcall : calls[c]? = some call) : askedAt calls c = some call.view.asked := by
  simp [askedAt, hcall]

/-- The note that stands behind the entry. -/
def Entry.note? (note : Notes) (calls : List Call) (e : Entry) : Option Entry :=
  e.notice?.bind fun n => (askedAt calls n.1).map fun v => .remark (.note (note v n.2))

/-- The world with the notes of a listener in its log. -/
def World.noted (note : Notes) (w : World) : World :=
  { w with log := w.log.flatMap fun e => e :: (e.note? note w.calls).toList }

namespace World

variable {note : Notes} {w : World}

@[simp]
theorem noted_cells (note : Notes) (w : World) : (w.noted note).cells = w.cells :=
  rfl

@[simp]
theorem noted_calls (note : Notes) (w : World) : (w.noted note).calls = w.calls :=
  rfl

theorem noted_register (name : String) (t : TaskId) :
    (w.register name t).noted note = (w.noted note).register name t := by
  have hvariant : ∀ tries number, (w.noted note).freeVariant name tries number =
      w.freeVariant name tries number := by
    intro tries
    induction tries with
    | zero => exact fun _ => rfl
    | succ tries ih =>
        intro number
        unfold freeVariant
        rw [ih]
        rfl
  have hname : (w.noted note).freeName name = w.freeName name := by
    unfold freeName
    rw [hvariant]
    rfl
  unfold register
  rw [hname]
  rfl

/-- All marks in a noted log are those of the log itself. -/
theorem mark_mem_noted_log (note : Notes) {m : Mark} :
    .mark m ∈ (w.noted note).log ↔ .mark m ∈ w.log := by
  constructor
  · intro h
    obtain ⟨e, he, hmark⟩ := List.mem_flatMap.mp h
    rcases List.mem_cons.mp hmark with rfl | hnote
    · exact he
    · obtain ⟨n, -, hn⟩ := Option.bind_eq_some_iff.mp (Option.mem_toList.mp hnote)
      obtain ⟨v, -, hv⟩ := Option.map_eq_some_iff.mp hn
      cases hv
  · exact fun h => List.mem_flatMap.mpr ⟨_, h, List.mem_cons_self⟩

/-- The note stands right behind the mark that it belongs to. -/
theorem exists_noted_log {c : CallId} {o? : Option Outcome} {v : CallView}
    (hmark : .mark (.ofNotice c o?) ∈ w.log) (hasked : askedAt w.calls c = some v) :
    ∃ front behind, (w.noted note).log =
      front ++ .mark (.ofNotice c o?) :: .remark (.note (note v o?)) :: behind := by
  obtain ⟨front, behind, hlog⟩ := List.append_of_mem hmark
  have hnote : (Entry.mark (.ofNotice c o?)).note? note w.calls =
      some (.remark (.note (note v o?))) := by
    simp [Entry.note?, Entry.notice?_eq_some_iff.mpr rfl, hasked]
  refine ⟨front.flatMap fun e => e :: (e.note? note w.calls).toList,
    behind.flatMap fun e => e :: (e.note? note w.calls).toList, ?_⟩
  simp [noted, hlog, hnote]

/-- The notes depend on the calls by what these ask for. -/
theorem noted_congr {calls : List Call}
    (h : ∀ e ∈ w.log, ∀ n, e.notice? = some n → askedAt calls n.1 = askedAt w.calls n.1) :
    { w with calls }.noted note = { w.noted note with calls } := by
  have hlog : (w.log.flatMap fun e => e :: (e.note? note calls).toList) =
      w.log.flatMap fun e => e :: (e.note? note w.calls).toList := by
    refine List.flatMap_congr fun e he => ?_
    have hsame : e.note? note calls = e.note? note w.calls :=
      Option.bind_congr fun n hn => by rw [h e he n hn]
    rw [hsame]
  unfold noted
  simp only [hlog]

theorem noted_edited (c : CallId) {g : Call → Call}
    (hg : ∀ call, (g call).view.asked = call.view.asked) :
    { w with calls := w.calls.modify c g }.noted note =
      { w.noted note with calls := w.calls.modify c g } := by
  refine noted_congr fun e _ n _ => ?_
  unfold askedAt
  rw [List.getElem?_modify]
  cases w.calls[n.1]? with
  | none => rfl
  | some call =>
      by_cases hc : c = n.1
      · simp [hc, hg]
      · simp [hc]

theorem noted_opened (call : Call)
    (hnew : ∀ e ∈ w.log, ∀ n, e.notice? = some n → n.1 ≠ w.calls.length) :
    { w with calls := w.calls ++ [call] }.noted note =
      { w.noted note with calls := w.calls ++ [call] } := by
  refine noted_congr fun e he n hn => ?_
  unfold askedAt
  rw [getElem?_append_singleton_ne (hnew e he n hn).symm]

theorem noted_logged {e : Entry} (he : e.notice? = none) :
    { w with log := w.log ++ [e] }.noted note =
      { w.noted note with log := (w.noted note).log ++ [e] } := by
  simp [noted, Entry.note?, he]

/-- Behind the entry of a notice the note of it comes next. -/
theorem noted_notice {e : Entry} {c : CallId} {o? : Option Outcome} {v : CallView}
    (he : e.notice? = some (c, o?)) (hasked : askedAt w.calls c = some v) :
    { w with log := w.log ++ [e] }.noted note =
      { w.noted note with
        log := (w.noted note).log ++ [e] ++ [.remark (.note (note v o?))] } := by
  simp [noted, Entry.note?, he, hasked]

end World

/-! ## Acts in noted worlds -/

namespace Act

variable {note : Notes} {w : World} {α β : Type}

/-- In the noted world the second act does what the first one does in the world itself. -/
def Echoes (note : Notes) (w : World) (a a' : Act α) : Prop :=
  a'.exec (w.noted note) = ((a.exec w).1, (a.exec w).2.noted note)

namespace Echoes

theorem pure (v : α) : Echoes note w (Pure.pure v) (Pure.pure v) :=
  rfl

theorem throw (s : Stop) : Echoes note w (MonadExcept.throw s : Act α) (MonadExcept.throw s) :=
  rfl

theorem raise (p : Panic) : Echoes note w (Act.raise p : Act α) (Act.raise p) :=
  rfl

/-- The rest is looked at with what the first act gives in the world. -/
theorem bind_exec {a a' : Act α} {f f' : α → Act β} (ha : Echoes note w a a')
    (hf : ∀ v w', a.exec w = (.ok v, w') → Echoes note w' (f v) (f' v)) :
    Echoes note w (a >>= f) (a' >>= f') := by
  unfold Echoes at ha hf ⊢
  rw [exec_bind, exec_bind, ha]
  cases hexec : a.exec w with
  | mk result w' =>
      cases result with
      | ok v => exact hf v w' hexec
      | error s => rfl

theorem bind {a a' : Act α} {f f' : α → Act β} (ha : Echoes note w a a')
    (hf : ∀ v w', Echoes note w' (f v) (f' v)) : Echoes note w (a >>= f) (a' >>= f') :=
  ha.bind_exec fun v w' _ => hf v w'

theorem tryCatch {a a' : Act α} {handler handler' : Stop → Act α} (ha : Echoes note w a a')
    (hhandler : ∀ s w', Echoes note w' (handler s) (handler' s)) :
    Echoes note w (MonadExcept.tryCatch a handler) (MonadExcept.tryCatch a' handler') := by
  unfold Echoes at ha hhandler ⊢
  rw [exec_tryCatch, exec_tryCatch, ha]
  cases hexec : a.exec w with
  | mk result w' =>
      cases result with
      | ok v => rfl
      | error s => exact hhandler s w'

theorem get {f f' : World → Act α} (h : Echoes note w (f w) (f' (w.noted note))) :
    Echoes note w (MonadState.get >>= f) (MonadState.get >>= f') :=
  h

theorem ite {p : Prop} [Decidable p] {a b a' b' : Act α} (ha : Echoes note w a a')
    (hb : Echoes note w b b') : Echoes note w (if p then a else b) (if p then a' else b') := by
  split
  · exact ha
  · exact hb

theorem of_modify {f f' : World → World} (h : (f w).noted note = f' (w.noted note)) :
    Echoes note w (modify f : Act Unit) (modify f') :=
  congrArg (Prod.mk (Except.ok ())) h.symm

/-! ### Single changes -/

theorem write {e : Entry} (he : e.notice? = none) :
    Echoes note w (Act.write e) (Act.write e) :=
  of_modify (World.noted_logged he)

theorem reportAll (reports : List Trace) :
    Echoes note w (Act.reportAll reports) (Act.reportAll reports) := by
  refine of_modify ?_
  induction reports using List.reverseRecOn with
  | nil => simp [World.noted]
  | append_singleton front last ih =>
      have hlast := @World.noted_logged note { w with log := w.log ++ front.map .trace }
        (.trace last) rfl
      rw [ih] at hlast
      simpa using hlast

theorem newTask : Echoes note w (Act.newTask .fresh) (Act.newTask .fresh) :=
  rfl

theorem tick : Echoes note w Act.tick Act.tick :=
  rfl

theorem setCell (t : TaskId) (turn : Cell.Turn Completion) (cell : Cell Completion) :
    Echoes note w (Act.setCell t turn cell) (Act.setCell t turn cell) :=
  rfl

theorem editCall (c : CallId) {g : Call → Call}
    (hg : ∀ call, (g call).view.asked = call.view.asked) :
    Echoes note w (Act.editCall c g) (Act.editCall c g) :=
  of_modify (World.noted_edited c hg)

/-- What comes behind the change of a call is looked at in the changed world. -/
theorem editCall_bind (c : CallId) {g : Call → Call}
    (hg : ∀ call, (g call).view.asked = call.view.asked) {f f' : Unit → Act α}
    (hf : Echoes note { w with calls := w.calls.modify c g } (f ()) (f' ())) :
    Echoes note w (Act.editCall c g >>= f) (Act.editCall c g >>= f') := by
  refine (editCall c hg).bind_exec fun _ w' hexec => ?_
  obtain rfl := (Prod.mk.inj hexec).2
  exact hf

theorem editView (c : CallId) {g : CallView → CallView} (hg : ∀ v, (g v).asked = v.asked) :
    Echoes note w (Act.editView c g) (Act.editView c g) :=
  editCall c fun call => hg call.view

theorem enter (c : CallId) (stage : Stage) :
    Echoes note w (Act.enter c stage) (Act.enter c stage) := by
  refine get ?_
  simp only [World.noted_calls]
  cases w.calls[c]? with
  | none => exact pure ()
  | some call =>
      dsimp only
      split
      · exact pure ()
      · exact (write rfl).bind fun _ _ => editView c fun _ => rfl

theorem calling (c : CallId) (piece : Piece) {a a' : Act α} (ha : Echoes note w a a') :
    Echoes note w (Act.calling c piece a) (Act.calling c piece a') := by
  refine ha.tryCatch fun s _ => ?_
  cases s with
  | panic p => exact (write rfl).bind fun _ _ => throw _
  | tooDeep => exact throw _

theorem guarded {a a' : Act α} (ha : Echoes note w a a') :
    Echoes note w (Act.guarded a) (Act.guarded a') := by
  refine tryCatch (ha.bind fun v _ => pure _) fun s _ => ?_
  rcases s with (_ | _ | _) | _
  · exact throw _
  · exact (write rfl).bind fun _ _ => pure _
  · exact (write rfl).bind fun _ _ => pure _
  · exact throw _

end Echoes

/-! ## Work in noted worlds -/

/-- The call is there whose end the job reports. -/
def HasCall (w : World) : Job → Prop
  | .report c _ _ => w.calls[c]? ≠ none
  | _ => True

/-- In noted worlds the second performer does what the first one does in the worlds themselves. -/
def EchoesJobs (note : Notes) (perform perform' : Performer) : Prop :=
  ∀ (job : Job) (w : World), HasCall w job → Echoes note w (perform job) (perform' job)

variable {perform perform' : Performer}

namespace EchoesJobs

variable (hp : EchoesJobs note perform perform')

include hp

theorem complete (h : Completion) (o : Outcome) :
    Echoes note w (perform (.complete h o)) (perform' (.complete h o)) :=
  hp _ w trivial

theorem goOn (k : Continuation) (payload : Payload) :
    Echoes note w (perform (.goOn k payload)) (perform' (.goOn k payload)) :=
  hp _ w trivial

end EchoesJobs

namespace Echoes

theorem refuse (c : CallId) : Echoes note w (Act.refuse c) (Act.refuse c) :=
  (write rfl).bind fun _ _ => raise _

section Jobs

variable (hp : EchoesJobs note perform perform')

include hp

/-! ### Tasks -/

theorem settle (t : TaskId) (o : Outcome) :
    Echoes note w (Act.settle perform t o) (Act.settle perform' t o) := by
  refine get ?_
  simp only [World.noted_cells]
  cases w.cells[t]? with
  | none => exact pure false
  | some cell =>
      dsimp only
      cases cell.settle o with
      | none => exact pure false
      | some result =>
          obtain ⟨cell', follow⟩ := result
          refine (setCell t _ cell').bind fun _ _ => ?_
          cases follow with
          | quiet => exact pure true
          | wake label => exact (write rfl).bind fun _ _ => pure true
          | run h => exact (hp.complete h o).bind fun _ _ => pure true

theorem settleMarked (t : TaskId) (o : Outcome) :
    Echoes note w (Act.settleMarked perform t o) (Act.settleMarked perform' t o) := by
  refine get ?_
  have hsame : (w.noted note).awaits t = w.awaits t := rfl
  rw [hsame]
  exact ite ((write rfl).bind fun _ _ => settle hp t o) (settle hp t o)

theorem resolve (t : TaskId) (o : Outcome) :
    Echoes note w (Act.resolve perform t o) (Act.resolve perform' t o) := by
  refine (settle hp t o).bind fun settled _ => ?_
  cases settled with
  | true => exact pure ()
  | false => exact raise _

theorem attachOr {refused : Act Unit} (hrefused : ∀ w, Echoes note w refused refused) (t : TaskId)
    (h : Completion) :
    Echoes note w (Act.attachOr perform refused t h) (Act.attachOr perform' refused t h) := by
  refine get ?_
  simp only [World.noted_cells]
  cases w.cells[t]?.bind (Cell.attach h) with
  | none => exact (hrefused w).bind fun _ _ => raise _
  | some result =>
      obtain ⟨cell, outcome⟩ := result
      refine (setCell t _ cell).bind fun _ _ => ?_
      cases outcome with
      | none => exact pure ()
      | some o => exact hp.complete h o

theorem attach (t : TaskId) (h : Completion) :
    Echoes note w (Act.attach perform t h) (Act.attach perform' t h) :=
  attachOr hp (fun _ => pure ()) t h

theorem derive (t : TaskId) (handler : TaskId → Completion) :
    Echoes note w (Act.derive perform t handler) (Act.derive perform' t handler) :=
  newTask.bind fun into _ => (attach hp t (handler into)).bind fun _ _ => pure into

omit hp in
theorem poll (t : TaskId) (waker : String) :
    Echoes note w (Act.poll t waker) (Act.poll t waker) := by
  refine get ?_
  simp only [World.noted_cells]
  cases w.cells[t]? with
  | none => exact pure none
  | some cell =>
      dsimp only
      cases cell.poll waker with
      | error refusal => exact raise _
      | ok result => exact (setCell t _ _).bind fun _ _ => pure _

/-! ### The ends of calls -/

theorem conclude (c : CallId) (o : Outcome) :
    Echoes note w (Act.conclude perform c o) (Act.conclude perform' c o) := by
  refine get ?_
  simp only [World.noted_calls]
  cases hcall : w.calls[c]? with
  | none => exact refuse c
  | some call =>
      rw [Option.bind_some]
      cases call.ending.settle o with
      | none => exact refuse c
      | some result =>
          obtain ⟨ending, follow⟩ := result
          refine editCall_bind c ?_ ?_
          · exact fun _ => rfl
          · cases follow with
            -- The end that is reported is that of the call just found.
            | run into => exact hp _ _ (by simp [HasCall, hcall])
            | quiet => exact pure ()
            | wake label => exact pure ()

theorem finish (c : CallId) (o : Outcome) :
    Echoes note w (Act.finish perform c o) (Act.finish perform' c o) :=
  (enter c _).bind fun _ _ => conclude hp c o

theorem finishOrReport (c : CallId) (o : Outcome) {late : World → Entry}
    (hsame : late (w.noted note) = late w) (hlate : (late w).notice? = none) :
    Echoes note w
      (do
        let w ← MonadState.get
        if w.isRunning c then Act.finish perform c o else Act.write (late w))
      (do
        let w ← MonadState.get
        if w.isRunning c then Act.finish perform' c o else Act.write (late w)) := by
  refine get ?_
  have hrunning : (w.noted note).isRunning c = w.isRunning c := rfl
  rw [hrunning, hsame]
  exact ite (finish hp c o) (write hlate)

theorem fail (p : Pipeline) (e : CallError) :
    Echoes note w (Act.fail perform p e) (Act.fail perform' p e) :=
  finishOrReport hp p.call _ rfl rfl

theorem succeed (p : Pipeline) (v : Json) :
    Echoes note w (Act.succeed perform p v) (Act.succeed perform' p v) :=
  finishOrReport hp p.call _ rfl rfl

theorem awaitEnd (c : CallId) (into : TaskId) :
    Echoes note w (Act.awaitEnd perform c into) (Act.awaitEnd perform' c into) := by
  refine get ?_
  simp only [World.noted_calls]
  cases hcall : w.calls[c]? with
  | none => exact raise _
  | some call =>
      rw [Option.bind_some]
      cases call.ending.attach into with
      | none => exact raise _
      | some result =>
          obtain ⟨ending, outcome⟩ := result
          refine editCall_bind c ?_ ?_
          · exact fun _ => rfl
          · cases outcome with
            | none => exact pure ()
            | some o => exact hp _ _ (by simp [HasCall, hcall])

/-! ### Using a continuation -/

omit hp in
theorem withHeld (own : Option Continuation) {use use' : Continuation → Act α}
    {otherwise otherwise' : Act α} (huse : ∀ k w, Echoes note w (use k) (use' k))
    (hother : ∀ w, Echoes note w otherwise otherwise') :
    Echoes note w (Act.withHeld own use otherwise) (Act.withHeld own use' otherwise') := by
  cases own with
  | none => exact hother w
  | some k =>
      have hholds : Echoes note w (Act.holds k) (Act.holds k) := by
        refine get ?_
        simp only [World.noted_calls]
        cases w.calls[k.pipeline.call]? with
        | none => exact pure false
        | some call => exact pure _
      refine hholds.bind fun held w => ?_
      cases held with
      | true => exact huse k w
      | false => exact hother w

omit hp in
theorem place (k : Continuation) (p : Place) :
    Echoes note w (Act.place k p) (Act.place k p) :=
  editCall _ fun _ => rfl

omit hp in
theorem spend (k : Continuation) (fate : Fate) :
    Echoes note w (Act.spend k fate) (Act.spend k fate) :=
  bind (editCall _ fun _ => rfl) fun _ _ => write rfl

variable (own : Option Continuation)

theorem proceed (payload : Payload) :
    Echoes note w (Act.proceed perform own payload) (Act.proceed perform' own payload) := by
  refine withHeld own (fun k _ => ?_) fun _ => pure ()
  exact ite ((spend k _).bind fun _ _ => hp.goOn k payload) (pure ())

theorem abort (e : CallError) :
    Echoes note w (Act.abort perform own e) (Act.abort perform' own e) :=
  withHeld own (fun k _ => (spend k _).bind fun _ _ => fail hp _ e) fun _ => pure ()

theorem release : Echoes note w (Act.release perform own) (Act.release perform' own) :=
  withHeld own (fun k _ => (spend k _).bind fun _ _ => fail hp _ _) fun _ => pure ()

omit hp in
theorem forfeit : Echoes note w (Act.forfeit own) (Act.forfeit own) :=
  withHeld own (fun k _ => spend k _) fun _ => pure ()

omit hp in
theorem look : Echoes note w (Act.look own) (Act.look own) :=
  withHeld own (fun _ _ => get (pure _)) fun _ => pure none

theorem entrust (t : TaskId) (h : Outcome → Code .nothing) :
    Echoes note w (Act.entrust perform own t h) (Act.entrust perform' own t h) :=
  withHeld own (fun k _ => (place k _).bind fun _ _ => attachOr hp (fun _ => place k _) t _)
    fun _ => attach hp t _

theorem abandon (t : TaskId) :
    Echoes note w (Act.abandon perform t) (Act.abandon perform' t) := by
  refine get ?_
  simp only [World.noted_cells]
  cases w.cells[t]? with
  | none => exact pure ()
  | some cell =>
      refine (setCell t _ _).bind fun _ _ => ?_
      split
      · exact (place _ _).bind fun _ _ => release hp _
      · exact pure ()

/-! ### Foreign code -/

theorem run {y : Yield} (code : Code y) :
    Echoes note w (Act.run perform own code) (Act.run perform' own code) := by
  induction code generalizing w with
  | done v => exact pure v
  | panic p => exact raise p
  | log r next ih => exact (write rfl).bind fun _ _ => ih
  | create next ih => exact newTask.bind fun t _ => ih t
  | settle t o next ih => exact (settleMarked hp t o).bind fun settled _ => ih settled
  | attach t h next _ ih => exact (attach hp t _).bind fun _ _ => ih
  | entrust t h next _ ih => exact (entrust hp own t h).bind fun _ _ => ih
  | transform t f next _ ih => exact (derive hp t _).bind fun into _ => ih into
  | chain t f next _ ih => exact (derive hp t _).bind fun into _ => ih into
  | poll t waker next ih => exact (poll t waker).bind fun o _ => ih o
  | state t next ih => exact get (ih _)
  | abandon t next ih => exact (abandon hp t).bind fun _ _ => ih
  | proceed payload next ih => exact (proceed hp own payload).bind fun _ _ => ih
  | abort e next ih => exact (abort hp own e).bind fun _ _ => ih
  | release next ih => exact (release hp own).bind fun _ _ => ih
  | inspect next ih => exact (look own).bind fun held _ => ih held
  | register name t next ih =>
      exact bind (of_modify (World.noted_register name t)) fun _ _ => ih
  | find name next ih => exact get (ih _)
  | unregister name next ih => exact bind (of_modify rfl) fun _ _ => ih
  | tick next ih => exact tick.bind fun n _ => ih n

/-! ### Stages -/

theorem runHolding (k : Continuation) (piece : Piece) (code : Code .nothing) :
    Echoes note w (Act.runHolding perform k piece code) (Act.runHolding perform' k piece code) := by
  refine bind ?_ fun _ _ => release hp _
  refine (calling _ piece (run hp _ code)).tryCatch fun s _ => ?_
  exact (forfeit _).bind fun _ _ => throw s

theorem runPlugin (p : Pipeline) (point : Point) (plugin : String)
    (code : CallView → Code .nothing) :
    Echoes note w (Act.runPlugin perform p point plugin code)
      (Act.runPlugin perform' p point plugin code) := by
  refine (enter _ _).bind fun _ w => get ((write rfl).bind fun _ _ => ?_)
  simp only [World.noted_calls]
  cases w.calls[p.call]? with
  | none => exact pure ()
  | some call =>
      refine (place _ _).bind fun _ _ => (guarded (runHolding hp _ _ _)).bind fun result _ => ?_
      cases result with
      | ok v => exact pure ()
      | error e => exact fail hp p e

theorem runHandler (p : Pipeline) (args : Args) :
    Echoes note w (Act.runHandler perform p args) (Act.runHandler perform' p args) := by
  refine (enter _ _).bind fun _ _ => get ?_
  refine (write rfl).bind fun _ _ => (write rfl).bind fun _ _ => ?_
  refine (guarded (bind (calling _ _ (run hp none _)) fun t _ => attach hp t _)).bind
    fun result _ => ?_
  cases result with
  | ok v => exact pure ()
  | error e => exact fail hp p e

theorem callStage (p : Pipeline) (index : Nat) (args : Args) :
    Echoes note w (Act.callStage perform p index args) (Act.callStage perform' p index args) := by
  unfold Act.callStage
  cases p.route.attachments[index]? with
  | none => exact runHandler hp p args
  | some a => exact runPlugin hp p _ _ _

theorem resultStage (p : Pipeline) (index : Nat) (v : Json) :
    Echoes note w (Act.resultStage perform p index v) (Act.resultStage perform' p index v) := by
  unfold Act.resultStage
  cases p.route.attachments[index]? with
  | none => exact succeed hp p v
  | some a => exact runPlugin hp p _ _ _

/-! ### Jobs -/

theorem goOn (k : Continuation) (payload : Payload) :
    Echoes note w (Act.goOn perform k payload) (Act.goOn perform' k payload) := by
  unfold Act.goOn
  split
  · exact callStage hp _ _ _
  · exact resultStage hp _ _ _
  · exact pure ()

theorem complete (h : Completion) (o : Outcome) :
    Echoes note w (Act.complete perform h o) (Act.complete perform' h o) := by
  cases h with
  | code f => exact run hp none (f o)
  | resume k f => exact (place k _).bind fun _ _ => runHolding hp k _ (f o)
  | transform f into =>
      refine (guarded (run hp none (f o))).bind fun result _ => ?_
      cases result with
      | ok mapped => exact resolve hp into mapped
      | error e => exact resolve hp into (.error e)
  | chain f into =>
      refine (guarded (run hp none (f o))).bind fun result _ => ?_
      cases result with
      | ok t => exact attach hp t (.relay into)
      | error e => exact resolve hp into (.error e)
  | relay into => exact resolve hp into o
  | handled p =>
      cases o with
      | ok v => exact (write rfl).bind fun _ _ => resultStage hp p 0 v
      | error e => exact fail hp p e

end Jobs

end Echoes
end Act
end RouteDispatch
