import RouteDispatch.Proofs.Session.Noting
import RouteDispatch.Proofs.Session.Runs

/-!
# What the listener hears

The listener is called where a mark is made, and nowhere else: a run with a listener that notes what
it is told is the run without these notes, and behind each mark of a start or an end there is one
note, of what the call asks for.  So the listener has heard of an end if a listener that notes what
it is told has a note of it, whatever it notes.
-/

namespace RouteDispatch

theorem mem_told_iff {c : CallId} {log : List Entry} {o : Outcome} :
    o ∈ told c log ↔ .mark (.ended c o) ∈ log := by
  rw [told, List.mem_filterMap]
  constructor
  · rintro ⟨e, he, hend⟩
    unfold Entry.end? at hend
    split at hend
    · next c' o' =>
        split at hend
        · next hc =>
            obtain rfl := Option.some.inj hend
            exact hc ▸ he
        · cases hend
    · cases hend
  · exact fun hmark => ⟨_, hmark, by simp [Entry.end?]⟩

/-- What a listener does when it is told how a call ended. -/
def Listener.onEnd (l : Listener) (v : CallView) : Outcome → Code .nothing
  | .ok result => l.onSucceed v result
  | .error e => l.onFail v e

theorem Listener.onEnd_noting (note : Notes) (l : Listener) (v : CallView) (o : Outcome) :
    (l.noting note).onEnd v o = .note (note v.asked (some o)) (l.onEnd v o) := by
  cases o <;> rfl

theorem Dispatcher.noting_listener (note : Notes) (d : Dispatcher) :
    (d.noting note).listener = d.listener.noting note :=
  rfl

namespace Act

variable {note : Notes} {w : World} {perform perform' : Performer}

/-- A call that is there ends in a mark, behind which the listener's code runs. -/
theorem exec_tell
    (perform : Performer) (d : Dispatcher) {c : CallId} {call : Call}
    (hcall : w.calls[c]? = some call) (o : Outcome) :
    (Act.tell perform d c o).exec w =
      (do
        Act.write (.mark (.ended c o))
        Act.calling c .onEnd (Act.run perform none (d.listener.onEnd call.view o))).exec w := by
  have hwrite : (Act.write (.mark (.ended c o))).exec w =
      (.ok (), { w with log := w.log ++ [.mark (.ended c o)] }) := rfl
  unfold Act.tell
  rw [exec_bind, exec_bind, hwrite]
  dsimp only
  rw [exec_get_bind]
  dsimp only
  rw [hcall]
  cases o <;> rfl

namespace Echoes

section Jobs

variable (hp : EchoesJobs note perform perform')

include hp

/-! ## Telling the listener -/

/-- Where the entry of a notice is made, the note comes next, and then what the listener does. -/
theorem notify
    {e : Entry} {c : CallId} {o? : Option Outcome} {v : CallView}
    (he : e.notice? = some (c, o?)) (hasked : askedAt w.calls c = some v) (piece : Piece)
    {y : Yield} (code : Code y) :
    Echoes note w
      (do
        Act.write e
        Act.calling c piece (Act.run perform none code))
      (do
        Act.write e
        Act.calling c piece (Act.run perform' none (.note (note v o?) code))) := by
  have hcode := calling (w := { w with log := w.log ++ [e] }) c piece (run hp none code)
  -- To run the code that notes is to run the code itself behind the note.
  have hnote : ∀ w',
      (Act.calling c piece (Act.run perform' none (.note (note v o?) code))).exec w' =
        (Act.calling c piece (Act.run perform' none code)).exec
          { w' with log := w'.log ++ [.remark (.note (note v o?))] } := by
    intro w'
    unfold Act.calling
    rw [exec_tryCatch, exec_tryCatch]
    rfl
  unfold Echoes at hcode ⊢
  rw [World.noted_notice he hasked] at hcode
  exact (hnote _).trans hcode

theorem tell (d : Dispatcher) {c : CallId} (hcall : w.calls[c]? ≠ none) (o : Outcome) :
    Echoes note w (Act.tell perform d c o) (Act.tell perform' (d.noting note) c o) := by
  obtain ⟨call, hcall⟩ := Option.ne_none_iff_exists'.mp hcall
  have htold := notify hp (e := .mark (.ended c o)) rfl (askedAt_eq_some hcall) .onEnd
    (d.listener.onEnd call.view o)
  unfold Echoes at htold ⊢
  rw [exec_tell _ _ hcall, exec_tell _ _ (World.noted_calls note w ▸ hcall),
    Dispatcher.noting_listener, Listener.onEnd_noting]
  exact htold

theorem answer (c : CallId) (into : TaskId) (o : Outcome) :
    Echoes note w (Act.answer perform c into o) (Act.answer perform' c into o) := by
  refine (settle hp into o).bind fun settled _ => ?_
  cases settled with
  | true => exact pure ()
  | false => exact refuse c

theorem report (d : Dispatcher) {c : CallId} (hcall : w.calls[c]? ≠ none) (into : TaskId)
    (o : Outcome) :
    Echoes note w (Act.report perform d c into o)
      (Act.report perform' (d.noting note) c into o) := by
  refine (guarded (tell hp d hcall o)).bind fun result _ => ?_
  cases result with
  | ok v => exact answer hp c into o
  | error e => exact answer hp c into (.error e)

end Jobs

/-- All jobs are performed with a listener that notes what it is told as they are without it. -/
theorem jobs (note : Notes) (d : Dispatcher) (depth : Nat) :
    EchoesJobs note (RouteDispatch.perform d depth)
      (RouteDispatch.perform (d.noting note) depth) := by
  induction depth with
  | zero => exact fun _ _ _ => throw _
  | succ depth ih =>
      intro job w hcall
      cases job with
      | complete h o => exact complete ih h o
      | goOn k payload => exact goOn ih k payload
      | report c into o => exact report ih d hcall into o

/-! ## Dispatching -/

theorem noteMatch (c : CallId) (m : RouteMatch) :
    Echoes note w (Act.noteMatch c m) (Act.noteMatch c m) :=
  bind (editView c fun _ => rfl) fun _ _ => (enter c _).bind fun _ _ => get (write rfl)

theorem liftBinder {α : Type} (b : Binder α) :
    Echoes note w (Act.liftBinder b) (Act.liftBinder b) := by
  unfold Act.liftBinder
  cases b.run with
  | ok result => exact pure _
  | error p => exact raise p

theorem prepare (d : Dispatcher) (c : CallId) (r : Request) (version : Nat) :
    Echoes note w (Act.prepare d c r version) (Act.prepare (d.noting note) c r version) := by
  refine get ((reportAll _).bind fun _ w' => ?_)
  have htable : (w.noted note).table = w.table := rfl
  rw [htable]
  cases w.table.router.find r.method r.path version with
  | none => exact pure _
  | some m =>
      refine (noteMatch c m).bind fun _ _ => ?_
      cases r.sources with
      | error e => exact pure _
      | ok sources =>
          refine (calling c .binder (liftBinder _)).bind fun result _ => ?_
          cases result with
          | error e => exact pure _
          | ok values => exact (enter c _).bind fun _ _ => pure _

section Dispatch

variable (hp : EchoesJobs note perform perform')

include hp

theorem start (d : Dispatcher) {c : CallId} (r : Request) (version : Nat) {view : CallView}
    (hasked : askedAt w.calls c = some view.asked) :
    Echoes note w (Act.start perform d c r version view)
      (Act.start perform' (d.noting note) c r version view) := by
  have htold := notify hp (e := .mark (.started c)) rfl hasked .onStart (d.listener.onStart view)
  have hrest : ∀ id w, Echoes note w
      (do
        Act.editView c fun v => { v with id }
        Act.prepare d c r version)
      (do
        Act.editView c fun v => { v with id }
        Act.prepare (d.noting note) c r version) :=
    fun id w => bind (editView c fun _ => rfl) fun _ _ => prepare d c r version
  have hstart := htold.bind hrest
  rw [bind_assoc, bind_assoc] at hstart
  exact hstart

theorem launch (c : CallId) (prepared : Except CallError (Route × Args)) :
    Echoes note w (Act.launch perform c prepared) (Act.launch perform' c prepared) := by
  cases prepared with
  | error e => exact finish hp c _
  | ok bound => exact callStage hp _ 0 _

/-- The position of the new call is in no mark yet. -/
theorem dispatch (d : Dispatcher) (r : Request)
    (hnew : ∀ e ∈ w.log, ∀ n, e.notice? = some n → n.1 ≠ w.calls.length) :
    Echoes note w (Act.dispatch perform d r) (Act.dispatch perform' (d.noting note) r) := by
  refine bind_exec (congrArg (Prod.mk _) (World.noted_opened _ hnew).symm) fun c w' hexec => ?_
  obtain ⟨hc, rfl⟩ := Prod.mk.inj hexec
  obtain rfl := Except.ok.inj hc
  refine (guarded (start hp d r _ ?_)).bind fun prepared _ => ?_
  · simp [askedAt]
  · exact (launch hp _ _).bind fun _ _ => newTask.bind fun result _ =>
      (awaitEnd hp _ result).bind fun _ _ => pure result

end Dispatch

theorem replaceTable (table : RouteTable) :
    Echoes note w (Act.replaceTable table) (Act.replaceTable table) :=
  get ((write rfl).bind fun _ _ => bind (of_modify rfl) fun _ _ => pure _)

end Echoes

theorem echoes_act (note : Notes) (d : Dispatcher) (depth : Nat) (step : Step)
    (hnew : ∀ e ∈ w.log, ∀ n, e.notice? = some n → n.1 ≠ w.calls.length) :
    Echoes note w (d.act depth step) ((d.noting note).act depth step) := by
  have hp := Echoes.jobs note d depth
  cases step with
  | dispatch r => exact (Echoes.dispatch hp d r hnew).bind fun _ _ => .pure ()
  | code code => exact (Echoes.run hp none code).bind fun _ _ => .pure ()
  | replace table => exact (Echoes.replaceTable table).bind fun _ _ => .pure ()

end Act

/-! ## Runs -/

theorem Mark.concerns_ofNotice (c : CallId) (o? : Option Outcome) :
    (Entry.mark (.ofNotice c o?)).concerns c = true := by
  cases o? <;> simp [ofNotice, Entry.concerns]

/-- What a run has come to, with the notes of a listener in the log. -/
def Past.noted (note : Notes) (p : Past) : Past :=
  { p with world := p.world.noted note }

theorem Past.noted_world (note : Notes) (p : Past) : (p.noted note).world = p.world.noted note :=
  rfl

namespace Dispatcher

variable {d : Dispatcher} {depth : Nat} {table : RouteTable} {steps : List Step}

/-- The marks of a run are about calls that are there. -/
theorem exists_call_of_ofNotice
    {c : CallId} {o? : Option Outcome}
    (hmark : .mark (.ofNotice c o?) ∈ (d.after depth table steps).world.log) :
    ∃ call, (d.after depth table steps).world.calls[c]? = some call := by
  refine Option.ne_none_iff_exists'.mp fun hnone => ?_
  have hother := (d.inv_absent_after depth hnone).facts.stands.2 _ hmark
  rw [Mark.concerns_ofNotice] at hother
  cases hother

theorem take_noting
    (note : Notes) {p : Past} (step : Step)
    (hnew : ∀ e ∈ p.world.log, ∀ n, e.notice? = some n → n.1 ≠ p.world.calls.length) :
    (d.noting note).take depth (p.noted note) step = (d.take depth p step).noted note := by
  have hact := Act.echoes_act note d depth step hnew
  unfold Act.Echoes at hact
  unfold take
  rw [Past.noted_world, hact]
  cases (d.act depth step).exec p.world with
  | mk result w =>
      cases result with
      | ok v => rfl
      | error stop => rfl

/-- A run with a listener that notes what it is told is the run with the notes in its log: one
behind each mark of a start or an end, and no other. -/
theorem after_noting
    (d : Dispatcher) (depth : Nat) (table : RouteTable) (steps : List Step) (note : Notes) :
    (d.noting note).after depth table steps = (d.after depth table steps).noted note := by
  induction steps using List.reverseRecOn with
  | nil => rfl
  | append_singleton steps step ih =>
      rw [after_append, after_append, ih]
      refine take_noting note step ?_
      rintro e he ⟨c, o?⟩ hn
      obtain rfl := Entry.notice?_eq_some_iff.mp hn
      obtain ⟨call, hcall⟩ := exists_call_of_ofNotice he
      exact Nat.ne_of_lt (List.getElem?_eq_some_iff.mp hcall).1

/-- The listener was called for the start of the call, or for its end with the outcome: whatever a
listener notes when it is told of that, in the same run it notes it right behind the mark. -/
def Heard (d : Dispatcher) (depth : Nat) (table : RouteTable) (steps : List Step) (c : CallId)
    (o? : Option Outcome) : Prop :=
  ∃ call, (d.after depth table steps).world.calls[c]? = some call ∧
    ∀ note : Notes, ∃ front behind, ((d.noting note).after depth table steps).world.log =
      front ++ .mark (.ofNotice c o?) :: .remark (.note (note call.view.asked o?)) :: behind

/-- The listener was called exactly where a mark says so. -/
theorem heard_iff {c : CallId} {o? : Option Outcome} :
    d.Heard depth table steps c o? ↔
      .mark (.ofNotice c o?) ∈ (d.after depth table steps).world.log := by
  constructor
  · rintro ⟨call, -, hnotes⟩
    obtain ⟨front, behind, hlog⟩ := hnotes fun _ _ => .null
    rw [after_noting, Past.noted_world] at hlog
    rw [← World.mark_mem_noted_log fun _ _ => .null, hlog]
    simp
  · intro hmark
    obtain ⟨call, hcall⟩ := exists_call_of_ofNotice hmark
    refine ⟨call, hcall, fun note => ?_⟩
    rw [after_noting]
    exact World.exists_noted_log hmark (askedAt_eq_some hcall)

theorem heard_end_iff {c : CallId} {o : Outcome} :
    d.Heard depth table steps c (some o) ↔ o ∈ told c (d.after depth table steps).world.log :=
  heard_iff.trans mem_told_iff.symm

end Dispatcher
end RouteDispatch
