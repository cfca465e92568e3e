import RouteDispatch.Proofs.Session.Passing
import RouteDispatch.Proofs.Session.Runs
import RouteDispatch.Proofs.Task.Turns

/-!
# Conditions that acts uphold

Whatever the library does comes down to single changes of a world, to turns of tasks, and to jobs.
A condition that these keep is kept by all acts, and so by whole runs.  When a turn hands an outcome
to a completion handler, the handler has not done its work yet, so `Upholds` asks for the condition
only where that work ends.  Often a condition is about some calls only, and what those calls
themselves do is looked at apart; so the class of calls that things are done for is given along.  A
depth that is not enough may leave any world behind if one is lax about it.
-/

namespace RouteDispatch

/-! ## Classes of calls -/

/-- The call that a completion handler brings on. -/
def Completion.call? : Completion → Option CallId
  | .resume k _ => some k.pipeline.call
  | .handled p => some p.call
  | _ => none

/-- The completion handler brings on no call but those of the class. -/
def Completion.IsFor (calls : CallId → Prop) (h : Completion) : Prop :=
  ∀ c, h.call? = some c → calls c

/-- The entry is no wake-up and says nothing about the stages of a call outside of the class. -/
def Entry.IsFor (calls : CallId → Prop) : Entry → Prop
  | .mark (.escaped c piece _) => piece = .onEnd ∨ calls c
  | .mark (.invoked c _) | .mark (.spent c ..) | .mark (.returned c) => calls c
  | .trace (.entered r ..) | .trace (.pluginStarted r ..) | .trace (.handlerStarted r _) =>
    calls r.position
  | .woken _ => False
  | _ => True

theorem Entry.IsFor.mono
    {calls calls' : CallId → Prop} {e : Entry} (h : e.IsFor calls)
    (hsub : ∀ c, calls c → calls' c) :
    e.IsFor calls' := by
  rcases e with _ | t | _ | m
  · trivial
  · cases t with
    | entered r source target => exact hsub r.position h
    | pluginStarted r point route plugin => exact hsub r.position h
    | handlerStarted r route => exact hsub r.position h
    | _ => trivial
  · exact h
  · cases m with
    | invoked c args => exact hsub c h
    | spent c point fate => exact hsub c h
    | returned c => exact hsub c h
    | escaped c piece p => exact h.imp_right (hsub c)
    | _ => trivial

theorem Trace.isFor_any (t : Trace) : (Entry.trace t).IsFor fun _ => True := by
  cases t <;> trivial

/-- The report of a search is about no call. -/
theorem Trace.isFor_of_mem_report
    {calls : CallId → Prop} {router : Router} {method path : String} {version : Nat} {t : Trace}
    (h : t ∈ router.report method path version) : (Entry.trace t).IsFor calls := by
  obtain ⟨text, found, rfl⟩ := Act.eq_lookedUp_of_mem_report h
  trivial

/-- Code that holds a continuation holds one of a call of the class. -/
def HoldsFor (calls : CallId → Prop) (own : Option Continuation) : Prop :=
  ∀ k, own = some k → calls k.pipeline.call

theorem holdsFor_none (calls : CallId → Prop) : HoldsFor calls none := by
  intro k hk
  contradiction

theorem Completion.isFor_of_call?_eq_none
    {calls : CallId → Prop} {h : Completion} (hcall : h.call? = none) : h.IsFor calls := by
  intro c hc
  simp [hcall] at hc

/-- A world in which a task has had a turn; a waker that was woken is in the log. -/
def World.turnLogged (w : World) (t : TaskId) (turn : Cell.Turn Completion)
    (cell : Cell Completion) : World :=
  { w.turn t turn cell with log := w.log ++ turn.woken?.toList.map .woken }

theorem World.turnLogged_eq_turn
    {w : World} {t : TaskId} {turn : Cell.Turn Completion} {cell : Cell Completion}
    (h : turn.woken? = none) : w.turnLogged t turn cell = w.turn t turn cell := by
  simp [World.turnLogged, World.turn, h]

/-- The task that the completion handler resolves is there. -/
def Completion.IsAimed (h : Completion) (w : World) : Prop :=
  ∀ u, h.target? = some u → u < w.cells.length

theorem Completion.isAimed_of_target?_eq_none {h : Completion} (htarget : h.target? = none)
    (w : World) : h.IsAimed w := by
  intro u hu
  simp [htarget] at hu

namespace Act

/-- The act keeps the condition, whether it gives a value or stops. -/
def Keeps {α : Type} (lax : Prop) (P : World → Prop) (a : Act α) : Prop :=
  Triple P a (fun _ => P) fun s w => P w ∨ (lax ∧ s = .tooDeep)

/-- An act that leaves one condition behind leaves every weaker one. -/
theorem Triple.leaves
    {α : Type} {lax : Prop} {pre P Q : World → Prop} {a : Act α}
    (h : Triple pre a (fun _ => P) fun s w => P w ∨ (lax ∧ s = .tooDeep))
    (hPQ : ∀ w, P w → Q w) :
    Triple pre a (fun _ => Q) fun s w => Q w ∨ (lax ∧ s = .tooDeep) :=
  h.weaken (fun _ => id) (fun _ => hPQ) fun _ w hw => hw.imp_left (hPQ w)

theorem Keeps.of_exec
    {α : Type} {lax : Prop} {P : World → Prop} {a : Act α} {w w' : World} {result : Except Stop α}
    (ha : Keeps lax P a) (hw : P w) (hexec : a.exec w = (result, w'))
    (hdeep : lax → result ≠ .error .tooDeep) : P w' := by
  have hrun := ha w hw
  rw [hexec] at hrun
  cases result with
  | ok v => exact hrun
  | error s => exact hrun.resolve_right fun hlax => hdeep hlax.1 (congrArg _ hlax.2)

/-- What becomes of a completion handler that a task gives up. -/
def giveUp (perform : Performer) : Completion → Act Unit
  | .resume k _ => do
    place k .code
    release perform (some k)
  | _ => pure ()

/-- Single changes keep the condition, and so do jobs that bring a call of the class on. -/
structure Allows (lax : Prop) (calls : CallId → Prop) (P : World → Prop)
    (perform : Performer) : Prop where
  logged : ∀ {w : World} {e : Entry}, P w → e.IsFor calls → P { w with log := w.log ++ [e] }
  added : ∀ {w : World}, P w → P { w with cells := w.cells ++ [.fresh] }
  edited : ∀ {w : World} {c : CallId} (g : Call → Call), P w → calls c →
    P { w with calls := w.calls.modify c g }
  opened : ∀ {w : World} (call : Call), P w → P { w with calls := w.calls ++ [call] }
  others : ∀ {w : World} (names : List (String × TaskId)) (table : RouteTable) (ticks : Nat), P w →
    P { w with names, table, ticks }
  goOn : ∀ (k : Continuation) (payload : Payload), calls k.pipeline.call →
    Keeps lax P (perform (.goOn k payload))
  report : ∀ (c : CallId) (t : TaskId) (o : Outcome), Keeps lax P (perform (.report c t o))

/-- Turns of tasks keep the condition, too, together with the work that they set off.  A completion
handler must be welcome where it is left with a task. -/
structure Upholds (lax : Prop) (calls : CallId → Prop) (welcome : Completion → World → Prop)
    (P : World → Prop) (perform : Performer) : Prop extends Allows lax calls P perform where
  welcomes : ∀ {w : World} {h : Completion}, P w → h.IsFor calls → h.IsAimed w → welcome h w
  turned : ∀ {w : World} {t : TaskId} {turn : Cell.Turn Completion} {cell cell' : Cell Completion},
    P w → w.cells[t]? = some cell → cell.Takes turn cell' → turn.handed? = none →
      (∀ h, turn ≠ .abandoned (some h)) → (∀ h, turn.handler? = some h → welcome h w) →
      P (w.turnLogged t turn cell')
  handed : ∀ {w : World} {t : TaskId} {turn : Cell.Turn Completion} {cell cell' : Cell Completion}
    {h : Completion} {o : Outcome}, P w → w.cells[t]? = some cell → cell.Takes turn cell' →
      turn.handed? = some (h, o) → (turn = .attached h (some o) → welcome h w) →
      Triple (· = w.turn t turn cell') (perform (.complete h o)) (fun _ => P)
        fun s w => P w ∨ (lax ∧ s = .tooDeep)
  givenUp : ∀ {w : World} {t : TaskId} {cell cell' : Cell Completion} {h : Completion},
    P w → w.cells[t]? = some cell → cell.abandon = (cell', some h) →
      Triple (· = w.turn t (.abandoned (some h)) cell') (giveUp perform h) (fun _ => P)
        fun s w => P w ∨ (lax ∧ s = .tooDeep)

variable {lax : Prop} {calls : CallId → Prop} {welcome : Completion → World → Prop}
  {P : World → Prop} {perform : Performer}

/-! ## Composed acts -/

namespace Keeps

variable {α β : Type}

theorem pure (v : α) : Keeps lax P (Pure.pure v) :=
  Triple.pure fun _ => id

theorem bind {a : Act α} {f : α → Act β} (ha : Keeps lax P a) (hf : ∀ v, Keeps lax P (f v)) :
    Keeps lax P (a >>= f) :=
  Triple.bind ha hf

theorem raise (p : Panic) : Keeps lax P (Act.raise p : Act α) :=
  Triple.raise fun _ => .inl

theorem throw (s : Stop) : Keeps lax P (MonadExcept.throw s : Act α) :=
  Triple.throw fun _ => .inl

/-- Reading the world, the rest is looked at in a world that meets the condition. -/
theorem get {f : World → Act α} (h : ∀ w, P w → Keeps lax P (f w)) :
    Keeps lax P (MonadState.get >>= f) :=
  Triple.get fun w hw => (h w hw).apply hw

theorem or {a : Act α} {Q : World → Prop} (hP : Keeps lax P a) (hQ : Keeps lax Q a) :
    Keeps lax (fun w => P w ∨ Q w) a := by
  refine Triple.of_world fun w hw => ?_
  rcases hw with hw | hw
  · exact (hP.apply hw).leaves fun _ => .inl
  · exact (hQ.apply hw).leaves fun _ => .inr

/-- Nothing that is caught makes the depth enough. -/
theorem tryCatch {a : Act α} {handler : Stop → Act α} (ha : Keeps lax P a)
    (hhandler : ∀ s, Keeps lax P (handler s))
    (hdeep : Triple (fun _ => True) (handler .tooDeep) (fun _ _ => False)
      fun s _ => s = .tooDeep) :
    Keeps lax P (MonadExcept.tryCatch a handler) := by
  refine Triple.tryCatch ha fun s w hw => ?_
  rcases hw with hw | ⟨hlax, rfl⟩
  · exact hhandler s w hw
  · have hstop : Triple (fun _ => True) (handler .tooDeep) (fun _ => P)
        fun s w => P w ∨ (lax ∧ s = .tooDeep) :=
      hdeep.weaken (fun _ => id) (fun _ _ => False.elim) fun s _ hs => .inr ⟨hlax, hs⟩
    exact hstop w trivial

theorem modify {g : World → World} (hg : ∀ w, P w → P (g w)) :
    Keeps lax P (modify g : Act Unit) :=
  fun w hw => hg w hw

end Keeps

namespace Allows

variable (hp : Allows lax calls P perform)

include hp

/-! ## Single changes -/

theorem write {e : Entry} (he : e.IsFor calls) : Keeps lax P (write e) :=
  Triple.of_world fun _ hw => Triple.write_last (hp.logged hw he)

theorem editCall {c : CallId} (hc : calls c) (g : Call → Call) : Keeps lax P (editCall c g) :=
  Triple.of_world fun _ hw => Triple.editCall_last (hp.edited g hw hc)

theorem newTask : Keeps lax P (newTask .fresh) :=
  Triple.of_world fun _ hw => Triple.step rfl (Triple.step rfl (Triple.done (hp.added hw)))

theorem reportAll {reports : List Trace} (hreports : ∀ t ∈ reports, (Entry.trace t).IsFor calls) :
    Keeps lax P (reportAll reports) := by
  refine Keeps.modify fun w hw => ?_
  induction reports using List.reverseRecOn with
  | nil => simpa using hw
  | append_singleton reports report ih =>
      have hfront := ih fun t ht => hreports t (List.mem_append_left _ ht)
      simpa using hp.logged hfront (hreports report (by simp))

theorem tick : Keeps lax P tick :=
  Triple.of_world fun w hw =>
    Triple.step rfl (Triple.step rfl (Triple.done
      (hp.others w.names w.table (w.ticks + 1) hw)))

theorem calling {α : Type} {a : Act α} (ha : Keeps lax P a) {c : CallId} {piece : Piece}
    (hc : piece = .onEnd ∨ calls c) : Keeps lax P (calling c piece a) := by
  refine ha.tryCatch (fun s => ?_) fun w _ => rfl
  cases s with
  | panic p => exact (hp.write (by exact hc)).bind fun _ => .throw _
  | tooDeep => exact (Keeps.pure ()).bind fun _ => .throw _

theorem guarded {α : Type} {a : Act α} (ha : Keeps lax P a) : Keeps lax P (guarded a) := by
  refine Keeps.tryCatch (ha.bind fun v => .pure _) (fun s => ?_) fun w _ => rfl
  rcases s with (_ | _ | _) | _
  · exact .throw _
  · exact (hp.write (by trivial)).bind fun _ => .pure _
  · exact (hp.write (by trivial)).bind fun _ => .pure _
  · exact .throw _

theorem enter {c : CallId} (hc : calls c) (stage : Stage) : Keeps lax P (enter c stage) := by
  refine Keeps.get fun w _ => ?_
  cases w.calls[c]? with
  | none => exact .pure _
  | some call =>
      dsimp only
      split
      · exact .pure _
      · exact (hp.write (by exact hc)).bind fun _ => hp.editCall hc _

/-! ## The ends of calls -/

theorem refuse (c : CallId) : Keeps lax P (refuse c) :=
  (hp.write (by trivial)).bind fun _ => .raise _

theorem conclude {c : CallId} (hc : calls c) (o : Outcome) :
    Keeps lax P (conclude perform c o) := by
  refine Keeps.get fun w _ => ?_
  cases (w.calls[c]?).bind fun call => call.ending.settle o with
  | none => exact hp.refuse c
  | some result =>
      obtain ⟨ending, follow⟩ := result
      refine (hp.editCall hc _).bind fun _ => ?_
      cases follow with
      | run into => exact hp.report c into o
      | _ => exact .pure ()

theorem finish {c : CallId} (hc : calls c) (o : Outcome) : Keeps lax P (finish perform c o) :=
  (hp.enter hc _).bind fun _ => hp.conclude hc o

theorem fail {p : Pipeline} (hc : calls p.call) (e : CallError) :
    Keeps lax P (fail perform p e) := by
  refine Keeps.get fun w _ => ?_
  by_cases hrunning : w.isRunning p.call = true
  · rw [if_pos hrunning]
    exact hp.finish hc _
  · rw [if_neg hrunning]
    exact hp.write (by trivial)

theorem succeed {p : Pipeline} (hc : calls p.call) (v : Json) :
    Keeps lax P (succeed perform p v) := by
  refine Keeps.get fun w _ => ?_
  by_cases hrunning : w.isRunning p.call = true
  · rw [if_pos hrunning]
    exact hp.finish hc _
  · rw [if_neg hrunning]
    exact hp.write (by trivial)

theorem awaitEnd {c : CallId} (hc : calls c) (into : TaskId) :
    Keeps lax P (awaitEnd perform c into) := by
  refine Keeps.get fun w _ => ?_
  cases (w.calls[c]?).bind fun call => call.ending.attach into with
  | none => exact .raise _
  | some result =>
      obtain ⟨ending, outcome⟩ := result
      refine (hp.editCall hc _).bind fun _ => ?_
      cases outcome with
      | none => exact .pure ()
      | some o => exact hp.report c into o

/-! ## Using a continuation -/

section Holding

variable {own : Option Continuation} (hown : HoldsFor calls own)

include hown

omit hp in
theorem withHeld {α : Type} {use : Continuation → Act α} {otherwise : Act α}
    (huse : ∀ k, calls k.pipeline.call → Keeps lax P (use k)) (hother : Keeps lax P otherwise) :
    Keeps lax P (withHeld own use otherwise) :=
  withHeld_triple (fun k hk => (huse k (hown k hk)).strengthen fun _ => And.left) hother

omit hown in
theorem place {k : Continuation} (hk : calls k.pipeline.call) (p : Place) :
    Keeps lax P (place k p) :=
  hp.editCall hk _

omit hown in
theorem spend {k : Continuation} (hk : calls k.pipeline.call) (fate : Fate) :
    Keeps lax P (spend k fate) :=
  (hp.editCall hk _).bind fun _ => hp.write hk

theorem proceed (payload : Payload) : Keeps lax P (proceed perform own payload) := by
  refine withHeld hown (fun k hk => ?_) (.pure ())
  by_cases htakes : k.takes payload = true
  · rw [if_pos htakes]
    exact (hp.spend hk _).bind fun _ => hp.goOn k payload hk
  · rw [if_neg htakes]
    exact .pure ()

theorem abort (e : CallError) : Keeps lax P (abort perform own e) :=
  withHeld hown (fun _ hk => (hp.spend hk _).bind fun _ => hp.fail hk e) (.pure ())

theorem release : Keeps lax P (release perform own) :=
  withHeld hown (fun _ hk => (hp.spend hk _).bind fun _ => hp.fail hk _) (.pure ())

theorem forfeit : Keeps lax P (forfeit own) :=
  withHeld hown (fun _ hk => hp.spend hk _) (.pure ())

omit hp hown in
theorem look (own : Option Continuation) : Keeps lax P (look own) :=
  withHeld_triple (fun _ _ => (Keeps.get fun _ _ => .pure _).strengthen fun _ => And.left)
    (Keeps.pure none)

end Holding

theorem giveUp {h : Completion} (hfor : h.IsFor calls) : Keeps lax P (giveUp perform h) := by
  cases h with
  | resume k f =>
      have hk : calls k.pipeline.call := hfor _ rfl
      have hown : HoldsFor calls (some k) := fun k' hk' => Option.some.inj hk' ▸ hk
      exact (hp.place hk _).bind fun _ => hp.release hown
  | _ => exact .pure ()

/-! ## Preparing a call -/

theorem prepare (d : Dispatcher) {c : CallId} (hc : calls c) (r : Request) (version : Nat) :
    Keeps lax P (prepare d c r version) := by
  have hmatch : ∀ m, Keeps lax P (noteMatch c m) := fun m =>
    (hp.editCall hc _).bind fun _ => (hp.enter hc _).bind fun _ =>
      Keeps.get fun w _ => hp.write (by trivial)
  exact prepare_triple (fun _ => hp.reportAll fun _ => Trace.isFor_of_mem_report) hmatch
    (fun b => hp.calling (liftBinder_triple (fun _ _ => .inl) b) (.inr hc))
    (fun _ => hp.enter hc _) (fun _ _ => id) fun _ _ => id

theorem replaceTable (table : RouteTable) : Keeps lax P (replaceTable table) :=
  Keeps.get fun w _ => (hp.write (by trivial)).bind fun _ =>
    (Keeps.modify fun w hw => hp.others w.names table w.ticks hw).bind fun _ => .pure _

end Allows

namespace Upholds

variable (hp : Upholds lax calls welcome P perform)

include hp

/-! ## Tasks -/

theorem settle (t : TaskId) (o : Outcome) : Keeps lax P (settle perform t o) := by
  refine Triple.get fun w hw => ?_
  cases hcell : w.cells[t]? with
  | none => exact Triple.done hw
  | some cell =>
      dsimp only
      cases hsettle : cell.settle o with
      | none => exact Triple.done hw
      | some result =>
          obtain ⟨cell', follow⟩ := result
          refine Triple.setCell ?_
          cases follow with
          | quiet =>
              have hturn := hp.turned hw hcell (.settled hsettle) rfl nofun nofun
              rw [World.turnLogged_eq_turn rfl] at hturn
              exact Triple.done hturn
          | wake label =>
              have hturn := hp.turned hw hcell (.settled hsettle) rfl nofun nofun
              exact Triple.write (Triple.done hturn)
          | run h =>
              have hjob := hp.handed hw hcell (.settled hsettle) rfl nofun
              exact Triple.bind hjob fun _ => Keeps.pure true

theorem settleMarked (t : TaskId) (o : Outcome) : Keeps lax P (settleMarked perform t o) := by
  refine Keeps.get fun w _ => ?_
  by_cases hwaits : w.awaits t = true
  · rw [if_pos hwaits]
    exact (hp.write (by trivial)).bind fun _ => hp.settle t o
  · rw [if_neg hwaits]
    exact (Keeps.pure ()).bind fun _ => hp.settle t o

theorem resolve (t : TaskId) (o : Outcome) : Keeps lax P (resolve perform t o) := by
  refine (hp.settle t o).bind fun settled => ?_
  cases settled with
  | true => exact .pure ()
  | false => exact .raise _

theorem attachOr {refused : Act Unit} (hrefused : Keeps lax P refused) (t : TaskId)
    (h : Completion) :
    Triple (fun w => P w ∧ welcome h w) (attachOr perform refused t h) (fun _ => P)
      fun s w => P w ∨ (lax ∧ s = .tooDeep) := by
  refine Triple.of_world ?_
  rintro w ⟨hw, hwelcome⟩
  refine Triple.attachOr ((hrefused.bind fun _ => .raise _).apply hw) ?_ ?_
  · intro cell cell' hcell hattach
    have hturn := hp.turned hw hcell (.attached hattach) rfl nofun fun k hk =>
      Option.some.inj hk ▸ hwelcome
    rwa [World.turnLogged_eq_turn rfl] at hturn
  · exact fun cell cell' o hcell hattach =>
      hp.handed hw hcell (.attached hattach) rfl fun _ => hwelcome

/-- A completion handler that resolves no task may be attached to any. -/
theorem attach (t : TaskId) {h : Completion} (hfor : h.IsFor calls) (htarget : h.target? = none) :
    Keeps lax P (attach perform t h) :=
  (hp.attachOr (.pure ()) t h).strengthen fun w hw =>
    ⟨hw, hp.welcomes hw hfor (Completion.isAimed_of_target?_eq_none htarget w)⟩

/-- A derived task is there when the completion handler that is to resolve it is attached. -/
theorem derive (t : TaskId) {handler : TaskId → Completion}
    (hfor : ∀ into, (handler into).IsFor calls)
    (htarget : ∀ into, (handler into).target? = some into) :
    Keeps lax P (derive perform t handler) := by
  refine Triple.of_world fun w hw => Triple.newTask ?_
  have hnew := hp.added hw
  have haimed : (handler w.cells.length).IsAimed { w with cells := w.cells ++ [.fresh] } := by
    intro u hu
    obtain rfl : w.cells.length = u := Option.some.inj ((htarget _).symm.trans hu)
    simp
  have hwelcome := hp.welcomes hnew (hfor _) haimed
  exact Triple.bind ((hp.attachOr (.pure ()) t _).apply ⟨hnew, hwelcome⟩) fun _ => Keeps.pure _

theorem poll (t : TaskId) (waker : String) : Keeps lax P (poll t waker) := by
  refine Triple.get fun w hw => ?_
  cases hcell : w.cells[t]? with
  | none => exact Triple.done hw
  | some cell =>
      dsimp only
      cases hpoll : cell.poll waker with
      | error refusal => exact (Keeps.raise _).apply hw
      | ok result =>
          have hturn := hp.turned hw hcell (.polled hpoll) rfl nofun nofun
          rw [World.turnLogged_eq_turn rfl] at hturn
          exact Triple.setCell (Triple.done hturn)

theorem abandon (t : TaskId) : Keeps lax P (abandon perform t) := by
  refine Triple.get fun w hw => ?_
  cases hcell : w.cells[t]? with
  | none => exact Triple.done hw
  | some cell =>
      dsimp only
      cases habandon : cell.abandon with
      | mk cell' handler =>
          refine Triple.setCell ?_
          cases handler with
          | none =>
              have hturn := hp.turned hw hcell (.abandoned habandon) rfl nofun nofun
              rw [World.turnLogged_eq_turn rfl] at hturn
              exact Triple.done hturn
          | some h =>
              have hgiven := hp.givenUp hw hcell habandon
              cases h <;> exact hgiven

theorem entrust {own : Option Continuation} (hown : HoldsFor calls own) (t : TaskId)
    (h : Outcome → Code .nothing) : Keeps lax P (entrust perform own t h) := by
  refine Allows.withHeld hown (fun k hk => ?_)
    (hp.attach t (Completion.isFor_of_call?_eq_none rfl) rfl)
  have hfor : (Completion.resume k h).IsFor calls := fun c hc => Option.some.inj hc ▸ hk
  refine (hp.place hk _).bind fun _ => ?_
  exact (hp.attachOr (hp.place hk _) t _).strengthen fun w hw =>
    ⟨hw, hp.welcomes hw hfor (Completion.isAimed_of_target?_eq_none rfl w)⟩

/-! ## Foreign code -/

/-- Code keeps the condition if the ways in which it uses its continuation do. -/
theorem runUsing {own : Option Continuation}
    (hproceed : ∀ payload, Keeps lax P (Act.proceed perform own payload))
    (habort : ∀ e, Keeps lax P (Act.abort perform own e))
    (hrelease : Keeps lax P (Act.release perform own))
    (hentrust : ∀ t h, Keeps lax P (Act.entrust perform own t h)) {y : Yield} (code : Code y) :
    Keeps lax P (run perform own code) := by
  induction code with
  | done v => exact .pure v
  | panic p => exact .raise p
  | log r next ih => exact (hp.write (by trivial)).bind fun _ => ih
  | create next ih => exact hp.newTask.bind fun t => ih t
  | settle t o next ih => exact (hp.settleMarked t o).bind fun settled => ih settled
  | attach t h next _ ih =>
      exact (hp.attach t (Completion.isFor_of_call?_eq_none rfl) rfl).bind fun _ => ih
  | entrust t h next _ ih => exact (hentrust t h).bind fun _ => ih
  | transform t f next _ ih =>
      exact (hp.derive t (fun _ => Completion.isFor_of_call?_eq_none rfl) fun _ => rfl).bind ih
  | chain t f next _ ih =>
      exact (hp.derive t (fun _ => Completion.isFor_of_call?_eq_none rfl) fun _ => rfl).bind ih
  | poll t waker next ih => exact (hp.poll t waker).bind fun o => ih o
  | state t next ih => exact Keeps.get fun w _ => ih _
  | abandon t next ih => exact (hp.abandon t).bind fun _ => ih
  | proceed payload next ih => exact (hproceed payload).bind fun _ => ih
  | abort e next ih => exact (habort e).bind fun _ => ih
  | release next ih => exact hrelease.bind fun _ => ih
  | inspect next ih => exact (Allows.look own).bind fun held => ih held
  | register name t next ih =>
      exact (Keeps.modify fun w hw => hp.others _ w.table w.ticks hw).bind fun _ => ih
  | find name next ih => exact Keeps.get fun w _ => ih _
  | unregister name next ih =>
      exact (Keeps.modify fun w hw => hp.others _ w.table w.ticks hw).bind fun _ => ih
  | tick next ih => exact hp.tick.bind fun n => ih n

theorem run {own : Option Continuation} (hown : HoldsFor calls own) {y : Yield} (code : Code y) :
    Keeps lax P (run perform own code) :=
  hp.runUsing (hp.proceed hown) (hp.abort hown) (hp.release hown) (hp.entrust hown) code

/-! ## Stages -/

theorem runHolding {k : Continuation} (hk : calls k.pipeline.call) (piece : Piece)
    (code : Code .nothing) : Keeps lax P (runHolding perform k piece code) := by
  have hown : HoldsFor calls (some k) := fun k' hk' => Option.some.inj hk' ▸ hk
  have hcode : Keeps lax P (Act.calling k.pipeline.call piece (Act.run perform (some k) code)) :=
    hp.calling (hp.run hown code) (.inr hk)
  refine (hcode.tryCatch (fun s => (hp.forfeit hown).bind fun _ => .throw s) ?_).bind
    fun _ => hp.release hown
  have hforfeit : Triple (fun _ => True) (Act.forfeit (some k)) (fun _ _ => True)
      fun s _ => s = .tooDeep :=
    withHeld_triple (fun _ _ => Triple.of_world fun _ _ => Triple.editCall
      (Triple.write_last trivial))
      (Triple.pure fun _ => id)
  exact Triple.bind hforfeit fun _ => Triple.throw fun _ _ => rfl

theorem runPlugin {p : Pipeline} (hc : calls p.call) (point : Point) (plugin : String)
    (code : CallView → Code .nothing) : Keeps lax P (runPlugin perform p point plugin code) := by
  refine (hp.enter hc _).bind fun _ => Keeps.get fun w _ => ?_
  refine (hp.write (by exact hc)).bind fun _ => ?_
  cases w.calls[p.call]? with
  | none => exact .pure ()
  | some call =>
      refine (hp.editCall hc _).bind fun _ => ?_
      refine (hp.guarded (hp.runHolding hc _ _)).bind fun result => ?_
      cases result with
      | ok v => exact .pure ()
      | error e => exact hp.fail hc e

theorem runHandler {p : Pipeline} (hc : calls p.call) (args : Args) :
    Keeps lax P (runHandler perform p args) := by
  refine (hp.enter hc _).bind fun _ => Keeps.get fun w _ => ?_
  refine (hp.write (by exact hc)).bind fun _ => ?_
  refine Keeps.bind (hp.write (e := .mark (.invoked p.call args)) hc) fun _ => ?_
  have hfor : (Completion.handled p).IsFor calls := fun c hcall => Option.some.inj hcall ▸ hc
  have hcode : Keeps lax P
      (Act.calling p.call .handler (Act.run perform none (p.route.handler.invoke args))) :=
    hp.calling (hp.run (holdsFor_none calls) _) (.inr hc)
  refine (hp.guarded (hcode.bind fun t => hp.attach t hfor rfl)).bind fun result => ?_
  cases result with
  | ok v => exact .pure ()
  | error e => exact hp.fail hc e

theorem callStage {p : Pipeline} (hc : calls p.call) (index : Nat) (args : Args) :
    Keeps lax P (callStage perform p index args) := by
  unfold Act.callStage
  cases p.route.attachments[index]? with
  | none => exact hp.runHandler hc args
  | some a => exact hp.runPlugin hc _ _ _

theorem resultStage {p : Pipeline} (hc : calls p.call) (index : Nat) (v : Json) :
    Keeps lax P (resultStage perform p index v) := by
  unfold Act.resultStage
  cases p.route.attachments[index]? with
  | none => exact hp.succeed hc v
  | some a => exact hp.runPlugin hc _ _ _

/-! ## Jobs -/

theorem goOnJob {k : Continuation} (hk : calls k.pipeline.call) (payload : Payload) :
    Keeps lax P (Act.goOn perform k payload) := by
  unfold Act.goOn
  split
  · exact hp.callStage hk _ _
  · exact hp.resultStage hk _ _
  · exact .pure ()

theorem reportJob (d : Dispatcher) (c : CallId) (into : TaskId) (o : Outcome) :
    Keeps lax P (Act.report perform d c into o) := by
  have htell : Keeps lax P (tell perform d c o) := by
    refine (hp.write (by trivial)).bind fun _ => Keeps.get fun w _ => ?_
    cases w.calls[c]? with
    | none => exact .pure ()
    | some call =>
        refine hp.calling ?_ (.inl rfl)
        cases o with
        | ok v => exact hp.run (holdsFor_none calls) _
        | error e => exact hp.run (holdsFor_none calls) _
  have hanswer : ∀ o, Keeps lax P (answer perform c into o) := by
    refine fun o => (hp.settle into o).bind fun settled => ?_
    cases settled with
    | true => exact .pure ()
    | false => exact hp.refuse c
  refine (hp.guarded htell).bind fun result => ?_
  cases result with
  | ok v => exact hanswer o
  | error e => exact hanswer (.error e)

/-- The work of a completion handler keeps the condition, if that of a chain does, which leaves
another completion handler with a task. -/
theorem completeJob {pre : World → Prop} (hpre : ∀ w, pre w → P w) {h : Completion}
    (hfor : h.IsFor calls) (o : Outcome)
    (hchain : ∀ f into, h = .chain f into →
      Triple pre (Act.guarded (Act.run perform none (f o)))
        (fun _ w => P w ∧ welcome (.relay into) w) fun s w => P w ∨ (lax ∧ s = .tooDeep)) :
    Triple pre (Act.complete perform h o) (fun _ => P) fun s w => P w ∨ (lax ∧ s = .tooDeep) := by
  cases h with
  | code f => exact (hp.run (holdsFor_none calls) (f o)).strengthen hpre
  | resume k f =>
      have hk : calls k.pipeline.call := hfor _ rfl
      have hresumed : Keeps lax P (Act.complete perform (.resume k f) o) :=
        (hp.toAllows.place hk _).bind fun _ => hp.runHolding hk _ (f o)
      exact hresumed.strengthen hpre
  | transform f into =>
      have hcode := (hp.guarded (hp.run (holdsFor_none calls) (f o))).strengthen hpre
      refine Triple.bind hcode fun result => ?_
      cases result with
      | ok mapped => exact hp.resolve into mapped
      | error e => exact hp.resolve into (.error e)
  | chain f into =>
      refine Triple.bind (hchain f into rfl) fun result => ?_
      cases result with
      | ok t => exact hp.attachOr (.pure ()) t _
      | error e => exact (hp.resolve into (.error e)).strengthen fun _ => And.left
  | relay into => exact (hp.resolve into o).strengthen hpre
  | handled p =>
      have hc : calls p.call := hfor _ rfl
      have hhandled : Keeps lax P (Act.complete perform (.handled p) o) := by
        cases o with
        | ok v =>
            exact Keeps.bind (hp.write (e := .mark (.returned p.call)) hc) fun _ =>
              hp.resultStage hc 0 v
        | error e => exact hp.fail hc e
      exact hhandled.strengthen hpre

/-! ## Steps -/

theorem start (d : Dispatcher) {c : CallId} (hc : calls c) (r : Request) (version : Nat)
    (view : CallView) : Keeps lax P (start perform d c r version view) :=
  (hp.write (by trivial)).bind fun _ =>
    (hp.calling (hp.run (holdsFor_none calls) _) (.inr hc)).bind fun _ =>
      (hp.editCall hc _).bind fun _ => hp.prepare d hc r version

/-- A dispatch keeps the condition if its call is one of the class and may be there. -/
theorem dispatch (d : Dispatcher) (r : Request) :
    Triple (fun w => (∀ call, P { w with calls := w.calls ++ [call] }) ∧ calls w.calls.length)
      (dispatch perform d r) (fun _ => P) fun s w => P w ∨ (lax ∧ s = .tooDeep) := by
  refine Triple.of_world ?_
  rintro w ⟨hw, hc⟩
  refine Triple.step rfl ?_
  refine Triple.apply (Keeps.bind (hp.guarded (hp.start d hc r _ _)) fun prepared => ?_) (hw _)
  refine Keeps.bind ?_ fun _ => hp.newTask.bind fun result => (hp.awaitEnd hc result).bind fun _ =>
    .pure result
  cases prepared.bind id with
  | ok bound => exact hp.callStage hc 0 bound.2
  | error e => exact hp.finish hc _

end Upholds

/-- A step keeps the condition if the call that it makes, if it makes one, is one of the class. -/
theorem Upholds.act {d : Dispatcher} {depth : Nat}
    (hp : Upholds lax calls welcome P (RouteDispatch.perform d depth)) (step : Step) :
    Triple (fun w => P w ∧ ∀ r, step = .dispatch r → calls w.calls.length) (d.act depth step)
      (fun _ => P) fun s w => P w ∨ (lax ∧ s = .tooDeep) := by
  cases step with
  | dispatch r =>
      refine Triple.bind ((hp.dispatch d r).strengthen ?_) fun _ => Keeps.pure ()
      exact fun w hw => ⟨fun call => hp.opened call hw.1, hw.2 r rfl⟩
  | code code =>
      exact ((hp.run (holdsFor_none calls) code).bind fun _ => .pure ()).strengthen
        fun _ => And.left
  | replace table =>
      exact ((hp.replaceTable table).bind fun _ => .pure ()).strengthen fun _ => And.left

/-- What is upheld whatever call is brought on holds throughout a run, unless something was nested
too deep. -/
theorem Upholds.foldl_take
    {d : Dispatcher} {depth : Nat}
    (hp : Upholds True (fun _ => True) welcome P (RouteDispatch.perform d depth)) {p : Past}
    (hw : P p.world) (steps : List Step)
    (hdeep : .tooDeep ∉ (steps.foldl (d.take depth) p).stops) :
    P (steps.foldl (d.take depth) p).world := by
  induction steps generalizing p with
  | nil => exact hw
  | cons step rest ih =>
      have hnow : .tooDeep ∉ (d.take depth p step).stops := fun hstop =>
        hdeep (d.stops_subset_foldl depth _ rest hstop)
      exact ih ((hp.act step).take_of_not_tooDeep ⟨hw, fun _ _ => trivial⟩ hnow) hdeep

end Act
end RouteDispatch
