import RouteDispatch.Proofs.Session.Stability

/-!
# Tasks in a run

A run records what is done to tasks.  What is recorded of a task is its history: it leads to the
cell, and the wakers that were woken are those in the log (`Recorded`).  So a run delivers the
outcome of a task as a single cell does, whatever code is run, also code that uses a task while the
task runs its completion handler.
-/

namespace RouteDispatch

open Cell (awaited resolutions deliveries)

namespace World

/-- The history of a task. -/
def turnsOf (w : World) (t : TaskId) : List (Cell.Turn Completion) :=
  w.turns.filterMap fun entry => if entry.1 = t then some entry.2 else none

theorem mem_turnsOf {w : World} {t : TaskId} {turn : Cell.Turn Completion} :
    turn ∈ w.turnsOf t ↔ (t, turn) ∈ w.turns := by
  simp [turnsOf]

theorem turnsOf_turn_self
    (w : World) (t : TaskId) (turn : Cell.Turn Completion) (cell : Cell Completion) :
    (w.turn t turn cell).turnsOf t = w.turnsOf t ++ [turn] := by
  simp [turnsOf]

theorem turnsOf_turn_ne
    {t u : TaskId} (h : u ≠ t) (w : World) (turn : Cell.Turn Completion) (cell : Cell Completion) :
    (w.turn t turn cell).turnsOf u = w.turnsOf u := by
  simp [turnsOf, h.symm]

/-- What was done to a task comes first in its history. -/
theorem turnsOf_prefix {w w' : World} (h : w.turns <+: w'.turns) (t : TaskId) :
    w.turnsOf t <+: w'.turnsOf t :=
  h.filterMap _

end World

def Entry.woken? : Entry → Option String
  | .woken label => some label
  | _ => none

/-- The record of a world is that of its tasks. -/
structure Recorded (w : World) : Prop where
  leads : ∀ t cell, w.cells[t]? = some cell → Cell.Leads (w.turnsOf t) cell
  absent : ∀ t, w.cells.length ≤ t → w.turnsOf t = []
  woken : w.log.filterMap Entry.woken? = w.turns.filterMap fun entry => entry.2.woken?

namespace Recorded

variable {w : World}

theorem turn {t : TaskId} {turn : Cell.Turn Completion} {cell cell' : Cell Completion}
    (h : Recorded w) (hcell : w.cells[t]? = some cell) (hturn : cell.Takes turn cell') :
    Recorded (w.turnLogged t turn cell') := by
  have hlt : t < w.cells.length := (List.getElem?_eq_some_iff.mp hcell).1
  refine ⟨fun u cell₁ hcell₁ => ?_, fun u hu => ?_, ?_⟩
  · by_cases hsame : u = t
    · subst hsame
      obtain rfl : cell' = cell₁ := by simpa [World.turnLogged, hlt] using hcell₁
      exact (w.turnsOf_turn_self u turn cell') ▸ (h.leads u cell hcell).next hturn
    · have hcell₁' : w.cells[u]? = some cell₁ := by
        simpa [World.turnLogged, List.getElem?_set_ne (Ne.symm hsame)] using hcell₁
      exact (World.turnsOf_turn_ne hsame w turn cell') ▸ h.leads u cell₁ hcell₁'
  · have hu' : w.cells.length ≤ u := by simpa [World.turnLogged] using hu
    have hne : u ≠ t := Nat.ne_of_gt (Nat.lt_of_lt_of_le hlt hu')
    exact (World.turnsOf_turn_ne hne w turn cell').trans (h.absent u hu')
  · cases hwoken : turn.woken? <;>
      simp [World.turnLogged, h.woken, hwoken, Entry.woken?]

theorem newTask (h : Recorded w) : Recorded { w with cells := w.cells ++ [.fresh] } := by
  refine ⟨fun t cell hcell => ?_, fun t ht => ?_, h.woken⟩
  · by_cases hnew : w.cells.length = t
    · subst hnew
      obtain rfl : Cell.fresh = cell := by simpa using hcell
      have hnone : w.turnsOf w.cells.length = [] := h.absent _ (Nat.le_refl _)
      exact hnone.symm ▸ Cell.Leads.fresh
    · exact h.leads t cell ((getElem?_append_singleton_ne hnew _).symm.trans hcell)
  · rw [List.length_append] at ht
    exact h.absent t (Nat.le_trans (Nat.le_add_right _ _) ht)

/-- Every change of a world is recorded, whatever it is made for. -/
theorem stable : Stable (fun _ => True) Recorded where
  turn h hcell hturn _ := h.turn hcell hturn
  logged {w e} h he := by
    have hnone : e.woken? = none := by
      cases e with
      | woken => exact he.elim
      | _ => rfl
    exact ⟨h.leads, h.absent, by simpa [hnone] using h.woken⟩
  newTask h := h.newTask
  editCall _ h _ := ⟨h.leads, h.absent, h.woken⟩
  newCall _ h := ⟨h.leads, h.absent, h.woken⟩
  others _ _ _ h := ⟨h.leads, h.absent, h.woken⟩

/-- A new run has no tasks. -/
theorem of_table (table : RouteTable) : Recorded { table } :=
  ⟨by simp, fun _ _ => rfl, rfl⟩

theorem after (d : Dispatcher) (depth : Nat) (table : RouteTable) (steps : List Step) :
    Recorded (d.after depth table steps).world :=
  stable.foldl_take d depth (of_table table) steps

end Recorded

/-- Nothing that was done to a task is undone. -/
theorem stable_turns (w₀ : World) : Stable (fun _ => True) fun w => w₀.turns <+: w.turns where
  turn h _ _ _ := h.trans (List.prefix_append _ _)
  logged h _ := h
  newTask h := h
  editCall _ h _ := h
  newCall _ h := h
  others _ _ _ h := h

theorem Dispatcher.turns_prefix
    (d : Dispatcher) (depth : Nat) (table : RouteTable) (steps later : List Step) :
    (d.after depth table steps).world.turns <+:
    (d.after depth table (steps ++ later)).world.turns := by
  rw [after_append]
  exact (stable_turns _).foldl_take d depth (List.prefix_refl _) later

/-! ## Operations on a task -/

/-- What a resolution with an outcome sets off. -/
def Cell.Settling.act (perform : Performer) (o : Outcome) : Cell.Settling Completion → Act Unit
  | .quiet => pure ()
  | .wake label => Act.write (.woken label)
  | .run h => perform (.complete h o)

/-- A completion handler is run with the outcome if there is one. -/
def Completion.handed (perform : Performer) (h : Completion) : Option Outcome → Act Unit
  | some o => perform (.complete h o)
  | none => pure ()

namespace Act

variable {w : World} {t : TaskId} {cell : Cell Completion}

theorem exec_settle
    {cell' : Cell Completion} {o : Outcome} {follow : Cell.Settling Completion}
    (hcell : w.cells[t]? = some cell) (hsettle : cell.settle o = some (cell', follow))
    (perform : Performer) :
    (settle perform t o).exec w =
      (do follow.act perform o; pure true : Act Bool).exec
        (w.turn t (.settled o follow) cell') := by
  unfold settle
  rw [exec_get_bind]
  simp only [hcell, hsettle]
  rw [exec_bind]
  cases follow <;> rfl

theorem exec_settle_again
    (hcell : w.cells[t]? = some cell) (hresolved : cell.outcome? ≠ none) (perform : Performer)
    (o : Outcome) : (settle perform t o).exec w = (.ok false, w) := by
  unfold settle
  rw [exec_get_bind]
  simp only [hcell, Cell.settle_eq_none_iff.mpr hresolved]
  rfl

theorem exec_resolve_again
    (hcell : w.cells[t]? = some cell) (hresolved : cell.outcome? ≠ none) (perform : Performer)
    (o : Outcome) : (resolve perform t o).exec w = (.error (.panic .alreadyResolved), w) := by
  unfold resolve
  rw [exec_bind, exec_settle_again hcell hresolved]
  rfl

theorem exec_run_settle_again
    (hcell : w.cells[t]? = some cell) (hresolved : cell.outcome? ≠ none) (perform : Performer)
    (own : Option Continuation) (o : Outcome) {y : Yield} (next : Bool → Code y) :
    (run perform own (.settle t o next)).exec w = (run perform own (next false)).exec w := by
  have hwaits : w.awaits t = false := by
    simpa [World.awaits, hcell, Option.isSome_iff_ne_none] using hresolved
  have hmarked : (settleMarked perform t o).exec w = (.ok false, w) := by
    unfold settleMarked
    rw [exec_get_bind, hwaits]
    exact exec_settle_again hcell hresolved perform o
  rw [run, exec_bind, hmarked]

theorem exec_attach
    {cell' : Cell Completion} {h : Completion} {o : Option Outcome}
    (hcell : w.cells[t]? = some cell) (hattach : cell.attach h = some (cell', o))
    (perform : Performer) :
    (attach perform t h).exec w = (h.handed perform o).exec (w.turn t (.attached h o) cell') := by
  unfold attach attachOr
  rw [exec_get_bind]
  simp only [hcell, Option.bind_some, hattach]
  rw [exec_bind]
  cases o <;> rfl

theorem exec_attach_again
    {h : Completion} (hcell : w.cells[t]? = some cell) (hattach : cell.attach h = none)
    (perform : Performer) :
    (attach perform t h).exec w = (.error (.panic (.text Cell.secondConsumer)), w) := by
  unfold attach attachOr
  rw [exec_get_bind]
  simp only [hcell, Option.bind_some, hattach]
  rfl

theorem exec_poll
    {cell' : Cell Completion} {waker : String} {o : Option Outcome}
    (hcell : w.cells[t]? = some cell) (hpoll : cell.poll waker = .ok (cell', o)) :
    (poll t waker).exec w = (.ok o, w.turn t (.polled waker o) cell') := by
  unfold poll
  rw [exec_get_bind]
  simp only [hcell, hpoll]
  rfl

theorem exec_poll_again
    {waker : String} {refusal : Cell.PollRefusal} (hcell : w.cells[t]? = some cell)
    (hpoll : cell.poll waker = .error refusal) :
    (poll t waker).exec w = (.error (.panic (.text refusal.message)), w) := by
  unfold poll
  rw [exec_get_bind]
  simp only [hcell, hpoll]
  rfl

end Act

/-- What each operation on a task does in a world, by the history of the task: who waits is served
by the resolution, an outcome that is there goes to who asks for it, and an operation that is
refused changes nothing. -/
structure Operates (w : World) (t : TaskId) (cell : Cell Completion) : Prop where
  resolving : cell.outcome? = none → ∀ perform o, ∃ cell' : Cell Completion,
    cell'.outcome? = some o ∧
    (Act.settle perform t o).exec w =
      (do (awaited (w.turnsOf t)).follow.act perform o; pure true : Act Bool).exec
        (w.turn t (.settled o (awaited (w.turnsOf t)).follow) cell')
  resolvingAgain : cell.outcome? ≠ none → ∀ perform own o {y : Yield},
    (∀ next : Bool → Code y, (Act.run perform own (.settle t o next)).exec w =
      (Act.run perform own (next false)).exec w) ∧
    (∀ next : Code y, (Act.run perform own (.complete t o next)).exec w =
      (.error (.panic .alreadyResolved), w)) ∧
    (Act.resolve perform t o).exec w = (.error (.panic .alreadyResolved), w)
  attaching : awaited (w.turnsOf t) = .none → deliveries (w.turnsOf t) = [] → ∀ perform h,
    ∃ cell' : Cell Completion, cell'.outcome? = cell.outcome? ∧ (Act.attach perform t h).exec w =
      (h.handed perform cell.outcome?).exec (w.turn t (.attached h cell.outcome?) cell')
  attachingAgain : ¬ (awaited (w.turnsOf t) = .none ∧ deliveries (w.turnsOf t) = []) →
    ∀ perform h, (Act.attach perform t h).exec w =
      (.error (.panic (.text Cell.secondConsumer)), w)
  polling : (∀ h, awaited (w.turnsOf t) ≠ .handler h) → deliveries (w.turnsOf t) = [] → ∀ waker,
    ∃ cell' : Cell Completion, cell'.outcome? = cell.outcome? ∧ (Act.poll t waker).exec w =
      (.ok cell.outcome?, w.turn t (.polled waker cell.outcome?) cell')
  pollingAgain : ¬ ((∀ h, awaited (w.turnsOf t) ≠ .handler h) ∧ deliveries (w.turnsOf t) = []) →
    ∀ waker, ∃ refusal : Cell.PollRefusal, (Act.poll t waker).exec w =
      (.error (.panic (.text refusal.message)), w)

open Act in
/-- A task does what its history says. -/
theorem Operates.of_standing
    {w : World} {t : TaskId} {cell : Cell Completion} (hcell : w.cells[t]? = some cell)
    (h : Cell.Standing (w.turnsOf t) cell) : Operates w t cell where
  resolving hopen perform o := by
    obtain ⟨cell', hsettle, houtcome⟩ := h.settle_eq hopen o
    exact ⟨cell', houtcome, exec_settle hcell hsettle perform⟩
  resolvingAgain hresolved perform own o y := by
    have hagain : ∀ next : Bool → Code y, (run perform own (.settle t o next)).exec w =
        (run perform own (next false)).exec w :=
      exec_run_settle_again hcell hresolved perform own o
    exact ⟨hagain, fun next => hagain _, exec_resolve_again hcell hresolved perform o⟩
  attaching hnobody hnone perform k := by
    obtain ⟨⟨cell', o⟩, hattach⟩ := Option.isSome_iff_exists.mp
      ((h.attach_isSome_iff k).mpr ⟨hnobody, hnone⟩)
    obtain ⟨rfl, hsame⟩ := Cell.outcome?_of_attach hattach
    exact ⟨cell', hsame, exec_attach hcell hattach perform⟩
  attachingAgain hconsumer perform k := by
    have hattach : cell.attach k = none := by
      rw [← Option.not_isSome_iff_eq_none]
      exact fun hsome => hconsumer ((h.attach_isSome_iff k).mp hsome)
    exact exec_attach_again hcell hattach perform
  polling hhandler hnone waker := by
    cases hpoll : cell.poll waker with
    | ok result =>
        obtain ⟨cell', o⟩ := result
        obtain ⟨rfl, hsame⟩ := Cell.outcome?_of_poll hpoll
        exact ⟨cell', hsame, exec_poll hcell hpoll⟩
    | error refusal =>
        have hok := (h.poll_isOk_iff waker).mpr ⟨hhandler, hnone⟩
        simp [hpoll, Except.isOk, Except.toBool] at hok
  pollingAgain hconsumer waker := by
    cases hpoll : cell.poll waker with
    | ok result => exact absurd ((h.poll_isOk_iff waker).mp (by rw [hpoll]; rfl)) hconsumer
    | error refusal => exact ⟨refusal, exec_poll_again hcell hpoll⟩

/-! ## Delivery -/

/-- A task with a history and a cell is resolved at most once; its consumers get what it was
resolved with, one of them, once; until then the outcome is there; and a resolution serves the
consumer that waits for it. -/
structure Delivers (turns : List (Cell.Turn Completion)) (cell : Cell Completion) : Prop where
  resolved : resolutions turns = cell.outcome?.toList
  kept : ∀ o, cell.outcome? = some o →
    ((∃ awaited, cell = .cached o awaited) ∧ deliveries turns = []) ∨
      (cell = .taken o ∧ deliveries turns = [o])
  undelivered : cell.outcome? = none → deliveries turns = []
  served : ∀ before o follow behind, turns = before ++ .settled o follow :: behind →
    follow = (awaited before).follow ∧ resolutions before = [] ∧ resolutions behind = []

theorem Cell.Leads.delivers {turns : List (Cell.Turn Completion)} {cell : Cell Completion}
    (h : Cell.Leads turns cell) : Delivers turns cell where
  resolved := h.standing.outcome?
  kept o ho := by
    cases h.standing with
    | waiting => simp [Cell.outcome?] at ho
    | @cached o' awaited _ hdelivered =>
        obtain rfl : o' = o := Option.some.inj ho
        exact .inl ⟨⟨awaited, rfl⟩, hdelivered⟩
    | @taken o' _ hdelivered =>
        obtain rfl : o' = o := Option.some.inj ho
        exact .inr ⟨rfl, hdelivered⟩
  undelivered hopen := by
    cases h.standing with
    | waiting _ hdelivered => exact hdelivered
    | cached => simp [Cell.outcome?] at hopen
    | taken => simp [Cell.outcome?] at hopen
  served before o follow behind hturns := by
    subst hturns
    have hlength : (resolutions (before ++ .settled o follow :: behind)).length ≤ 1 := by
      rw [h.standing.outcome?]
      cases cell.outcome? with
      | none => exact Nat.zero_le 1
      | some o => exact Nat.le_refl 1
    have hsum : resolutions (before ++ .settled o follow :: behind) =
        resolutions before ++ o :: resolutions behind := by
      simp [resolutions, Cell.Turn.resolution?]
    rw [hsum, List.length_append, List.length_cons] at hlength
    refine ⟨h.follow_eq, ?_, ?_⟩
    · exact List.length_eq_zero_iff.mp (by omega)
    · exact List.length_eq_zero_iff.mp (by omega)

/-- A task is resolved once: what is added to its history leaves its outcome what it is. -/
theorem Recorded.outcome?_of_prefix
    {w w' : World} (h : Recorded w) (h' : Recorded w') (hturns : w.turns <+: w'.turns) {t : TaskId}
    {cell : Cell Completion} {o : Outcome} (hcell : w.cells[t]? = some cell)
    (ho : cell.outcome? = some o) :
    ∃ cell', w'.cells[t]? = some cell' ∧ cell'.outcome? = some o := by
  have hresolved : resolutions (w.turnsOf t) = [o] := by
    rw [(h.leads t cell hcell).standing.outcome?, ho]
    rfl
  obtain ⟨more, hmore⟩ := World.turnsOf_prefix hturns t
  have hlonger : resolutions (w'.turnsOf t) = o :: resolutions more := by
    rw [← hmore, resolutions, List.filterMap_append]
    exact congrArg (· ++ resolutions more) hresolved
  cases hcell' : w'.cells[t]? with
  | none =>
      have hnone := h'.absent t (List.getElem?_eq_none_iff.mp hcell')
      simp [hnone, resolutions] at hlonger
  | some cell' =>
      rw [(h'.leads t cell' hcell').standing.outcome?] at hlonger
      refine ⟨cell', rfl, ?_⟩
      cases ho' : cell'.outcome? with
      | none => simp [ho'] at hlonger
      | some o' =>
          rw [ho', Option.toList_some, List.cons.injEq] at hlonger
          rw [hlonger.1]

namespace Dispatcher

/-- At any time of a run each task stands as its history says, and so it did before.  Whatever is
run later adds to the history and leaves the outcome what it is.  In all worlds that code may come
to, also while a completion handler is run, an operation on a task does what the history asks for
or is refused and changes nothing. -/
theorem delivers_after
    (d : Dispatcher) (depth : Nat) (table : RouteTable) (steps later : List Step) {w w' : World}
    {t : TaskId} {cell : Cell Completion} (hw : (d.after depth table steps).world = w)
    (hw' : (d.after depth table (steps ++ later)).world = w') (hcell : w.cells[t]? = some cell) :
    Delivers (w.turnsOf t) cell ∧
      (∀ before behind, w.turnsOf t = before ++ behind → ∃ cell₀, Delivers before cell₀) ∧
      w.turnsOf t <+: w'.turnsOf t ∧
      (∀ o, cell.outcome? = some o → outcomeOf w'.cells t = some o) ∧
      Recorded w ∧
      (∀ {y : Yield} (own : Option Continuation) (code : Code y),
        Act.Keeps False Recorded (Act.run (perform d depth) own code)) ∧
      ∀ w₁ u cell₁, Recorded w₁ → w₁.cells[u]? = some cell₁ → Operates w₁ u cell₁ := by
  subst hw hw'
  have hrecorded := Recorded.after d depth table steps
  have hturns := d.turns_prefix depth table steps later
  have hleads := hrecorded.leads t cell hcell
  refine ⟨hleads.delivers, fun before behind hsplit => ?_, World.turnsOf_prefix hturns t,
    fun o ho => ?_, hrecorded, fun own code => ?_, fun w₁ u cell₁ h₁ hcell₁ => ?_⟩
  · obtain ⟨cell₀, h₀⟩ := Cell.Leads.of_append (hsplit ▸ hleads)
    exact ⟨cell₀, h₀.delivers⟩
  · obtain ⟨cell', hcell', ho'⟩ := hrecorded.outcome?_of_prefix
      (Recorded.after d depth table (steps ++ later)) hturns hcell ho
    rw [outcomeOf, hcell']
    exact ho'
  · exact (Recorded.stable.serves d depth).run (fun _ _ => trivial) code
  · exact .of_standing hcell₁ (h₁.leads u cell₁ hcell₁).standing

/-- A task is made and polled twice, and then it is resolved and its outcome taken. -/
def polledPast : Past :=
  after {} nesting .empty
    [.code (.create fun t => .poll t "first" fun _ => .poll t "second" fun _ => .skip),
      .code (.settle 0 (.ok .null) fun _ => .poll 0 "third" fun _ => .skip)]

theorem delivers_polledPast :
    resolutions (polledPast.world.turnsOf 0) = [.ok .null] ∧
      deliveries (polledPast.world.turnsOf 0) = [.ok .null] ∧
      polledPast.world.log.filterMap Entry.woken? = ["second"] ∧
      Delivers (polledPast.world.turnsOf 0) (.taken (.ok .null)) := by
  have hcell : polledPast.world.cells[0]? = some (.taken (.ok .null)) := rfl
  exact ⟨rfl, rfl, rfl, (delivers_after {} nesting .empty _ [] rfl rfl hcell).1⟩

end Dispatcher
end RouteDispatch
