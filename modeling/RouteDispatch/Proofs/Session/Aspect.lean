import Mathlib.Logic.Function.Basic
import RouteDispatch.Proofs.Session.Stability

/-!
# What concerns a call

Of all that a world holds only a part concerns a given call: its own record, the completion handlers
that bring it on, what was done to the tasks that have them, and what was marked about its handler.
Nothing that is done for other calls changes this part, so every condition on it is stable.
-/

namespace RouteDispatch

/-! ## Aspects -/

/-- How a call stands, apart from the tasks of its caller. -/
structure Footing where
  view : CallView
  held : Option (Point × Place)
  outcome? : Option Outcome

def Call.footing (call : Call) : Footing :=
  ⟨call.view, call.held, call.ending.outcome?⟩

/-- The completion handler of the cell, if it brings the call on. -/
def Cell.keptFor (c : CallId) (cell : Cell Completion) : Option Completion :=
  cell.handler?.filter fun h => h.call? == some c

/-- The turn is about a completion handler that brings the call on. -/
def Cell.Turn.bearsOn (c : CallId) (turn : Cell.Turn Completion) : Bool :=
  turn.handler?.any fun h => h.call? == some c

/-- The entry marks that the handler of the call is invoked, or that a panic leaves it. -/
def Entry.marksHandler (c : CallId) : Entry → Bool
  | .mark (.invoked d _) => d == c
  | .mark (.escaped d .handler _) => d == c
  | _ => false

/-- What concerns a call in a world. -/
structure Aspect where
  footing? : Option Footing
  /-- The completion handlers that bring the call on, by the tasks that wait with them. -/
  kept : TaskId → Option Completion
  turns : List (TaskId × Cell.Turn Completion)
  marks : List Entry

namespace World

def turnsFor (c : CallId) (w : World) : List (TaskId × Cell.Turn Completion) :=
  w.turns.filter fun turn => turn.2.bearsOn c

def marksFor (c : CallId) (w : World) : List Entry :=
  w.log.filter (Entry.marksHandler c)

def aspect (c : CallId) (w : World) : Aspect where
  footing? := w.calls[c]?.map Call.footing
  kept t := w.cells[t]?.bind (Cell.keptFor c)
  turns := w.turnsFor c
  marks := w.marksFor c

end World

/-! ## Changes of an aspect -/

namespace Aspect

variable (c : CallId)

theorem keptFor_eq_some_iff {cell : Cell Completion} {h : Completion} :
    cell.keptFor c = some h ↔ cell.handler? = some h ∧ h.call? = some c := by
  simp [Cell.keptFor, Option.filter_eq_some_iff]

theorem keptFor_eq_none_iff {cell : Cell Completion} :
    cell.keptFor c = none ↔ ∀ h, cell.handler? = some h → h.IsFor (· ≠ c) := by
  have hfor : ∀ h : Completion, h.IsFor (· ≠ c) ↔ h.call? ≠ some c := by
    refine fun h => ⟨fun hfor hc => hfor c hc rfl, ?_⟩
    rintro hne d hd rfl
    exact hne hd
  simp only [Cell.keptFor, Option.filter_eq_none_iff, hfor]
  simp

variable {c}

theorem keptFor_of_takes
    {turn : Cell.Turn Completion} {cell cell' : Cell Completion} (h : cell.Takes turn cell')
    (hother : ∀ h, turn.handler? = some h → h.IsFor (· ≠ c)) :
    cell'.keptFor c = cell.keptFor c := by
  have hsame : cell.keptFor c = none → cell'.keptFor c = none → cell'.keptFor c = cell.keptFor c :=
    fun hbefore hafter => hafter.trans hbefore.symm
  cases h with
  | @settled _ o follow h =>
      obtain ⟨hafter, hbefore⟩ := Cell.handler?_of_settle h
      refine hsame ((keptFor_eq_none_iff c).mpr fun k hk => hother k ?_)
        (by simp [Cell.keptFor, hafter])
      rw [hbefore] at hk
      cases follow with
      | run k' => exact hk
      | _ => simp [Cell.Settling.handler?] at hk
  | @attached _ k o h =>
      obtain ⟨hbefore, hafter⟩ := Cell.handler?_of_attach h
      refine hsame (by simp [Cell.keptFor, hbefore]) ((keptFor_eq_none_iff c).mpr fun k' hk' => ?_)
      rw [hafter] at hk'
      split at hk'
      · exact hother k' (by simpa [Cell.Turn.handler?] using hk')
      · simp at hk'
  | polled h =>
      have hbefore : cell.handler? = none := by
        rcases cell with (_ | _ | _) | _ | _ <;> simp [Cell.poll] at h <;> rfl
      exact hsame (by simp [Cell.keptFor, hbefore])
        (by simp [Cell.keptFor, Cell.handler?_of_poll h])
  | @abandoned _ k h =>
      have hafter := (Cell.abandon_fst cell).1
      have hbefore := Cell.abandon_snd cell
      rw [h] at hafter hbefore
      refine hsame ((keptFor_eq_none_iff c).mpr fun k' hk' => hother k' ?_)
        (by simp [Cell.keptFor, hafter])
      exact hbefore.trans hk'

theorem bearsOn_eq_false
    {turn : Cell.Turn Completion} (h : ∀ h, turn.handler? = some h → h.IsFor (· ≠ c)) :
    turn.bearsOn c = false := by
  cases hhandler : turn.handler? with
  | none => simp [Cell.Turn.bearsOn, hhandler]
  | some k =>
      have hk : k.call? ≠ some c := fun hc => h k hhandler c hc rfl
      simpa [Cell.Turn.bearsOn, hhandler] using hk

theorem marksHandler_eq_false {e : Entry} (h : e.IsFor (· ≠ c)) : e.marksHandler c = false := by
  rcases e with _ | _ | _ | m
  · rfl
  · rfl
  · rfl
  · cases m with
    | invoked d args => simpa [Entry.marksHandler, Entry.IsFor] using h
    | escaped d piece p =>
        cases piece with
        | handler => simpa [Entry.marksHandler, Entry.IsFor] using h
        | _ => rfl
    | _ => rfl

section Changes

variable {w : World}

@[simp]
theorem aspect_logged (e : Entry) :
    ({ w with log := w.log ++ [e] } : World).aspect c =
      { w.aspect c with marks := (w.aspect c).marks ++ if e.marksHandler c then [e] else [] } := by
  cases h : e.marksHandler c <;> simp [World.aspect, World.marksFor, World.turnsFor, h]

@[simp]
theorem aspect_turn {t : TaskId} (ht : t < w.cells.length) (turn : Cell.Turn Completion)
    (cell : Cell Completion) :
    (w.turn t turn cell).aspect c =
      { w.aspect c with
        kept := Function.update (w.aspect c).kept t (cell.keptFor c)
        turns := (w.aspect c).turns ++ if turn.bearsOn c then [(t, turn)] else [] } := by
  have hkept : (fun u : TaskId => (w.cells.set t cell)[u]?.bind (Cell.keptFor c)) =
      Function.update (fun u => w.cells[u]?.bind (Cell.keptFor c)) t (cell.keptFor c) := by
    funext u
    by_cases hsame : u = t
    · simp [hsame, ht]
    · simp [Function.update_of_ne hsame, List.getElem?_set_ne (Ne.symm hsame)]
  cases h : turn.bearsOn c <;> simp [World.aspect, World.marksFor, World.turnsFor, hkept, h]

theorem aspect_newTask :
    ({ w with cells := w.cells ++ [.fresh] } : World).aspect c = w.aspect c := by
  have hkept : (fun u : TaskId => (w.cells ++ [Cell.fresh])[u]?.bind (Cell.keptFor c)) =
      fun u => w.cells[u]?.bind (Cell.keptFor c) := by
    funext u
    by_cases hnew : w.cells.length = u
    · subst hnew
      simp [Cell.fresh, Cell.keptFor, Cell.handler?]
    · rw [getElem?_append_singleton_ne hnew]
  simp [World.aspect, World.marksFor, World.turnsFor, hkept]

theorem aspect_editCall_other {d : CallId} (hd : d ≠ c) (g : Call → Call) :
    ({ w with calls := w.calls.modify d g } : World).aspect c = w.aspect c := by
  simp [World.aspect, World.marksFor, World.turnsFor, hd]

/-- An edit of the call is an edit of its footing. -/
theorem aspect_editCall (g : Call → Call) (f : Footing → Footing)
    (hfooting : ∀ call, (g call).footing = f call.footing) :
    ({ w with calls := w.calls.modify c g } : World).aspect c =
      { w.aspect c with footing? := (w.aspect c).footing?.map f } := by
  have hcall : (g <$> w.calls[c]?).map Call.footing = (w.calls[c]?.map Call.footing).map f := by
    cases w.calls[c]? with
    | none => rfl
    | some call => simp [hfooting]
  simpa [World.aspect, World.marksFor, World.turnsFor, List.getElem?_modify] using hcall

end Changes
end Aspect

/-! ## Stability -/

/-- What is done for other calls keeps every condition on what concerns a call and on what is read
off the log, if the entries for other calls and the wake-ups do not count. -/
theorem Stable.of_reading
    {X : Type} {c : CallId} {g : List Entry → X}
    (hg : ∀ log e, e.IsFor (· ≠ c) → g (log ++ [e]) = g log)
    (hwoken : ∀ log label, g (log ++ [.woken label]) = g log) {Q : Aspect → X → Prop}
    (hnew : ∀ a x footing, Q a x → a.footing? = none → Q { a with footing? := some footing } x) :
    Stable (· ≠ c) fun w => Q (w.aspect c) (g w.log) where
  turn {w t turn cell cell'} hw hcell htakes hother := by
    have hlt := (List.getElem?_eq_some_iff.mp hcell).1
    have hlogged : (w.turnLogged t turn cell').aspect c = (w.turn t turn cell').aspect c := by
      cases hwoken : turn.woken? with
      | none => rw [World.turnLogged_eq_turn hwoken]
      | some label =>
          simp [World.turnLogged, World.turn, World.aspect, World.marksFor, World.turnsFor, hwoken,
            Entry.marksHandler]
    have hread : g (w.turnLogged t turn cell').log = g w.log := by
      cases hlabel : turn.woken? with
      | none => rw [World.turnLogged_eq_turn hlabel, World.turn_log]
      | some label => simpa [World.turnLogged, hlabel] using hwoken w.log label
    have hkept : (w.aspect c).kept t = cell.keptFor c := by simp [World.aspect, hcell]
    have hupdate := Function.update_eq_self t (w.aspect c).kept
    rw [hkept] at hupdate
    rw [hread, hlogged, Aspect.aspect_turn hlt, Aspect.keptFor_of_takes htakes hother, hupdate,
      Aspect.bearsOn_eq_false hother]
    simpa using hw
  logged hw he := by
    rw [Aspect.aspect_logged, Aspect.marksHandler_eq_false he, hg _ _ he]
    simpa using hw
  newTask hw := by rwa [Aspect.aspect_newTask]
  editCall g hw hd := by rwa [Aspect.aspect_editCall_other hd]
  newCall {w} call hw := by
    by_cases hsame : w.calls.length = c
    · subst hsame
      refine (congrArg (Q · _) ?_).mp (hnew _ _ call.footing hw (by simp [World.aspect]))
      simp [World.aspect, World.marksFor, World.turnsFor]
    · have hcalls := getElem?_append_singleton_ne hsame call
      simpa [World.aspect, World.marksFor, World.turnsFor, hcalls] using hw
  others names table ticks hw := hw

/-- What is done for other calls keeps every condition on what concerns a call. -/
theorem Stable.of_aspect
    {c : CallId} {Q : Aspect → Prop}
    (hnew : ∀ a footing, Q a → a.footing? = none → Q { a with footing? := some footing }) :
    Stable (· ≠ c) fun w => Q (w.aspect c) :=
  .of_reading (g := fun _ => ()) (Q := fun a _ => Q a) (fun _ _ _ => rfl) (fun _ _ => rfl)
    fun a _ => hnew a

/-- Jobs keep a condition on what concerns a call while no task waits to bring the call on.  It may
stand under another condition that nothing brings about. -/
theorem Act.Serves.of_aspect
    {c : CallId} {lax : Prop} {A : World → Prop} {Q : Aspect → Prop}
    (hA : Stable (fun _ => True) fun w => ¬ A w)
    (hnew : ∀ a footing, Q a → a.footing? = none → Q { a with footing? := some footing })
    (hunkept : ∀ a, Q a → ∀ t, a.kept t = none) (d : Dispatcher) (depth : Nat) :
    Serves lax (· ≠ c) (fun w => A w → Q (w.aspect c)) (RouteDispatch.perform d depth) := by
  refine .of_stable (.imp hA (.of_aspect hnew)) hA (fun w hw hafter => absurd hafter hw) ?_ d depth
  intro w t cell h hw hcell hhandler
  by_cases hcond : A w
  · refine .inr ((Aspect.keptFor_eq_none_iff c).mp ?_ h hhandler)
    simpa [World.aspect, hcell] using hunkept _ (hw hcond) t
  · exact .inl hcond

end RouteDispatch
