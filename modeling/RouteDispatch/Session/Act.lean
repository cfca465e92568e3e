import RouteDispatch.Session.World

/-!
# Acts

An act changes the world and gives a value, or stops.  A panic stops an act on its way out, and so
does reaching the depth to which jobs may be nested; what the act did to the world before stays
done.  A guard turns a panic into a failure, except the panic of a second resolution, which is a
fault of the program itself and passes every guard.
-/

namespace RouteDispatch

/-- Why an act stopped without a value. -/
inductive Stop where
  | panic (p : Panic)
  | tooDeep
  deriving DecidableEq, Repr

/-- A computation on the world. -/
abbrev Act := ExceptT Stop (StateM World)

namespace Act

def exec {α : Type} (a : Act α) (w : World) : Except Stop α × World :=
  (ExceptT.run a).run w

def raise {α : Type} (p : Panic) : Act α :=
  throw (.panic p)

def write (e : Entry) : Act Unit :=
  modify fun w => { w with log := w.log ++ [e] }

def reportAll (reports : List Trace) : Act Unit :=
  modify fun w => { w with log := w.log ++ reports.map .trace }

def newTask (cell : Cell Completion) : Act TaskId := do
  let w ← get
  set { w with cells := w.cells ++ [cell] }
  pure w.cells.length

def setCell (t : TaskId) (turn : Cell.Turn Completion) (cell : Cell Completion) : Act Unit :=
  modify fun w => w.turn t turn cell

def tick : Act Nat := do
  let w ← get
  set { w with ticks := w.ticks + 1 }
  pure (w.ticks + 1)

def editCall (c : CallId) (f : Call → Call) : Act Unit :=
  modify fun w => { w with calls := w.calls.modify c f }

def editView (c : CallId) (f : CallView → CallView) : Act Unit :=
  editCall c fun call => { call with view := f call.view }

/-- Moves a call to a stage.  A call that has ended stays where it is. -/
def enter (c : CallId) (stage : Stage) : Act Unit := do
  let w ← get
  match w.calls[c]? with
  | none => pure ()
  | some call =>
    if call.view.stage.isTerminal then pure ()
    else
      write (.trace (.entered (w.callRef c) call.view.stage stage))
      editView c fun v => { v with stage }

/-- Runs a piece of foreign code for a call, and marks the panic that leaves it. -/
def calling {α : Type} (c : CallId) (piece : Piece) (a : Act α) : Act α :=
  tryCatch a fun stop => do
    match stop with
    | .panic p => write (.mark (.escaped c piece p))
    | .tooDeep => pure ()
    throw stop

/-- Runs an act and turns a panic into a failure, except that of a second resolution. -/
def guarded {α : Type} (a : Act α) : Act (Except CallError α) :=
  tryCatch (do let v ← a; pure (.ok v)) fun stop =>
    match stop with
    | .panic .alreadyResolved => throw stop
    | .tooDeep => throw stop
    | .panic p => do
      write (.trace (.panicCaptured p.message))
      pure (.error p.failure)

end Act
end RouteDispatch
