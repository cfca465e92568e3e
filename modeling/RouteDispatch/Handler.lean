import RouteDispatch.Task.Code

/-!
# Handlers

The code behind a route.  It gets the arguments of a call and gives a task with the result.  A typed
handler reads its arguments by position; whether it can is checked while the table is compiled, and
a failure to read at call time fails the call before the function runs.
-/

namespace RouteDispatch

structure Handler where
  check : List ParamSpec → Except String Unit
  invoke : Args → Code .task

namespace Handler

/-- A handler that takes the arguments as they are and fits all parameters. -/
def raw (invoke : Args → Code .task) : Handler :=
  ⟨fun _ => .ok (), invoke⟩

/-- A handler that reads its arguments by position. -/
def typed (readings : List Reading) (f : List Reading.Result → Code .task) : Handler :=
  { check := Reading.check readings
    invoke := fun args =>
      match Reading.readAll readings args.specs args.values with
      | .ok results => f results
      | .error e => .resolved (.error e) fun t => .done t }

end Handler
end RouteDispatch
