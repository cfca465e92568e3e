import RouteDispatch.Serial
import RouteDispatch.Task.Code

/-!
# Replies

What a typed handler gives back: a value at once, data to be serialised, an error, or a task whose
value is serialised once it is there.  Every reply becomes the task with the result of the call.
-/

namespace RouteDispatch

inductive Reply where
  | value (j : Json)
  | data (s : Serial)
  | failure (e : CallError)
  | later (t : TaskId) (view : Json → Serial)

namespace Reply

def serialised (s : Serial) : Outcome :=
  match s.toJson with
  | .ok j => .ok j
  | .error fault => .error (.internal ("failed to serialize result: " ++ fault.message))

/-- The reply inside a result, or its error. -/
def ofExcept : Except CallError Reply → Reply
  | .ok r => r
  | .error e => .failure e

/-- The reply inside an optional value; nothing is `null`. -/
def ofOption : Option Reply → Reply
  | some r => r
  | none => .value .null

def toTask : Reply → Code .task
  | .value j => .resolved (.ok j) fun t => .done t
  | .data s => .resolved (serialised s) fun t => .done t
  | .failure e => .resolved (.error e) fun t => .done t
  | .later t view => .transformValue t (fun j => .done (serialised (view j))) fun u => .done u

end Reply
end RouteDispatch
