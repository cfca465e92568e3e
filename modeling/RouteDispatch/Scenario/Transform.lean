import RouteDispatch.Scenario.Forms

/-!
# Scripted transformations

The functions that scenarios give to the combinators of tasks: transformations of outcomes, and
continuations that name the task to wait for.
-/

namespace RouteDispatch
namespace Scenario

/-- What a transformation does with an outcome. -/
inductive TransformKind where
  | identity
  | add (n : Int)
  | const (v : Json)
  | wrap (tag : Json)
  | fail (e : CallError)
  | panic (p : Panic)
  | recover (v : Json)
  | describe
  | flip
  | finish (slot : String) (v : Json)

/-- A scripted transformation and the name that it leaves in the log. -/
structure Transform where
  name : String
  kind : TransformKind

namespace Transform

def notInteger (v : Json) : CallError :=
  .invalidState ("not an integer: " ++ v.text)

/-- The outcome of adding an integer to a value; sums wrap at sixty-four bits. -/
def addTo (n : Int) (v : Json) : Outcome :=
  match v.int64? with
  | some m => .ok (.int (Int64.ofInt (m + n)).toInt)
  | none => .error (notInteger v)

/-- What the kind of transformation does with an outcome. -/
def act (o : Outcome) : TransformKind → Code .outcome
  | .identity => .done o
  | .add n => .done (o.bind (addTo n))
  | .const v => .done (.ok v)
  | .wrap tag => .done (o.map fun v => .arr [tag, v])
  | .fail e => .done (.error e)
  | .panic p => .panic p
  | .recover v => .done (match o with
    | .ok w => .ok w
    | .error _ => .ok v)
  | .describe => .done (.ok (outcomeForm o))
  | .flip => .done (match o with
    | .ok v => .error (.invalidState v.text)
    | .error e => .ok (.str e.reason))
  | .finish slot v => .find slot fun found =>
    match found with
    | some t => .complete t (.ok v) (.done o)
    | none => .done o

def code (f : Transform) (o : Outcome) : Code .outcome :=
  .note (.single "applied" (.str f.name)) (act o f.kind)

end Transform

inductive Chaining where
  | slot (name : String)
  | mapSlot (name : String) (g : Transform)
  | never
  | transform (f : Transform)

namespace Chaining

/-- The note of a continuation that names a slot. -/
def chained (name : String) : Json :=
  .single "chained" (.str name)

/-- The continuation as foreign code.  A slot that is not there gives a task that stays waiting. -/
def code (f : Chaining) (o : Outcome) : Code .task :=
  match f with
  | .slot name =>
    .note (chained name) (.find name fun found =>
      match found with
      | some t => .done t
      | none => .create fun t => .done t)
  | .mapSlot name g =>
    .note (chained name) (.find name fun found =>
      match found with
      | some t =>
        .transformValue t (fun v => g.code (.ok (.arr [outcomeForm o, v]))) fun u => .done u
      | none => .create fun t => .done t)
  | .never => .create fun t => .done t
  | .transform f => (f.code o).andThen fun mapped => .resolved mapped fun t => .done t

end Chaining
end Scenario
end RouteDispatch
