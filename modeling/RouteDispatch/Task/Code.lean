import RouteDispatch.Call.View
import RouteDispatch.Log

/-!
# Foreign code

Plugins, handlers, listeners and completion handlers are code that the library calls and does not
know.  What such code does is a tree: a node is one thing done, a branch is one answer to it, and
every branch ends with a result or with a panic.  Code may make and use tasks, leave notes, reach
tasks by name, and, if it holds the continuation of a call, let that call go on.

Continuations are never copied.  Code that was given one holds it until it proceeds, aborts, drops
it, or moves it into the completion handler of a task; what it still holds when it ends is dropped.
-/

namespace RouteDispatch

/-- The place of a task among all tasks. -/
abbrev TaskId := Nat

/-- What a plugin hands to the next stage: arguments on the way to the handler, the result on the
way back. -/
inductive Payload where
  | args (a : Args)
  | result (v : Json)

/-- The continuation that code holds: the point where the call stands, and the call. -/
structure Held where
  point : Point
  call : CallView

/-- What a piece of code ends with. -/
inductive Yield where
  | nothing
  | outcome
  | task
  | number
  | json
  deriving DecidableEq

abbrev Yield.Value : Yield → Type
  | .nothing => Unit
  | .outcome => Outcome
  | .task => TaskId
  | .number => Nat
  | .json => Json

/-- A piece of foreign code. -/
inductive Code : Yield → Type where
  | done {y : Yield} (value : y.Value) : Code y
  | panic {y : Yield} (p : Panic) : Code y
  | log {y : Yield} (remark : Remark) (next : Code y) : Code y
  | create {y : Yield} (next : TaskId → Code y) : Code y
  /-- Resolves a task; the answer is whether it was still waiting. -/
  | settle {y : Yield} (t : TaskId) (o : Outcome) (next : Bool → Code y) : Code y
  | attach {y : Yield} (t : TaskId) (h : Outcome → Code .nothing) (next : Code y) : Code y
  /-- Attaches a completion handler that takes over the continuation. -/
  | entrust {y : Yield} (t : TaskId) (h : Outcome → Code .nothing) (next : Code y) : Code y
  /-- Makes a task that resolves with what `f` gives for the outcome of `t`. -/
  | transform {y : Yield} (t : TaskId) (f : Outcome → Code .outcome) (next : TaskId → Code y) :
    Code y
  /-- Makes a task that resolves as the task does that `f` gives for the outcome of `t`. -/
  | chain {y : Yield} (t : TaskId) (f : Outcome → Code .task) (next : TaskId → Code y) : Code y
  | poll {y : Yield} (t : TaskId) (waker : String) (next : Option Outcome → Code y) : Code y
  | state {y : Yield} (t : TaskId) (next : TaskState → Code y) : Code y
  /-- Gives a task up, as its last owner. -/
  | abandon {y : Yield} (t : TaskId) (next : Code y) : Code y
  /-- Uses the continuation to let the call go on. -/
  | proceed {y : Yield} (payload : Payload) (next : Code y) : Code y
  /-- Uses the continuation to fail the call. -/
  | abort {y : Yield} (e : CallError) (next : Code y) : Code y
  /-- Drops the continuation. -/
  | release {y : Yield} (next : Code y) : Code y
  | inspect {y : Yield} (next : Option Held → Code y) : Code y
  /-- Registers a task under a name, or under a numbered variant of a name that is taken. -/
  | register {y : Yield} (name : String) (t : TaskId) (next : Code y) : Code y
  /-- Finds the task registered under a name. -/
  | find {y : Yield} (name : String) (next : Option TaskId → Code y) : Code y
  | unregister {y : Yield} (name : String) (next : Code y) : Code y
  /-- Takes the next number of the counter that starts at one. -/
  | tick {y : Yield} (next : Nat → Code y) : Code y

namespace Code

/-- Goes on with `k` where the code ends with a value. -/
def andThen {y z : Yield} : Code y → (y.Value → Code z) → Code z
  | .done v, k => k v
  | .panic p, _ => .panic p
  | .log e n, k => .log e (n.andThen k)
  | .create n, k => .create fun t => (n t).andThen k
  | .settle t o n, k => .settle t o fun b => (n b).andThen k
  | .attach t h n, k => .attach t h (n.andThen k)
  | .entrust t h n, k => .entrust t h (n.andThen k)
  | .transform t f n, k => .transform t f fun u => (n u).andThen k
  | .chain t f n, k => .chain t f fun u => (n u).andThen k
  | .poll t w n, k => .poll t w fun o => (n o).andThen k
  | .state t n, k => .state t fun s => (n s).andThen k
  | .abandon t n, k => .abandon t (n.andThen k)
  | .proceed p n, k => .proceed p (n.andThen k)
  | .abort e n, k => .abort e (n.andThen k)
  | .release n, k => .release (n.andThen k)
  | .inspect n, k => .inspect fun h => (n h).andThen k
  | .register s t n, k => .register s t (n.andThen k)
  | .find s n, k => .find s fun t => (n t).andThen k
  | .unregister s n, k => .unregister s (n.andThen k)
  | .tick n, k => .tick fun i => (n i).andThen k

theorem andThen_done {y : Yield} (c : Code y) : c.andThen .done = c := by
  induction c <;> simp [andThen, *]

theorem andThen_assoc {x y z : Yield} (c : Code x) (f : x.Value → Code y) (g : y.Value → Code z) :
    (c.andThen f).andThen g = c.andThen fun v => (f v).andThen g := by
  induction c <;> simp [andThen, *]

abbrev skip : Code .nothing := .done ()

/-- Resolves a task and panics when it is no longer waiting. -/
def complete {y : Yield} (t : TaskId) (o : Outcome) (next : Code y) : Code y :=
  .settle t o fun settled => if settled then next else .panic .alreadyResolved

def note {y : Yield} (content : Json) (next : Code y) : Code y :=
  .log (.note content) next

def resolved {y : Yield} (o : Outcome) (next : TaskId → Code y) : Code y :=
  .create fun t => .settle t o fun _ => next t

/-- Makes a task that `f` computes from the value of `t`; errors pass untouched. -/
def transformValue {y : Yield} (t : TaskId) (f : Json → Code .outcome)
    (next : TaskId → Code y) : Code y :=
  .transform t (fun o => match o with
    | .ok v => f v
    | .error e => .done (.error e)) next

/-- Makes a task that resolves as the one that `f` gives for the value of `t`; errors skip `f`. -/
def chainValue {y : Yield} (t : TaskId) (f : Json → Code .task)
    (next : TaskId → Code y) : Code y :=
  .chain t (fun o => match o with
    | .ok v => f v
    | .error e => .resolved (.error e) fun u => .done u) next

end Code
end RouteDispatch
