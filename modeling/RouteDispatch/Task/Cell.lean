import RouteDispatch.Error
import RouteDispatch.Json.Basic

/-!
# Task cells

A task is a result that arrives later.  Its cell waits until it is resolved, exactly once, with a
value or an error; the outcome then goes to one consumer, which is a completion handler or a poll.
A consumer that comes before the outcome is kept in the waiting cell, and an outcome that comes
before its consumer is cached, so the order of the two never matters.

The transitions below change one cell and say what has to be done afterwards; they never run a
handler themselves.  `Cell.outcome?` is what a task was resolved with: only `Cell.settle` changes
it, once (`settle_eq_none_iff`, `outcome?_of_settle`), and every consumer gets just that
(`outcome?_of_attach`, `outcome?_of_poll`).
-/

namespace RouteDispatch

abbrev Outcome := Except CallError Json

/-- How a task looks from outside. -/
inductive TaskState where
  | waiting
  | finished
  | error
  deriving DecidableEq, Repr

def TaskState.name : TaskState → String
  | .waiting => "Waiting"
  | .finished => "Finished"
  | .error => "Error"

def TaskState.ofOutcome : Outcome → TaskState
  | .ok _ => .finished
  | .error _ => .error

def TaskState.inspect (s : TaskState) : String :=
  Text.record "Task" [("state", s.name)]

/-- Who takes the outcome of a waiting task: nobody yet, a handler, or the owner of a waker. -/
inductive Consumer (η : Type) where
  | none
  | handler (h : η)
  | waker (label : String)

/-- The cell of a task.  A resolved task has its outcome cached, perhaps for the owner of a waker
alone, or its outcome was taken. -/
inductive Cell (η : Type) where
  | waiting (consumer : Consumer η)
  | cached (outcome : Outcome) (awaited : Bool)
  | taken (outcome : Outcome)

namespace Cell

variable {η : Type}

/-- A task that nobody resolved or asked for. -/
def fresh : Cell η := .waiting .none

/-- What a task was resolved with, whether or not the outcome is still there to be had. -/
def outcome? : Cell η → Option Outcome
  | .waiting _ => none
  | .cached o _ => some o
  | .taken o => some o

def state (c : Cell η) : TaskState :=
  match c.outcome? with
  | none => .waiting
  | some o => .ofOutcome o

theorem state_eq_waiting_iff {c : Cell η} : c.state = .waiting ↔ c.outcome? = none := by
  unfold state
  cases c.outcome? with
  | none => simp
  | some o => cases o <;> simp [TaskState.ofOutcome]

/-- What follows a resolution: nothing, waking the owner of a waker, or running the handler. -/
inductive Settling (η : Type) where
  | quiet
  | wake (label : String)
  | run (h : η)

/-- Resolves a task.  A task that is no longer waiting is left alone. -/
def settle (o : Outcome) : Cell η → Option (Cell η × Settling η)
  | .waiting .none => some (.cached o false, .quiet)
  | .waiting (.waker label) => some (.cached o true, .wake label)
  | .waiting (.handler h) => some (.taken o, .run h)
  | .cached .. | .taken _ => none

/-- A resolution is refused exactly when the task has been resolved. -/
theorem settle_eq_none_iff {o : Outcome} {c : Cell η} :
    c.settle o = none ↔ c.outcome? ≠ none := by
  rcases c with (_ | _ | _) | _ | _ <;> simp [settle, outcome?]

/-- A resolution that is not refused decides the outcome. -/
theorem outcome?_of_settle {o : Outcome} {c c' : Cell η} {next : Settling η}
    (h : c.settle o = some (c', next)) : c.outcome? = none ∧ c'.outcome? = some o := by
  rcases c with (_ | _ | _) | _ | _ <;> simp [settle] at h <;> simp [← h.1, outcome?]

/-- Attaches a completion handler.  The cached outcome, if there is one, goes to the handler at
once.  A task that has a consumer refuses another. -/
def attach (h : η) : Cell η → Option (Cell η × Option Outcome)
  | .waiting .none => some (.waiting (.handler h), none)
  | .cached o false => some (.taken o, some o)
  | .waiting (.handler _) | .waiting (.waker _) | .cached _ true | .taken _ => none

/-- A handler gets what the task was resolved with, and the outcome stays what it is. -/
theorem outcome?_of_attach {h : η} {c c' : Cell η} {o : Option Outcome}
    (ha : c.attach h = some (c', o)) : o = c.outcome? ∧ c'.outcome? = c.outcome? := by
  rcases c with (_ | _ | _) | ⟨_, _ | _⟩ | _ <;> simp [attach] at ha <;>
    simp [← ha.1, ← ha.2, outcome?]

inductive PollRefusal where
  | hasHandler
  | alreadyTaken
  deriving DecidableEq

def PollRefusal.message : PollRefusal → String
  | .hasHandler => "task awaited while it has a completion handler"
  | .alreadyTaken => "task polled after its outcome was taken"

/-- Polls a task: takes the cached outcome, or leaves a waker in the place of an earlier one. -/
def poll (label : String) : Cell η → Except PollRefusal (Cell η × Option Outcome)
  | .waiting (.handler _) => .error .hasHandler
  | .taken _ => .error .alreadyTaken
  | .cached o _ => .ok (.taken o, some o)
  | .waiting .none | .waiting (.waker _) => .ok (.waiting (.waker label), none)

/-- A poll gets what the task was resolved with, and the outcome stays what it is. -/
theorem outcome?_of_poll {label : String} {c c' : Cell η} {o : Option Outcome}
    (h : c.poll label = .ok (c', o)) : o = c.outcome? ∧ c'.outcome? = c.outcome? := by
  rcases c with (_ | _ | _) | _ | _ <;> simp [poll] at h <;> simp [← h.1, ← h.2, outcome?]

/-- Forgets the consumer of a waiting task, whose last owner is gone, and gives back its handler. -/
def abandon : Cell η → Cell η × Option η
  | .waiting (.handler h) => (fresh, some h)
  | c => (c, none)

/-- Something that is done to a task and not refused, with what comes of it: the consumer that a
resolution found, the outcome that a consumer found, or the handler that is given up. -/
inductive Turn (η : Type) where
  | settled (o : Outcome) (follow : Settling η)
  | attached (h : η) (outcome : Option Outcome)
  | polled (waker : String) (outcome : Option Outcome)
  | abandoned (handler : Option η)

def secondConsumer : String := "task already has a consumer"

def alreadyResolved : String := "task already resolved"

end Cell
end RouteDispatch
