import RouteDispatch.Session.Pipeline

/-!
# Scripted plugins

At each point a plugin ends its stage in one of three ways, unless it panics: it lets the call go on
with something, aborts it, or drops the continuation.  It may leave the end of the stage to the
value of a task.  A script says which, and `Scripts.evaluate` is what comes of it: a fold over the
plugins with the arguments, the handler, and a fold over the plugins with the result.

The scripts say nothing about the tasks that stages are deferred to, about panics, or about the
handler; what becomes of these is given by `Replies`.
-/

namespace RouteDispatch

/-- How a stage ends, unless a panic ends it. -/
inductive StageEnd (α : Type) where
  | proceed (x : α)
  | abort (e : CallError)
  | drop

/-- What a plugin does at a point. -/
inductive StageScript (α : Type) where
  | ends (x : StageEnd α)
  /-- With the value of a task the stage ends as `next` says; the failure of the task aborts the
  call; when the task is dropped, the continuation is. -/
  | defers (next : Json → StageEnd α)

/-- What becomes of the tasks that stages are deferred to, `none` if one is dropped, which stages
panic, and what becomes of the handler. -/
structure Replies where
  fate : Point → Option Outcome
  panicked : Point → Option Panic
  handled : Args → Outcome

namespace StageEnd

variable {α β : Type}

def map (f : α → β) : StageEnd α → StageEnd β
  | .proceed x => .proceed (f x)
  | .abort e => .abort e
  | .drop => .drop

/-- What the next stage gets, or the failure of the call. -/
def verdict : StageEnd α → Except CallError α
  | .proceed x => .ok x
  | .abort e => .error e
  | .drop => .error Act.dropped

theorem verdict_map (f : α → β) (x : StageEnd α) : (x.map f).verdict = x.verdict.map f := by
  cases x <;> rfl

end StageEnd

namespace StageScript

variable {α β : Type}

def map (f : α → β) : StageScript α → StageScript β
  | .ends x => .ends (x.map f)
  | .defers next => .defers fun v => (next v).map f

/-- The end of a stage that was deferred. -/
def resumed (next : Json → StageEnd α) : Outcome → StageEnd α
  | .ok v => next v
  | .error e => .abort e

/-- The end of a stage. -/
def ending (fate : Option Outcome) : StageScript α → StageEnd α
  | .ends x => x
  | .defers next => fate.elim .drop (resumed next)

/-- What the next stage gets, or the failure of the call. -/
def verdict (x : Replies) (point : Point) (stage : StageScript α) : Except CallError α :=
  match x.panicked point with
  | some p => .error p.failure
  | none => (stage.ending (x.fate point)).verdict

theorem resumed_map (f : α → β) (next : Json → StageEnd α) (o : Outcome) :
    resumed (fun v => (next v).map f) o = (resumed next o).map f := by
  cases o <;> rfl

theorem ending_map (f : α → β) (fate : Option Outcome) (stage : StageScript α) :
    (stage.map f).ending fate = (stage.ending fate).map f := by
  cases stage with
  | ends x => rfl
  | defers next =>
      cases fate with
      | none => rfl
      | some o => exact resumed_map f next o

section Verdicts

variable {x : Replies} {point : Point}

theorem verdict_of_panicked {p : Panic} (h : x.panicked point = some p) (stage : StageScript α) :
    stage.verdict x point = .error p.failure := by
  simp only [verdict, h]

theorem verdict_of_unpanicked (h : x.panicked point = none) (stage : StageScript α) :
    stage.verdict x point = (stage.ending (x.fate point)).verdict := by
  simp only [verdict, h]

/-- Only the end of a stage matters, whether or not it was deferred. -/
theorem verdict_congr
    {stage stage' : StageScript α}
    (h : stage.ending (x.fate point) = stage'.ending (x.fate point)) :
    stage.verdict x point = stage'.verdict x point := by
  simp only [verdict, h]

theorem verdict_map (f : α → β) (stage : StageScript α) :
    (stage.map f).verdict x point = (stage.verdict x point).map f := by
  cases hp : x.panicked point with
  | some p => simp only [verdict_of_panicked hp]; rfl
  | none => rw [verdict_of_unpanicked hp, verdict_of_unpanicked hp, ending_map,
      StageEnd.verdict_map]

end Verdicts

end StageScript

/-! ## Evaluation -/

/-- The scripts of the plugins of a route, by their positions. -/
structure Scripts where
  call : Nat → CallView → Args → StageScript Args
  result : Nat → CallView → Json → StageScript Json

/-- The view of a call that has come to a point. -/
def CallView.reached (v : CallView) (point : Point) : CallView :=
  { v with stage := point.stage }

namespace Scripts

variable (s : Scripts) (x : Replies) (view : CallView)

/-- What the plugin at a position makes of the arguments. -/
def passCall (args : Args) (i : Nat) : Except CallError Args :=
  (s.call i (view.reached (.call i)) args).verdict x (.call i)

/-- What the plugin at a position makes of the result. -/
def passResult (v : Json) (i : Nat) : Outcome :=
  (s.result i (view.reached (.result i)) v).verdict x (.result i)

/-- What comes of a call with `n` plugins: the arguments pass them from the first to the last, then
the handler, and the result passes them from the first to the last. -/
def evaluate (n : Nat) (args : Args) : Outcome := do
  let args ← (List.range n).foldlM (s.passCall x view) args
  let v ← x.handled args
  (List.range n).foldlM (s.passResult x view) v

/-- What comes of a result that has come to the plugin at a position. -/
def evaluateResult (n i : Nat) (v : Json) : Outcome :=
  (List.range' i (n - i)).foldlM (s.passResult x view) v

/-- What comes of arguments that have come to the plugin at a position. -/
def evaluateCall (n i : Nat) (args : Args) : Outcome := do
  let args ← (List.range' i (n - i)).foldlM (s.passCall x view) args
  let v ← x.handled args
  s.evaluateResult x view n 0 v

/-- What comes of something that is handed on at a point. -/
def evaluateFrom (n : Nat) : Point → Payload → Outcome
  | .call i, .args args => s.evaluateCall x view n (i + 1) args
  | .result i, .result v => s.evaluateResult x view n (i + 1) v
  | _, _ => .error Act.dropped

/-- The same scripts, in which no stage is deferred. -/
def prompt : Scripts where
  call i view args := .ends ((s.call i view args).ending (x.fate (.call i)))
  result i view v := .ends ((s.result i view v).ending (x.fate (.result i)))

/-- Deferring stages does not change what comes of a call. -/
theorem evaluate_prompt (n : Nat) (args : Args) :
    (s.prompt x).evaluate x view n args = s.evaluate x view n args :=
  rfl

theorem evaluate_eq (n : Nat) (args : Args) :
    s.evaluate x view n args = s.evaluateCall x view n 0 args := by
  simp only [evaluate, evaluateCall, evaluateResult, List.range_eq_range', Nat.sub_zero]

section Steps

variable {n i : Nat}

theorem evaluateCall_of_lt (hi : i < n) (args : Args) :
    s.evaluateCall x view n i args =
      (((s.call i (view.reached (.call i)) args).map .args).verdict x (.call i)).bind
        (s.evaluateFrom x view n (.call i)) := by
  obtain ⟨m, hm⟩ : ∃ m, n - i = m + 1 := ⟨n - (i + 1), by omega⟩
  have hrest : n - (i + 1) = m := by omega
  rw [StageScript.verdict_map]
  simp only [evaluateCall, hm, List.range'_succ, List.foldlM_cons, passCall]
  cases (s.call i (view.reached (.call i)) args).verdict x (.call i) with
  | error e => rfl
  | ok args => simp only [Except.map, Except.bind, evaluateFrom, evaluateCall, hrest]; rfl

theorem evaluateCall_of_le (hi : n ≤ i) (args : Args) :
    s.evaluateCall x view n i args = (x.handled args).bind (s.evaluateResult x view n 0) := by
  simp only [evaluateCall, Nat.sub_eq_zero_of_le hi, List.range'_zero]
  rfl

theorem evaluateResult_of_lt (hi : i < n) (v : Json) :
    s.evaluateResult x view n i v =
      (((s.result i (view.reached (.result i)) v).map .result).verdict x (.result i)).bind
        (s.evaluateFrom x view n (.result i)) := by
  obtain ⟨m, hm⟩ : ∃ m, n - i = m + 1 := ⟨n - (i + 1), by omega⟩
  have hrest : n - (i + 1) = m := by omega
  rw [StageScript.verdict_map]
  simp only [evaluateResult, hm, List.range'_succ, List.foldlM_cons, passResult]
  cases (s.result i (view.reached (.result i)) v).verdict x (.result i) with
  | error e => rfl
  | ok v => simp only [Except.map, Except.bind, evaluateFrom, evaluateResult, hrest]; rfl

theorem evaluateResult_of_le (hi : n ≤ i) (v : Json) : s.evaluateResult x view n i v = .ok v := by
  simp only [evaluateResult, Nat.sub_eq_zero_of_le hi, List.range'_zero]
  rfl

end Steps

end Scripts

/-! ## Code that follows a script -/

namespace Code

/-- On every path the code comes to a piece of code that `ends` holds of, unless it panics before.
Until then it does not use its continuation. -/
inductive Reaches (ends : Code .nothing → Prop) : Code .nothing → Prop where
  | here {code : Code .nothing} (h : ends code) : Reaches ends code
  | panic (p : Panic) : Reaches ends (.panic p)
  | log (r : Remark) {next : Code .nothing} (h : Reaches ends next) : Reaches ends (.log r next)
  | create {next : TaskId → Code .nothing} (h : ∀ t, Reaches ends (next t)) :
      Reaches ends (.create next)
  | settle (t : TaskId) (o : Outcome) {next : Bool → Code .nothing}
      (h : ∀ settled, Reaches ends (next settled)) : Reaches ends (.settle t o next)
  | attach (t : TaskId) (f : Outcome → Code .nothing) {next : Code .nothing}
      (h : Reaches ends next) :
      Reaches ends (.attach t f next)
  | transform (t : TaskId) (f : Outcome → Code .outcome) {next : TaskId → Code .nothing}
      (h : ∀ u, Reaches ends (next u)) : Reaches ends (.transform t f next)
  | chain (t : TaskId) (f : Outcome → Code .task) {next : TaskId → Code .nothing}
      (h : ∀ u, Reaches ends (next u)) : Reaches ends (.chain t f next)
  | poll (t : TaskId) (waker : String) {next : Option Outcome → Code .nothing}
      (h : ∀ o, Reaches ends (next o)) : Reaches ends (.poll t waker next)
  | state (t : TaskId) {next : TaskState → Code .nothing} (h : ∀ s, Reaches ends (next s)) :
      Reaches ends (.state t next)
  | abandon (t : TaskId) {next : Code .nothing} (h : Reaches ends next) :
      Reaches ends (.abandon t next)
  | inspect {next : Option Held → Code .nothing} (h : ∀ held, Reaches ends (next held)) :
      Reaches ends (.inspect next)
  | register (name : String) (t : TaskId) {next : Code .nothing} (h : Reaches ends next) :
      Reaches ends (.register name t next)
  | find (name : String) {next : Option TaskId → Code .nothing} (h : ∀ t?, Reaches ends (next t?)) :
      Reaches ends (.find name next)
  | unregister (name : String) {next : Code .nothing} (h : Reaches ends next) :
      Reaches ends (.unregister name next)
  | tick {next : Nat → Code .nothing} (h : ∀ n, Reaches ends (next n)) : Reaches ends (.tick next)

/-- The code at once ends the stage at a point in this way.  Code that ends with the continuation
drops it. -/
inductive EndsBy (point : Point) : StageEnd Payload → Code .nothing → Prop where
  | proceed {payload : Payload} (rest : Code .nothing)
      (htakes : ∀ p : Pipeline, Continuation.takes ⟨p, point⟩ payload = true) :
      EndsBy point (.proceed payload) (.proceed payload rest)
  | abort (e : CallError) (rest : Code .nothing) : EndsBy point (.abort e) (.abort e rest)
  | release (rest : Code .nothing) : EndsBy point .drop (.release rest)
  | skip : EndsBy point .drop .skip

/-- The code ends the stage at a point in this way. -/
def Ends (point : Point) (x : StageEnd Payload) (code : Code .nothing) : Prop :=
  code.Reaches (EndsBy point x)

/-- The code at once does what the script says. -/
inductive PlaysBy (point : Point) : StageScript Payload → Code .nothing → Prop where
  | ends {x : StageEnd Payload} {code : Code .nothing} (h : EndsBy point x code) :
      PlaysBy point (.ends x) code
  | defers {next : Json → StageEnd Payload} (t : TaskId) {f : Outcome → Code .nothing}
      (rest : Code .nothing) (hresumed : ∀ o, (f o).Ends point (StageScript.resumed next o)) :
      PlaysBy point (.defers next) (.entrust t f rest)

/-- The code does what the script says, unless it panics before. -/
def Plays (point : Point) (stage : StageScript Payload) (code : Code .nothing) : Prop :=
  code.Reaches (PlaysBy point stage)

end Code

/-- The plugins of the route do what their scripts say. -/
structure Scripts.Fits (s : Scripts) (route : Route) : Prop where
  call : ∀ i (a : Attachment), route.attachments[i]? = some a → ∀ view args,
    (a.plugin.modifyCall a.binding view args).Plays (.call i) ((s.call i view args).map .args)
  result : ∀ i (a : Attachment), route.attachments[i]? = some a → ∀ view v,
    (a.plugin.modifyResult a.binding view v).Plays (.result i) ((s.result i view v).map .result)

end RouteDispatch
