import RouteDispatch.Task.Code

/-!
# Expressions of tasks

Tasks are derived from tasks: one resolves with what a function makes of the outcome of another, or
as the task does that a continuation gives for it.  An expression says how a task is derived from a
leaf, which somebody else resolves.  `Expr.code` builds it, and `Expr.value` is what the task comes
to, given what the leaves were resolved with, in whatever order all this happens.

Each combinator takes one task, so an expression has one leaf, and its continuations bring others.
While an expression is built, leaves may be resolved; `meanwhile` says between which steps.
-/

namespace RouteDispatch

/-- A panic that a guard captures. -/
abbrev SoftPanic := { p : Panic // p ≠ .alreadyResolved }

/-- What a function makes of an outcome: it panics, or it gives an outcome. -/
abbrev Answer := Except SoftPanic Outcome

namespace Answer

def code : Answer → Code .outcome
  | .error p => .panic p.1
  | .ok o => .done o

/-- The outcome that a derived task is resolved with. -/
def outcome : Answer → Outcome
  | .error p => .error p.1.failure
  | .ok o => o

end Answer

/-- A task and how it is derived. -/
inductive Expr where
  /-- A task that somebody else resolves. -/
  | leaf (t : TaskId)
  /-- A task that is resolved when it is made. -/
  | resolved (o : Outcome)
  | mapMaybe (e : Expr) (f : Outcome → Answer)
  /-- The continuation panics where `panics` says so, and gives an expression elsewhere. -/
  | thenMaybe (e : Expr) (panics : Outcome → Option SoftPanic) (next : Outcome → Expr)
  /-- Once the expression is built, the leaf is resolved, unless it is resolved already. -/
  | meanwhile (e : Expr) (t : TaskId) (o : Outcome)

namespace Expr

/-! ## Building -/

/-- Builds the expression and gives its task. -/
def code : Expr → Code .task
  | .leaf t => .done t
  | .resolved o => .resolved o fun t => .done t
  | .mapMaybe e f => e.code.andThen fun t => .transform t (fun o => (f o).code) fun u => .done u
  | .thenMaybe e panics next => e.code.andThen fun t =>
    .chain t (fun o => match panics o with
      | some p => .panic p.1
      | none => (next o).code) fun u => .done u
  | .meanwhile e t o => e.code.andThen fun u => .settle t o fun _ => .done u

/-- Computes with the value; errors pass untouched. -/
def map (e : Expr) (f : Json → Answer) : Expr :=
  e.mapMaybe fun o => match o with
    | .ok v => f v
    | .error x => .ok (.error x)

/-- Goes on with the value; errors skip the continuation. -/
def andThen (e : Expr) (panics : Json → Option SoftPanic) (next : Json → Expr) : Expr :=
  e.thenMaybe
    (fun o => match o with
      | .ok v => panics v
      | .error _ => none)
    fun o => match o with
      | .ok v => next v
      | .error x => .resolved (.error x)

theorem code_map (e : Expr) (f : Json → Answer) :
    (e.map f).code = e.code.andThen fun t => .transformValue t (fun v => (f v).code)
      fun u => .done u := by
  have hcode : (fun o : Outcome => (match o with
      | .ok v => f v
      | .error x => .ok (.error x) : Answer).code) = fun o => match o with
      | .ok v => (f v).code
      | .error x => .done (.error x) := by
    funext o
    cases o <;> rfl
  exact congrArg (fun g : Outcome → Code .outcome =>
    e.code.andThen fun t => (.transform t g fun u => .done u : Code .task)) hcode

theorem code_andThen (e : Expr) (panics : Json → Option SoftPanic) (next : Json → Expr) :
    (e.andThen panics next).code = e.code.andThen fun t =>
      .chainValue t (fun v => match panics v with
        | some p => .panic p.1
        | none => (next v).code) fun u => .done u := by
  have hcode : (fun o : Outcome => (match (match o with
      | .ok v => panics v
      | .error _ => none : Option SoftPanic) with
      | some p => .panic p.1
      | none => (match o with
        | .ok v => next v
        | .error x => .resolved (.error x) : Expr).code : Code .task)) = fun o => match o with
      | .ok v => match panics v with
        | some p => .panic p.1
        | none => (next v).code
      | .error x => .resolved (.error x) fun u => .done u := by
    funext o
    cases o <;> rfl
  exact congrArg (fun g : Outcome → Code .task =>
    e.code.andThen fun t => (.chain t g fun u => .done u : Code .task)) hcode

/-! ## Evaluation -/

/-- What the task of the expression is resolved with, once the leaves it needs are resolved. -/
def value (ρ : TaskId → Option Outcome) : Expr → Option Outcome
  | .leaf t => ρ t
  | .resolved o => some o
  | .mapMaybe e f => (value ρ e).map fun o => (f o).outcome
  | .thenMaybe e panics next => (value ρ e).bind fun o =>
    match panics o with
    | some p => some (.error p.1.failure)
    | none => value ρ (next o)
  | .meanwhile e _ _ => value ρ e

section Value

variable {ρ : TaskId → Option Outcome}

theorem value_map (e : Expr) (f : Json → Answer) :
    value ρ (e.map f) = (value ρ e).map fun o => match o with
      | .ok v => (f v).outcome
      | .error x => .error x := by
  simp only [map, value]
  congr 1
  funext o
  cases o <;> rfl

theorem value_andThen (e : Expr) (panics : Json → Option SoftPanic) (next : Json → Expr) :
    value ρ (e.andThen panics next) = (value ρ e).bind fun o => match o with
      | .ok v => match panics v with
        | some p => some (.error p.1.failure)
        | none => value ρ (next v)
      | .error x => some (.error x) := by
  simp only [andThen, value]
  congr 1
  funext o
  cases o <;> rfl

/-- Leaves that are resolved later leave a value what it is. -/
theorem value_mono {ρ' : TaskId → Option Outcome} (hρ : ∀ t o, ρ t = some o → ρ' t = some o)
    {e : Expr} {v : Outcome} (h : e.value ρ = some v) : e.value ρ' = some v := by
  induction e generalizing v with
  | leaf t => exact hρ t v h
  | resolved o => exact h
  | mapMaybe e f ih =>
      obtain ⟨o, ho, hv⟩ := Option.map_eq_some_iff.mp h
      exact Option.map_eq_some_iff.mpr ⟨o, ih ho, hv⟩
  | thenMaybe e panics next ih ihnext =>
      obtain ⟨o, ho, hv⟩ := Option.bind_eq_some_iff.mp h
      refine Option.bind_eq_some_iff.mpr ⟨o, ih ho, ?_⟩
      cases hpanics : panics o with
      | some p => simpa [hpanics] using hv
      | none => exact ihnext o (by simpa [hpanics] using hv)
  | meanwhile e t o ih => exact ih h

end Value

/-! ## Leaves -/

/-- The leaf is one that the evaluation may take the outcome of. -/
def Mentions (t : TaskId) : Expr → Prop
  | .leaf u => t = u
  | .resolved _ => False
  | .mapMaybe e _ => e.Mentions t
  | .thenMaybe e _ next => e.Mentions t ∨ ∃ o, (next o).Mentions t
  | .meanwhile e _ _ => e.Mentions t

/-- The leaves are tasks of `leaves`, no evaluation takes the outcome of one twice, and what leaves
are resolved with meanwhile is `sent`. -/
def IsLinear (leaves : TaskId → Prop) (sent : TaskId → Outcome → Prop) : Expr → Prop
  | .leaf t => leaves t
  | .resolved _ => True
  | .mapMaybe e _ => e.IsLinear leaves sent
  | .thenMaybe e _ next => e.IsLinear leaves sent ∧
    ∀ o, (next o).IsLinear leaves sent ∧ ∀ t, (next o).Mentions t → ¬ e.Mentions t
  | .meanwhile e t o => e.IsLinear leaves sent ∧ leaves t ∧ sent t o

theorem IsLinear.leaves_of_mentions
    {leaves : TaskId → Prop} {sent : TaskId → Outcome → Prop} {e : Expr}
    (h : e.IsLinear leaves sent) {t : TaskId} (ht : e.Mentions t) : leaves t := by
  induction e with
  | leaf u => exact ht ▸ h
  | resolved o => exact ht.elim
  | mapMaybe e f ih => exact ih h ht
  | thenMaybe e panics next ih ihnext =>
      rcases ht with ht | ⟨o, ht⟩
      · exact ih h.1 ht
      · exact ihnext o (h.2 o).1 ht
  | meanwhile e u o ih => exact ih h.1 ht

end Expr
end RouteDispatch
