import RouteDispatch.Proofs.Session.Delivery
import RouteDispatch.Proofs.Task.Expression

/-!
# Acts that come to an end

Jobs may be nested to a depth only.  An act comes to a value and a world if it does so whenever the
depth is large enough.  The rules below follow the text of the acts, so that no depth is ever
computed.
-/

namespace RouteDispatch

/-- What a resolution leaves that finds the consumer. -/
def Consumer.settledCell {η : Type} (o : Outcome) : Consumer η → Cell η
  | .none => .cached o false
  | .waker _ => .cached o true
  | .handler _ => .taken o

theorem Cell.settle_waiting {η : Type} (o : Outcome) (c : Consumer η) :
    Cell.settle o (.waiting c) = some (c.settledCell o, c.follow) := by
  cases c <;> rfl

theorem Consumer.outcome?_settledCell {η : Type} (o : Outcome) (c : Consumer η) :
    (c.settledCell o).outcome? = some o := by
  cases c <;> rfl

/-- The panic with which a function answers. -/
def Answer.panic? : Answer → Option SoftPanic
  | .error p => some p
  | .ok _ => none

/-- A world in which a panic is captured, if there is one. -/
def World.captured (w : World) : Option SoftPanic → World
  | some p => { w with log := w.log ++ [.trace (.panicCaptured p.1.message)] }
  | none => w

/-- A world in which foreign code is about to resolve a task. -/
def World.marked (w : World) (t : TaskId) : World :=
  if w.awaits t then { w with log := w.log ++ [.mark (.resolved t)] } else w

@[simp]
theorem World.marked_cells (w : World) (t : TaskId) : (w.marked t).cells = w.cells := by
  unfold marked
  split <;> rfl

@[simp]
theorem World.captured_cells (w : World) (p : Option SoftPanic) :
    (w.captured p).cells = w.cells := by
  cases p <;> rfl

namespace Act

variable {α β : Type} {d : Dispatcher} {w w' w'' : World}

theorem exec_guarded_panic
    (perform : Performer) (own : Option Continuation) (p : SoftPanic) {y : Yield} :
    (guarded (run perform own (.panic p.1 : Code y))).exec w =
      (.ok (.error p.1.failure), w.captured (some p)) := by
  obtain ⟨p, hp⟩ := p
  cases p with
  | alreadyResolved => exact absurd rfl hp
  | text message => rfl
  | other => rfl

/-- With enough depth the act, run from `w`, gives `v` and leaves `w'`. -/
def Comes (d : Dispatcher) (a : Performer → Act α) (w : World) (v : α) (w' : World) : Prop :=
  ∃ enough, ∀ depth, enough ≤ depth → (a (perform d depth)).exec w = (.ok v, w')

namespace Comes

theorem of_exec {a : Performer → Act α} {v : α}
    (h : ∀ perform, (a perform).exec w = (.ok v, w')) : Comes d a w v w' :=
  ⟨0, fun _ _ => h _⟩

theorem of_exec_eq
    {a b : Performer → Act α} {v : α} {w₀ : World} (hb : Comes d b w v w')
    (h : ∀ perform, (a perform).exec w₀ = (b perform).exec w) : Comes d a w₀ v w' := by
  obtain ⟨enough, hb⟩ := hb
  exact ⟨enough, fun depth hdepth => (h _).trans (hb depth hdepth)⟩

theorem bind
    {a : Performer → Act α} {f : Performer → α → Act β} {v : α} {u : β} (ha : Comes d a w v w')
    (hf : Comes d (fun perform => f perform v) w' u w'') :
    Comes d (fun perform => a perform >>= f perform) w u w'' := by
  obtain ⟨enough, ha⟩ := ha
  obtain ⟨enough', hf⟩ := hf
  refine ⟨max enough enough', fun depth hdepth => ?_⟩
  have hcome := ha depth (Nat.le_trans (Nat.le_max_left _ _) hdepth)
  rw [exec_bind, hcome]
  exact hf depth (Nat.le_trans (Nat.le_max_right _ _) hdepth)

theorem pure (v : α) (w : World) : Comes d (fun _ => Pure.pure v) w v w :=
  of_exec fun _ => rfl

/-- A job needs one level more than its work does. -/
theorem complete
    {h : Completion} {o : Outcome}
    (hwork : Comes d (fun perform => Act.complete perform h o) w () w') :
    Comes d (fun perform => perform (.complete h o)) w () w' := by
  obtain ⟨enough, hwork⟩ := hwork
  refine ⟨enough + 1, fun depth hdepth => ?_⟩
  obtain ⟨depth, rfl⟩ : ∃ n, depth = n + 1 := ⟨depth - 1, by omega⟩
  exact hwork depth (Nat.le_of_succ_le_succ hdepth)

theorem guarded {a : Performer → Act α} {v : α} (ha : Comes d a w v w') :
    Comes d (fun perform => Act.guarded (a perform)) w (.ok v) w' := by
  obtain ⟨enough, ha⟩ := ha
  refine ⟨enough, fun depth hdepth => ?_⟩
  unfold Act.guarded
  rw [exec_tryCatch, exec_bind, ha depth hdepth]
  rfl

/-! ## Tasks -/

section Tasks

variable {t : TaskId} {o : Outcome}

/-- A resolution serves the consumer that it finds. -/
theorem settle
    {c : Consumer Completion} (h : w.cells[t]? = some (.waiting c))
    (hfollow : Comes d (fun perform => c.follow.act perform o)
      (w.turn t (.settled o c.follow) (c.settledCell o)) () w') :
    Comes d (fun perform => Act.settle perform t o) w true w' := by
  have hserved : Comes d (fun perform => do c.follow.act perform o; Pure.pure true)
      (w.turn t (.settled o c.follow) (c.settledCell o)) true w' :=
    hfollow.bind (.pure true w')
  exact hserved.of_exec_eq fun perform => exec_settle h (Cell.settle_waiting o c) perform

theorem settle_again {cell : Cell Completion} (h : w.cells[t]? = some cell)
    (hresolved : cell.outcome? ≠ none) :
    Comes d (fun perform => Act.settle perform t o) w false w :=
  of_exec fun perform => exec_settle_again h hresolved perform o

theorem settleMarked
    {b : Bool} (h : Comes d (fun perform => Act.settle perform t o) (w.marked t) b w') :
    Comes d (fun perform => Act.settleMarked perform t o) w b w' := by
  refine h.of_exec_eq fun perform => ?_
  unfold Act.settleMarked World.marked
  rw [exec_get_bind]
  by_cases hwaits : w.awaits t = true
  · rw [if_pos hwaits, if_pos hwaits]
    rfl
  · rw [if_neg hwaits, if_neg hwaits]

theorem resolve (h : Comes d (fun perform => Act.settle perform t o) w true w') :
    Comes d (fun perform => Act.resolve perform t o) w () w' :=
  h.bind (.pure () w')

theorem attach_open {k : Completion} (h : w.cells[t]? = some (.waiting .none)) :
    Comes d (fun perform => attach perform t k) w ()
      (w.turn t (.attached k none) (.waiting (.handler k))) :=
  of_exec fun perform => exec_attach h rfl perform

theorem attach_cached
    {k : Completion} (h : w.cells[t]? = some (.cached o false))
    (hk : Comes d (fun perform => perform (.complete k o))
      (w.turn t (.attached k (some o)) (.taken o)) () w') :
    Comes d (fun perform => attach perform t k) w () w' :=
  hk.of_exec_eq fun perform => exec_attach h rfl perform

/-- A derived task is a new one, and its handler is attached. -/
theorem derive
    {handler : TaskId → Completion}
    (h : Comes d (fun perform => attach perform t (handler w.cells.length))
      { w with cells := w.cells ++ [.fresh] } () w') :
    Comes d (fun perform => Act.derive perform t handler) w w.cells.length w' := by
  have hnew : Comes d (fun _ => newTask .fresh) w w.cells.length
      { w with cells := w.cells ++ [.fresh] } :=
    of_exec fun _ => rfl
  exact hnew.bind (h.bind (.pure _ w'))

/-- What a function answers goes to the derived task; a panic is captured. -/
theorem complete_transform
    {f : Outcome → Answer} {into : TaskId}
    (h : Comes d (fun perform => Act.settle perform into (f o).outcome)
      (w.captured (f o).panic?) true
      w') :
    Comes d (fun perform => Act.complete perform (.transform (fun o => (f o).code) into) o) w
      () w' := by
  refine h.resolve.of_exec_eq fun perform => ?_
  have hanswer : (Act.guarded (run perform none (f o).code)).exec w =
      (.ok (match f o with
        | .ok r => .ok r
        | .error p => .error p.1.failure), w.captured (f o).panic?) := by
    cases f o with
    | ok r => rfl
    | error p => exact exec_guarded_panic perform none p
  unfold Act.complete
  rw [exec_bind, hanswer]
  cases f o <;> rfl

/-- A continuation panics, and the derived task fails. -/
theorem complete_chain_panic
    {f : Outcome → Code .task} {into : TaskId} {p : SoftPanic} (hf : f o = .panic p.1)
    (h : Comes d (fun perform => Act.settle perform into (.error p.1.failure))
      (w.captured (some p)) true
      w') :
    Comes d (fun perform => Act.complete perform (.chain f into) o) w () w' := by
  refine h.resolve.of_exec_eq fun perform => ?_
  unfold Act.complete
  rw [exec_bind, hf, exec_guarded_panic]

/-- A continuation gives a task, which the derived task follows. -/
theorem complete_chain
    {f : Outcome → Code .task} {into u : TaskId} {w₁ : World}
    (hf : Comes d (fun perform => run perform none (f o)) w u w₁)
    (h : Comes d (fun perform => attach perform u (.relay into)) w₁ () w') :
    Comes d (fun perform => Act.complete perform (.chain f into) o) w () w' :=
  hf.guarded.bind (f := fun perform (result : Except CallError TaskId) => match result with
    | .ok t => attach perform t (.relay into)
    | .error e => Act.resolve perform into (.error e)) h

theorem complete_relay
    {into : TaskId} (h : Comes d (fun perform => Act.settle perform into o) w true w') :
    Comes d (fun perform => Act.complete perform (.relay into) o) w () w' :=
  h.resolve

end Tasks

/-! ## Foreign code -/

section Run

variable {own : Option Continuation} {y z : Yield} {t : TaskId} {v : z.Value}

theorem run_andThen
    {c : Code y} {k : y.Value → Code z} {u : y.Value}
    (hc : Comes d (fun perform => run perform own c) w u w')
    (hk : Comes d (fun perform => run perform own (k u)) w' v w'') :
    Comes d (fun perform => run perform own (c.andThen k)) w v w'' :=
  (hc.bind hk).of_exec_eq fun perform => by rw [Act.run_andThen]

theorem run_create
    {next : TaskId → Code z}
    (hnext : Comes d (fun perform => run perform own (next w.cells.length))
      { w with cells := w.cells ++ [.fresh] } v w') :
    Comes d (fun perform => run perform own (.create next)) w v w' :=
  hnext.of_exec_eq fun _ => rfl

theorem run_settle
    {o : Outcome} {next : Bool → Code z} {b : Bool}
    (h : Comes d (fun perform => Act.settleMarked perform t o) w b w')
    (hnext : Comes d (fun perform => run perform own (next b)) w' v w'') :
    Comes d (fun perform => run perform own (.settle t o next)) w v w'' :=
  h.bind (f := fun perform b => run perform own (next b)) hnext

theorem run_attach
    {k : Outcome → Code .nothing} {next : Code z}
    (h : Comes d (fun perform => attach perform t (.code k)) w () w')
    (hnext : Comes d (fun perform => run perform own next) w' v w'') :
    Comes d (fun perform => run perform own (.attach t k next)) w v w'' :=
  h.bind (f := fun perform _ => run perform own next) hnext

theorem run_transform
    {f : Outcome → Code .outcome} {next : TaskId → Code z} {u : TaskId}
    (h : Comes d (fun perform => Act.derive perform t (.transform f)) w u w')
    (hnext : Comes d (fun perform => run perform own (next u)) w' v w'') :
    Comes d (fun perform => run perform own (.transform t f next)) w v w'' :=
  h.bind (f := fun perform u => run perform own (next u)) hnext

theorem run_chain
    {f : Outcome → Code .task} {next : TaskId → Code z} {u : TaskId}
    (h : Comes d (fun perform => Act.derive perform t (.chain f)) w u w')
    (hnext : Comes d (fun perform => run perform own (next u)) w' v w'') :
    Comes d (fun perform => run perform own (.chain t f next)) w v w'' :=
  h.bind (f := fun perform u => run perform own (next u)) hnext

end Run

end Comes
end Act
end RouteDispatch
