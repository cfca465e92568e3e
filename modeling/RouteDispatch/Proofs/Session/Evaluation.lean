import RouteDispatch.Proofs.Session.Convergence

/-!
# Evaluation of expressions

An expression that has been built has its value, or it waits for one leaf: the leaf and the tasks
that are derived from it one after the other each have the completion handler that goes on to the
next (`Waits`).  To resolve that leaf is to hand its outcome from task to task, until the task of
the expression is resolved, or until a continuation gives another expression that waits.
-/

namespace RouteDispatch

open Act

/-! ## Tasks without a consumer -/

/-- Nobody has asked for the outcome of the task. -/
def Unconsumed (cells : List (Cell Completion)) (t : TaskId) : Prop :=
  cells[t]? = some (.waiting .none) ∨ ∃ o, cells[t]? = some (.cached o false)

/-- The task has been resolved, or its resolution sets nothing off. -/
def IsIdle (cells : List (Cell Completion)) (t : TaskId) : Prop :=
  cells[t]? = some (.waiting .none) ∨ outcomeOf cells t ≠ none

def Entry.remark? : Entry → Option Remark
  | .remark r => some r
  | _ => none

/-- What foreign code has left in the log. -/
def World.remarks (w : World) : List Remark :=
  w.log.filterMap Entry.remark?

theorem outcomeOf_of_cell {cells : List (Cell Completion)} {t : TaskId} {cell : Cell Completion}
    (h : cells[t]? = some cell) : outcomeOf cells t = cell.outcome? := by
  rw [outcomeOf, h]
  rfl

theorem lt_length_of_isIdle {cells : List (Cell Completion)} {t : TaskId} (h : IsIdle cells t) :
    t < cells.length := by
  rcases h with h | h
  · exact (List.getElem?_eq_some_iff.mp h).1
  · by_contra hlt
    rw [outcomeOf, List.getElem?_eq_none (Nat.not_lt.mp hlt)] at h
    exact h rfl

theorem Unconsumed.isIdle {cells : List (Cell Completion)} {t : TaskId} (h : Unconsumed cells t) :
    IsIdle cells t := by
  rcases h with h | ⟨o, h⟩
  · exact .inl h
  · exact .inr (by simp [outcomeOf_of_cell h, Cell.outcome?])

namespace Expr

/-- The continuation as foreign code. -/
def continuation (panics : Outcome → Option SoftPanic) (next : Outcome → Expr) (o : Outcome) :
    Code .task :=
  match panics o with
  | some p => .panic p.1
  | none => (next o).code

end Expr

/-! ## Expressions that wait -/

variable (leaves : TaskId → Prop)

/-- The expression waits for a leaf: the tasks between the leaf and the one of the expression have
the completion handlers that derive each from the one before, and the last one has the consumer. -/
inductive Waits (cells : List (Cell Completion)) :
    Expr → (leaf last : TaskId) → (inner : List TaskId) → Consumer Completion → Prop where
  | leaf {t : TaskId} {c : Consumer Completion} (hleaf : leaves t)
      (hcell : cells[t]? = some (.waiting c)) : Waits cells (.leaf t) t t [] c
  | mapMaybe {e : Expr} {f : Outcome → Answer} {t u v : TaskId} {inner : List TaskId}
      {c : Consumer Completion}
      (h : Waits cells e t v inner (.handler (.transform (fun o => (f o).code) u)))
      (hcell : cells[u]? = some (.waiting c)) (hmade : ¬ leaves u) (hnew : u ∉ v :: inner) :
      Waits cells (.mapMaybe e f) t u (v :: inner) c
  | thenMaybe {e : Expr} {panics : Outcome → Option SoftPanic} {next : Outcome → Expr}
      {t u v : TaskId} {inner : List TaskId} {c : Consumer Completion}
      (h : Waits cells e t v inner (.handler (.chain (Expr.continuation panics next) u)))
      (hcell : cells[u]? = some (.waiting c)) (hmade : ¬ leaves u) (hnew : u ∉ v :: inner)
      (hnext : ∀ o x, (next o).Mentions x → leaves x ∧ Unconsumed cells x) :
      Waits cells (.thenMaybe e panics next) t u (v :: inner) c
  | chained {e : Expr} {panics : Outcome → Option SoftPanic} {next : Outcome → Expr} {o : Outcome}
      {t u v : TaskId} {inner : List TaskId} {c : Consumer Completion}
      (hvalue : e.value (outcomeOf cells) = some o) (hpanics : panics o = none)
      (h : Waits cells (next o) t v inner (.handler (.relay u)))
      (hcell : cells[u]? = some (.waiting c)) (hmade : ¬ leaves u) (hnew : u ∉ v :: inner) :
      Waits cells (.thenMaybe e panics next) t u (v :: inner) c
  | meanwhile {e : Expr} {t u x : TaskId} {o : Outcome} {inner : List TaskId}
      {c : Consumer Completion} (h : Waits cells e t u inner c) :
      Waits cells (.meanwhile e x o) t u inner c

namespace Waits

variable {leaves} {cells cells' : List (Cell Completion)} {e : Expr} {t u : TaskId}
  {inner : List TaskId} {c c' : Consumer Completion}

theorem cell (h : Waits leaves cells e t u inner c) : cells[u]? = some (.waiting c) := by
  induction h with
  | leaf _ hcell => exact hcell
  | mapMaybe _ hcell => exact hcell
  | thenMaybe _ hcell => exact hcell
  | chained _ _ _ hcell => exact hcell
  | meanwhile _ ih => exact ih

theorem lt_length (h : Waits leaves cells e t u inner c) : ∀ x ∈ u :: inner, x < cells.length := by
  have hlast : ∀ {u : TaskId} {c : Consumer Completion}, cells[u]? = some (.waiting c) →
      u < cells.length := fun hcell => (List.getElem?_eq_some_iff.mp hcell).1
  induction h with
  | leaf _ hcell => simpa using hlast hcell
  | mapMaybe _ hcell _ _ ih => exact List.forall_mem_cons.mpr ⟨hlast hcell, ih⟩
  | thenMaybe _ hcell _ _ _ ih => exact List.forall_mem_cons.mpr ⟨hlast hcell, ih⟩
  | chained _ _ _ hcell _ _ ih => exact List.forall_mem_cons.mpr ⟨hlast hcell, ih⟩
  | meanwhile _ ih => exact ih

/-- An expression that waits has no value yet. -/
theorem value_eq_none (h : Waits leaves cells e t u inner c) :
    e.value (outcomeOf cells) = none := by
  induction h with
  | leaf _ hcell => exact outcomeOf_of_cell hcell
  | mapMaybe _ _ _ _ ih => simp [Expr.value, ih]
  | thenMaybe _ _ _ _ _ ih => simp [Expr.value, ih]
  | chained hvalue hpanics _ _ _ _ ih => simp [Expr.value, hvalue, hpanics, ih]
  | meanwhile _ ih => exact ih

/-- An expression goes on waiting when other tasks change. -/
theorem frame
    (h : Waits leaves cells e t u inner c) (hcells : ∀ x ∈ u :: inner, cells'[x]? = cells[x]?)
    (houtcome : ∀ x o, outcomeOf cells x = some o → outcomeOf cells' x = some o)
    (hunconsumed : ∀ x, leaves x → Unconsumed cells x → Unconsumed cells' x) :
    Waits leaves cells' e t u inner c := by
  induction h with
  | leaf hleaf hcell => exact .leaf hleaf ((hcells _ (by simp)).trans hcell)
  | mapMaybe _ hcell hmade hnew ih =>
      have ⟨hlast, hinner⟩ := List.forall_mem_cons.mp hcells
      exact .mapMaybe (ih hinner) (hlast.trans hcell) hmade hnew
  | thenMaybe _ hcell hmade hnew hnext ih =>
      have ⟨hlast, hinner⟩ := List.forall_mem_cons.mp hcells
      refine .thenMaybe (ih hinner) (hlast.trans hcell) hmade hnew fun o x hx => ?_
      obtain ⟨hleaf, hx⟩ := hnext o x hx
      exact ⟨hleaf, hunconsumed x hleaf hx⟩
  | chained hvalue hpanics _ hcell hmade hnew ih =>
      have ⟨hlast, hinner⟩ := List.forall_mem_cons.mp hcells
      exact .chained (Expr.value_mono houtcome hvalue) hpanics (ih hinner) (hlast.trans hcell) hmade
        hnew
  | meanwhile _ ih => exact .meanwhile (ih hcells)

/-- The task of the expression gets another consumer. -/
theorem consume
    (h : Waits leaves cells e t u inner c) (c' : Consumer Completion) :
    Waits leaves (cells.set u (.waiting c')) e t u inner c' := by
  have hset : ∀ {u : TaskId}, u < cells.length → (cells.set u (.waiting c'))[u]? =
      some (.waiting c') := fun hlt => List.getElem?_set_self hlt
  have hothers : ∀ {u x : TaskId}, u ≠ x → (cells.set u (.waiting c'))[x]? = cells[x]? :=
    fun hne => List.getElem?_set_ne hne
  have hinner : ∀ {u v : TaskId} {inner : List TaskId}, u ∉ v :: inner →
      ∀ x ∈ v :: inner, (cells.set u (.waiting c'))[x]? = cells[x]? :=
    fun hnew x hx => hothers fun hsame => hnew (hsame ▸ hx)
  have houtcome : ∀ {u : TaskId} {c : Consumer Completion}, cells[u]? = some (.waiting c) →
      ∀ x o, outcomeOf cells x = some o → outcomeOf (cells.set u (.waiting c')) x = some o := by
    intro u c hcell x o ho
    by_cases hsame : x = u
    · rw [hsame, outcomeOf_of_cell hcell] at ho
      contradiction
    · rwa [outcomeOf_set_ne hsame]
  have hunconsumed : ∀ {u : TaskId}, ¬ leaves u → ∀ x, leaves x → Unconsumed cells x →
      Unconsumed (cells.set u (.waiting c')) x := by
    intro u hmade x hleaf hx
    have hne : u ≠ x := fun hsame => hmade (hsame ▸ hleaf)
    simpa [Unconsumed, hothers hne] using hx
  induction h with
  | leaf hleaf hcell => exact .leaf hleaf (hset (List.getElem?_eq_some_iff.mp hcell).1)
  | mapMaybe h hcell hmade hnew _ =>
      exact .mapMaybe (h.frame (hinner hnew) (houtcome hcell) (hunconsumed hmade))
        (hset (List.getElem?_eq_some_iff.mp hcell).1) hmade hnew
  | thenMaybe h hcell hmade hnew hnext _ =>
      refine .thenMaybe (h.frame (hinner hnew) (houtcome hcell) (hunconsumed hmade))
        (hset (List.getElem?_eq_some_iff.mp hcell).1) hmade hnew fun o x hx => ?_
      obtain ⟨hleaf, hx⟩ := hnext o x hx
      exact ⟨hleaf, hunconsumed hmade x hleaf hx⟩
  | chained hvalue hpanics h hcell hmade hnew _ =>
      exact .chained (Expr.value_mono (houtcome hcell) hvalue) hpanics
        (h.frame (hinner hnew) (houtcome hcell) (hunconsumed hmade))
        (hset (List.getElem?_eq_some_iff.mp hcell).1) hmade hnew
  | meanwhile _ ih => exact .meanwhile ih

/-- The task of an expression is a leaf only if the expression is that leaf. -/
theorem last_eq_leaf (h : Waits leaves cells e t u inner c) (hleaf : leaves u) : u = t := by
  induction h with
  | leaf => rfl
  | mapMaybe _ _ hmade => exact absurd hleaf hmade
  | thenMaybe _ _ hmade => exact absurd hleaf hmade
  | chained _ _ _ _ hmade => exact absurd hleaf hmade
  | meanwhile _ ih => exact ih hleaf

/-- No other leaf is among the tasks of an expression that waits. -/
theorem not_mem (h : Waits leaves cells e t u inner c) {x : TaskId} (hleaf : leaves x)
    (hne : x ≠ t) :
    x ∉ u :: inner := by
  have hlast : ∀ {u : TaskId} {inner : List TaskId}, ¬ leaves u → x ∉ inner → x ∉ u :: inner := by
    intro u inner hmade hinner hmem
    rcases List.mem_cons.mp hmem with rfl | hmem
    · exact hmade hleaf
    · exact hinner hmem
  induction h with
  | leaf => simpa using hne
  | mapMaybe _ _ hmade _ ih => exact hlast hmade (ih hne)
  | thenMaybe _ _ hmade _ _ ih => exact hlast hmade (ih hne)
  | chained _ _ _ _ hmade _ ih => exact hlast hmade (ih hne)
  | meanwhile _ ih => exact ih hne

end Waits

/-! ## What evaluation does to a world -/

/-- All leaves but one are idle. -/
def AllIdle (but : Option TaskId) (cells : List (Cell Completion)) : Prop :=
  ∀ x, leaves x → but ≠ some x → IsIdle cells x

/-- Tasks of a class change, and leaves; the leaves that are not mentioned stay unconsumed; and what
is resolved stays so, leaves with what was sent to them. -/
structure Evolves (sent : TaskId → Outcome → Prop) (own mentioned : TaskId → Prop)
    (cells cells' : List (Cell Completion)) : Prop where
  length : cells.length ≤ cells'.length
  outcome : ∀ x o, outcomeOf cells x = some o → outcomeOf cells' x = some o
  sent : ∀ x o, leaves x → outcomeOf cells' x = some o → outcomeOf cells x = some o ∨ sent x o
  others : ∀ x, ¬ leaves x → ¬ own x → cells'[x]? = cells[x]?
  unconsumed : ∀ x, leaves x → ¬ mentioned x → Unconsumed cells x → Unconsumed cells' x

/-- The tasks evolve, and foreign code has left nothing in the log. -/
structure Moves (sent : TaskId → Outcome → Prop) (own mentioned : TaskId → Prop) (w w' : World) :
    Prop
    extends Evolves leaves sent own mentioned w.cells w'.cells where
  remarks : w'.remarks = w.remarks

namespace Evolves

variable {leaves} {sent : TaskId → Outcome → Prop} {own own' mentioned mentioned' : TaskId → Prop}
  {cells cells' cells'' : List (Cell Completion)}

theorem refl (cells : List (Cell Completion)) : Evolves leaves sent own mentioned cells cells where
  length := Nat.le_refl _
  outcome _ _ ho := ho
  sent _ _ _ ho := .inl ho
  others _ _ _ := rfl
  unconsumed _ _ _ hx := hx

theorem trans
    (h : Evolves leaves sent own mentioned cells cells')
    (h' : Evolves leaves sent own mentioned cells' cells'') :
    Evolves leaves sent own mentioned cells cells'' where
  length := Nat.le_trans h.length h'.length
  outcome x o ho := h'.outcome x o (h.outcome x o ho)
  sent x o hleaf ho := by
    rcases h'.sent x o hleaf ho with hbefore | hsent
    · exact h.sent x o hleaf hbefore
    · exact .inr hsent
  others x hleaf hown := (h'.others x hleaf hown).trans (h.others x hleaf hown)
  unconsumed x hleaf hx hbefore := h'.unconsumed x hleaf hx (h.unconsumed x hleaf hx hbefore)

theorem mono
    (h : Evolves leaves sent own mentioned cells cells') (hown : ∀ x, own x → own' x)
    (hmentioned : ∀ x, mentioned x → mentioned' x) :
    Evolves leaves sent own' mentioned' cells cells' :=
  { h with
    others := fun x hleaf hx => h.others x hleaf fun hmem => hx (hown x hmem)
    unconsumed := fun x hleaf hx => h.unconsumed x hleaf fun hmem => hx (hmentioned x hmem) }

end Evolves

namespace Moves

variable {leaves} {sent : TaskId → Outcome → Prop} {own own' mentioned mentioned' : TaskId → Prop}
  {w w' w'' : World}

theorem of_cells (hcells : w'.cells = w.cells) (hremarks : w'.remarks = w.remarks) :
    Moves leaves sent own mentioned w w' where
  toEvolves := hcells.symm ▸ .refl w.cells
  remarks := hremarks

theorem refl (w : World) : Moves leaves sent own mentioned w w :=
  of_cells rfl rfl

theorem trans
    (h : Moves leaves sent own mentioned w w') (h' : Moves leaves sent own mentioned w' w'') :
    Moves leaves sent own mentioned w w'' where
  toEvolves := h.toEvolves.trans h'.toEvolves
  remarks := h'.remarks.trans h.remarks

theorem mono
    (h : Moves leaves sent own mentioned w w') (hown : ∀ x, own x → own' x)
    (hmentioned : ∀ x, mentioned x → mentioned' x) : Moves leaves sent own' mentioned' w w' where
  toEvolves := h.toEvolves.mono hown hmentioned
  remarks := h.remarks

theorem captured (w : World) (p : Option SoftPanic) :
    Moves leaves sent own mentioned w (w.captured p) := by
  cases p with
  | none => exact refl w
  | some p => exact of_cells rfl (by simp [World.captured, World.remarks, Entry.remark?])

theorem newTask (hown : own w.cells.length) :
    Moves leaves sent own mentioned w { w with cells := w.cells ++ [.fresh] } where
  length := by simp
  outcome x o ho := by rwa [outcomeOf_append_fresh]
  sent x o _ ho := .inl (by rwa [outcomeOf_append_fresh] at ho)
  others x _ hx := by
    have hnew : w.cells.length ≠ x := fun hsame => hx (hsame ▸ hown)
    exact getElem?_append_singleton_ne hnew _
  unconsumed x _ _ hx := by
    have hlt := lt_length_of_isIdle hx.isIdle
    simpa [Unconsumed, List.getElem?_append_left hlt] using hx
  remarks := rfl

/-- A task has a turn that leaves its outcome alone, or resolves it. -/
theorem turn
    {t : TaskId} {cell cell' : Cell Completion} (turn : Cell.Turn Completion)
    (hcell : w.cells[t]? = some cell) (hown : own t ∨ leaves t)
    (houtcome : cell'.outcome? = cell.outcome? ∨
      ∃ o, cell.outcome? = none ∧ cell'.outcome? = some o ∧ (leaves t → sent t o))
    (hconsumed : leaves t → mentioned t ∨ ∃ o, cell' = .cached o false) :
    Moves leaves sent own mentioned w (w.turn t turn cell') := by
  have hself : outcomeOf (w.cells.set t cell') t = cell'.outcome? := outcomeOf_set_self hcell cell'
  refine ⟨⟨by simp, fun x o ho => ?_, fun x o hleaf ho => ?_, fun x hleaf hx => ?_,
    fun x hleaf hx hbefore => ?_⟩, rfl⟩
  · by_cases hsame : x = t
    · subst hsame
      rw [outcomeOf_of_cell hcell] at ho
      rcases houtcome with hkept | ⟨o', hopen, -⟩
      · exact hself.trans (hkept.trans ho)
      · rw [hopen] at ho
        contradiction
    · exact (outcomeOf_set_ne hsame cell').trans ho
  · by_cases hsame : x = t
    · subst hsame
      have ho' : cell'.outcome? = some o := hself.symm.trans ho
      rcases houtcome with hkept | ⟨o', -, hresolved, hsent⟩
      · exact .inl ((outcomeOf_of_cell hcell).trans (hkept.symm.trans ho'))
      · obtain rfl : o' = o := Option.some.inj (hresolved.symm.trans ho')
        exact .inr (hsent hleaf)
    · exact .inl ((outcomeOf_set_ne hsame cell').symm.trans ho)
  · have hne : t ≠ x := by
      rintro rfl
      exact hown.elim hx hleaf
    exact List.getElem?_set_ne hne
  · by_cases hsame : x = t
    · subst hsame
      rcases hconsumed hleaf with hmentioned | ⟨o, rfl⟩
      · exact absurd hmentioned hx
      · exact .inr ⟨o, List.getElem?_set_self (List.getElem?_eq_some_iff.mp hcell).1⟩
    · simpa [Unconsumed, List.getElem?_set_ne (Ne.symm hsame)] using hbefore

end Moves

/-- A resolved task is idle, and the other leaves stay what they are. -/
theorem AllIdle.set_resolved
    {leaves} {cells : List (Cell Completion)} {t : TaskId} {but : Option TaskId} {o : Outcome}
    (h : AllIdle leaves but cells) (hbut : ∀ x, leaves x → but = some x → x = t)
    {cell cell' : Cell Completion} (hcell : cells[t]? = some cell)
    (hresolved : cell'.outcome? = some o) :
    AllIdle leaves none (cells.set t cell') := by
  intro x hleaf _
  by_cases hsame : x = t
  · subst hsame
    refine .inr ?_
    rw [outcomeOf_set_self hcell, hresolved]
    simp
  · have hx : IsIdle cells x := h x hleaf fun hx => hsame (hbut x hleaf hx)
    simpa [IsIdle, outcomeOf_set_ne hsame, List.getElem?_set_ne (Ne.symm hsame)] using hx

theorem AllIdle.newTask {leaves} {w : World} {but : Option TaskId}
    (h : AllIdle leaves but w.cells) :
    AllIdle leaves but (w.cells ++ [.fresh]) := by
  intro x hleaf hne
  have hx := h x hleaf hne
  simpa [IsIdle, outcomeOf_append_fresh, List.getElem?_append_left (lt_length_of_isIdle hx)]
    using hx

/-! ## Where an evaluation goes -/

section Goes

variable (d : Dispatcher)

/-- The task of the expression has just been resolved with its value; what remains is to serve the
consumer. -/
structure HasValue (e : Expr) (u : TaskId) (c : Consumer Completion) (start : World → Prop)
    (r : Outcome) (w : World) : Prop where
  value : e.value (outcomeOf w.cells) = some r
  idle : AllIdle leaves none w.cells
  cell : w.cells[u]? = some (c.settledCell r)
  comes : ∀ w', Comes d (fun perform => c.follow.act perform r) w () w' → start w'

/-- The expression waits for a leaf. -/
structure HasLeaf (own : TaskId → Prop) (e : Expr) (u : TaskId) (c : Consumer Completion)
    (start : World → Prop) (t : TaskId) (inner : List TaskId) (w : World) : Prop where
  waits : Waits leaves w.cells e t u inner c
  idle : AllIdle leaves (some t) w.cells
  own : ∀ x ∈ inner, own x ∨ leaves x
  comes : start w

/-- An act whose results are `start` goes to `w`: the expression has its value there, which the
consumer is about to get, or it waits for a leaf and the act is done. -/
def Goes (own : TaskId → Prop) (e : Expr) (u : TaskId) (c : Consumer Completion)
    (start : World → Prop) (w : World) : Prop :=
  (∃ r, HasValue leaves d e u c start r w) ∨ ∃ t inner, HasLeaf leaves own e u c start t inner w

variable {leaves d} {sent : TaskId → Outcome → Prop} {own own' mentioned : TaskId → Prop}
  {e : Expr} {u v : TaskId} {c : Consumer Completion} {start start' : World → Prop} {w : World}

namespace Goes

theorem mono (h : Goes leaves d own e u c start w)
    (hown : ∀ x, x < w.cells.length → own x → own' x)
    (hstart : ∀ w', start w' → start' w') : Goes leaves d own' e u c start' w := by
  rcases h with ⟨r, h⟩ | ⟨t, inner, h⟩
  · exact .inl ⟨r, h.value, h.idle, h.cell, fun w' hw' => hstart w' (h.comes w' hw')⟩
  · refine .inr ⟨t, inner, h.waits, h.idle, fun x hx => ?_, hstart w h.comes⟩
    have hlt := h.waits.lt_length x (List.mem_cons_of_mem _ hx)
    exact (h.own x hx).imp_left (hown x hlt)

/-- Nothing remains to be done for a task without a consumer. -/
theorem of_cached
    {r : Outcome} (hvalue : e.value (outcomeOf w.cells) = some r)
    (hidle : AllIdle leaves none w.cells)
    (hcell : w.cells[u]? = some (.cached r false)) : Goes leaves d own e u .none (· = w) w := by
  refine .inl ⟨r, hvalue, hidle, hcell, fun w' hw' => ?_⟩
  obtain ⟨enough, hw'⟩ := hw'
  exact (Prod.ext_iff.mp (hw' enough (Nat.le_refl _))).2.symm

theorem here (h : Goes leaves d own e u .none start w) :
    start w ∧ Goes leaves d own e u .none (· = w) w := by
  rcases h with ⟨r, h⟩ | ⟨t, inner, h⟩
  · exact ⟨h.comes w (.pure () w), of_cached h.value h.idle h.cell⟩
  · exact ⟨h.comes, .inr ⟨t, inner, h.waits, h.idle, h.own, rfl⟩⟩

theorem lt_length (h : Goes leaves d own e u c start w) : u < w.cells.length := by
  rcases h with ⟨r, h⟩ | ⟨t, inner, h⟩
  · exact (List.getElem?_eq_some_iff.mp h.cell).1
  · exact h.waits.lt_length u (List.mem_cons_self ..)

theorem newTask (h : Goes leaves d own e u .none (· = w) w) :
    Goes leaves d own e u .none (· = { w with cells := w.cells ++ [.fresh] })
      { w with cells := w.cells ++ [.fresh] } := by
  have hlt := h.lt_length
  have houtcome : outcomeOf (w.cells ++ [.fresh]) = outcomeOf w.cells :=
    funext fun x => outcomeOf_append_fresh x
  rcases h with ⟨r, h⟩ | ⟨t, inner, h⟩
  · refine of_cached (r := r) ?_ h.idle.newTask ?_
    · rw [houtcome]
      exact h.value
    · rw [List.getElem?_append_left hlt]
      exact h.cell
  · refine .inr ⟨t, inner, h.waits.frame (fun x hx => ?_) (fun x o ho => ?_) (fun x _ hx => ?_),
      h.idle.newTask, h.own, rfl⟩
    · exact List.getElem?_append_left (h.waits.lt_length x hx)
    · rwa [houtcome]
    · simpa [Unconsumed, List.getElem?_append_left (lt_length_of_isIdle hx.isIdle)] using hx

/-- A completion handler is attached to the task of an expression. -/
theorem attach (h : Goes leaves d own e v .none (· = w) w) (k : Completion)
    (hv : (own v ∧ ¬ leaves v) ∨ (leaves v ∧ e.Mentions v)) :
    ∃ w', Moves leaves sent own e.Mentions w w' ∧
      Goes leaves d own e v (.handler k)
        (fun w'' => Comes d (fun perform => Act.attach perform v k) w () w'') w' := by
  have hown : own v ∨ leaves v := hv.imp And.left And.left
  have hmentioned : leaves v → e.Mentions v :=
    fun hleaf => hv.elim (fun hmade => absurd hleaf hmade.2) And.right
  rcases h with ⟨r, h⟩ | ⟨t, inner, h⟩
  · have hmoves : Moves leaves sent own e.Mentions w (w.turn v (.attached k (some r)) (.taken r)) :=
      .turn _ h.cell hown (.inl rfl) fun hleaf => .inl (hmentioned hleaf)
    refine ⟨_, hmoves, .inl ⟨r, Expr.value_mono hmoves.outcome h.value, ?_, ?_, fun w' hw' => ?_⟩⟩
    · exact h.idle.set_resolved (by simp) h.cell rfl
    · exact List.getElem?_set_self (List.getElem?_eq_some_iff.mp h.cell).1
    · exact Comes.attach_cached h.cell hw'
  · have hcell := h.waits.cell
    have hmoves : Moves leaves sent own e.Mentions w
        (w.turn v (.attached k none) (.waiting (.handler k))) :=
      .turn _ hcell hown (.inl rfl) fun hleaf => .inl (hmentioned hleaf)
    refine ⟨_, hmoves, .inr ⟨t, inner, h.waits.consume _, fun x hleaf hne => ?_, h.own,
      Comes.attach_open hcell⟩⟩
    have hsame : x ≠ v := by
      rintro rfl
      exact hne (congrArg some (h.waits.last_eq_leaf hleaf).symm)
    have hx := h.idle x hleaf hne
    simpa [IsIdle, outcomeOf_set_ne hsame, List.getElem?_set_ne (Ne.symm hsame)] using hx

end Goes

/-- The task of an expression whose value is there is resolved with it, after a panic was captured
if there was one. -/
theorem HasValue.of_settle {r : Outcome} (p : Option SoftPanic)
    (hvalue : e.value (outcomeOf w.cells) = some r) (hidle : AllIdle leaves none w.cells)
    (hcell : w.cells[u]? = some (.waiting c)) (hmade : ¬ leaves u) (hown : own u)
    (hstart : ∀ w', Comes d (fun perform => Act.settle perform u r) (w.captured p) true w' →
      start w') :
    ∃ w', Moves leaves sent own mentioned w w' ∧ Goes leaves d own e u c start w' := by
  have hcaptured : Moves leaves sent own mentioned w (w.captured p) := .captured w p
  rw [← World.captured_cells w p] at hvalue hidle hcell
  have hmoves : Moves leaves sent own mentioned (w.captured p)
      ((w.captured p).turn u (.settled r c.follow) (c.settledCell r)) := by
    refine .turn _ hcell (.inl hown) (.inr ⟨r, rfl, c.outcome?_settledCell r, ?_⟩) ?_
    · exact fun hleaf => absurd hleaf hmade
    · exact fun hleaf => absurd hleaf hmade
  refine ⟨_, hcaptured.trans hmoves,
    .inl ⟨r, Expr.value_mono hmoves.outcome hvalue, ?_, ?_, fun w' hw' => ?_⟩⟩
  · exact hidle.set_resolved (by simp) hcell (c.outcome?_settledCell r)
  · exact List.getElem?_set_self (List.getElem?_eq_some_iff.mp hcell).1
  · exact hstart w' (Comes.settle hcell hw')

/-! ## From a task to the one that is derived from it -/

/-- What building does: the expression gets a task that it has made itself or that is its leaf. -/
def Builds (d : Dispatcher) (leaves : TaskId → Prop) (sent : TaskId → Outcome → Prop) (e : Expr) :
    Prop :=
  ∀ ⦃w : World⦄ (own : Option Continuation), AllIdle leaves none w.cells →
    (∀ x, e.Mentions x → Unconsumed w.cells x) →
    ∃ u w', Comes d (fun perform => Act.run perform own e.code) w u w' ∧
      Moves leaves sent (w.cells.length ≤ ·) e.Mentions w w' ∧
      ((w.cells.length ≤ u ∧ ¬ leaves u) ∨ (leaves u ∧ e.Mentions u)) ∧
      Goes leaves d (w.cells.length ≤ ·) e u .none (· = w') w'

/-- What the resolution of the leaf does for which an expression waits. -/
def Resolves (d : Dispatcher) (leaves : TaskId → Prop) (sent : TaskId → Outcome → Prop) (e : Expr) :
    Prop :=
  ∀ ⦃w : World⦄ ⦃own : TaskId → Prop⦄ ⦃t u : TaskId⦄ ⦃inner : List TaskId⦄
    ⦃c : Consumer Completion⦄ ⦃v : Outcome⦄, Waits leaves w.cells e t u inner c →
    AllIdle leaves (some t) w.cells → sent t v → (∀ x ∈ u :: inner, own x ∨ leaves x) →
    (∀ x, w.cells.length ≤ x → own x) →
    ∃ w', Moves leaves sent own e.Mentions w w' ∧ outcomeOf w'.cells t = some v ∧
      Goes leaves d own e u c
        (fun w'' => Comes d (fun perform => Act.settle perform t v) w true w'') w'

namespace Goes

variable {f : Outcome → Answer} {panics : Outcome → Option SoftPanic} {next : Outcome → Expr}
  (hv : own v ∨ leaves v) (hcell : w.cells[u]? = some (.waiting c)) (hmade : ¬ leaves u)
  (hother : ¬ own u) (hown : ∀ x, own x → own' x) (hu : own' u)

/-- A task that does not belong to the expression is none of those between leaf and task. -/
theorem not_mem {inner : List TaskId} (hv : own v ∨ leaves v)
    (hinner : ∀ x ∈ inner, own x ∨ leaves x)
    (hmade : ¬ leaves u) (hother : ¬ own u) : u ∉ v :: inner := by
  intro hmem
  rcases List.mem_cons.mp hmem with rfl | hmem
  · exact hv.elim hother hmade
  · exact (hinner u hmem).elim hother hmade

theorem forall_mem {inner : List TaskId} (hv : own v ∨ leaves v)
    (hinner : ∀ x ∈ inner, own x ∨ leaves x) (hown : ∀ x, own x → own' x) :
    ∀ x ∈ v :: inner, own' x ∨ leaves x :=
  List.forall_mem_cons.mpr ⟨hv.imp_left (hown v), fun x hx => (hinner x hx).imp_left (hown x)⟩

include hv hcell hmade hother hown hu

/-- The outcome of an expression is handed to a function. -/
theorem transform
    (h : Goes leaves d own e v (.handler (.transform (fun o => (f o).code) u)) start w) :
    ∃ w', Moves leaves sent own' mentioned w w' ∧
      Goes leaves d own' (.mapMaybe e f) u c start w' := by
  rcases h with ⟨r, h⟩ | ⟨t, inner, h⟩
  · have hvalue : (Expr.mapMaybe e f).value (outcomeOf w.cells) = some (f r).outcome := by
      simp [Expr.value, h.value]
    refine HasValue.of_settle (f r).panic? hvalue h.idle hcell hmade hu fun w' hw' => ?_
    exact h.comes w' (Comes.complete_transform hw').complete
  · have hnew : u ∉ v :: inner := not_mem hv h.own hmade hother
    exact ⟨w, .refl w, .inr ⟨t, v :: inner, .mapMaybe h.waits hcell hmade hnew, h.idle,
      forall_mem hv h.own hown, h.comes⟩⟩

/-- The outcome of the expression that a continuation gave is handed on. -/
theorem relay
    {o : Outcome} (hvalue : e.value (outcomeOf w.cells) = some o) (hpanics : panics o = none)
    (h : Goes leaves d own (next o) v (.handler (.relay u)) start w) :
    ∃ w', Moves leaves sent own' mentioned w w' ∧
      Goes leaves d own' (.thenMaybe e panics next) u c start w' := by
  rcases h with ⟨r, h⟩ | ⟨t, inner, h⟩
  · have hvalue' : (Expr.thenMaybe e panics next).value (outcomeOf w.cells) = some r := by
      simp [Expr.value, hvalue, hpanics, h.value]
    refine HasValue.of_settle none hvalue' h.idle hcell hmade hu fun w' hw' => ?_
    exact h.comes w' (Comes.complete_relay hw').complete
  · have hnew : u ∉ v :: inner := not_mem hv h.own hmade hother
    exact ⟨w, .refl w, .inr ⟨t, v :: inner,
      .chained hvalue hpanics h.waits hcell hmade hnew, h.idle,
      forall_mem hv h.own hown, h.comes⟩⟩

/-- The outcome of an expression is handed to a continuation, which builds another. -/
theorem chain
    (hbuilds : ∀ o, Builds d leaves sent (next o)) (hnew : ∀ x, w.cells.length ≤ x → own x)
    (hnext : ∀ o x, (next o).Mentions x → leaves x ∧ Unconsumed w.cells x)
    (h : Goes leaves d own e v (.handler (.chain (Expr.continuation panics next) u)) start w) :
    ∃ w', Moves leaves sent own' (Expr.thenMaybe e panics next).Mentions w w' ∧
      Goes leaves d own' (.thenMaybe e panics next) u c start w' := by
  rcases h with ⟨r, h⟩ | ⟨t, inner, h⟩
  · cases hpanics : panics r with
    | some p =>
        have hvalue : (Expr.thenMaybe e panics next).value (outcomeOf w.cells) =
            some (.error p.1.failure) := by
          simp [Expr.value, h.value, hpanics]
        have hcode : Expr.continuation panics next r = .panic p.1 := by
          simp [Expr.continuation, hpanics]
        refine HasValue.of_settle (some p) hvalue h.idle hcell hmade hu fun w' hw' => ?_
        exact h.comes w' (Comes.complete_chain_panic hcode hw').complete
    | none =>
        have hcode : Expr.continuation panics next r = (next r).code := by
          simp [Expr.continuation, hpanics]
        have hmentions : ∀ x, (next r).Mentions x → (Expr.thenMaybe e panics next).Mentions x :=
          fun x hx => .inr ⟨r, hx⟩
        obtain ⟨v', w₁, hrun, hbuilt, hv', hgoes⟩ :=
          hbuilds r none h.idle fun x hx => (hnext r x hx).2
        obtain ⟨w₂, hattached, hgoes⟩ : ∃ w₂,
            Moves leaves sent (w.cells.length ≤ ·) (next r).Mentions w₁ w₂ ∧
              Goes leaves d (w.cells.length ≤ ·) (next r) v' (.handler (.relay u))
                (fun w' => Comes d (fun perform => Act.attach perform v' (.relay u)) w₁ () w') w₂ :=
          hgoes.attach (.relay u) hv'
        have hmoves := hbuilt.trans hattached
        -- The task of the whole expression is older than what the continuation makes.
        have hlt : ¬ w.cells.length ≤ u :=
          Nat.not_le.mpr (List.getElem?_eq_some_iff.mp hcell).1
        have hcell₂ : w₂.cells[u]? = some (.waiting c) := (hmoves.others u hmade hlt).trans hcell
        have hgoes : Goes leaves d (w.cells.length ≤ ·) (next r) v'
            (.handler (.relay u)) start w₂ := by
          refine hgoes.mono (fun x _ => id) fun w' hw' => h.comes w' (Comes.complete ?_)
          exact Comes.complete_chain (hcode.symm ▸ hrun) hw'
        obtain ⟨w₃, hrelayed, hgoes⟩ : ∃ w₃,
            Moves leaves sent own' (Expr.thenMaybe e panics next).Mentions w₂ w₃ ∧
              Goes leaves d own' (.thenMaybe e panics next) u c start w₃ :=
          relay (hv'.imp And.left And.left) hcell₂ hmade hlt (fun x hx => hown x (hnew x hx)) hu
            (Expr.value_mono hmoves.outcome h.value) hpanics hgoes
        exact ⟨w₃, (hmoves.mono (fun x hx => hown x (hnew x hx)) hmentions).trans hrelayed, hgoes⟩
  · have hfresh : u ∉ v :: inner := not_mem hv h.own hmade hother
    exact ⟨w, .refl w, .inr ⟨t, v :: inner, .thenMaybe h.waits hcell hmade hfresh hnext, h.idle,
      forall_mem hv h.own hown, h.comes⟩⟩

end Goes

/-! ## Leaves that are resolved -/

theorem Moves.marked (w : World) (x : TaskId) : Moves leaves sent own mentioned w (w.marked x) := by
  refine .of_cells (w.marked_cells x) ?_
  unfold World.marked
  split
  · simp [World.remarks, Entry.remark?]
  · rfl

/-- A leaf is resolved that nobody waits for, or it has been resolved before. -/
theorem settleMarked_of_isIdle
    {x : TaskId} {o : Outcome} (hidle : IsIdle w.cells x) (hleaf : leaves x) (hsent : sent x o) :
    ∃ b w', Comes d (fun perform => Act.settleMarked perform x o) w b w' ∧
      outcomeOf w'.cells x ≠ none ∧
      (∀ y, y ≠ x ∨ outcomeOf w.cells x ≠ none → w'.cells[y]? = w.cells[y]?) ∧
      (∀ y, Unconsumed w.cells y → Unconsumed w'.cells y) ∧
      Moves leaves sent own mentioned w w' := by
  have hmarked : Moves leaves sent own mentioned w (w.marked x) := .marked w x
  by_cases hresolved : outcomeOf w.cells x = none
  · have hcell : (w.marked x).cells[x]? = some (.waiting .none) := by
      rw [World.marked_cells]
      exact hidle.resolve_right fun hother => hother hresolved
    have hlt := (List.getElem?_eq_some_iff.mp hcell).1
    have hset := (outcomeOf_set_self hcell (.cached o false)).trans rfl
    refine ⟨true, _, (Comes.settle hcell (.pure () _)).settleMarked, ?_, fun y hy => ?_,
      fun y hy => ?_, hmarked.trans ?_⟩
    · rw [World.turn_cells, outcomeOf_set_self hcell]
      simp [Consumer.settledCell, Cell.outcome?]
    · have hne : y ≠ x := hy.resolve_right fun hother => hother hresolved
      rw [World.turn_cells, List.getElem?_set_ne hne.symm, World.marked_cells]
    · by_cases hsame : y = x
      · subst hsame
        exact .inr ⟨o, List.getElem?_set_self hlt⟩
      · simpa [Unconsumed, List.getElem?_set_ne (Ne.symm hsame)] using hy
    · exact .turn _ hcell (.inr hleaf) (.inr ⟨o, rfl, rfl, fun _ => hsent⟩) fun _ => .inr ⟨o, rfl⟩
  · obtain ⟨cell, hcell⟩ : ∃ cell, w.cells[x]? = some cell :=
      ⟨_, List.getElem?_eq_getElem (lt_length_of_isIdle hidle)⟩
    have hcell' : (w.marked x).cells[x]? = some cell := by rwa [World.marked_cells]
    have hagain : cell.outcome? ≠ none := by rwa [outcomeOf_of_cell hcell] at hresolved
    refine ⟨false, w.marked x, (Comes.settle_again hcell' hagain).settleMarked, ?_, fun y _ => ?_,
      fun y hy => ?_, hmarked⟩
    · rwa [World.marked_cells]
    · rw [World.marked_cells]
    · rwa [World.marked_cells]

/-- The consumer of the task of an expression has been served with the value of the expression, or
the expression waits for a leaf. -/
def IsAttended (leaves own : TaskId → Prop) (e : Expr) (u : TaskId) (c : Consumer Completion)
    (remarks : List Remark) (served : Outcome → World → Prop) (w : World) : Prop :=
  (∃ r, e.value (outcomeOf w.cells) = some r ∧ AllIdle leaves none w.cells ∧ served r w) ∨
    ∃ t inner, HasLeaf leaves own e u c (fun w => w.remarks = remarks) t inner w

theorem AllIdle.of_idle_resolved
    {cells' : List (Cell Completion)} {but : Option TaskId} {x : TaskId}
    (h : AllIdle leaves but w.cells) (hx : outcomeOf cells' x ≠ none)
    (hothers : ∀ y, y ≠ x → cells'[y]? = w.cells[y]?) : AllIdle leaves but cells' := by
  intro y hleaf hne
  by_cases hsame : y = x
  · exact .inr (hsame ▸ hx)
  · simpa [IsIdle, outcomeOf, hothers y hsame] using h y hleaf hne

/-- Foreign code resolves a leaf.  This serves the consumer if the expression waits for that leaf
and has a value now. -/
theorem IsAttended.settleMarked
    {remarks : List Remark} {served : Outcome → World → Prop} {x : TaskId} {o : Outcome}
    (h : IsAttended leaves own e u c remarks served w) (hresolves : Resolves d leaves sent e)
    (hsent : sent x o) (hleaf : leaves x) (hnew : ∀ y, w.cells.length ≤ y → own y)
    (hu : own u ∨ leaves u)
    (hserve : ∀ w r, w.remarks = remarks → w.cells[u]? = some (c.settledCell r) →
      ∃ w', Comes d (fun perform => c.follow.act perform r) w () w' ∧ w'.cells = w.cells ∧
        served r w')
    (hframe : ∀ r w w', w'.remarks = w.remarks →
      (outcomeOf w.cells u ≠ none → w'.cells[u]? = w.cells[u]?) → served r w → served r w') :
    ∃ b w', Comes d (fun perform => Act.settleMarked perform x o) w b w' ∧
      Evolves leaves sent own e.Mentions w.cells w'.cells ∧ outcomeOf w'.cells x ≠ none ∧
      IsAttended leaves own e u c remarks served w' := by
  rcases h with ⟨r, hvalue, hidle, hserved⟩ | ⟨t, inner, h⟩
  · obtain ⟨b, w', hcomes, hresolved, hcells, -, hmoves⟩ : ∃ b w',
        Comes d (fun perform => Act.settleMarked perform x o) w b w' ∧ outcomeOf w'.cells x ≠ none ∧
          (∀ y, y ≠ x ∨ outcomeOf w.cells x ≠ none → w'.cells[y]? = w.cells[y]?) ∧
          (∀ y, Unconsumed w.cells y → Unconsumed w'.cells y) ∧
          Moves leaves sent own e.Mentions w w' :=
      settleMarked_of_isIdle (hidle x hleaf (by simp)) hleaf hsent
    refine ⟨b, w', hcomes, hmoves.toEvolves, hresolved, .inl ⟨r, ?_, ?_, ?_⟩⟩
    · exact Expr.value_mono hmoves.outcome hvalue
    · exact hidle.of_idle_resolved hresolved fun y hne => hcells y (.inl hne)
    · refine hframe r w w' hmoves.remarks (fun hu => hcells u ?_) hserved
      by_cases hsame : u = x
      · exact .inr (hsame ▸ hu)
      · exact .inl hsame
  · by_cases hsame : x = t
    · subst hsame
      have hmarked : Moves leaves sent own e.Mentions w (w.marked x) := .marked w x
      obtain ⟨w₁, hmoves, hresolved, hgoes⟩ := hresolves
        (w := w.marked x) (u := u) (c := c) (by rw [World.marked_cells]; exact h.waits)
        (by rw [World.marked_cells]; exact h.idle) hsent
        (List.forall_mem_cons.mpr ⟨hu, h.own⟩) (by rw [World.marked_cells]; exact hnew)
      have hremarks : w₁.remarks = remarks := (hmarked.trans hmoves).remarks.trans h.comes
      rcases hgoes with ⟨r, hgoes⟩ | ⟨t, inner, hgoes⟩
      · obtain ⟨w', hserved, hcells, hafter⟩ := hserve w₁ r hremarks hgoes.cell
        refine ⟨true, w', (hgoes.comes w' hserved).settleMarked,
          hcells ▸ (hmarked.trans hmoves).toEvolves, ?_, .inl ⟨r, ?_, ?_, hafter⟩⟩
        · rw [hcells, hresolved]
          simp
        · rw [hcells]
          exact hgoes.value
        · rw [hcells]
          exact hgoes.idle
      · refine ⟨true, w₁, hgoes.comes.settleMarked, (hmarked.trans hmoves).toEvolves, ?_,
          .inr ⟨t, inner, hgoes.waits, hgoes.idle, hgoes.own, hremarks⟩⟩
        rw [hresolved]
        simp
    · obtain ⟨b, w', hcomes, hresolved, hcells, hunconsumed, hmoves⟩ : ∃ b w',
          Comes d (fun perform => Act.settleMarked perform x o) w b w' ∧
            outcomeOf w'.cells x ≠ none ∧
            (∀ y, y ≠ x ∨ outcomeOf w.cells x ≠ none → w'.cells[y]? = w.cells[y]?) ∧
            (∀ y, Unconsumed w.cells y → Unconsumed w'.cells y) ∧
            Moves leaves sent own e.Mentions w w' :=
        settleMarked_of_isIdle (h.idle x hleaf (by simpa [eq_comm] using hsame)) hleaf hsent
      refine ⟨b, w', hcomes, hmoves.toEvolves, hresolved, .inr ⟨t, inner, ?_, ?_, h.own, ?_⟩⟩
      · refine h.waits.frame (fun y hy => hcells y (.inl ?_)) hmoves.outcome
          fun y _ => hunconsumed y
        rintro rfl
        exact h.waits.not_mem hleaf hsame hy
      · exact h.idle.of_idle_resolved hresolved fun y hne => hcells y (.inl hne)
      · exact hmoves.remarks.trans h.comes

end Goes

end RouteDispatch
