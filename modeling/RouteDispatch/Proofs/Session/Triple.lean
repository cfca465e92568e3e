import RouteDispatch.Session.Run

/-!
# What acts do

A triple says what an act does to a world: the value that it gives comes with a world that meets one
condition, and a stop comes with a world that meets another.  There is one rule for each way to
compose acts, and the two guards get rules of their own.
-/

namespace RouteDispatch

/-- The stop passes every guard. -/
def Stop.isHard : Stop → Bool
  | .panic .alreadyResolved | .tooDeep => true
  | _ => false

namespace Act

variable {α β : Type}

/-- In a world that meets the precondition the act gives a value or stops, in a world that meets the
condition for that. -/
def Triple (pre : World → Prop) (a : Act α) (post : α → World → Prop)
    (stopped : Stop → World → Prop) : Prop :=
  ∀ w, pre w →
    match a.exec w with
    | (.ok v, w') => post v w'
    | (.error s, w') => stopped s w'

/-! ## Running composed acts -/

theorem exec_bind (a : Act α) (f : α → Act β) (w : World) :
    (a >>= f).exec w =
      match a.exec w with
      | (.ok v, w') => (f v).exec w'
      | (.error s, w') => (.error s, w') := by
  unfold exec
  simp only [ExceptT.run_bind, StateT.run_bind]
  cases h : (ExceptT.run a).run w with
  | mk result w' =>
      cases result with
      | ok v => rfl
      | error s => rfl

theorem exec_get_bind (f : World → Act β) (w : World) :
    (MonadState.get >>= f).exec w = (f w).exec w :=
  rfl

theorem exec_tryCatch (a : Act α) (handler : Stop → Act α) (w : World) :
    (tryCatch a handler).exec w =
      match a.exec w with
      | (.ok v, w') => (.ok v, w')
      | (.error s, w') => (handler s).exec w' := by
  simp only [exec, tryCatch, tryCatchThe, MonadExceptOf.tryCatch, ExceptT.tryCatch, ExceptT.run,
    ExceptT.mk, StateT.run, bind, StateT.bind]
  cases a w with
  | mk result w' =>
      cases result with
      | ok v => rfl
      | error s => rfl

theorem exec_guarded (a : Act α) (w : World) :
    (guarded a).exec w =
      match a.exec w with
      | (.ok v, w') => (.ok (.ok v), w')
      | (.error (.panic .alreadyResolved), w') => (.error (.panic .alreadyResolved), w')
      | (.error .tooDeep, w') => (.error .tooDeep, w')
      | (.error (.panic p), w') =>
        (.ok (.error p.failure),
          { w' with log := w'.log ++ [.trace (.panicCaptured p.message)] }) := by
  unfold guarded
  rw [exec_tryCatch, exec_bind]
  cases a.exec w with
  | mk result w' =>
      rcases result with (p | _) | v
      · cases p <;> rfl
      · rfl
      · rfl

/-! ## Rules -/

namespace Triple

variable {pre pre' : World → Prop} {post post' : α → World → Prop}
  {stopped stopped' : Stop → World → Prop}

theorem weaken {a : Act α} (h : Triple pre a post stopped) (hpre : ∀ w, pre' w → pre w)
    (hpost : ∀ v w, post v w → post' v w) (hstopped : ∀ s w, stopped s w → stopped' s w) :
    Triple pre' a post' stopped' := by
  intro w hw
  have hrun := h w (hpre w hw)
  cases hexec : a.exec w with
  | mk result w' =>
      rw [hexec] at hrun
      cases result with
      | ok v => exact hpost v w' hrun
      | error s => exact hstopped s w' hrun

theorem strengthen {a : Act α} (h : Triple pre a post stopped) (hpre : ∀ w, pre' w → pre w) :
    Triple pre' a post stopped :=
  h.weaken hpre (fun _ _ => id) fun _ _ => id

theorem stops {a : Act α} (h : Triple pre a post stopped)
    (hstopped : ∀ s w, stopped s w → stopped' s w) : Triple pre a post stopped' :=
  h.weaken (fun _ => id) (fun _ _ => id) hstopped

/-- Two things that are said of an act may be said together. -/
theorem and {a : Act α} (h : Triple pre a post stopped) (h' : Triple pre a post' stopped') :
    Triple pre a (fun v w => post v w ∧ post' v w) fun s w => stopped s w ∧ stopped' s w := by
  intro w hw
  have hrun := h w hw
  have hrun' := h' w hw
  cases hexec : a.exec w with
  | mk result w' =>
      rw [hexec] at hrun hrun'
      cases result with
      | ok v => exact ⟨hrun, hrun'⟩
      | error s => exact ⟨hrun, hrun'⟩

theorem pure {v : α} (h : ∀ w, pre w → post v w) : Triple pre (Pure.pure v) post stopped :=
  fun w hw => h w hw

theorem bind {a : Act α} {f : α → Act β} {m : α → World → Prop} {post : β → World → Prop}
    (ha : Triple pre a m stopped) (hf : ∀ v, Triple (m v) (f v) post stopped) :
    Triple pre (a >>= f) post stopped := by
  intro w hw
  have hrun := ha w hw
  rw [exec_bind]
  cases hexec : a.exec w with
  | mk result w' =>
      rw [hexec] at hrun
      cases result with
      | ok v => exact hf v w' hrun
      | error s => exact hrun

/-- The rest may be looked at with what the first act gives in the world. -/
theorem bind_exec {w : World} {a : Act α} {f : α → Act β} {m : α → World → Prop}
    {post : β → World → Prop} (ha : Triple (· = w) a m stopped)
    (hf : ∀ v w', a.exec w = (.ok v, w') → m v w' → Triple (· = w') (f v) post stopped) :
    Triple (· = w) (a >>= f) post stopped := by
  rintro _ rfl
  have hrun := ha _ rfl
  rw [exec_bind]
  cases hexec : a.exec _ with
  | mk result w' =>
      rw [hexec] at hrun
      cases result with
      | ok v => exact hf v w' hexec hrun w' rfl
      | error s => exact hrun

/-- An act does what it does. -/
theorem self (a : Act α) (w : World) :
    Triple (· = w) a (fun v w' => a.exec w = (.ok v, w')) fun s w' => a.exec w = (.error s, w') := by
  rintro _ rfl
  cases hexec : a.exec _ with
  | mk result w' =>
      cases result with
      | ok v => rfl
      | error s => rfl

theorem throw {s : Stop} (h : ∀ w, pre w → stopped s w) :
    Triple pre (MonadExcept.throw s : Act α) post stopped :=
  fun w hw => h w hw

theorem raise {p : Panic} (h : ∀ w, pre w → stopped (.panic p) w) :
    Triple pre (Act.raise p : Act α) post stopped :=
  fun w hw => h w hw

theorem tryCatch {a : Act α} {handler : Stop → Act α} (ha : Triple pre a post stopped')
    (hhandler : ∀ s, Triple (stopped' s) (handler s) post stopped) :
    Triple pre (MonadExcept.tryCatch a handler) post stopped := by
  intro w hw
  have hrun := ha w hw
  have hexec' := exec_tryCatch a handler w
  cases hexec : a.exec w with
  | mk result w' =>
      rw [hexec] at hrun hexec'
      rw [hexec']
      cases result with
      | ok v => exact hrun
      | error s => exact hhandler s w' hrun

theorem of_world {a : Act α} (h : ∀ w, pre w → Triple (· = w) a post stopped) :
    Triple pre a post stopped :=
  fun w hw => h w hw w rfl

/-- Reading the world, the rest may be looked at in the world that was read. -/
theorem get {f : World → Act α} (h : ∀ w, pre w → Triple (· = w) (f w) post stopped) :
    Triple pre (MonadState.get >>= f) post stopped := by
  intro w hw
  rw [exec_bind]
  exact h w hw w rfl

theorem apply {a : Act α} {w : World} (h : Triple pre a post stopped) (hw : pre w) :
    Triple (· = w) a post stopped :=
  h.strengthen fun _ hsame => hsame ▸ hw

theorem done {v : α} {w : World} (h : post v w) : Triple (· = w) (Pure.pure v) post stopped :=
  pure fun _ hsame => hsame ▸ h

/-! ## Single changes -/

section Steps

variable {w : World} {post : β → World → Prop} {f : Unit → Act β}

theorem step {a : Act α} {f : α → Act β} {v : α} {w' : World} (ha : a.exec w = (.ok v, w'))
    (h : Triple (· = w') (f v) post stopped) : Triple (· = w) (a >>= f) post stopped := by
  rintro _ rfl
  rw [exec_bind, ha]
  exact h w' rfl

theorem write {e : Entry}
    (h : Triple (· = { w with log := w.log ++ [e] }) (f ()) post stopped) :
    Triple (· = w) (Act.write e >>= f) post stopped :=
  step rfl h

theorem setCell {t : TaskId} {turn : Cell.Turn Completion} {cell : Cell Completion}
    (h : Triple (· = w.turn t turn cell) (f ()) post stopped) :
    Triple (· = w) (Act.setCell t turn cell >>= f) post stopped :=
  step rfl h

theorem editCall {c : CallId} {g : Call → Call}
    (h : Triple (· = { w with calls := w.calls.modify c g }) (f ()) post stopped) :
    Triple (· = w) (Act.editCall c g >>= f) post stopped :=
  step rfl h

theorem newTask {cell : Cell Completion} {f : TaskId → Act β}
    (h : Triple (· = { w with cells := w.cells ++ [cell] }) (f w.cells.length) post stopped) :
    Triple (· = w) (Act.newTask cell >>= f) post stopped :=
  step rfl h

theorem write_last {e : Entry} {post : Unit → World → Prop}
    (h : post () { w with log := w.log ++ [e] }) : Triple (· = w) (Act.write e) post stopped := by
  rintro _ rfl
  exact h

theorem editCall_last {c : CallId} {g : Call → Call} {post : Unit → World → Prop}
    (h : post () { w with calls := w.calls.modify c g }) :
    Triple (· = w) (Act.editCall c g) post stopped := by
  rintro _ rfl
  exact h

/-- The consumer is refused, or is kept by the task, or the outcome that is there is handed to it. -/
theorem attachOr
    {perform : Performer} {refused : Act Unit} {t : TaskId} {h : Completion}
    {post : Unit → World → Prop}
    (hrefused : Triple (· = w) (refused >>= fun _ => Act.raise (.text Cell.secondConsumer)) post
      stopped)
    (hkept : ∀ cell cell', w.cells[t]? = some cell → cell.attach h = some (cell', none) →
      post () (w.turn t (.attached h none) cell'))
    (hhanded : ∀ cell cell' o, w.cells[t]? = some cell → cell.attach h = some (cell', some o) →
      Triple (· = w.turn t (.attached h (some o)) cell') (perform (.complete h o)) post stopped) :
    Triple (· = w) (Act.attachOr perform refused t h) post stopped := by
  refine step (v := w) rfl ?_
  cases hcell : w.cells[t]? with
  | none => exact hrefused
  | some cell =>
      rw [Option.bind_some]
      cases hattach : cell.attach h with
      | none => exact hrefused
      | some result =>
          obtain ⟨cell', outcome⟩ := result
          refine setCell ?_
          cases outcome with
          | none => exact done (hkept cell cell' hcell hattach)
          | some o => exact hhanded cell cell' o hcell hattach

end Steps

/-! ## Guards -/

theorem calling {a : Act α} (h : Triple pre a post stopped) (c : CallId) (piece : Piece) :
    Triple pre (Act.calling c piece a) post fun s w =>
      match s with
      | .panic p => ∃ w₀, stopped (.panic p) w₀ ∧
          w = { w₀ with log := w₀.log ++ [.mark (.escaped c piece p)] }
      | .tooDeep => stopped .tooDeep w := by
  refine h.tryCatch fun s => ?_
  cases s with
  | panic p =>
      refine of_world fun w hw => write (throw ?_)
      rintro _ rfl
      exact ⟨w, hw, rfl⟩
  | tooDeep => exact fun w hw => hw

/-- A guard stops hard only; any other panic is captured and becomes a failure. -/
theorem guarded {a : Act α} (h : Triple pre a post stopped) :
    Triple pre (Act.guarded a)
      (fun result w =>
        match result with
        | .ok v => post v w
        | .error e => ∃ p w₀, Stop.isHard (.panic p) = false ∧ stopped (.panic p) w₀ ∧
            w = { w₀ with log := w₀.log ++ [.trace (.panicCaptured p.message)] } ∧
            e = p.failure)
      fun s w => s.isHard = true ∧ stopped s w := by
  have hbody : Triple pre (do let v ← a; Pure.pure (.ok v) : Act (Except CallError α))
      (fun result w =>
        match result with
        | .ok v => post v w
        | .error e => ∃ p w₀, Stop.isHard (.panic p) = false ∧ stopped (.panic p) w₀ ∧
            w = { w₀ with log := w₀.log ++ [.trace (.panicCaptured p.message)] } ∧
            e = p.failure)
      stopped := bind h fun v => pure fun w hw => hw
  refine hbody.tryCatch fun s => ?_
  cases s with
  | tooDeep => exact throw fun w hw => ⟨rfl, hw⟩
  | panic p =>
      have hcapture : Stop.isHard (.panic p) = false →
          Triple (stopped (.panic p))
            (do
              Act.write (.trace (.panicCaptured p.message))
              Pure.pure (.error p.failure) : Act (Except CallError α))
            (fun result w =>
              match result with
              | .ok v => post v w
              | .error e => ∃ p w₀, Stop.isHard (.panic p) = false ∧ stopped (.panic p) w₀ ∧
                  w = { w₀ with log := w₀.log ++ [.trace (.panicCaptured p.message)] } ∧
                  e = p.failure)
            fun s w => s.isHard = true ∧ stopped s w := by
        intro hsoft
        exact of_world fun w hw => write (done ⟨p, w, hsoft, hw, rfl, rfl⟩)
      cases p with
      | alreadyResolved => exact throw fun w hw => ⟨rfl, hw⟩
      | text message => exact hcapture rfl
      | other => exact hcapture rfl

end Triple
end Act
end RouteDispatch
