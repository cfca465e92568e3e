import RouteDispatch.Proofs.Session.Staging

/-!
# Playing scripts

Plugins whose code follows scripts bring their call on as the scripts say.  While a plugin holds the
right to go on, all that its code does to tasks leaves the call alone; with the use of the right the
call comes to its next stage or ends, or the right goes to a task; and what the code does after that
finds the right away.  The stages run one inside the other, so this is shown for jobs up to a depth,
by induction on the depth.
-/

namespace RouteDispatch

/-! ## Scripted code -/

namespace Code

theorem Reaches.mono
    {ends ends' : Code .nothing → Prop} {code : Code .nothing} (h : code.Reaches ends)
    (himp : ∀ code, ends code → ends' code) : code.Reaches ends' := by
  induction h with
  | here h => exact .here (himp _ h)
  | panic p => exact .panic p
  | log r _ ih => exact .log r ih
  | create _ ih => exact .create ih
  | settle t o _ ih => exact .settle t o ih
  | attach t f _ ih => exact .attach t f ih
  | transform t f _ ih => exact .transform t f ih
  | chain t f _ ih => exact .chain t f ih
  | poll t waker _ ih => exact .poll t waker ih
  | state t _ ih => exact .state t ih
  | abandon t _ ih => exact .abandon t ih
  | inspect _ ih => exact .inspect ih
  | register name t _ ih => exact .register name t ih
  | find name _ ih => exact .find name ih
  | unregister name _ ih => exact .unregister name ih
  | tick _ ih => exact .tick ih

theorem Ends.plays {point : Point} {x : StageEnd Payload} {code : Code .nothing}
    (h : code.Ends point x) : code.Plays point (.ends x) :=
  h.mono fun _ => .ends

end Code

theorem Stop.isHard_panic {p : Panic} : (Stop.panic p).isHard = true ↔ p = .alreadyResolved := by
  cases p <;> simp [Stop.isHard]

theorem Completion.call?_of_not_isFor {c : CallId} {h : Completion} (hother : ¬ h.IsFor (· ≠ c)) :
    h.call? = some c := by
  by_contra hcall
  refine hother fun d hd => ?_
  rintro rfl
  exact hcall hd

namespace Setting

/-- Jobs bring the call on as the scripts say. -/
structure Drives (σ : Setting) (perform : Performer) : Prop where
  backs : σ.Backs perform
  state : Act.Serves True (· ≠ σ.call) (σ.When σ.State) perform
  goOn : ∀ (point : Point) (payload : Payload), (σ.right point).takes payload = true →
    σ.Spec (σ.Moving point.isEarly (σ.next point payload)) (perform (.goOn (σ.right point) payload))
      (fun _ => σ.State) σ.Stopped
  resumed : ∀ (point : Point) (x : StageEnd Payload) (f : Outcome → Code .nothing) (o : Outcome),
    (f o).Ends point x →
    σ.Spec (σ.Holds .task point (.ends x)) (perform (.complete (.resume (σ.right point) f) o))
      (fun _ => σ.State) fun _ => σ.State
  handled : ∀ o : Outcome,
    σ.Spec (σ.Moving false (o.bind σ.results)) (perform (.complete (.handled σ.pipeline) o))
      (fun _ => σ.State) σ.Stopped

variable {σ : Setting} {perform : Performer} {point : Point}

/-! ## Turns of tasks -/

section Turns

variable {w : World} {t : TaskId} {turn : Cell.Turn Completion} {cell : Cell Completion}
  (hlt : t < w.cells.length)

include hlt

theorem unkept_turned
    (turn : Cell.Turn Completion) (hothers : ∀ u, u ≠ t → (w.aspect σ.call).kept u = none)
    (hcell : cell.keptFor σ.call = none) :
    Unkept ((w.turn t turn cell).aspect σ.call) := by
  intro u
  rw [Aspect.aspect_turn hlt]
  by_cases hu : u = t
  · subst hu
    simpa using hcell
  · simpa [Function.update_of_ne hu] using hothers u hu

/-- The handler has not given a task yet if another completion handler had the turn. -/
theorem Unanswered.turned
    (h : σ.Unanswered (w.aspect σ.call)) (hturn : ∀ p o, turn ≠ .attached (.handled p) o) :
    σ.Unanswered ((w.turn t turn cell).aspect σ.call) := by
  obtain ⟨hescaped, hattached⟩ := h
  rw [Aspect.aspect_turn hlt]
  refine ⟨hescaped, fun u p o hmem => ?_⟩
  rcases List.mem_append.mp hmem with hold | hnew
  · exact hattached u p o hold
  · split at hnew
    · exact hturn p o (congrArg Prod.snd (List.mem_singleton.mp hnew)).symm
    · simp at hnew

theorem Holds.turned
    {place : Place} {stage : StageScript Payload} (h : σ.Holds place point stage (w.aspect σ.call))
    (hturn : ∀ p o, turn ≠ .attached (.handled p) o) (hcell : cell.keptFor σ.call = none) :
    σ.Holds place point stage ((w.turn t turn cell).aspect σ.call) where
  runs := by
    rw [Aspect.aspect_turn hlt]
    exact h.runs
  unkept := unkept_turned hlt turn (fun u _ => h.unkept u) hcell
  unanswered hearly := (h.unanswered hearly).turned hlt hturn
  goal := h.goal

end Turns

theorem keptFor_of_handler?_eq_none
    {c : CallId} {cell : Cell Completion} (h : cell.handler? = none) : cell.keptFor c = none := by
  simp [Cell.keptFor, h]

/-- Stages that end alike come to the same. -/
theorem Holds.of_ending
    {place : Place} {stage stage' : StageScript Payload} {a : Aspect}
    (h : σ.Holds place point stage a)
    (hend : stage'.ending (σ.replies.fate point) = stage.ending (σ.replies.fate point)) :
    σ.Holds place point stage' a :=
  { h with
    goal := (congrArg (·.bind (σ.next point)) (StageScript.verdict_congr hend)).trans h.goal }

/-! ## Plugins -/

/-- Code that does not use its continuation comes to the code that it is said to come to. -/
theorem run_reaches
    {own : Option Continuation} {ends : Code .nothing → Prop} {Q : Aspect → Prop}
    {R : Unit → Aspect → Prop} {S : Stop → Aspect → Prop}
    (hq : Act.Serves True (· ≠ σ.call) (σ.When Q) perform) (hS : ∀ s a, Q a → S s a)
    {code : Code .nothing} (h : code.Reaches ends)
    (hends : ∀ code, ends code → σ.Spec Q (Act.run perform own code) R S) :
    σ.Spec Q (Act.run perform own code) R S := by
  have hstep : ∀ {α : Type} {a : Act α} {f : α → Act Unit}, Act.Keeps True (σ.When Q) a →
      (∀ v, σ.Spec Q (f v) R S) → σ.Spec Q (a >>= f) R S :=
    fun ha hf => (Spec.of_keeps ha hS).bind hf
  have hread : ∀ {f : World → Act Unit}, (∀ w, σ.Spec Q (f w) R S) → σ.Spec Q (get >>= f) R S :=
    fun hf => Act.Triple.get fun w hw => (hf w).apply hw
  have hother : ∀ {h : Completion}, h.call? = none → h.IsFor (· ≠ σ.call) :=
    Completion.isFor_of_call?_eq_none
  induction h with
  | here h => exact hends _ h
  | panic p => exact Act.Triple.raise fun w hw => .inl (hw.mono (hS _))
  | log r _ ih => exact hstep (hq.allows.write (by trivial)) fun _ => ih
  | create _ ih => exact hstep hq.allows.newTask ih
  | settle t o _ ih => exact hstep (hq.upholds.settleMarked t o) ih
  | attach t f _ ih => exact hstep (hq.upholds.attach t (hother rfl) rfl) fun _ => ih
  | transform t f _ ih => exact hstep (hq.upholds.derive t (fun _ => hother rfl) fun _ => rfl) ih
  | chain t f _ ih => exact hstep (hq.upholds.derive t (fun _ => hother rfl) fun _ => rfl) ih
  | poll t waker _ ih => exact hstep (hq.upholds.poll t waker) ih
  | state t _ ih => exact hread fun w => ih _
  | abandon t _ ih => exact hstep (hq.upholds.abandon t) fun _ => ih
  | inspect _ ih => exact hstep (Act.Allows.look own) ih
  | register name t _ ih =>
      exact hstep (Act.Keeps.modify fun w hw => hq.stable.others _ w.table w.ticks hw) fun _ => ih
  | find name _ ih => exact hread fun w => ih _
  | unregister name _ ih =>
      exact hstep (Act.Keeps.modify fun w hw => hq.stable.others _ w.table w.ticks hw) fun _ => ih
  | tick _ ih => exact hstep hq.allows.tick ih

/-- What would use the right does not find it. -/
theorem withHeld_away
    {α : Type} {use : Continuation → Act α} {otherwise : Act α}
    (hconflict : Act.Keeps False σ.Conflict (Act.withHeld (some (σ.right point)) use otherwise))
    (hother : Act.Keeps True (σ.When σ.State) otherwise) :
    Act.Keeps True (σ.When σ.State) (Act.withHeld (some (σ.right point)) use otherwise) := by
  refine Spec.of_sound (R := fun _ => σ.State) (S := fun _ => σ.State) hconflict fun w _ hw => ?_
  obtain ⟨f, hf, haway⟩ := hw.footing
  exact Act.Triple.of_exec_eq (Act.exec_withHeld_away (k := σ.right point) hf haway _ _)
    (hother.apply fun _ => hw)

section Code

variable (hd : σ.Drives perform)

include hd

/-- Code may do anything when the right is away. -/
theorem run_away (code : Code .nothing) :
    Act.Keeps True (σ.When σ.State) (Act.run perform (some (σ.right point)) code) := by
  have hany : HoldsFor (fun _ => True) (some (σ.right point)) := fun _ _ => trivial
  have hconflict := hd.backs.conflict
  exact hd.state.upholds.runUsing
    (fun payload => withHeld_away (hconflict.allows.proceed hany payload) (.pure ()))
    (fun e => withHeld_away (hconflict.allows.abort hany e) (.pure ()))
    (withHeld_away (hconflict.allows.release hany) (.pure ()))
    (fun t f => withHeld_away (hconflict.upholds.entrust hany t f)
      (hd.state.upholds.attach t (Completion.isFor_of_call?_eq_none rfl) rfl)) code

/-- A stage ends as it is said to, or its code ends with the right. -/
theorem run_endsBy {x : StageEnd Payload} {code : Code .nothing} (h : Code.EndsBy point x code) :
    σ.Spec (σ.Holds .code point (.ends x)) (Act.run perform (some (σ.right point)) code)
      (fun _ a => σ.State a ∨ σ.Holds .code point (.ends .drop) a) fun _ => σ.State := by
  have hrest : ∀ code : Code .nothing, σ.Spec σ.State (Act.run perform (some (σ.right point)) code)
      (fun _ a => σ.State a ∨ σ.Holds .code point (.ends .drop) a) fun _ => σ.State := fun code =>
    Spec.weaken (run_away hd code) (fun _ => id) (fun _ _ => .inl) fun _ _ => id
  cases h with
  | proceed rest htakes =>
      have hproceed := proceed_spec hd.backs (htakes σ.pipeline)
        (hd.goOn point _ (htakes σ.pipeline))
      exact (hproceed.weaken (fun _ => id) (fun _ _ => id) fun _ _ => And.left).bind
        fun _ => hrest rest
  | abort e rest =>
      exact ((abort_spec hd.backs point e).weaken (fun _ => id) (fun _ _ => id)
        fun _ _ => .isOver).bind fun _ => hrest rest
  | release rest =>
      exact ((release_spec hd.backs point).weaken (fun _ => .inr) (fun _ _ => id)
        fun _ _ => .isOver).bind fun _ => hrest rest
  | skip => exact .pure fun _ => .inr

/-- The right goes to a task, unless the task refuses it. -/
theorem entrust_spec
    {next : Json → StageEnd Payload} {f : Outcome → Code .nothing}
    (hresumed : ∀ o, (f o).Ends point (StageScript.resumed next o)) (t : TaskId) :
    σ.Spec (σ.Holds .code point (.defers next)) (Act.entrust perform (some (σ.right point)) t f)
      (fun _ => σ.State) fun _ a => σ.State a ∨ σ.Holds .code point (.defers next) a := by
  refine .of_sound (hd.backs.conflict.upholds.entrust (fun _ _ => trivial) t f)
    fun w hsound hw => ?_
  obtain ⟨footing, hf, hheld⟩ := hw.footing
  refine Act.Triple.of_exec_eq (Act.exec_withHeld_held (k := σ.right point) hf hheld _ _) ?_
  obtain ⟨w₁, hexec, -, haspect⟩ := Act.exec_place (k := σ.right point) hf .task
  have hplaced : σ.Holds .task point (.defers next) (w₁.aspect σ.call) := by
    rw [haspect]
    exact hw.placed hf
  refine Act.Triple.step hexec (Act.Triple.attachOr ?_ (fun cell cell' hcell hattach _ => ?_)
    fun cell cell' o hcell hattach => ?_)
  · obtain ⟨footing₁, hf₁, -⟩ := hplaced.footing
    obtain ⟨w₂, hexec, -, haspect⟩ := Act.exec_place (k := σ.right point) hf₁ .code
    refine Act.Triple.step hexec (Act.Triple.raise ?_)
    rintro _ rfl
    refine .inl fun _ => .inr ?_
    rw [haspect]
    exact hplaced.placed hf₁
  · have hlt := (List.getElem?_eq_some_iff.mp hcell).1
    have hkept : cell'.keptFor σ.call = some (.resume (σ.right point) f) :=
      (Aspect.keptFor_eq_some_iff σ.call).mpr ⟨(Cell.handler?_of_attach hattach).2, rfl⟩
    obtain ⟨stage, hterminal, hf₁⟩ := hplaced.runs
    refine .deferred ⟨stage, hterminal, ?_⟩ (t := t) ?_
      (fun hearly => (hplaced.unanswered hearly).turned hlt (by simp)) hresumed hplaced.goal
    · rw [Aspect.aspect_turn hlt]
      exact hf₁
    · rw [Aspect.aspect_turn hlt, hkept]
      exact congrArg (Function.update · t _) (funext hplaced.unkept)
  · have hlt := (List.getElem?_eq_some_iff.mp hcell).1
    have hgone := keptFor_of_handler?_eq_none (c := σ.call) (Cell.handler?_of_attach hattach).2
    have hjob := hd.resumed point _ f o (hresumed o)
    refine (hjob.weaken (fun _ => id) (fun _ _ => id) fun _ _ => .inl).apply fun hsound => ?_
    have hfate : σ.replies.fate point = some o :=
      hsound.agrees.resolved t (σ.right point) f o rfl (.inr (by simp))
    refine (hplaced.turned hlt (by simp) hgone).of_ending ?_
    rw [hfate]
    rfl

/-- A plugin does what its script says, or its code ends with the right. -/
theorem run_plays {stage : StageScript Payload} {code : Code .nothing}
    (h : code.Plays point stage) :
    σ.Spec (σ.Holds .code point stage) (Act.run perform (some (σ.right point)) code)
      (fun _ a => σ.State a ∨ σ.Holds .code point (.ends .drop) a)
      fun _ a => σ.State a ∨ σ.Holds .code point stage a := by
  refine run_reaches (Holds.serves hd.backs .code point stage) (fun _ _ => .inr) h
    fun code hcode => ?_
  cases hcode with
  | ends h => exact (run_endsBy hd h).weaken (fun _ => id) (fun _ _ => id) fun _ _ => .inl
  | defers t rest hresumed =>
      exact (entrust_spec hd hresumed t).bind fun _ =>
        Spec.weaken (run_away hd rest) (fun _ => id) (fun _ _ => .inl) fun _ _ => .inl

/-- What the code of a stage leaves behind when it stops: the call is over, or the panic has just
left the code without the right, or the right is lost. -/
def Leaves (σ : Setting) (piece : Piece) (point : Point) (stage : StageScript Payload) (s : Stop)
    (w : World) : Prop :=
  s = .tooDeep ∨ ∃ p, s = .panic p ∧ (σ.Sound w →
    σ.Over (w.aspect σ.call) ∨
    (σ.State (w.aspect σ.call) ∧ ∃ front, w.log = front ++ [.mark (.escaped σ.call piece p)]) ∨
    (σ.Moving false (σ.staged point stage) (w.aspect σ.call) ∧
      .mark (.escaped σ.call piece p) ∈ w.log ∧ .mark (.spent σ.call point .lost) ∈ w.log))

omit hd in
theorem leaves_of_over
    {piece : Piece} {stage : StageScript Payload} {s : Stop} {w : World}
    (h : σ.When σ.Over w ∨ (True ∧ s = .tooDeep)) : σ.Leaves piece point stage s w := by
  rcases h with hw | ⟨-, rfl⟩
  · cases s with
    | panic p => exact .inr ⟨p, rfl, fun hsound => .inl (hw hsound)⟩
    | tooDeep => exact .inl rfl
  · exact .inl rfl

omit hd in
/-- Whatever happens to the right when the nesting is too deep, the stop says so. -/
theorem forfeit_tooDeep {piece : Piece} {stage : StageScript Payload} :
    Act.Triple (fun _ => True)
      (do
        Act.forfeit (some (σ.right point))
        throw .tooDeep : Act Unit)
      (fun _ => σ.When fun a => σ.State a ∨ σ.Holds .code point (.ends .drop) a)
      (σ.Leaves piece point stage) := by
  have hforfeit : Act.Triple (fun _ => True) (Act.forfeit (some (σ.right point)))
      (fun _ _ => True) (σ.Leaves piece point stage) :=
    Act.withHeld_triple
      (fun _ _ => Act.Triple.of_world fun _ _ => Act.Triple.editCall
        (Act.Triple.write_last trivial))
      (Act.Triple.pure fun _ => id)
  exact hforfeit.bind fun _ => Act.Triple.throw fun _ _ => .inl rfl

/-- A panic that leaves code which holds the right loses it; otherwise the right is away. -/
theorem forfeit_triple
    {piece : Piece} (hpiece : piece ≠ .handler) {stage : StageScript Payload} {p : Panic}
    {w : World} (hw : σ.When (fun a => σ.State a ∨ σ.Holds .code point stage a) w) :
    Act.Triple (· = { w with log := w.log ++ [.mark (.escaped σ.call piece p)] })
      (do
        Act.forfeit (some (σ.right point))
        throw (.panic p) : Act Unit)
      (fun _ => σ.When fun a => σ.State a ∨ σ.Holds .code point (.ends .drop) a)
      (σ.Leaves piece point stage) := by
  have hmark : (Entry.mark (.escaped σ.call piece p)).marksHandler σ.call = false := by
    cases piece <;> simp_all [Entry.marksHandler]
  by_cases hsound : σ.Sound { w with log := w.log ++ [.mark (.escaped σ.call piece p)] }
  · rcases hw.logged hmark hsound with hstate | hholds
    · obtain ⟨f, hf, haway⟩ := hstate.footing
      refine Act.Triple.step (Act.exec_withHeld_away (k := σ.right point) hf haway _ _)
        (Act.Triple.throw ?_)
      rintro _ rfl
      exact .inr ⟨p, rfl, fun _ => .inr (.inl ⟨hstate, w.log, rfl⟩)⟩
    · obtain ⟨f, hf, hheld⟩ := hholds.footing
      obtain ⟨w₁, hexec, hlog, haspect⟩ := Act.exec_spend (k := σ.right point) hf .lost
      refine Act.Triple.step
        ((Act.exec_withHeld_held (k := σ.right point) hf hheld _ _).trans hexec)
        (Act.Triple.throw ?_)
      rintro _ rfl
      refine .inr ⟨p, rfl, fun _ => .inr (.inr ⟨?_, by simp [hlog], by simp [hlog]⟩)⟩
      have hmoving := (hholds.spent hf).late
      rwa [← haspect] at hmoving
  · have hforfeit : Act.Keeps False σ.Conflict (Act.forfeit (some (σ.right point))) :=
      hd.backs.conflict.allows.forfeit fun _ _ => trivial
    refine ((hforfeit.stops fun s w hw => ?_).apply hsound).bind fun _ =>
      Act.Triple.throw fun w hw => .inr ⟨p, rfl, fun hsound => absurd hsound hw⟩
    exact leaves_of_over (.inl (.of_conflict (hw.resolve_right fun hfalse => hfalse.1)))

/-- Code that holds the right is run; in a panic the right is lost. -/
theorem runHolding_triple
    {stage : StageScript Payload} (piece : Piece) (hpiece : piece ≠ .handler) {code : Code .nothing}
    (h : code.Plays point stage) :
    Act.Triple (σ.When (σ.Holds .code point stage))
      (Act.runHolding perform (σ.right point) piece code)
      (fun _ => σ.When σ.State) (σ.Leaves piece point stage) := by
  have hcalling := Act.Triple.calling (run_plays hd h) σ.call piece
  refine Act.Triple.bind
    (m := fun _ => σ.When fun a => σ.State a ∨ σ.Holds .code point (.ends .drop) a)
    (hcalling.tryCatch fun s => ?_) fun _ => ?_
  · cases s with
    | tooDeep => exact forfeit_tooDeep.strengthen fun _ _ => trivial
    | panic p =>
        refine Act.Triple.of_world ?_
        rintro w ⟨w₀, hw, rfl⟩
        exact forfeit_triple hd hpiece (hw.resolve_right (by simp))
  · exact Act.Triple.stops (release_spec hd.backs point) fun _ _ => leaves_of_over

/-- What a guard may find: the failure that a panic becomes is what the call comes to, or the call
is over or cut off. -/
def Guards (σ : Setting) (s : Stop) (w : World) : Prop :=
  s = .tooDeep ∨ ∃ p, s = .panic p ∧ (σ.Sound w →
    (p = .alreadyResolved → σ.State (w.aspect σ.call)) ∧
    (p ≠ .alreadyResolved → (σ.Over (w.aspect σ.call) ∨
      σ.Moving false (.error p.failure) (w.aspect σ.call)) ∨
      (σ.State (w.aspect σ.call) ∧
        ∃ front point, w.log = front ++ [.mark (.escaped σ.call (.plugin point) p)])))

omit hd in
theorem Leaves.guards
    {stage : StageScript Payload} {s : Stop} {w : World}
    (h : σ.Leaves (.plugin point) point stage s w) :
    σ.Guards s w := by
  refine h.imp_right ?_
  rintro ⟨p, rfl, hleaves⟩
  refine ⟨p, rfl, fun hsound => ?_⟩
  rcases hleaves hsound with hover | ⟨hstate, front, hlog⟩ | ⟨hmoving, hescaped, hlost⟩
  · exact ⟨fun _ => .isOver hover, fun _ => .inl (.inl hover)⟩
  · exact ⟨fun _ => hstate, fun _ => .inr ⟨hstate, front, point, hlog⟩⟩
  · rw [staged_of_panicked (hsound.agrees.lost point p hlost hescaped)] at hmoving
    refine ⟨fun hhard => ?_, fun _ => .inl (.inr hmoving)⟩
    subst hhard
    exact absurd hlost (hsound.orderly.plugin point hescaped)

omit hd in
/-- A guard around a stage brings the call on. -/
theorem guarded_triple
    (hb : σ.Backs perform) {a : Act Unit} {P : World → Prop}
    (ha : Act.Triple P a (fun _ => σ.When σ.State) σ.Guards) :
    Act.Triple P
      (do
        match ← Act.guarded a with
        | .ok () => pure ()
        | .error e => Act.fail perform σ.pipeline e)
      (fun _ => σ.When σ.State) fun s w => σ.When (σ.Stopped s) w ∨ (True ∧ s = .tooDeep) := by
  refine Act.Triple.bind (ha.guarded.stops ?_) fun result => ?_
  · rintro s w ⟨hhard, hdeep | ⟨p, rfl, hguards⟩⟩
    · exact .inr ⟨trivial, hdeep⟩
    · refine .inl fun hsound => ⟨(hguards hsound).1 (Stop.isHard_panic.mp hhard), fun hsoft => ?_⟩
      simp [hhard] at hsoft
  · cases result with
    | ok v => exact Act.Triple.pure fun _ => id
    | error e =>
        refine (fail_triple hb e).weaken ?_ (fun _ _ hw => hw.mono fun _ => .isOver)
          fun s _ hw => hw.imp_left fun hw => hw.mono fun _ hover => hover.stopped s
        rintro _ ⟨p, w, hsoft, hguards, rfl, rfl⟩ hsound
        obtain ⟨q, hq, hguards⟩ := hguards.resolve_left (by simp)
        obtain rfl := Stop.panic.inj hq
        have hbefore : σ.Sound w := hsound.of_history (fun _ => id) (List.prefix_append ..)
        have hsame : World.aspect σ.call
            { w with log := w.log ++ [.trace (.panicCaptured p.message)] } = w.aspect σ.call := by
          simp [Entry.marksHandler]
        rw [hsame]
        refine ((hguards hbefore).2 fun hhard => ?_).imp_right ?_
        · simp [Stop.isHard_panic.mpr hhard] at hsoft
        · rintro ⟨hstate, front, point, hlog⟩
          exact ⟨hstate, front, point, p, by simp [hlog]⟩

/-- A plugin brings the call to what its script says. -/
theorem runPlugin_spec
    (point : Point) {stage : StageScript Payload} (plugin : String)
    (code : CallView → Code .nothing)
    (h : (code (σ.view.reached point)).Plays point stage) :
    σ.Spec (σ.Moving point.isEarly (σ.staged point stage))
      (Act.runPlugin perform σ.pipeline point plugin code) (fun _ => σ.State) σ.Stopped := by
  refine .of_sound (hd.backs.conflict.upholds.runPlugin trivial point plugin code) fun w _ hw => ?_
  obtain ⟨held, -, old, hterminal, hf⟩ := hw.runs
  obtain ⟨w₁, hexec, haspect⟩ := Act.exec_enter hf point.stage
  have hf₁ : (w₁.aspect σ.call).footing? = some ⟨σ.view.reached point, held, none⟩ := by
    rw [haspect]
    simp [hterminal, CallView.reached]
  obtain ⟨call, hcall, hfooting⟩ := Act.exists_call_of_footing hf₁
  have hview : call.view = σ.view.reached point := congrArg Footing.view hfooting
  refine Act.Triple.step hexec (Act.Triple.step (v := w₁) rfl (Act.Triple.write ?_))
  rw [hcall]
  dsimp only
  rw [hview]
  have hf₂ : (World.aspect σ.call { w₁ with
      log := w₁.log ++
        [.trace (.pluginStarted (w₁.callRef σ.call) point σ.route.name plugin)] }).footing? =
      some ⟨σ.view.reached point, held, none⟩ := by
    simpa using hf₁
  obtain ⟨w₂, hexec, -, hplaced⟩ := Act.exec_place (k := σ.right point) hf₂ .code
  refine Act.Triple.step hexec ?_
  have hholding := (runHolding_triple hd (.plugin point) (by simp) h).stops fun _ _ => Leaves.guards
  refine (guarded_triple hd.backs hholding).apply fun _ => ?_
  have hsame : w₂.aspect σ.call = { w.aspect σ.call with
      footing? := some ⟨σ.view.reached point, some (point, .code), none⟩ } := by
    rw [hplaced]
    simp [haspect, Entry.marksHandler]
  rw [hsame]
  refine ⟨⟨point.stage, ?_, rfl⟩, hw.unkept, hw.unanswered, hw.goal⟩
  cases point <;> rfl

/-! ## The handler -/

omit hd in
theorem Invoked.mem_log {args : Args} {w : World} (h : σ.Invoked args (w.aspect σ.call)) :
    .mark (.invoked σ.call args) ∈ w.log :=
  (List.mem_filter.mp h.invoked).1

omit hd in
theorem guards_of_stopped {s : Stop} {w : World}
    (h : σ.When (σ.Stopped s) w ∨ (True ∧ s = .tooDeep)) :
    σ.Guards s w := by
  rcases h with hw | ⟨-, rfl⟩
  · cases s with
    | tooDeep => exact .inl rfl
    | panic p =>
        refine .inr ⟨p, rfl, fun hsound => ⟨fun _ => (hw hsound).1, fun hp => .inl (.inl ?_)⟩⟩
        refine (hw hsound).2 (by_contra fun hhard => hp ?_)
        exact Stop.isHard_panic.mp (by simpa using hhard)
  · exact .inl rfl

omit hd in
/-- A handler that panics fails the call. -/
theorem calling_handler_triple (hb : σ.Backs perform) (args : Args) (code : Code .task) :
    Act.Triple (σ.When (σ.Invoked args)) (Act.calling σ.call .handler (Act.run perform none code))
      (fun _ => σ.When (σ.Invoked args)) σ.Guards := by
  have hrun := (Invoked.serves hb args).run (holdsFor_none _) code
  refine (Act.Triple.calling hrun σ.call .handler).stops fun s w hw => ?_
  cases s with
  | tooDeep => exact .inl rfl
  | panic p =>
      obtain ⟨w, hw, rfl⟩ := hw
      refine .inr ⟨p, rfl, fun hsound => ⟨fun hhard => ?_, fun _ => .inl (.inr ?_)⟩⟩
      · subst hhard
        exact absurd (by simp) hsound.captured
      · have hinvoked := (hw.resolve_right (by simp))
          (hsound.of_history (fun _ => id) (List.prefix_append ..))
        have hhandled : σ.replies.handled args = .error p.failure :=
          hsound.agrees.panicked args p (List.mem_append_left _ hinvoked.mem_log) (by simp)
        have hgoal := hinvoked.goal
        rw [hhandled] at hgoal
        rw [Aspect.aspect_logged]
        exact ⟨hinvoked.runs, hinvoked.unkept, nofun, hgoal⟩

/-- The call waits for the task of the handler, unless the task has a consumer. -/
theorem attach_handled_spec (args : Args) (t : TaskId) :
    σ.Spec (σ.Invoked args) (Act.attach perform t (.handled σ.pipeline)) (fun _ => σ.State)
      σ.Stopped := by
  refine .of_sound (hd.backs.conflict.upholds.attach t (fun _ _ => trivial) rfl) fun w _ hw => ?_
  refine Act.Triple.attachOr ?_ (fun cell cell' hcell hattach _ => ?_)
    fun cell cell' o hcell hattach => ?_
  · refine Act.Triple.of_exec_eq (b := Act.raise (.text Cell.secondConsumer)) rfl
      (Act.Triple.raise ?_)
    rintro _ rfl
    obtain ⟨held, haway, stage, -, hf⟩ := hw.runs
    exact .inl fun _ =>
      Over.stopped ⟨⟨_, hf, haway, .inr ⟨args, hw.invoked, hw.unanswered⟩⟩, hw.unkept⟩ _
  · have hkept : cell'.keptFor σ.call = some (.handled σ.pipeline) :=
      (Aspect.keptFor_eq_some_iff σ.call).mpr ⟨(Cell.handler?_of_attach hattach).2, rfl⟩
    rw [Aspect.aspect_turn (List.getElem?_eq_some_iff.mp hcell).1, hkept]
    refine .called (t := t) hw.runs ?_ hw.invoked hw.goal
    exact congrArg (Function.update · t _) (funext hw.unkept)
  · have hlt := (List.getElem?_eq_some_iff.mp hcell).1
    have hgone := keptFor_of_handler?_eq_none (c := σ.call) (Cell.handler?_of_attach hattach).2
    refine (hd.handled o).apply fun hsound => ?_
    have hhandled : σ.replies.handled args = o :=
      hsound.agrees.answered args t σ.pipeline o rfl hw.mem_log (.inr (by simp))
    have hunkept := unkept_turned (σ := σ) hlt (.attached (.handled σ.pipeline) (some o))
      (fun u _ => hw.unkept u) hgone
    have hgoal := hw.goal
    rw [hhandled] at hgoal
    refine ⟨?_, hunkept, by simp, hgoal⟩
    rw [Aspect.aspect_turn hlt]
    exact hw.runs

/-- The handler is run, and its result brings the call on when it is there. -/
theorem runHandler_spec (args : Args) :
    σ.Spec (σ.Moving true ((σ.replies.handled args).bind σ.results))
      (Act.runHandler perform σ.pipeline args) (fun _ => σ.State) σ.Stopped := by
  refine .of_sound (hd.backs.conflict.upholds.runHandler trivial args) fun w _ hw => ?_
  obtain ⟨held, haway, old, hterminal, hf⟩ := hw.runs
  obtain ⟨w₁, hexec, haspect⟩ := Act.exec_enter hf .handler
  refine Act.Triple.step hexec
    (Act.Triple.step (v := w₁) rfl (Act.Triple.write (Act.Triple.write ?_)))
  have hbody := (calling_handler_triple hd.backs args (σ.route.handler.invoke args)).bind fun t =>
    Act.Triple.stops (attach_handled_spec hd args t) fun _ _ => guards_of_stopped
  refine (guarded_triple hd.backs hbody).apply fun _ => ?_
  obtain ⟨hescaped, hattached⟩ := hw.unanswered rfl
  rw [Aspect.aspect_logged, Aspect.aspect_logged, haspect]
  refine ⟨⟨held, haway, .handler, rfl, ?_⟩, hw.unkept, ⟨?_, hattached⟩, ?_, hw.goal⟩
  · simp [hterminal]
  · simpa [Entry.marksHandler] using hescaped
  · simp [Entry.marksHandler]

/-! ## Stages -/

variable (hfits : σ.scripts.Fits σ.route)

include hfits

theorem callStage_spec (i : Nat) (args : Args) :
    σ.Spec
      (σ.Moving true
        (σ.scripts.evaluateCall σ.replies σ.view σ.route.attachments.length i args))
      (Act.callStage perform σ.pipeline i args) (fun _ => σ.State) σ.Stopped := by
  unfold Act.callStage
  cases hplugin : σ.route.attachments[i]? with
  | none =>
      rw [Scripts.evaluateCall_of_le _ _ _ (List.getElem?_eq_none_iff.mp hplugin)]
      exact runHandler_spec hd args
  | some a =>
      rw [Scripts.evaluateCall_of_lt _ _ _ (List.getElem?_eq_some_iff.mp hplugin).1]
      exact runPlugin_spec hd (.call i) a.plugin.name
        (fun view => a.plugin.modifyCall a.binding view args) (hfits.call i a hplugin _ args)

theorem resultStage_spec (i : Nat) (v : Json) :
    σ.Spec
      (σ.Moving false
        (σ.scripts.evaluateResult σ.replies σ.view σ.route.attachments.length i v))
      (Act.resultStage perform σ.pipeline i v) (fun _ => σ.State) σ.Stopped := by
  unfold Act.resultStage
  cases hplugin : σ.route.attachments[i]? with
  | none =>
      rw [Scripts.evaluateResult_of_le _ _ _ (List.getElem?_eq_none_iff.mp hplugin)]
      exact (succeed_spec hd.backs v).weaken (fun _ => .inr) (fun _ _ => .isOver) fun s _ hover =>
        hover.stopped s
  | some a =>
      rw [Scripts.evaluateResult_of_lt _ _ _ (List.getElem?_eq_some_iff.mp hplugin).1]
      exact runPlugin_spec hd (.result i) a.plugin.name
        (fun view => a.plugin.modifyResult a.binding view v) (hfits.result i a hplugin _ v)

theorem goOnJob_spec {payload : Payload} (htakes : (σ.right point).takes payload = true) :
    σ.Spec (σ.Moving point.isEarly (σ.next point payload))
      (Act.goOn perform (σ.right point) payload)
      (fun _ => σ.State) σ.Stopped := by
  cases point with
  | call i =>
      cases payload with
      | args args => exact callStage_spec hd hfits (i + 1) args
      | result v => simp [Continuation.takes] at htakes
  | result i =>
      cases payload with
      | args args => simp [Continuation.takes] at htakes
      | result v => exact resultStage_spec hd hfits (i + 1) v

theorem handledJob_spec (o : Outcome) :
    σ.Spec (σ.Moving false (o.bind σ.results)) (Act.complete perform (.handled σ.pipeline) o)
      (fun _ => σ.State) σ.Stopped := by
  cases o with
  | ok v =>
      refine Act.Triple.of_world fun w hw => Act.Triple.write ?_
      exact (resultStage_spec hd hfits 0 v).apply (hw.logged rfl)
  | error e =>
      exact (fail_spec hd.backs e).weaken (fun _ => .inr) (fun _ _ => .isOver) fun s _ hover =>
        hover.stopped s

omit hfits in
theorem resumedJob_spec
    {x : StageEnd Payload} {f : Outcome → Code .nothing} {o : Outcome} (h : (f o).Ends point x) :
    σ.Spec (σ.Holds .task point (.ends x)) (Act.complete perform (.resume (σ.right point) f) o)
      (fun _ => σ.State) fun _ => σ.State := by
  refine .of_sound (hd.backs.conflict.completeJob (fun _ _ => trivial) o) fun w _ hw => ?_
  obtain ⟨footing, hf, -⟩ := hw.footing
  obtain ⟨w₁, hexec, -, haspect⟩ := Act.exec_place (k := σ.right point) hf .code
  have hholding := runHolding_triple hd (.deferred point) (by simp) h.plays
  refine Act.Triple.step hexec ((hholding.stops ?_).apply fun _ => ?_)
  · rintro s w (hdeep | ⟨p, rfl, hleaves⟩)
    · exact .inr ⟨trivial, hdeep⟩
    · refine .inl fun hsound => ?_
      rcases hleaves hsound with hover | ⟨hstate, -⟩ | ⟨-, hescaped, hlost⟩
      · exact .isOver hover
      · exact hstate
      · exact absurd hlost (hsound.orderly.deferred point p hescaped)
  · rw [haspect]
    exact hw.placed hf

end Code
end Setting
end RouteDispatch
