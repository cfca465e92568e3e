import RouteDispatch.Proofs.Session.Aspect
import RouteDispatch.Proofs.Session.Script

/-!
# Stages of a scripted call

A call whose plugins are scripted is followed from stage to stage.  At each point what remains of
the evaluation is the same outcome, the goal.  Between two steps of a run the call has ended with
the goal, or its right to go on is kept by the task that a stage was deferred to, or by the task of
the handler.  All this is under the condition that what has happened so far agrees with the replies
and is orderly; without it nothing is said.
-/

namespace RouteDispatch

/-! ## What has happened so far -/

theorem Occurs.extend
    {condition : List Entry → Entry → Prop} {log log' : List Entry} (h : Occurs condition log)
    (hlog : log <+: log') : Occurs condition log' := by
  obtain ⟨before, e, behind, rfl, he⟩ := h
  obtain ⟨rest, rfl⟩ := hlog
  exact ⟨before, e, behind ++ rest, by simp, he⟩

namespace World

/-- What has become of a call's tasks, its stages and its handler agrees with the replies. -/
structure Agrees (w : World) (c : CallId) (x : Replies) : Prop where
  resolved : ∀ t k f o, k.pipeline.call = c →
    (t, .settled o (.run (.resume k f))) ∈ w.turns ∨
    (t, .attached (.resume k f) (some o)) ∈ w.turns →
    x.fate k.point = some o
  dropped : ∀ t k f, k.pipeline.call = c → (t, .abandoned (some (.resume k f))) ∈ w.turns →
    x.fate k.point = none
  -- A stage that has handed its continuation on, or used it otherwise, is not one that panics.
  entrusted : ∀ t k f o, k.pipeline.call = c → (t, .attached (.resume k f) o) ∈ w.turns →
    x.panicked k.point = none
  used : ∀ point fate, .mark (.spent c point fate) ∈ w.log → fate ≠ .lost →
    x.panicked point = none
  lost : ∀ point p, .mark (.spent c point .lost) ∈ w.log →
    .mark (.escaped c (.plugin point) p) ∈ w.log → x.panicked point = some p
  answered : ∀ args t p o, p.call = c → .mark (.invoked c args) ∈ w.log →
    (t, .settled o (.run (.handled p))) ∈ w.turns ∨ (t, .attached (.handled p) (some o)) ∈ w.turns →
    x.handled args = o
  panicked : ∀ args p, .mark (.invoked c args) ∈ w.log → .mark (.escaped c .handler p) ∈ w.log →
    x.handled args = .error p.failure

/-- A stage of the call ends in one way only, its panics can be captured, and the task of the
handler is not given up. -/
structure IsOrderly (w : World) (c : CallId) : Prop where
  uncut : ¬ CutOff c w.log
  deferred : ∀ point p, .mark (.escaped c (.deferred point) p) ∈ w.log →
    .mark (.spent c point .lost) ∉ w.log
  plugin : ∀ point, .mark (.escaped c (.plugin point) .alreadyResolved) ∈ w.log →
    .mark (.spent c point .lost) ∉ w.log
  kept : ∀ t p, p.call = c → (t, .abandoned (some (.handled p))) ∉ w.turns

variable {w w' : World} {c : CallId} {x : Replies} (hturns : w.turns ⊆ w'.turns)
  (hlog : w.log <+: w'.log)

include hturns hlog

theorem Agrees.of_history (h : w'.Agrees c x) : w.Agrees c x where
  resolved t k f o hk ht := h.resolved t k f o hk (ht.imp (hturns ·) (hturns ·))
  dropped t k f hk ht := h.dropped t k f hk (hturns ht)
  entrusted t k f o hk ht := h.entrusted t k f o hk (hturns ht)
  used point fate hspent := h.used point fate (hlog.subset hspent)
  lost point p hspent hp := h.lost point p (hlog.subset hspent) (hlog.subset hp)
  answered args t p o hp hargs ht :=
    h.answered args t p o hp (hlog.subset hargs) (ht.imp (hturns ·) (hturns ·))
  panicked args p hargs hp := h.panicked args p (hlog.subset hargs) (hlog.subset hp)

theorem IsOrderly.of_history (h : w'.IsOrderly c) : w.IsOrderly c where
  uncut hcut := h.uncut (hcut.extend hlog)
  deferred point p hp hspent := h.deferred point p (hlog.subset hp) (hlog.subset hspent)
  plugin point hp hspent := h.plugin point (hlog.subset hp) (hlog.subset hspent)
  kept t p hp ht := h.kept t p hp (hturns ht)

end World

/-! ## How the call stands -/

/-- A call, the scripts of its plugins, the replies, and what it comes to. -/
structure Setting where
  call : CallId
  route : Route
  view : CallView
  scripts : Scripts
  replies : Replies
  goal : Outcome

/-- Stages of the way to the handler. -/
def Point.isEarly : Point → Bool
  | .call _ => true
  | .result _ => false

/-- The right is not with running code. -/
def IsAway (held : Option (Point × Place)) : Prop :=
  ∀ point, held ≠ some (point, .code)

namespace Setting

variable (σ : Setting)

abbrev pipeline : Pipeline := ⟨σ.call, σ.route⟩

abbrev right (point : Point) : Continuation := ⟨σ.pipeline, point⟩

/-- What comes of something that is handed on at a point. -/
def next (point : Point) (payload : Payload) : Outcome :=
  σ.scripts.evaluateFrom σ.replies σ.view σ.route.attachments.length point payload

/-- What comes of a stage at a point. -/
def staged (point : Point) (stage : StageScript Payload) : Outcome :=
  (stage.verdict σ.replies point).bind (σ.next point)

/-- What comes of the handler's result. -/
def results (v : Json) : Outcome :=
  σ.scripts.evaluateResult σ.replies σ.view σ.route.attachments.length 0 v

/-- The call has not ended, and its right is in a place. -/
def Runs (held : Option (Point × Place)) (a : Aspect) : Prop :=
  ∃ stage, stage.isTerminal = false ∧ a.footing? = some ⟨{ σ.view with stage }, held, none⟩

/-- No task waits to bring the call on. -/
def Unkept (a : Aspect) : Prop :=
  ∀ t, a.kept t = none

/-- The handler has neither panicked nor given a task. -/
def Unanswered (a : Aspect) : Prop :=
  (∀ p, .mark (.escaped σ.call .handler p) ∉ a.marks) ∧
    ∀ t p o, (t, .attached (.handled p) o) ∉ a.turns

/-- The call is between two stages, and what remains comes to an outcome. -/
structure Moving (early : Bool) (o : Outcome) (a : Aspect) : Prop where
  runs : ∃ held, IsAway held ∧ σ.Runs held a
  unkept : Unkept a
  unanswered : early = true → σ.Unanswered a
  goal : o = σ.goal

/-- The right is at a point in a place, and the stage is to go as a script says. -/
structure Holds (place : Place) (point : Point) (stage : StageScript Payload) (a : Aspect) :
    Prop where
  runs : σ.Runs (some (point, place)) a
  unkept : Unkept a
  unanswered : point.isEarly = true → σ.Unanswered a
  goal : σ.staged point stage = σ.goal

/-- The handler has been invoked. -/
structure Invoked (args : Args) (a : Aspect) : Prop where
  runs : ∃ held, IsAway held ∧ σ.Runs held a
  unkept : Unkept a
  unanswered : σ.Unanswered a
  invoked : .mark (.invoked σ.call args) ∈ a.marks
  goal : (σ.replies.handled args).bind σ.results = σ.goal

/-- Nothing brings the call on any more: it has ended, or the handler gave no task that could be
waited for. -/
structure Over (a : Aspect) : Prop where
  footing : ∃ f, a.footing? = some f ∧ IsAway f.held ∧
    (f.outcome? = some σ.goal ∨
      ∃ args, .mark (.invoked σ.call args) ∈ a.marks ∧ σ.Unanswered a)
  unkept : Unkept a

/-- How the call stands between two steps. -/
inductive State (a : Aspect) : Prop where
  | isOver (h : σ.Over a)
  | deferred {point : Point} {next : Json → StageEnd Payload} {t : TaskId}
      {f : Outcome → Code .nothing}
      (runs : σ.Runs (some (point, .task)) a)
      (kept : a.kept = Function.update (fun _ => none) t (some (.resume (σ.right point) f)))
      (unanswered : point.isEarly = true → σ.Unanswered a)
      (resumed : ∀ o, (f o).Ends point (StageScript.resumed next o))
      (goal : σ.staged point (.defers next) = σ.goal)
  | called {args : Args} {t : TaskId} (runs : ∃ held, IsAway held ∧ σ.Runs held a)
      (kept : a.kept = Function.update (fun _ => none) t (some (.handled σ.pipeline)))
      (invoked : .mark (.invoked σ.call args) ∈ a.marks)
      (goal : (σ.replies.handled args).bind σ.results = σ.goal)

/-- What a job of the call leaves behind when it stops: a stop that guards capture finds nothing
left to be done. -/
def Stopped (s : Stop) (a : Aspect) : Prop :=
  σ.State a ∧ (s.isHard = false → σ.Over a)

variable {σ}

theorem Moving.late {early : Bool} {o : Outcome} {a : Aspect} (h : σ.Moving early o a) :
    σ.Moving false o a :=
  { h with unanswered := nofun }

theorem State.footing {a : Aspect} (h : σ.State a) :
    ∃ f, a.footing? = some f ∧ IsAway f.held := by
  cases h with
  | isOver h =>
      obtain ⟨f, hf, haway, -⟩ := h.footing
      exact ⟨f, hf, haway⟩
  | deferred runs =>
      obtain ⟨stage, -, hf⟩ := runs
      exact ⟨_, hf, fun point => by simp⟩
  | called runs =>
      obtain ⟨held, haway, stage, -, hf⟩ := runs
      exact ⟨_, hf, haway⟩

/-- A call that is not over runs. -/
theorem State.over_or_runs {a : Aspect} (h : σ.State a) : σ.Over a ∨ ∃ held, σ.Runs held a := by
  cases h with
  | isOver h => exact .inl h
  | deferred runs => exact .inr ⟨_, runs⟩
  | called runs =>
      obtain ⟨held, -, hruns⟩ := runs
      exact .inr ⟨held, hruns⟩

theorem Over.stopped {a : Aspect} (h : σ.Over a) (s : Stop) : σ.Stopped s a :=
  ⟨.isOver h, fun _ => h⟩

theorem Holds.footing
    {place : Place} {point : Point} {stage : StageScript Payload} {a : Aspect}
    (h : σ.Holds place point stage a) :
    ∃ f, a.footing? = some f ∧ f.held = some (point, place) := by
  obtain ⟨stage, -, hf⟩ := h.runs
  exact ⟨_, hf, rfl⟩

/-- The right changes its place. -/
theorem Holds.placed
    {place place' : Place} {point : Point} {stage : StageScript Payload} {a : Aspect} {f : Footing}
    (h : σ.Holds place point stage a) (hf : a.footing? = some f) :
    σ.Holds place' point stage
      { a with footing? := some { f with held := some (point, place') } } := by
  obtain ⟨stage, hterminal, hf'⟩ := h.runs
  obtain rfl := Option.some.inj (hf.symm.trans hf')
  exact ⟨⟨stage, hterminal, rfl⟩, h.unkept, h.unanswered, h.goal⟩

/-- When the right has been used, the call is between two stages. -/
theorem Holds.spent
    {place : Place} {point : Point} {stage : StageScript Payload} {a : Aspect} {f : Footing}
    (h : σ.Holds place point stage a) (hf : a.footing? = some f) :
    σ.Moving point.isEarly (σ.staged point stage)
      { a with footing? := some { f with held := none } } := by
  obtain ⟨stage, hterminal, hf'⟩ := h.runs
  obtain rfl := Option.some.inj (hf.symm.trans hf')
  exact ⟨⟨none, nofun, stage, hterminal, rfl⟩, h.unkept, h.unanswered, h.goal⟩

/-- What comes of a stage that does not panic. -/
theorem staged_of_unpanicked
    {point : Point} (h : σ.replies.panicked point = none) (stage : StageScript Payload) :
    σ.staged point stage = (stage.ending (σ.replies.fate point)).verdict.bind (σ.next point) :=
  congrArg (·.bind (σ.next point)) (StageScript.verdict_of_unpanicked h stage)

theorem staged_of_panicked
    {point : Point} {p : Panic} (h : σ.replies.panicked point = some p)
    (stage : StageScript Payload) :
    σ.staged point stage = .error p.failure :=
  congrArg (·.bind (σ.next point)) (StageScript.verdict_of_panicked h stage)

/-! ## Specifications -/

variable (σ)

/-- What has happened so far agrees with the replies and is orderly, and the handler has not ended in
a panic that no guard captures. -/
structure Sound (w : World) : Prop where
  agrees : w.Agrees σ.call σ.replies
  orderly : w.IsOrderly σ.call
  captured : .mark (.escaped σ.call .handler .alreadyResolved) ∉ w.log

def Conflict (w : World) : Prop :=
  ¬ σ.Sound w

/-- The condition holds if what has happened so far is sound. -/
def When (Q : Aspect → Prop) (w : World) : Prop :=
  σ.Sound w → Q (w.aspect σ.call)

/-- What an act does to the call, unless it is nested too deep. -/
def Spec {α : Type} (Q : Aspect → Prop) (a : Act α) (R : α → Aspect → Prop)
    (S : Stop → Aspect → Prop) : Prop :=
  Act.Triple (σ.When Q) a (fun v => σ.When (R v)) fun s w => σ.When (S s) w ∨ (True ∧ s = .tooDeep)

variable {σ}

theorem Sound.of_history
    {w w' : World} (h : σ.Sound w') (hturns : w.turns ⊆ w'.turns) (hlog : w.log <+: w'.log) :
    σ.Sound w :=
  ⟨h.agrees.of_history hturns hlog, h.orderly.of_history hturns hlog,
    fun hp => h.captured (hlog.subset hp)⟩

theorem stable_conflict (σ : Setting) : Stable (fun _ => True) σ.Conflict :=
  .of_history fun _ _ hturns hlog hw hw' => hw (hw'.of_history hturns hlog)

theorem When.of_conflict {Q : Aspect → Prop} {w : World} (h : σ.Conflict w) : σ.When Q w :=
  fun hsound => absurd hsound h

theorem When.mono {Q R : Aspect → Prop} {w : World} (h : σ.When Q w) (hQR : ∀ a, Q a → R a) :
    σ.When R w :=
  fun hsound => hQR _ (h hsound)

/-- More may be in the log that does not concern the call. -/
theorem When.logged
    {Q : Aspect → Prop} {w : World} (h : σ.When Q w) {e : Entry}
    (he : e.marksHandler σ.call = false) :
    σ.When Q { w with log := w.log ++ [e] } := by
  intro hsound
  have hw := h (hsound.of_history (fun _ => id) (List.prefix_append ..))
  simpa [he] using hw

theorem triple_of_conflict
    {α : Type} {a : Act α} {R : α → Aspect → Prop} {S : Stop → Aspect → Prop} {w : World}
    (ha : Act.Keeps False σ.Conflict a) (hw : σ.Conflict w) :
    Act.Triple (· = w) a (fun v => σ.When (R v))
      fun s w => σ.When (S s) w ∨ (True ∧ s = .tooDeep) :=
  ha.weaken (fun _ hsame => hsame ▸ hw) (fun _ _ => .of_conflict) fun _ _ hw' =>
    .inl (.of_conflict (hw'.resolve_right fun hfalse => hfalse.1))

namespace Spec

variable {α β : Type} {Q Q' : Aspect → Prop} {R R' : α → Aspect → Prop}
  {S S' : Stop → Aspect → Prop}

theorem weaken {a : Act α} (h : σ.Spec Q a R S) (hQ : ∀ a, Q' a → Q a) (hR : ∀ v a, R v a → R' v a)
    (hS : ∀ s a, S s a → S' s a) : σ.Spec Q' a R' S' :=
  Act.Triple.weaken h (fun _ hw => hw.mono hQ) (fun v _ hw => hw.mono (hR v))
    fun s _ hw => hw.imp_left fun hw => hw.mono (hS s)

theorem bind {a : Act α} {f : α → Act β} {T : β → Aspect → Prop} (ha : σ.Spec Q a R S)
    (hf : ∀ v, σ.Spec (R v) (f v) T S) : σ.Spec Q (a >>= f) T S :=
  Act.Triple.bind ha hf

theorem pure {v : α} (h : ∀ a, Q a → R v a) : σ.Spec Q (Pure.pure v) R S :=
  Act.Triple.pure fun _ hw => hw.mono h

/-- An act that keeps a condition keeps it when it stops. -/
theorem of_keeps {a : Act α} (h : Act.Keeps True (σ.When Q) a) (hS : ∀ s a, Q a → S s a) :
    σ.Spec Q a (fun _ => Q) S :=
  Act.Triple.stops h fun s _ hw => hw.imp_left fun hw => hw.mono (hS s)

/-- An act is looked at in a world in which all is sound so far. -/
theorem of_sound
    {a : Act α} (hconflict : Act.Keeps False σ.Conflict a)
    (h : ∀ w, σ.Sound w → Q (w.aspect σ.call) →
      Act.Triple (· = w) a (fun v => σ.When (R v))
        fun s w => σ.When (S s) w ∨ (True ∧ s = .tooDeep)) :
    σ.Spec Q a R S := by
  refine Act.Triple.of_world fun w hw => ?_
  by_cases hsound : σ.Sound w
  · exact h w hsound (hw hsound)
  · exact triple_of_conflict hconflict hsound

end Spec

/-! ## Ending the call -/

/-- Jobs keep what is known of the call while no task waits to bring it on, and that something is
not sound. -/
structure Backs (σ : Setting) (perform : Performer) : Prop where
  unkept : ∀ {Q : Aspect → Prop}, (∀ a, Q a → Unkept a ∧ a.footing? ≠ none) →
    Act.Serves True (· ≠ σ.call) (σ.When Q) perform
  conflict : Act.Serves False (fun _ => True) σ.Conflict perform

theorem backs (σ : Setting) (d : Dispatcher) (depth : Nat) :
    σ.Backs (RouteDispatch.perform d depth) where
  unkept hQ := .of_aspect σ.stable_conflict (fun a _ ha hnone => absurd hnone (hQ a ha).2)
    (fun a ha => (hQ a ha).1) d depth
  conflict := σ.stable_conflict.serves d depth

theorem Runs.footing_ne_none {held : Option (Point × Place)} {a : Aspect} (h : σ.Runs held a) :
    a.footing? ≠ none := by
  obtain ⟨stage, -, hf⟩ := h
  simp [hf]

theorem Over.serves {perform : Performer} (hb : σ.Backs perform) :
    Act.Serves True (· ≠ σ.call) (σ.When σ.Over) perform := by
  refine hb.unkept fun a ha => ⟨ha.unkept, ?_⟩
  obtain ⟨f, hf, -⟩ := ha.footing
  simp [hf]

theorem Holds.serves {perform : Performer} (hb : σ.Backs perform) (place : Place) (point : Point)
    (stage : StageScript Payload) :
    Act.Serves True (· ≠ σ.call) (σ.When (σ.Holds place point stage)) perform :=
  hb.unkept fun _ ha => ⟨ha.unkept, ha.runs.footing_ne_none⟩

theorem Invoked.serves {perform : Performer} (hb : σ.Backs perform) (args : Args) :
    Act.Serves True (· ≠ σ.call) (σ.When (σ.Invoked args)) perform := by
  refine hb.unkept fun a ha => ⟨ha.unkept, ?_⟩
  obtain ⟨held, -, hruns⟩ := ha.runs
  exact hruns.footing_ne_none

end Setting

namespace Act

variable {α : Type} {c : CallId} {w : World} {perform : Performer}

theorem Triple.of_exec_eq
    {a b : Act α} {w' : World} {post : α → World → Prop} {stopped : Stop → World → Prop}
    (h : a.exec w = b.exec w') (hb : Triple (· = w') b post stopped) :
    Triple (· = w) a post stopped := by
  rintro _ rfl
  rw [h]
  exact hb w' rfl

theorem exists_call_of_footing {f : Footing} (hf : (w.aspect c).footing? = some f) :
    ∃ call, w.calls[c]? = some call ∧ call.footing = f :=
  Option.map_eq_some_iff.mp hf

theorem isRunning_of_footing {f : Footing} (hf : (w.aspect c).footing? = some f) :
    w.isRunning c = true ↔ f.outcome? = none := by
  obtain ⟨call, hcall, rfl⟩ := exists_call_of_footing hf
  simp [World.isRunning_iff, hcall, Call.footing]

theorem exec_enter {f : Footing} (hf : (w.aspect c).footing? = some f) (stage : Stage) :
    ∃ w', (enter c stage).exec w = (.ok (), w') ∧
      w'.aspect c =
        { w.aspect c with
          footing? := some
            { f with
              view := if f.view.stage.isTerminal then f.view else { f.view with stage } } } := by
  obtain ⟨call, hcall, rfl⟩ := exists_call_of_footing hf
  cases hterminal : call.view.stage.isTerminal with
  | true =>
      refine ⟨w, ?_, ?_⟩
      · unfold enter
        rw [exec_get_bind, hcall]
        simp only [hterminal, if_true]
        rfl
      · have hsame : w.aspect c = { w.aspect c with footing? := some call.footing } := by rw [← hf]
        simpa [Call.footing, hterminal] using hsame
  | false =>
      refine ⟨_, exec_enter_open hcall hterminal stage, ?_⟩
      have hedit := Aspect.aspect_editCall (c := c)
        (w := { w with log := w.log ++ [.trace (.entered (w.callRef c) call.view.stage stage)] })
        (fun x => { x with view := { x.view with stage } })
        (fun f => { f with view := { f.view with stage } }) fun _ => rfl
      refine hedit.trans ?_
      simp [hf, Call.footing, hterminal, Entry.marksHandler]

/-- The end of a call reaches its cell before anybody hears of it. -/
theorem conclude_triple
    {f : Footing} {o : Outcome} {lax : Prop} {P : World → Prop}
    (hf : (w.aspect c).footing? = some f) (hnone : f.outcome? = none)
    (hreport : ∀ into, Keeps lax P (perform (.report c into o)))
    (hP : ∀ w', w'.log = w.log →
      w'.aspect c = { w.aspect c with footing? := some { f with outcome? := some o } } → P w') :
    Triple (· = w) (conclude perform c o) (fun _ => P) fun s w => P w ∨ (lax ∧ s = .tooDeep) := by
  obtain ⟨call, hcall, rfl⟩ := exists_call_of_footing hf
  cases hsettle : call.ending.settle o with
  | none => exact absurd hnone (Cell.settle_eq_none_iff.mp hsettle)
  | some result =>
      obtain ⟨ending, follow⟩ := result
      have hending : ending.outcome? = some o := (Cell.outcome?_of_settle hsettle).2
      have hafter : P { w with calls := w.calls.modify c fun call => { call with ending } } := by
        refine hP _ rfl ?_
        rw [Aspect.aspect_editCall (fun call => { call with ending })
          (fun f => { f with outcome? := some o }) fun call => by simp [Call.footing, hending], hf]
        rfl
      refine Triple.step (v := w) rfl ?_
      rw [hcall, Option.bind_some, hsettle]
      refine Triple.editCall ?_
      cases follow with
      | run into => exact (hreport into).apply hafter
      | _ => exact Triple.done hafter

theorem finish_triple
    {f : Footing} {o : Outcome} {P : World → Prop} (hf : (w.aspect c).footing? = some f)
    (hnone : f.outcome? = none) (hreport : ∀ into, Keeps True P (perform (.report c into o)))
    (hP : ∀ w' view, w'.aspect c = { w.aspect c with footing? := some ⟨view, f.held, some o⟩ } →
      P w') :
    Triple (· = w) (finish perform c o) (fun _ => P) fun s w => P w ∨ (True ∧ s = .tooDeep) := by
  obtain ⟨w', hexec, haspect⟩ := exec_enter hf (.ofOutcome o)
  refine Triple.step hexec (conclude_triple (congrArg Aspect.footing? haspect) hnone hreport ?_)
  intro w'' _ hw''
  exact hP w'' _ (by rw [hw'', haspect])

/-- The caller waits for the end of a call without a change of how the call stands. -/
theorem awaitEnd_triple
    {lax : Prop} {P : World → Prop} (into : TaskId)
    (hreport : ∀ o, Keeps lax P (perform (.report c into o))) (hw : P w)
    (hP : ∀ w', w'.log = w.log → w'.turns = w.turns → w'.aspect c = w.aspect c → P w') :
    Triple (· = w) (awaitEnd perform c into) (fun _ => P)
      fun s w => P w ∨ (lax ∧ s = .tooDeep) := by
  refine Triple.step (v := w) rfl ?_
  have hrefused : ∀ p, Triple (· = w) (raise p : Act Unit) (fun _ => P)
      fun s w => P w ∨ (lax ∧ s = .tooDeep) :=
    fun p => Triple.raise fun _ hsame => .inl (hsame ▸ hw)
  cases hcall : w.calls[c]? with
  | none => exact hrefused _
  | some call =>
      rw [Option.bind_some]
      cases hattach : call.ending.attach into with
      | none => exact hrefused _
      | some result =>
          obtain ⟨ending, outcome⟩ := result
          have hsame := (Cell.outcome?_of_attach hattach).2
          have hafter : P { w with
              calls := w.calls.modify c fun call => { call with ending, answer := some into } } := by
            refine hP _ rfl rfl ?_
            rw [Aspect.aspect_editCall (fun call => { call with ending, answer := some into })
              (fun f => { f with outcome? := ending.outcome? }) fun _ => rfl]
            have hf : (w.aspect c).footing?.map (fun f => { f with outcome? := ending.outcome? }) =
                (w.aspect c).footing? := by
              simp [World.aspect, hcall, Call.footing, hsame]
            rw [hf]
          refine Triple.editCall ?_
          cases outcome with
          | none => exact Triple.done hafter
          | some o => exact (hreport o).apply hafter

end Act

namespace Setting

section Ending

variable {σ : Setting} {perform : Performer} (hb : σ.Backs perform)

include hb

/-- A call that may end with the goal does so, and one that is over stays so. -/
theorem finishOrReport_spec (late : World → Trace) (o : Outcome) :
    σ.Spec (fun a => σ.Over a ∨ σ.Moving false o a)
      (do
        let w ← get
        if w.isRunning σ.call then Act.finish perform σ.call o else Act.write (.trace (late w)))
      (fun _ => σ.Over) fun _ => σ.Over := by
  refine .of_sound ?_ fun w hsound hw => Act.Triple.step (v := w) rfl ?_
  · refine Act.Keeps.get fun w hw => ?_
    by_cases hrunning : w.isRunning σ.call = true
    · rw [if_pos hrunning]
      exact hb.conflict.allows.finish trivial o
    · rw [if_neg hrunning]
      exact hb.conflict.allows.write (late w).isFor_any
  obtain ⟨f, hf, haway, hgoal⟩ : ∃ f, (w.aspect σ.call).footing? = some f ∧ IsAway f.held ∧
      ((f.outcome? = some σ.goal ∨ ∃ args, .mark (.invoked σ.call args) ∈ (w.aspect σ.call).marks ∧
        σ.Unanswered (w.aspect σ.call)) ∨ (f.outcome? = none ∧ o = σ.goal)) := by
    rcases hw with hw | hw
    · obtain ⟨f, hf, haway, hwhy⟩ := hw.footing
      exact ⟨f, hf, haway, .inl hwhy⟩
    · obtain ⟨held, haway, stage, -, hf⟩ := hw.runs
      exact ⟨_, hf, haway, .inr ⟨rfl, hw.goal⟩⟩
  have hunkept : Unkept (w.aspect σ.call) := hw.elim Over.unkept Moving.unkept
  by_cases hrunning : w.isRunning σ.call = true
  · rw [if_pos hrunning]
    have hnone := (Act.isRunning_of_footing hf).mp hrunning
    refine Act.finish_triple hf hnone (fun into => (Over.serves hb).report _ into o)
      fun w' view hw' _ => ?_
    rw [hw']
    refine ⟨⟨_, rfl, haway, ?_⟩, hunkept⟩
    rcases hgoal with (hended | hwhy) | ⟨-, rfl⟩
    · rw [hnone] at hended
      contradiction
    · exact .inr hwhy
    · exact .inl rfl
  · rw [if_neg hrunning]
    refine Act.Triple.write_last ?_
    refine When.logged (fun _ => ⟨⟨f, hf, haway, ?_⟩, hunkept⟩) rfl
    rcases hgoal with hwhy | ⟨hnone, -⟩
    · exact hwhy
    · exact absurd ((Act.isRunning_of_footing hf).mpr hnone) hrunning

theorem fail_spec (e : CallError) :
    σ.Spec (fun a => σ.Over a ∨ σ.Moving false (.error e) a) (Act.fail perform σ.pipeline e)
      (fun _ => σ.Over) fun _ => σ.Over :=
  finishOrReport_spec hb _ _

theorem succeed_spec (v : Json) :
    σ.Spec (fun a => σ.Over a ∨ σ.Moving false (.ok v) a) (Act.succeed perform σ.pipeline v)
      (fun _ => σ.Over) fun _ => σ.Over :=
  finishOrReport_spec hb _ _

/-- A panic that leaves a stage after its end finds the call over, or cuts it off. -/
theorem fail_triple (e : CallError) :
    Act.Triple
      (fun w => σ.Sound w →
        (σ.Over (w.aspect σ.call) ∨ σ.Moving false (.error e) (w.aspect σ.call)) ∨
          (σ.State (w.aspect σ.call) ∧ JustCut σ.call w.log))
      (Act.fail perform σ.pipeline e) (fun _ => σ.When σ.Over)
      fun s w => σ.When σ.Over w ∨ (True ∧ s = .tooDeep) := by
  have hfail := fail_spec hb e
  refine Act.Triple.of_world fun w hw => ?_
  by_cases hsound : σ.Sound w
  · rcases hw hsound with hw | ⟨hw, hcut⟩
    · exact hfail.apply fun _ => hw
    · rcases hw.over_or_runs with hover | ⟨held, stage, hterminal, hf⟩
      · exact hfail.apply fun _ => .inl hover
      · obtain ⟨call, hcall, hfooting⟩ := Act.exists_call_of_footing hf
        have hstage : call.view.stage = stage := congrArg (fun f => f.view.stage) hfooting
        refine Act.Triple.step (v := w) rfl ?_
        rw [if_pos ((Act.isRunning_of_footing hf).mpr rfl)]
        refine Act.Triple.step (Act.exec_enter_open hcall (hstage ▸ hterminal) _) ?_
        refine triple_of_conflict (hb.conflict.allows.conclude trivial _) fun hsound =>
          hsound.orderly.uncut ?_
        refine (occurs_append_singleton _ _ _).mpr (.inr ⟨⟨_, _, rfl, rfl⟩, hcut⟩)
  · exact triple_of_conflict (hb.conflict.allows.fail trivial e) hsound

end Ending

end Setting

/-! ## Using the right to go on -/

namespace Act

variable {α : Type} {w : World} {k : Continuation} {f : Footing}
  (hf : (w.aspect k.pipeline.call).footing? = some f)

include hf

theorem exec_place (p : Place) :
    ∃ w', (place k p).exec w = (.ok (), w') ∧ w'.cells = w.cells ∧
      w'.aspect k.pipeline.call =
        { w.aspect k.pipeline.call with
          footing? := some { f with held := some (k.point, p) } } := by
  refine ⟨_, rfl, rfl, ?_⟩
  refine (Aspect.aspect_editCall _ (fun f => { f with held := some (k.point, p) })
    fun _ => rfl).trans ?_
  rw [hf]
  rfl

theorem exec_spend (fate : Fate) :
    ∃ w', (spend k fate).exec w = (.ok (), w') ∧
      w'.log = w.log ++ [.mark (.spent k.pipeline.call k.point fate)] ∧
      w'.aspect k.pipeline.call =
        { w.aspect k.pipeline.call with footing? := some { f with held := none } } := by
  refine ⟨_, rfl, rfl, (Aspect.aspect_logged _).trans ?_⟩
  rw [Aspect.aspect_editCall (fun call => { call with held := none })
    (fun f => { f with held := none }) fun _ => rfl, hf]
  simp [Entry.marksHandler]

theorem exec_holds :
    (holds k).exec w = (.ok (f.held == some (k.point, .code)), w) := by
  obtain ⟨call, hcall, rfl⟩ := exists_call_of_footing hf
  unfold holds
  rw [exec_get_bind, hcall]
  rfl

theorem exec_withHeld_held
    (hheld : f.held = some (k.point, .code)) (use : Continuation → Act α) (otherwise : Act α) :
    (withHeld (some k) use otherwise).exec w = (use k).exec w := by
  simp [withHeld, exec_bind, exec_holds hf, hheld]

theorem exec_withHeld_away
    (haway : IsAway f.held) (use : Continuation → Act α) (otherwise : Act α) :
    (withHeld (some k) use otherwise).exec w = otherwise.exec w := by
  simp [withHeld, exec_bind, exec_holds hf, haway k.point]

end Act

namespace Setting

section Using

variable {σ : Setting} {perform : Performer} (hb : σ.Backs perform) {point : Point}

/-- When the right is spent, what remains is what comes of the end of the stage. -/
theorem spend_triple
    {α : Type} {f : Unit → Act α} {post : α → World → Prop} {stopped : Stop → World → Prop}
    {x : StageEnd Payload} {w : World} (h : σ.Holds .code point (.ends x) (w.aspect σ.call))
    {fate : Fate} (hfate : fate ≠ .lost)
    (hnext : Act.Triple (σ.When (σ.Moving point.isEarly (x.verdict.bind (σ.next point))))
      (f ()) post stopped) :
    Act.Triple (· = w) (Act.spend (σ.right point) fate >>= f) post stopped := by
  obtain ⟨footing, hf, -⟩ := h.footing
  obtain ⟨w', hexec, hlog, haspect⟩ := Act.exec_spend (k := σ.right point) hf fate
  refine Act.Triple.step hexec (hnext.apply fun hsound => ?_)
  have hmoving := h.spent hf
  rw [← haspect] at hmoving
  rwa [staged_of_unpanicked (hsound.agrees.used point fate (by simp [hlog]) hfate)] at hmoving

include hb

/-- A stage that gives the right up fails the call. -/
theorem giveUp_triple
    {x : StageEnd Payload} {e : CallError} (he : x.verdict = .error e) {w : World}
    (h : σ.Holds .code point (.ends x) (w.aspect σ.call)) {fate : Fate} (hfate : fate ≠ .lost) :
    Act.Triple (· = w)
      (do
        Act.spend (σ.right point) fate
        Act.fail perform σ.pipeline e)
      (fun _ => σ.When σ.Over) fun s w => σ.When σ.Over w ∨ (True ∧ s = .tooDeep) := by
  refine spend_triple h hfate ((fail_spec hb e).weaken (fun a ha => .inr ?_) (fun _ _ => id)
    fun _ _ => id)
  rw [he] at ha
  exact ha.late

theorem release_spec (point : Point) :
    σ.Spec (fun a => σ.State a ∨ σ.Holds .code point (.ends .drop) a)
      (Act.release perform (some (σ.right point))) (fun _ => σ.State) fun _ => σ.Over := by
  refine .of_sound (hb.conflict.allows.release fun _ _ => trivial) fun w _ hw => ?_
  rcases hw with hw | hw
  · obtain ⟨f, hf, haway⟩ := hw.footing
    exact Act.Triple.of_exec_eq (Act.exec_withHeld_away (k := σ.right point) hf haway _ _)
      (Act.Triple.done fun _ => hw)
  · obtain ⟨f, hf, hheld⟩ := hw.footing
    refine Act.Triple.of_exec_eq (Act.exec_withHeld_held (k := σ.right point) hf hheld _ _) ?_
    exact (giveUp_triple hb rfl hw (by decide)).weaken (fun _ => id)
      (fun _ _ hw => hw.mono fun _ => .isOver)
      fun _ _ => id

theorem abort_spec (point : Point) (e : CallError) :
    σ.Spec (σ.Holds .code point (.ends (.abort e))) (Act.abort perform (some (σ.right point)) e)
      (fun _ => σ.State) fun _ => σ.Over := by
  refine .of_sound (hb.conflict.allows.abort (fun _ _ => trivial) e) fun w _ hw => ?_
  obtain ⟨f, hf, hheld⟩ := hw.footing
  refine Act.Triple.of_exec_eq (Act.exec_withHeld_held (k := σ.right point) hf hheld _ _) ?_
  exact (giveUp_triple hb rfl hw (by decide)).weaken (fun _ => id)
    (fun _ _ hw => hw.mono fun _ => .isOver)
    fun _ _ => id

theorem proceed_spec
    {payload : Payload} (htakes : (σ.right point).takes payload = true)
    (hgo : σ.Spec (σ.Moving point.isEarly (σ.next point payload))
      (perform (.goOn (σ.right point) payload)) (fun _ => σ.State) σ.Stopped) :
    σ.Spec (σ.Holds .code point (.ends (.proceed payload)))
      (Act.proceed perform (some (σ.right point)) payload) (fun _ => σ.State) σ.Stopped := by
  refine .of_sound (hb.conflict.allows.proceed (fun _ _ => trivial) payload) fun w _ hw => ?_
  obtain ⟨f, hf, hheld⟩ := hw.footing
  refine Act.Triple.of_exec_eq (Act.exec_withHeld_held (k := σ.right point) hf hheld _ _) ?_
  rw [if_pos htakes]
  exact spend_triple hw (by decide) hgo

end Using

end Setting
end RouteDispatch
