import RouteDispatch.Proofs.Session.Hearing

/-!
# What is said about the end of a call

The listener, the task of the caller and the stage of the call say the same about its end, in every
state between two steps.  The listener is told once, and the library resolves the task once.  What
the listener was told is what it would note: the marks in the log stand where its code runs.
-/

namespace RouteDispatch

/-- The listener heard of the start first, and it heard of an end exactly if the task of the caller
is resolved and the call is in its last stage, with the same outcome. -/
structure Agrees (hears : Option Outcome → Prop) (c : CallId) (t : TaskId) (w : World)
    (call : Call) : Prop where
  opened : IsOpened c w.log
  started : hears none
  once : (told c w.log).length ≤ 1
  resolved : (∃ o, hears (some o)) ↔ w.taskState t ≠ .waiting
  terminal : w.taskState t ≠ .waiting ↔ call.view.stage.isTerminal = true
  succeeded : ∀ v, hears (some (.ok v)) ↔
    outcomeOf w.cells t = some (.ok v) ∧ call.view.stage = .succeeded
  failed : ∀ e, hears (some (.error e)) ↔
    outcomeOf w.cells t = some (.error e) ∧ call.view.stage = .failed

variable {c : CallId} {f : Frame} {w : World}

theorem World.taskState_eq_waiting_iff {t : TaskId} :
    w.taskState t = .waiting ↔ outcomeOf w.cells t = none := by
  unfold World.taskState outcomeOf
  cases w.cells[t]? with
  | none => simp
  | some cell => simp [Cell.state_eq_waiting_iff]

/-- A call whose caller has a task that only the library resolves agrees with its listener. -/
theorem Inv.agrees
    {t : TaskId} (h : Inv c f w) (hphase : f.phase = .settled t)
    (hfree : ∀ e ∈ w.log, e.resolves t = false) (hlistener : ∀ e ∈ w.log, e.escapesEnd c = false)
    {hears : Option Outcome → Prop}
    (hhears : ∀ o?, hears o? ↔ .mark (.ofNotice c o?) ∈ w.log) :
    ∃ call, w.calls[c]? = some call ∧ Agrees hears c t w call := by
  have hopened := h.facts.opened (by rw [hphase]; rfl)
  have hstarted : hears none := (hhears none).mpr hopened.started_mem
  have hends : ∀ o, hears (some o) ↔ o ∈ told c w.log := fun o =>
    (hhears (some o)).trans mem_told_iff.symm
  have hstands := h.facts.stands
  rw [hphase] at hstands
  obtain ⟨call, hcall, -, -, ⟨hending, htold, hopen⟩ | ⟨o, hending, htold, o', hgiven, hwhy⟩⟩ :=
    hstands
  · have hstage := (h.facts.staged call hcall).1 (by rw [hending]; rfl)
    have hnone : outcomeOf w.cells t = none := by
      refine hopen.resolve_right fun hresolved => ?_
      have hother := hfree _ hresolved
      simp [Entry.resolves] at hother
    refine ⟨call, hcall, hopened, hstarted, ?_, ?_, ?_, ?_, ?_⟩
    · simp [htold]
    · simp [hends, htold, World.taskState_eq_waiting_iff, hnone]
    · simp [World.taskState_eq_waiting_iff, hnone, hstage]
    · simp [hends, htold, hnone]
    · simp [hends, htold, hnone]
  · have hstage := (h.facts.staged call hcall).2 o (by rw [hending]; rfl)
    have hsame : o' = o := by
      refine hwhy.resolve_right ?_
      rintro ⟨⟨p, hescaped⟩, -⟩
      have hother := hlistener _ hescaped
      simp [Entry.escapesEnd] at hother
    subst hsame
    refine ⟨call, hcall, hopened, hstarted, ?_, ?_, ?_, ?_, ?_⟩
    · simp [htold]
    · simp [hends, htold, World.taskState_eq_waiting_iff, hgiven]
    · cases o' <;> simp [World.taskState_eq_waiting_iff, hgiven, hstage, Stage.ofOutcome,
        Stage.isTerminal]
    · cases o' <;> simp [hends, htold, hgiven, hstage, Stage.ofOutcome, eq_comm]
    · cases o' <;> simp [hends, htold, hgiven, hstage, Stage.ofOutcome, eq_comm]

namespace Dispatcher

/-- In every state after a dispatch whose task no foreign code resolves, the library has resolved
that task once at most; a listener that notes what it is told has one note behind each mark of a
start or an end, and no other; and if no task was resolved twice and the listener did not panic when
it was told of the end, the listener, the task and the stage of the call agree. -/
theorem agrees_after_dispatch
    (d : Dispatcher) (depth : Nat) (table : RouteTable) (steps later : List Step) (r : Request)
    {c : CallId} {t : TaskId} {past : Past}
    (hcall : (d.after depth table steps).world.calls.length = c)
    (hdispatch :
      ((Act.dispatch (perform d depth) d r).exec (d.after depth table steps).world).1 = .ok t)
    (hpast : d.after depth table (steps ++ .dispatch r :: later) = past)
    (hfree : ∀ e ∈ past.world.log, e.resolves t = false) :
    .mark (.refused c) ∉ past.world.log ∧
      (∀ note, (d.noting note).after depth table (steps ++ .dispatch r :: later) =
        past.noted note) ∧
      (past.isCalm = true → (∀ e ∈ past.world.log, e.escapesEnd c = false) →
        ∃ call, past.world.calls[c]? = some call ∧
          Agrees (d.Heard depth table (steps ++ .dispatch r :: later) c) c t past.world call) := by
  subst hcall hpast
  obtain ⟨φ, hstanding, hinv, hphase⟩ := d.rests_of_dispatch depth hdispatch later
  refine ⟨fun hrefused => ?_, d.after_noting depth table _, fun hcalm hlistener => ?_⟩
  · obtain ⟨u, hu, hresolved⟩ := hinv.facts.refused hrefused
    have ht := hinv.facts.stands.answerOf_iff.mpr hstanding
    obtain rfl : t = u := Option.some.inj (ht.symm.trans hu)
    have hother := hfree _ hresolved
    simp [Entry.resolves] at hother
  · have hsettled : φ = .settled t := by
      rcases hphase hcalm with habsent | hsettled <;>
        cases φ <;> simp_all [Phase.standing, Phase.isAbsent, Phase.isSettled]
    exact hinv.agrees hsettled hfree hlistener fun _ => heard_iff

/-- The handler's task is resolved after the dispatch. -/
def echoSteps : List Step :=
  [] ++ .dispatch { method := "GET", path := "/echo" } ::
    [.code (.settle 0 (.ok .null) fun _ => .skip)]

def echoPast : Past :=
  after {} nesting (echoTable []) echoSteps

theorem agrees_echoPast :
    (∃ v, Heard {} nesting (echoTable []) echoSteps 0 (some (.ok v))) ∧
      ∃ call, echoPast.world.calls[0]? = some call ∧
        Agrees (Heard {} nesting (echoTable []) echoSteps 0) 0 1 echoPast.world call := by
  have hcall : (after {} nesting (echoTable []) []).world.calls.length = 0 := rfl
  have hdispatch : ((Act.dispatch (perform {} nesting) {} { method := "GET", path := "/echo" }).exec
      (after {} nesting (echoTable []) []).world).1 = .ok 1 := by
    decide +kernel
  have hfree : ∀ e ∈ echoPast.world.log, e.resolves 1 = false := by
    decide +kernel
  have hlistener : ∀ e ∈ echoPast.world.log, e.escapesEnd 0 = false := by
    decide +kernel
  have hcalm : echoPast.isCalm = true := by
    decide +kernel
  have hresolved : echoPast.world.taskState 1 ≠ .waiting := by
    decide +kernel
  have hstage : echoPast.world.calls[0]?.map (fun call => call.view.stage) = some .succeeded := by
    decide +kernel
  have hpast : after {} nesting (echoTable []) echoSteps = echoPast := rfl
  obtain ⟨-, -, hwhole⟩ :=
    agrees_after_dispatch {} nesting (echoTable []) [] _ _ hcall hdispatch hpast hfree
  obtain ⟨call, hfound, hagrees⟩ := hwhole hcalm hlistener
  refine ⟨?_, call, hfound, hagrees⟩
  obtain ⟨o, hheard⟩ := hagrees.resolved.mpr hresolved
  cases o with
  | ok v => exact ⟨v, hheard⟩
  | error e =>
      have hfailed := ((hagrees.failed e).mp hheard).2
      simp [hfound, hfailed] at hstage

end Dispatcher
end RouteDispatch
