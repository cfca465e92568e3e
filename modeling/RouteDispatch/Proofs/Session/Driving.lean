import RouteDispatch.Proofs.Session.Playing

/-!
# Driving a scripted call

Between two steps of a run a scripted call is over, or a single task waits to bring it on.  When the
task is resolved or given up, the completion handler that is found in it plays its part of the
script, and leaves the call at rest again.  So jobs up to any depth bring the call on as the scripts
say, and a run that was at rest once stays so.
-/

namespace RouteDispatch
namespace Setting

variable {σ : Setting} {perform : Performer}

/-! ## Turns of the task that waits -/

/-- A task that waits to bring the call on does so when its completion handler has a turn. -/
theorem State.turned
    {w : World} {t : TaskId} {cell cell' : Cell Completion} {h : Completion}
    (hw : σ.State (w.aspect σ.call)) (hcell : w.cells[t]? = some cell)
    (hhandler : cell.handler? = some h) (hother : ¬ h.IsFor (· ≠ σ.call))
    (hafter : cell'.handler? = none) (turn : Cell.Turn Completion)
    (hturn : ∀ p o, turn ≠ .attached p o) :
    (∃ point next f, h = .resume (σ.right point) f ∧
      (∀ o, (f o).Ends point (StageScript.resumed next o)) ∧
      σ.Holds .task point (.defers next) ((w.turn t turn cell').aspect σ.call)) ∨
    ∃ args, h = .handled σ.pipeline ∧ .mark (.invoked σ.call args) ∈ w.log ∧
      σ.Moving false ((σ.replies.handled args).bind σ.results)
        ((w.turn t turn cell').aspect σ.call) := by
  have hlt := (List.getElem?_eq_some_iff.mp hcell).1
  have hkept : (w.aspect σ.call).kept t = some h := by
    have := (Aspect.keptFor_eq_some_iff σ.call).mpr ⟨hhandler, Completion.call?_of_not_isFor hother⟩
    simpa [World.aspect, hcell] using this
  -- The task is the only one that waits.
  have honly : ∀ {u : TaskId} {k : Completion},
      (w.aspect σ.call).kept = Function.update (fun _ => none) u (some k) →
        h = k ∧ Unkept ((w.turn t turn cell').aspect σ.call) := by
    intro u k hupdate
    rw [hupdate] at hkept
    by_cases ht : t = u
    · subst ht
      refine ⟨by simpa using hkept.symm, unkept_turned hlt turn (fun v hv => ?_)
        (keptFor_of_handler?_eq_none hafter)⟩
      rw [hupdate, Function.update_of_ne hv]
    · rw [Function.update_of_ne ht] at hkept
      contradiction
  cases hw with
  | isOver hover => simp [hover.unkept t] at hkept
  | deferred runs kept unanswered resumed goal =>
      obtain ⟨rfl, hunkept⟩ := honly kept
      refine .inl ⟨_, _, _, rfl, resumed, ?_, hunkept, fun hearly => ?_, goal⟩
      · rw [Aspect.aspect_turn hlt]
        exact runs
      · exact (unanswered hearly).turned hlt fun p o => hturn (.handled p) o
  | called runs kept invoked goal =>
      obtain ⟨rfl, hunkept⟩ := honly kept
      refine .inr ⟨_, rfl, (List.mem_filter.mp invoked).1, ?_, hunkept, by simp, goal⟩
      rw [Aspect.aspect_turn hlt]
      exact runs

/-- A continuation that a task gives up is dropped, which is what the stage comes to. -/
theorem giveUp_turned
    (hb : σ.Backs perform) {w : World} {t : TaskId} {cell cell' : Cell Completion} {h : Completion}
    (hw : σ.When σ.State w) (hcell : w.cells[t]? = some cell)
    (habandon : cell.abandon = (cell', some h))
    (hother : ¬ h.IsFor (· ≠ σ.call)) :
    Act.Triple (· = w.turn t (.abandoned (some h)) cell') (Act.giveUp perform h)
      (fun _ => σ.When σ.State) fun s w => σ.When σ.State w ∨ (True ∧ s = .tooDeep) := by
  have hafter := (Cell.abandon_fst cell).1
  have hhandler := Cell.abandon_snd cell
  rw [habandon] at hafter hhandler
  by_cases hsound : σ.Sound (w.turn t (.abandoned (some h)) cell')
  · have hbefore := hsound.of_history (List.subset_append_left ..) (List.prefix_refl _)
    rcases (hw hbefore).turned hcell hhandler.symm hother hafter (.abandoned (some h)) (by simp)
      with ⟨point, next, f, rfl, -, hholds⟩ | ⟨args, rfl, -, -⟩
    · have hfate : σ.replies.fate point = none := hsound.agrees.dropped t (σ.right point) f rfl (by simp)
      have hdrop : σ.Holds .task point (.ends .drop) _ := hholds.of_ending (by rw [hfate]; rfl)
      obtain ⟨footing, hf, -⟩ := hdrop.footing
      obtain ⟨w₁, hexec, -, haspect⟩ := Act.exec_place (k := σ.right point) hf .code
      have hrelease := release_spec hb point
      refine Act.Triple.step hexec
        ((hrelease.weaken (fun _ => .inr) (fun _ _ => id) fun _ _ => .isOver).apply fun _ => ?_)
      rw [haspect]
      exact hdrop.placed hf
    · exact absurd (by simp) (hsound.orderly.kept t σ.pipeline rfl)
  · exact triple_of_conflict (R := fun _ => σ.State)
      (hb.conflict.allows.giveUp fun _ _ => trivial) hsound

section Found

variable (hd : σ.Drives perform) (hfits : σ.scripts.Fits σ.route)

include hd hfits

/-- An outcome that comes to a task brings the call on as the replies say. -/
theorem complete_turned
    {w : World} {t : TaskId} {cell cell' : Cell Completion} {h : Completion} {o : Outcome}
    (hw : σ.When σ.State w) (hcell : w.cells[t]? = some cell)
    (hsettle : cell.settle o = some (cell', .run h)) (hother : ¬ h.IsFor (· ≠ σ.call)) :
    Act.Triple (· = w.turn t (.settled o (.run h)) cell') (Act.complete perform h o)
      (fun _ => σ.When σ.State) fun s w => σ.When σ.State w ∨ (True ∧ s = .tooDeep) := by
  obtain ⟨hafter, hhandler⟩ := Cell.handler?_of_settle hsettle
  by_cases hsound : σ.Sound (w.turn t (.settled o (.run h)) cell')
  · have hbefore := hsound.of_history (List.subset_append_left ..) (List.prefix_refl _)
    rcases (hw hbefore).turned hcell hhandler hother hafter (.settled o (.run h)) (by simp)
      with ⟨point, next, f, rfl, hresumed, hholds⟩ | ⟨args, rfl, hinvoked, hmoving⟩
    · have hfate : σ.replies.fate point = some o :=
        hsound.agrees.resolved t (σ.right point) f o rfl (.inl (by simp))
      exact (resumedJob_spec hd (hresumed o)).apply fun _ => hholds.of_ending (by rw [hfate]; rfl)
    · rw [hsound.agrees.answered args t σ.pipeline o rfl hinvoked (.inl (by simp))] at hmoving
      refine Act.Triple.apply (Act.Triple.stops (handledJob_spec hd hfits o) fun s w hw => ?_)
        fun _ => hmoving
      exact hw.imp_left fun hw => hw.mono fun _ => And.left
  · exact triple_of_conflict (R := fun _ => σ.State)
      (hd.backs.conflict.completeJob (fun _ _ => trivial) o) hsound

end Found

/-! ## Jobs -/

theorem stable_state (σ : Setting) : Stable (· ≠ σ.call) (σ.When σ.State) :=
  .imp σ.stable_conflict <| .of_aspect fun a _ ha hnone => by
    obtain ⟨f, hf, -⟩ := ha.footing
    simp [hnone] at hf

/-- Jobs up to any depth bring the call on as the scripts say. -/
theorem drives (σ : Setting) (hfits : σ.scripts.Fits σ.route) (d : Dispatcher) (depth : Nat) :
    σ.Drives (RouteDispatch.perform d depth) := by
  induction depth with
  | zero =>
      have hdeep : ∀ {P : Prop}, P ∨ (True ∧ Stop.tooDeep = .tooDeep) := .inr ⟨trivial, rfl⟩
      have hbacks := σ.backs d 0
      refine ⟨hbacks, ⟨σ.stable_state, fun _ _ _ => .throw _, fun _ _ _ => .throw _,
        fun _ _ _ => .throw _, fun _ _ _ _ => Act.Triple.throw fun _ _ => hdeep, ?_⟩, ?_, ?_, ?_⟩
      · exact fun hw hcell habandon hother => giveUp_turned hbacks hw hcell habandon hother
      · exact fun _ _ _ => Act.Triple.throw fun _ _ => hdeep
      · exact fun _ _ _ _ _ => Act.Triple.throw fun _ _ => hdeep
      · exact fun _ => Act.Triple.throw fun _ _ => hdeep
  | succ depth ih =>
      have hbacks := σ.backs d (depth + 1)
      refine ⟨hbacks, ih.state.succ (fun hw hcell => complete_turned ih hfits hw hcell)
        fun hw hcell habandon hother => giveUp_turned hbacks hw hcell habandon hother, ?_, ?_, ?_⟩
      · exact fun _ _ htakes => goOnJob_spec ih hfits htakes
      · exact fun _ _ _ _ hends => resumedJob_spec ih hends
      · exact fun o => handledJob_spec ih hfits o

end Setting

/-! ## Runs -/

theorem stable_present (c : CallId) : Stable (fun _ => True) fun w => w.calls[c]? ≠ none where
  turn hw _ _ _ := hw
  logged hw _ := hw
  newTask hw := hw
  editCall g hw _ := by simpa using hw
  newCall call hw := by
    rw [List.getElem?_append_left (by simpa using hw)]
    exact hw
  others _ _ _ hw := hw

namespace Setting

variable {σ : Setting} (hfits : σ.scripts.Fits σ.route) (d : Dispatcher) (depth : Nat)

include hfits

/-- A call that is at rest after a step of a run is so after all later steps. -/
theorem When.foldl_take
    {p : Past} (hp : σ.When σ.State p.world) (hpresent : p.world.calls[σ.call]? ≠ none)
    (steps : List Step) (hdeep : .tooDeep ∉ (steps.foldl (d.take depth) p).stops) :
    σ.When σ.State (steps.foldl (d.take depth) p).world := by
  induction steps generalizing p with
  | nil => exact hp
  | cons step rest ih =>
      have hlt : σ.call < p.world.calls.length := by simpa using hpresent
      refine ih ?_ ((stable_present σ.call).take d depth hpresent step) hdeep
      refine ((σ.drives hfits d depth).state.upholds.act step).take_of_not_tooDeep
        ⟨hp, fun _ _ => Nat.ne_of_gt hlt⟩ fun hstop => hdeep ?_
      exact d.stops_subset_foldl depth _ rest hstop

end Setting
end RouteDispatch
