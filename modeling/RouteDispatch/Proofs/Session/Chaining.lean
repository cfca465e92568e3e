import RouteDispatch.Proofs.Session.Evaluation
import RouteDispatch.Proofs.Session.Handing

/-!
# Chains

A chain derives a task from a source: when the source is resolved, a continuation gives another
task, and the derived one is resolved as that is.  The continuation runs under a guard, so that the
derived task fails where the continuation panics.  But the guard does not reach as far as the relay
that is then attached to the given task: a task that has a consumer refuses the relay, which unwinds
into whoever resolves the source, and the derived task is left behind.  Nothing else strands it.
-/

namespace RouteDispatch

/-! ## Histories of tasks -/

namespace Recorded

variable {w : World} {t : TaskId}

theorem outcomeOf_of_settled
    (h : Recorded w) {o : Outcome} {follow : Cell.Settling Completion}
    (hmem : (t, .settled o follow) ∈ w.turns) : outcomeOf w.cells t = some o := by
  have hturn := World.mem_turnsOf.mpr hmem
  cases hcell : w.cells[t]? with
  | none =>
      rw [h.absent t (List.getElem?_eq_none_iff.mp hcell)] at hturn
      cases hturn
  | some cell =>
      have hresolution : o ∈ Cell.resolutions (w.turnsOf t) :=
        List.mem_filterMap.mpr ⟨_, hturn, rfl⟩
      rw [(h.leads t cell hcell).standing.outcome?] at hresolution
      rw [outcomeOf_of_cell hcell]
      exact Option.mem_toList.mp hresolution

/-- A task that was resolved has a resolution in its history. -/
theorem settled_of_outcome?
    (h : Recorded w) {cell : Cell Completion} (hcell : w.cells[t]? = some cell) {o : Outcome}
    (ho : cell.outcome? = some o) : ∃ follow, (t, .settled o follow) ∈ w.turns := by
  have hresolution : o ∈ Cell.resolutions (w.turnsOf t) := by
    rw [(h.leads t cell hcell).standing.outcome?, ho]
    exact List.mem_singleton_self o
  obtain ⟨turn, hturn, hsame⟩ := List.mem_filterMap.mp hresolution
  cases turn with
  | settled o' follow =>
      obtain rfl : o' = o := Option.some.inj hsame
      exact ⟨follow, World.mem_turnsOf.mp hturn⟩
  | attached => cases hsame
  | polled => cases hsame
  | abandoned => cases hsame

/-- A task that was resolved has handed its outcome to the handler that was left with it, unless its
last owner gave it up before. -/
theorem handed_of_attached
    (h : Recorded w) {k : Completion} {a : Option Outcome} {o : Outcome}
    (hmem : (t, .attached k a) ∈ w.turns) (ho : outcomeOf w.cells t = some o)
    (hkept : (t, .abandoned (some k)) ∉ w.turns) :
    ∃ front turn behind, w.turns = front ++ (t, turn) :: behind ∧
      turn.handed? = some (k, o) := by
  obtain ⟨cell, hcell, hcellOutcome⟩ := Option.bind_eq_some_iff.mp ho
  rcases (h.leads t cell hcell).attached_cases (World.mem_turnsOf.mpr hmem) with
    rfl | hgivenUp | ⟨turn, o', hturn, hhanded, ho'⟩
  · cases hcellOutcome
  · exact absurd (World.mem_turnsOf.mp hgivenUp) hkept
  · obtain rfl : o' = o := Option.some.inj (ho'.symm.trans hcellOutcome)
    obtain ⟨front, behind, hsplit⟩ := List.append_of_mem (World.mem_turnsOf.mp hturn)
    exact ⟨front, turn, behind, hsplit, hhanded⟩

end Recorded

namespace World

/-- The next thing done after the history is to resolve the task with the outcome, unless somebody
had resolved the task by then. -/
def IsResolvedNext (w : World) (turns : List (TaskId × Cell.Turn Completion)) (t : TaskId)
    (o : Outcome) : Prop :=
  (∃ follow, turns ++ [(t, .settled o follow)] <+: w.turns) ∨
    turns <+: w.turns ∧ ∃ o₁ follow, (t, .settled o₁ follow) ∈ turns

theorem IsResolvedNext.mono
    {w w' : World} {turns : List (TaskId × Cell.Turn Completion)} {t : TaskId} {o : Outcome}
    (h : w.IsResolvedNext turns t o) (hturns : w.turns <+: w'.turns) :
    w'.IsResolvedNext turns t o :=
  h.imp (fun ⟨follow, hnext⟩ => ⟨follow, hnext.trans hturns⟩)
    fun ⟨hearlier, hsettled⟩ => ⟨hearlier.trans hturns, hsettled⟩

theorem IsResolvedNext.turns_prefix
    {w : World} {turns : List (TaskId × Cell.Turn Completion)} {t : TaskId} {o : Outcome}
    (h : w.IsResolvedNext turns t o) : turns <+: w.turns :=
  h.elim (fun ⟨_, hnext⟩ => (List.prefix_append _ _).trans hnext) And.left

/-- A task that is resolved next does not wait in the end. -/
theorem IsResolvedNext.outcomeOf_ne_none
    {w : World} {turns : List (TaskId × Cell.Turn Completion)} {t : TaskId} {o : Outcome}
    (h : w.IsResolvedNext turns t o) (hw : Recorded w) : outcomeOf w.cells t ≠ none := by
  have hsome : ∃ o₁, outcomeOf w.cells t = some o₁ := by
    rcases h with ⟨follow, hnext⟩ | ⟨hearlier, o₁, follow, hsettled⟩
    · have hlast : (t, .settled o follow) ∈ turns ++ [(t, .settled o follow)] :=
        List.mem_append_right _ (List.mem_singleton_self _)
      exact ⟨o, hw.outcomeOf_of_settled (hnext.subset hlast)⟩
    · exact ⟨o₁, hw.outcomeOf_of_settled (hearlier.subset hsettled)⟩
  obtain ⟨o₁, ho₁⟩ := hsome
  simp [ho₁]

end World

/-! ## Resolving and attaching -/

namespace Act

variable {d : Dispatcher} {level : Nat} {w w' : World} {t : TaskId} {o : Outcome}
  {result : Except Stop Unit}

/-- A resolution that is not refused sets off what it has to, and nothing comes behind that. -/
theorem exec_settle_bind
    {cell cell' : Cell Completion} {follow : Cell.Settling Completion}
    (hcell : w.cells[t]? = some cell) (hsettle : cell.settle o = some (cell', follow))
    (perform : Performer) {next : Bool → Act Unit} (hnext : next true = pure ()) :
    (settle perform t o >>= next).exec w =
      (follow.act perform o).exec (w.turn t (.settled o follow) cell') := by
  rw [exec_bind, exec_settle hcell hsettle, exec_bind]
  generalize (follow.act perform o).exec _ = after
  obtain ⟨stop | ⟨⟩, w'⟩ := after
  · rfl
  · change (next true).exec w' = _
    rw [hnext]
    rfl

theorem exec_resolve_waiting
    {c : Consumer Completion} (hcell : w.cells[t]? = some (.waiting c)) (perform : Performer)
    (o : Outcome) :
    (resolve perform t o).exec w =
      (c.follow.act perform o).exec (w.turn t (.settled o c.follow) (c.settledCell o)) :=
  exec_settle_bind hcell (Cell.settle_waiting o c) perform rfl

/-- A task that has a consumer refuses another. -/
theorem exec_attach_consumed
    {h : Completion} (hconsumed : ¬ Unconsumed w.cells t) (perform : Performer) :
    (attach perform t h).exec w = (.error (.panic (.text Cell.secondConsumer)), w) := by
  have hrefused : (w.cells[t]?).bind (Cell.attach h) = none := by
    cases hcell : w.cells[t]? with
    | none => rfl
    | some cell =>
        rcases cell with (_ | _ | _) | ⟨o, _ | _⟩ | _
        · exact absurd (.inl hcell) hconsumed
        · rfl
        · rfl
        · exact absurd (.inr ⟨o, hcell⟩) hconsumed
        · rfl
        · rfl
  unfold attach attachOr
  rw [exec_get_bind, hrefused]
  rfl

theorem turns_prefix_of_complete
    {h : Completion} (hexec : (perform d level (.complete h o)).exec w = (result, w')) :
    w.turns <+: w'.turns := by
  have hgrows := ((stable_turns w).serves d level).complete h o fun _ _ => trivial
  exact hgrows.of_exec (List.prefix_refl _) hexec False.elim

/-- What a resolution sets off adds to the history. -/
theorem turns_prefix_of_follow
    {c : Consumer Completion}
    (hexec : (c.follow.act (perform d level) o).exec w = (result, w')) : w.turns <+: w'.turns := by
  cases c with
  | none =>
      obtain rfl : _ = w' := congrArg Prod.snd hexec
      exact List.prefix_refl _
  | waker label =>
      obtain rfl : _ = w' := congrArg Prod.snd hexec
      exact List.prefix_refl _
  | handler h => exact turns_prefix_of_complete hexec

theorem isResolvedNext_of_resolve
    (hw : Recorded w) (hthere : t < w.cells.length)
    (hexec : (resolve (perform d level) t o).exec w = (result, w')) :
    w'.IsResolvedNext w.turns t o := by
  have hcell := List.getElem?_eq_getElem hthere
  generalize w.cells[t] = cell at hcell
  cases ho : cell.outcome? with
  | none =>
      cases cell with
      | waiting c =>
          rw [exec_resolve_waiting hcell] at hexec
          exact .inl ⟨c.follow, turns_prefix_of_follow hexec⟩
      | cached => cases ho
      | taken => cases ho
  | some o₁ =>
      obtain ⟨follow, hsettled⟩ := hw.settled_of_outcome? hcell ho
      rw [exec_resolve_again hcell (by simp [ho])] at hexec
      obtain ⟨-, rfl⟩ := Prod.mk.inj hexec
      exact .inr ⟨List.prefix_refl _, o₁, follow, hsettled⟩

/-- A guard lets through the panic of a second resolution alone, and a depth that is not enough. -/
theorem exec_guarded_error
    {α : Type} {a : Act α} {s : Stop} (hexec : (guarded a).exec w = (.error s, w')) :
    s = .panic .alreadyResolved ∨ s = .tooDeep := by
  rw [exec_guarded] at hexec
  split at hexec
  · cases hexec
  · exact .inl (Except.error.inj (Prod.mk.inj hexec).1).symm
  · exact .inr (Except.error.inj (Prod.mk.inj hexec).1).symm
  · cases hexec

/-! ## Whoever resolves the source -/

/-- An act that hands an outcome over to a completion handler of the source: it resolves the source,
or it attaches the handler to a source that has been resolved.  The handler is run in the second
world. -/
inductive Hands (perform : Performer) (s : TaskId) (h : Completion) (o : Outcome) (w : World) :
    World → Act Unit → Prop where
  | resolving (hcell : w.cells[s]? = some (.waiting (.handler h))) :
      Hands perform s h o w (w.turn s (.settled o (.run h)) (.taken o))
        (do let _settled ← settle perform s o; pure ())
  | attaching (hcell : w.cells[s]? = some (.cached o false)) :
      Hands perform s h o w (w.turn s (.attached h (some o)) (.taken o)) (attach perform s h)

theorem Hands.exec
    {perform : Performer} {s : TaskId} {h : Completion} {w₁ : World} {act : Act Unit}
    (hhands : Hands perform s h o w w₁ act) :
    act.exec w = (perform (.complete h o)).exec w₁ := by
  cases hhands with
  | resolving hcell => exact exec_settle_bind hcell rfl perform rfl
  | attaching hcell => exact exec_attach hcell rfl perform

/-- What a chain does with the answer of its continuation. -/
def follow (perform : Performer) (into : TaskId) : Except CallError TaskId → Act Unit
  | .ok t => attach perform t (.relay into)
  | .error e => resolve perform into (.error e)

variable {f : Outcome → Code .task} {into : TaskId}

theorem exec_chain (d : Dispatcher) (level : Nat) (f : Outcome → Code .task) (into : TaskId)
    (o : Outcome) (w : World) :
    (perform d (level + 1) (.complete (.chain f into) o)).exec w =
      match (guarded (run (perform d level) none (f o))).exec w with
      | (.ok answer, w₁) => (follow (perform d level) into answer).exec w₁
      | (.error s, w₁) => (.error s, w₁) := by
  rw [perform, complete, exec_bind]
  generalize (guarded (run (perform d level) none (f o))).exec w = after
  obtain ⟨s | e | t, w₁⟩ := after
  · rfl
  · rfl
  · rfl

end Act

/-- Resolving the task does not unwind, also when other tasks have gone on by then: nobody else has
resolved it, and its consumer does not panic. -/
def Dispatcher.IsSafe (d : Dispatcher) (w : World) (t : TaskId) : Prop :=
  ∀ level o p w₁, w.turns <+: w₁.turns → w₁.cells[t]? = w.cells[t]? →
    ((Act.resolve (perform d level) t o).exec w₁).1 ≠ .error (.panic p)

/-- A derived task is safe as long as nobody waits for it. -/
theorem Dispatcher.isSafe_of_waiting
    {w : World} {t : TaskId} (d : Dispatcher) (hcell : w.cells[t]? = some (.waiting .none)) :
    d.IsSafe w t := by
  intro level o p w₁ _ hsame
  rw [Act.exec_resolve_waiting (hsame.trans hcell)]
  nofun

namespace Act

variable {d : Dispatcher} {level : Nat} {w : World} {into : TaskId}

/-- A chain that follows a task which has no consumer does not unwind. -/
theorem exec_follow_safe
    (hsafe : d.IsSafe w into) {answer : Except CallError TaskId}
    (hfree : ∀ t, answer = .ok t → Unconsumed w.cells t) (p : Panic) :
    ((follow (perform d level) into answer).exec w).1 ≠ .error (.panic p) := by
  cases answer with
  | error e => exact hsafe level (.error e) p w (List.prefix_refl _) rfl
  | ok t =>
      rcases hfree t rfl with hcell | ⟨o, hcell⟩
      · rw [follow, exec_attach hcell rfl]
        nofun
      · rw [follow, exec_attach hcell rfl]
        cases level with
        | zero => nofun
        | succ level =>
            -- The derived task is not the given one, which has been resolved.
            have hother : t ≠ into := by
              rintro rfl
              refine hsafe 0 o .alreadyResolved w (List.prefix_refl _) rfl ?_
              rw [exec_resolve_again hcell nofun]
            refine hsafe level o p _ (List.prefix_append _ _) ?_
            rw [World.turn_cells, List.getElem?_set_ne hother]

/-- A continuation leaves a coherent world behind, and the derived task where it is. -/
theorem coherent_of_continuation
    {f : Outcome → Code .task} {o : Outcome} {answer : Except Stop (Except CallError TaskId)}
    {w' : World} (hw : Coherent w) (hthere : into < w.cells.length)
    (hexec : (guarded (run (perform d level) none (f o))).exec w = (answer, w'))
    (hdeep : answer ≠ .error .tooDeep) : Coherent w' ∧ into < w'.cells.length := by
  have hupholds := @upholds_coherent d (fun _ => True) (fun _ _ => trivial)
    (fun _ _ _ _ _ => .inl trivial) level
  have hcode := hupholds.guarded (hupholds.run (holdsFor_none _) (f o))
  have hgrows := (stable_length (into + 1)).serves d level
  have hlong := hgrows.allows.guarded (hgrows.run (holdsFor_none _) (f o))
  exact ⟨(hcode.of_exec ⟨hw, trivial⟩ hexec fun _ => hdeep).1,
    hlong.of_exec hthere hexec False.elim⟩

end Act

/-! ## What becomes of the derived task -/

/-- What has become of the derived task in a world, when a continuation has ended with an answer and
left the other world behind. -/
inductive World.Follows (w w₁ : World) (into : TaskId) :
    Except Stop (Except CallError TaskId) → Prop where
  /-- The continuation panicked, and the derived task failed at once. -/
  | failed {e : CallError} (hnext : w.IsResolvedNext w₁.turns into (.error e)) :
      Follows w w₁ into (.ok (.error e))
  /-- The given task took the relay, at once. -/
  | relayed {t : TaskId} {a : Option Outcome} (hfree : Unconsumed w₁.cells t)
      (hattached : w₁.turns ++ [(t, .attached (.relay into) a)] <+: w.turns) :
      Follows w w₁ into (.ok (.ok t))
  /-- The given task has a consumer and does not take the relay. -/
  | stranded {t : TaskId} (hconsumed : ¬ Unconsumed w₁.cells t) : Follows w w₁ into (.ok (.ok t))
  /-- The continuation resolved something twice, and no guard holds that. -/
  | unwound : Follows w w₁ into (.error (.panic .alreadyResolved))

theorem World.Follows.mono
    {w w' w₁ : World} {into : TaskId} {answer : Except Stop (Except CallError TaskId)}
    (h : w.Follows w₁ into answer) (hturns : w.turns <+: w'.turns) :
    w'.Follows w₁ into answer := by
  cases h with
  | failed hnext => exact .failed (hnext.mono hturns)
  | relayed hfree hattached => exact .relayed hfree (hattached.trans hturns)
  | stranded hconsumed => exact .stranded hconsumed
  | unwound => exact .unwound

namespace Act

variable {d : Dispatcher} {level : Nat} {w w' : World} {into : TaskId} {result : Except Stop Unit}

theorem follows_of_answer
    (hw : Coherent w) (hthere : into < w.cells.length) {answer : Except CallError TaskId}
    (hexec : (follow (perform d level) into answer).exec w = (result, w')) :
    w.turns <+: w'.turns ∧ w'.Follows w into (.ok answer) := by
  cases answer with
  | error e =>
      have hnext := isResolvedNext_of_resolve hw.recorded hthere hexec
      exact ⟨hnext.turns_prefix, .failed hnext⟩
  | ok t =>
      by_cases hfree : Unconsumed w.cells t
      · suffices hrelayed : ∃ a, w.turns ++ [(t, .attached (.relay into) a)] <+: w'.turns by
          obtain ⟨a, hattached⟩ := hrelayed
          exact ⟨(List.prefix_append _ _).trans hattached, .relayed hfree hattached⟩
        rcases hfree with hcell | ⟨o, hcell⟩
        · rw [follow, exec_attach hcell rfl] at hexec
          obtain rfl : _ = w' := congrArg Prod.snd hexec
          exact ⟨none, List.prefix_refl _⟩
        · rw [follow, exec_attach hcell rfl] at hexec
          exact ⟨some o, turns_prefix_of_complete hexec⟩
      · rw [follow, exec_attach_consumed hfree] at hexec
        obtain rfl : w = w' := congrArg Prod.snd hexec
        exact ⟨List.prefix_refl _, .stranded hfree⟩

/-- The work of a chain is to run the continuation and to do what its answer asks for. -/
theorem follows_of_chain
    {f : Outcome → Code .task} {o : Outcome} (hw : Coherent w) (hthere : into < w.cells.length)
    (hexec : (perform d (level + 1) (.complete (.chain f into) o)).exec w = (result, w'))
    (hdeep : result ≠ .error .tooDeep) :
    ∃ answer w₁, (guarded (run (perform d level) none (f o))).exec w = (answer, w₁) ∧
      w₁.turns <+: w'.turns ∧ w'.Follows w₁ into answer := by
  rw [exec_chain] at hexec
  cases hcode : (guarded (run (perform d level) none (f o))).exec w with
  | mk answer w₁ =>
      rw [hcode] at hexec
      refine ⟨answer, w₁, rfl, ?_⟩
      cases answer with
      | error stop =>
          obtain ⟨rfl, rfl⟩ := Prod.mk.inj hexec
          rcases exec_guarded_error hcode with rfl | rfl
          · exact ⟨List.prefix_refl _, .unwound⟩
          · exact absurd rfl hdeep
      | ok answer =>
          obtain ⟨hw₁, hthere₁⟩ := coherent_of_continuation hw hthere hcode nofun
          exact follows_of_answer hw₁ hthere₁ hexec

end Act

/-! ## Chains in a run -/

/-- The source has handed its outcome to the chain, and the continuation that was run on the outcome
ended with the answer and left the second world behind. -/
def Dispatcher.Continued (d : Dispatcher) (w : World) (s : TaskId) (f : Outcome → Code .task)
    (into : TaskId) (o : Outcome) (answer : Except Stop (Except CallError TaskId)) (w₁ : World) :
    Prop :=
  ∃ level w₀ front turn, w₀.turns = front ++ [(s, turn)] ∧
    turn.handed? = some (.chain f into, o) ∧
    (Act.guarded (Act.run (perform d level) none (f o))).exec w₀ = (answer, w₁) ∧
    w₁.turns <+: w.turns

namespace Dispatcher

variable {d : Dispatcher} {depth : Nat} {table : RouteTable} {steps : List Step} {w : World}

/-- A relay resolves its task as soon as it is handed an outcome. -/
theorem relayed_after
    (hw : (d.after depth table steps).world = w)
    (hdeep : .tooDeep ∉ (d.after depth table steps).stops) {t into : TaskId} {a : Option Outcome}
    {o : Outcome} (hattached : (t, .attached (.relay into) a) ∈ w.turns)
    (ho : outcomeOf w.cells t = some o) (hkept : (t, .abandoned (some (.relay into))) ∉ w.turns) :
    ∃ front turn, turn.handed? = some (.relay into, o) ∧
      w.IsResolvedNext (front ++ [(t, turn)]) into o := by
  subst hw
  have hrecorded := Recorded.after d depth table steps
  obtain ⟨front, turn, behind, hturns, hhanded⟩ := hrecorded.handed_of_attached hattached ho hkept
  obtain ⟨level, w₀, result, w', hfront, hw₀, haimed, hexec, hresult, hprefix⟩ :=
    performed_after hdeep hturns hhanded
  refine ⟨front, turn, hhanded, ?_⟩
  cases level with
  | zero => exact absurd (Prod.mk.inj hexec).1.symm hresult
  | succ level =>
      rw [← hfront]
      exact (Act.isResolvedNext_of_resolve hw₀.recorded (haimed into rfl) hexec).mono hprefix

/-- When a source has been resolved, the continuation of the chain was run, and the derived task
follows. -/
theorem follows_after
    (hw : (d.after depth table steps).world = w)
    (hdeep : .tooDeep ∉ (d.after depth table steps).stops) {s into : TaskId}
    {f : Outcome → Code .task} {a : Option Outcome} {o : Outcome}
    (hattached : (s, .attached (.chain f into) a) ∈ w.turns) (ho : outcomeOf w.cells s = some o)
    (hkept : (s, .abandoned (some (.chain f into))) ∉ w.turns) :
    ∃ answer w₁, d.Continued w s f into o answer w₁ ∧ w.Follows w₁ into answer := by
  subst hw
  have hrecorded := Recorded.after d depth table steps
  obtain ⟨front, turn, behind, hturns, hhanded⟩ := hrecorded.handed_of_attached hattached ho hkept
  obtain ⟨level, w₀, result, w', hfront, hw₀, haimed, hexec, hresult, hprefix⟩ :=
    performed_after hdeep hturns hhanded
  cases level with
  | zero => exact absurd (Prod.mk.inj hexec).1.symm hresult
  | succ level =>
      obtain ⟨answer, w₁, hcode, hbefore, hfollows⟩ :=
        Act.follows_of_chain hw₀ (haimed into rfl) hexec hresult
      exact ⟨answer, w₁, ⟨level, w₀, front, turn, hfront, hhanded, hcode, hbefore.trans hprefix⟩,
        hfollows.mono hprefix⟩

/-- Why a derived task still waits when its source has been resolved. -/
theorem waits_cases
    (hw : (d.after depth table steps).world = w)
    (hdeep : .tooDeep ∉ (d.after depth table steps).stops) {w₁ : World} {into : TaskId}
    {answer : Except Stop (Except CallError TaskId)} (hfollows : w.Follows w₁ into answer)
    (hwaits : outcomeOf w.cells into = none) :
    answer = .error (.panic .alreadyResolved) ∨ ∃ t, answer = .ok (.ok t) ∧
      (¬ Unconsumed w₁.cells t ∨ outcomeOf w.cells t = none ∨
        (t, .abandoned (some (.relay into))) ∈ w.turns) := by
  have hrecorded : Recorded w := hw ▸ Recorded.after d depth table steps
  cases hfollows with
  | failed hnext => exact absurd hwaits (hnext.outcomeOf_ne_none hrecorded)
  | @relayed t _ _ hattached =>
      refine .inr ⟨t, rfl, .inr ?_⟩
      by_contra hnot
      obtain ⟨hdone, hkept⟩ := not_or.mp hnot
      obtain ⟨o, ho⟩ := Option.ne_none_iff_exists'.mp hdone
      have hmem := hattached.subset (List.mem_append_right _ (List.mem_singleton_self _))
      obtain ⟨front, turn, -, hnext⟩ := relayed_after hw hdeep hmem ho hkept
      exact hnext.outcomeOf_ne_none hrecorded hwaits
  | @stranded t hconsumed => exact .inr ⟨t, rfl, .inl hconsumed⟩
  | unwound => exact .inl rfl

/-- To resolve the source of a chain, or to attach a chain to a resolved one, unwinds if the given
task has a consumer, and only then if the derived task is safe.  In a run the derived task fails as
soon as the continuation has panicked, or is resolved as soon as the given task is; so behind a
resolved source it waits only if the given task had a consumer, still waits or was given up, or if
the continuation resolved something twice. -/
theorem chain_after
    (hw : (d.after depth table steps).world = w)
    (hdeep : .tooDeep ∉ (d.after depth table steps).stops) (f : Outcome → Code .task)
    (into : TaskId) (o : Outcome) :
    (∀ level s w₀ w₁ w₂ act answer,
      Act.Hands (perform d (level + 1)) s (.chain f into) o w₀ w₁ act →
      (Act.guarded (Act.run (perform d level) none (f o))).exec w₁ = (.ok answer, w₂) →
      (∀ t, answer = .ok t → ¬ Unconsumed w₂.cells t →
        act.exec w₀ = (.error (.panic (.text Cell.secondConsumer)), w₂)) ∧
      (d.IsSafe w₂ into → (∀ t, answer = .ok t → Unconsumed w₂.cells t) →
        ∀ p, (act.exec w₀).1 ≠ .error (.panic p))) ∧
    (∀ s a, (s, .attached (.chain f into) a) ∈ w.turns → outcomeOf w.cells s = some o →
      (s, .abandoned (some (.chain f into))) ∉ w.turns →
      ∃ answer w₁, d.Continued w s f into o answer w₁ ∧ w.Follows w₁ into answer ∧
        (outcomeOf w.cells into = none → answer = .error (.panic .alreadyResolved) ∨
          ∃ t, answer = .ok (.ok t) ∧ (¬ Unconsumed w₁.cells t ∨ outcomeOf w.cells t = none ∨
            (t, .abandoned (some (.relay into))) ∈ w.turns))) ∧
    ∀ t a, (t, .attached (.relay into) a) ∈ w.turns → outcomeOf w.cells t = some o →
      (t, .abandoned (some (.relay into))) ∉ w.turns →
      ∃ front turn, turn.handed? = some (.relay into, o) ∧
        w.IsResolvedNext (front ++ [(t, turn)]) into o := by
  refine ⟨fun level s w₀ w₁ w₂ act answer hhands hcode => ?_,
    fun s a hattached ho hkept => ?_, fun t a => relayed_after hw hdeep⟩
  · have hexec : act.exec w₀ = (Act.follow (perform d level) into answer).exec w₂ := by
      rw [hhands.exec, Act.exec_chain, hcode]
    rw [hexec]
    refine ⟨?_, fun hsafe hfree => Act.exec_follow_safe hsafe hfree⟩
    rintro t rfl hconsumed
    exact Act.exec_attach_consumed hconsumed (perform d level)
  · obtain ⟨answer, w₁, hcontinued, hfollows⟩ := follows_after hw hdeep hattached ho hkept
    exact ⟨answer, w₁, hcontinued, hfollows, waits_cases hw hdeep hfollows⟩

/-- A task is chained to another one, and both are resolved, the source first. -/
def followedPast : Past :=
  after {} nesting .empty
    [.code (.create fun s => .create fun t => .chain s (fun _ => .done t) fun _ => .skip),
      .code (.settle 0 (.ok .null) fun _ => .skip),
      .code (.settle 1 (.ok (.bool true)) fun _ => .skip)]

/-- The source waits, and so do the task that the continuation gives and the derived task. -/
def chainedWorld : World :=
  { cells := [.waiting (.handler (.chain (fun _ => .done 1) 2)), .fresh, .fresh] }

theorem chain_after_followedPast :
    (∀ p, ((do let _settled ← Act.settle (perform {} 2) 0 (.ok .null); pure () : Act Unit).exec
      chainedWorld).1 ≠ .error (.panic p)) ∧
    outcomeOf followedPast.world.cells 2 = some (.ok (.bool true)) ∧
    ∃ answer w₁, Continued {} followedPast.world 0 (fun _ => .done 1) 2 (.ok .null) answer w₁ ∧
      followedPast.world.Follows w₁ 2 answer := by
  have hturns : followedPast.world.turns =
      [(0, .attached (.chain (fun _ => .done 1) 2) none),
        (0, .settled (.ok .null) (.run (.chain (fun _ => .done 1) 2))),
        (1, .attached (.relay 2) none),
        (1, .settled (.ok (.bool true)) (.run (.relay 2))),
        (2, .settled (.ok (.bool true)) .quiet)] := rfl
  have hstops : followedPast.stops = [] := rfl
  have hdeep : .tooDeep ∉ followedPast.stops := by simp [hstops]
  obtain ⟨hresolving, hrun, -⟩ :=
    chain_after (rfl : _ = followedPast.world) hdeep (fun _ => .done 1) 2 (.ok .null)
  refine ⟨?_, rfl, ?_⟩
  · refine (hresolving 1 0 chainedWorld _ _ _ (.ok 1) (.resolving rfl) rfl).2 ?_ ?_
    · exact isSafe_of_waiting {} rfl
    · rintro t ⟨⟩
      exact .inl rfl
  · obtain ⟨answer, w₁, hcontinued, hfollows, -⟩ :=
      hrun 0 none (by simp [hturns]) rfl (by simp [hturns])
    exact ⟨answer, w₁, hcontinued, hfollows⟩

/-- A task that has a completion handler is given to a chain, and both are resolved. -/
def consumedPast : Past :=
  after {} nesting .empty
    [.code (.create fun s => .create fun t => .attach t (fun _ => .skip)
        (.chain s (fun _ => .done t) fun _ => .skip)),
      .code (.settle 0 (.ok .null) fun _ => .skip),
      .code (.settle 1 (.ok (.bool true)) fun _ => .skip)]

/-- The derived task is left waiting, and resolving the source unwinds. -/
theorem stranded_consumedPast :
    outcomeOf consumedPast.world.cells 0 = some (.ok .null) ∧
      outcomeOf consumedPast.world.cells 1 = some (.ok (.bool true)) ∧
      consumedPast.world.cells[2]? = some (.waiting .none) ∧
      consumedPast.stops = [.panic (.text Cell.secondConsumer)] :=
  ⟨rfl, rfl, rfl, rfl⟩

end Dispatcher
end RouteDispatch
