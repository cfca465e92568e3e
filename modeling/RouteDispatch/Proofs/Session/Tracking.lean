import RouteDispatch.Proofs.Session.Itinerary
import RouteDispatch.Proofs.Session.Staging

/-!
# Tracking a call

What is followed of a call is its track: how the call stands, the tasks that wait to bring it on,
and what the log says of its stages and of its stops.  This module says what each change of a world
does to the track, and when a track has come to some stages and milestones of the plan.
-/

namespace RouteDispatch

/-! ## Tracks -/

structure Track where
  footing? : Option Footing
  /-- The completion handlers that bring the call on, by the tasks that wait with them. -/
  kept : TaskId → Option Completion
  milestones : List Milestone
  moves : List (Stage × Stage)

def World.track (c : CallId) (w : World) : Track where
  footing? := (w.aspect c).footing?
  kept := (w.aspect c).kept
  milestones := milestones c w.log
  moves := moves c w.log

/-- The entry is about no stop and no move of the call. -/
def Entry.IsSilent (c : CallId) (e : Entry) : Prop :=
  e.milestone? c = none ∧ e.move? c = none

theorem Entry.isSilent_of_isFor {c : CallId} {e : Entry} (h : e.IsFor (· ≠ c)) : e.IsSilent c := by
  rcases e with _ | t | _ | m
  · exact ⟨rfl, rfl⟩
  · cases t <;> simp_all [IsFor, IsSilent, milestone?, move?]
  · exact ⟨rfl, rfl⟩
  · cases m with
    | spent d point fate => cases fate <;> simp_all [IsFor, IsSilent, milestone?, move?]
    | _ => simp_all [IsFor, IsSilent, milestone?, move?]

theorem Entry.isSilent_of_not_concerns {c : CallId} {e : Entry} (h : e.concerns c = false) :
    e.IsSilent c := by
  rcases e with _ | t | _ | m
  · exact ⟨rfl, rfl⟩
  · cases t <;> simp_all [concerns, IsSilent, milestone?, move?]
  · exact ⟨rfl, rfl⟩
  · cases m with
    | spent d point fate => cases fate <;> simp_all [concerns, IsSilent, milestone?, move?]
    | _ => simp_all [concerns, IsSilent, milestone?, move?]

section Changes

variable {c : CallId} {w : World}

theorem track_logged (e : Entry) :
    ({ w with log := w.log ++ [e] } : World).track c =
      { w.track c with
        milestones := (w.track c).milestones ++ (e.milestone? c).toList
        moves := (w.track c).moves ++ (e.move? c).toList } := by
  have hmilestones : milestones c (w.log ++ [e]) = milestones c w.log ++ (e.milestone? c).toList := by
    cases h : e.milestone? c <;> simp [milestones, h]
  have hmoves : moves c (w.log ++ [e]) = moves c w.log ++ (e.move? c).toList := by
    cases h : e.move? c <;> simp [moves, h]
  simp [World.track, hmilestones, hmoves]

theorem track_silent {e : Entry} (he : e.IsSilent c) :
    ({ w with log := w.log ++ [e] } : World).track c = w.track c := by
  simp [track_logged, he.1, he.2]

theorem track_turn {t : TaskId} (ht : t < w.cells.length) (turn : Cell.Turn Completion)
    (cell : Cell Completion) :
    (w.turn t turn cell).track c =
      { w.track c with kept := Function.update (w.track c).kept t (cell.keptFor c) } := by
  simp [World.track, Aspect.aspect_turn ht]

/-- An edit of the call is an edit of its footing. -/
theorem track_editCall (g : Call → Call) (f : Footing → Footing)
    (hfooting : ∀ call, (g call).footing = f call.footing) :
    ({ w with calls := w.calls.modify c g } : World).track c =
      { w.track c with footing? := (w.track c).footing?.map f } := by
  simp [World.track, Aspect.aspect_editCall g f hfooting]

end Changes

/-- What is done for other calls keeps every condition on the track of a call that there is. -/
theorem Stable.of_track
    {c : CallId} {Q : Track → Prop} (hQ : ∀ t, Q t → t.footing? ≠ none) :
    Stable (· ≠ c) fun w => Q (w.track c) := by
  refine .of_reading (g := fun log => (milestones c log, moves c log))
    (Q := fun a x => Q ⟨a.footing?, a.kept, x.1, x.2⟩) (fun log e he => ?_) (fun log label => ?_)
    fun a x footing ha hnone => absurd hnone (hQ _ ha)
  · obtain ⟨hmilestone, hmove⟩ := Entry.isSilent_of_isFor he
    simp [milestones, moves, hmilestone, hmove]
  · simp [milestones, moves, Entry.milestone?, Entry.move?]

/-! ## How far a call is -/

namespace Track

/-- The call has entered the stages one after the other and stands at the last. -/
structure Visits (t : Track) (stages : List Stage) (f : Footing) : Prop where
  footing : t.footing? = some f
  entered : visited t.moves = stages
  chained : t.moves.map Prod.fst = stages.dropLast
  last : stages.getLast? = some f.view.stage

/-- The call runs and has entered `k` stages of the itinerary, or it has ended. -/
inductive Stands (n k : Nat) (t : Track) (f : Footing) : Prop where
  | running (visits : t.Visits ((itinerary n).take k) f) (before : k < 2 * n + 5)
      (outcome : f.outcome? = none)
  | ended {stages : List Stage} (visits : t.Visits stages f) (follows : Follows n stages)
      (closed : f.view.stage.isTerminal = true) (outcome : f.outcome? ≠ none)

/-- The call has come to `k` stages and to `m` milestones. -/
structure Reaches (n k m : Nat) (t : Track) (f : Footing) : Prop where
  stands : t.Stands n k f
  milestones : t.milestones = (schedule n).take m

variable {n k m : Nat} {t t' : Track} {f f' : Footing} {stages : List Stage}

theorem Visits.of_eq (h : t.Visits stages f) (hfooting : t'.footing? = some f')
    (hmoves : t'.moves = t.moves) (hstage : f'.view.stage = f.view.stage) :
    t'.Visits stages f' where
  footing := hfooting
  entered := by rw [hmoves, h.entered]
  chained := by rw [hmoves, h.chained]
  last := by rw [hstage, h.last]

/-- The next stage is entered from the one at which the call stands. -/
theorem Visits.enter (h : t.Visits stages f) {s : Stage} (hfooting : t'.footing? = some f')
    (hmoves : t'.moves = t.moves ++ [(f.view.stage, s)]) (hstage : f'.view.stage = s) :
    t'.Visits (stages ++ [s]) f' where
  footing := hfooting
  entered := by
    rw [hmoves, ← h.entered]
    simp [visited]
  chained := by
    rw [hmoves, List.map_append, h.chained, List.dropLast_concat]
    exact List.dropLast_append_getLast? _ h.last
  last := by simp [hstage]

theorem Stands.footing (h : t.Stands n k f) : t.footing? = some f := by
  cases h with
  | running visits => exact visits.footing
  | ended visits => exact visits.footing

theorem Stands.exists_visits (h : t.Stands n k f) :
    ∃ stages, t.Visits stages f ∧ Follows n stages := by
  cases h with
  | running visits => exact ⟨_, visits, .inl (List.take_prefix k _)⟩
  | ended visits follows => exact ⟨_, visits, follows⟩

theorem Stands.of_eq (h : t.Stands n k f) (hfooting : t'.footing? = some f')
    (hmoves : t'.moves = t.moves) (hstage : f'.view.stage = f.view.stage)
    (houtcome : f'.outcome? = f.outcome?) : t'.Stands n k f' := by
  cases h with
  | running visits before outcome =>
      exact .running (visits.of_eq hfooting hmoves hstage) before (houtcome.trans outcome)
  | ended visits follows closed outcome =>
      refine .ended (visits.of_eq hfooting hmoves hstage) follows (hstage ▸ closed) ?_
      rwa [houtcome]

/-- A call that runs is at no terminal stage. -/
theorem isTerminal_of_visits (h : t.Visits ((itinerary n).take k) f) (hk : k < 2 * n + 5) :
    f.view.stage.isTerminal = false := by
  refine isTerminal_of_mem_prefix (List.take_prefix k _) ?_ (List.mem_of_getLast? h.last)
  rw [List.length_take]
  omega

theorem Reaches.footing (h : t.Reaches n k m f) : t.footing? = some f :=
  h.stands.footing

theorem Reaches.of_eq (h : t.Reaches n k m f) (hfooting : t'.footing? = some f')
    (hmoves : t'.moves = t.moves) (hmilestones : t'.milestones = t.milestones)
    (hstage : f'.view.stage = f.view.stage) (houtcome : f'.outcome? = f.outcome?) :
    t'.Reaches n k m f' :=
  ⟨h.stands.of_eq hfooting hmoves hstage houtcome, hmilestones.trans h.milestones⟩

/-- The next milestone of the schedule comes. -/
theorem Reaches.milestone (h : t.Reaches n k m f) {x : Milestone}
    (hx : (schedule n)[m]? = some x) (hfooting : t'.footing? = t.footing?)
    (hmoves : t'.moves = t.moves) (hmilestones : t'.milestones = t.milestones ++ [x]) :
    t'.Reaches n k (m + 1) f := by
  refine ⟨h.stands.of_eq (hfooting.trans h.footing) hmoves rfl rfl, ?_⟩
  rw [hmilestones, h.milestones, List.take_add_one, hx, Option.toList_some]

end Track

/-! ## Entering a stage -/

namespace Act

open Track

variable {c : CallId} {w : World} {n k m : Nat} {f : Footing}

theorem exec_enter_running (hf : (w.track c).footing? = some f)
    (hopen : f.view.stage.isTerminal = false) (s : Stage) :
    ∃ w', (enter c s).exec w = (.ok (), w') ∧
      w'.track c =
        { w.track c with
          footing? := some { f with view := { f.view with stage := s } }
          moves := (w.track c).moves ++ [(f.view.stage, s)] } := by
  obtain ⟨call, hcall, rfl⟩ := exists_call_of_footing hf
  refine ⟨_, exec_enter_open hcall hopen s, ?_⟩
  refine (track_editCall
    (w := { w with log := w.log ++ [.trace (.entered (w.callRef c) call.view.stage s)] })
    (fun x => { x with view := { x.view with stage := s } })
    (fun f => { f with view := { f.view with stage := s } }) fun _ => rfl).trans ?_
  rw [track_logged, hf]
  simp [Entry.milestone?, Entry.move?, World.callRef, Call.footing]

theorem exec_enter_ended (hf : (w.track c).footing? = some f)
    (hclosed : f.view.stage.isTerminal = true) (s : Stage) :
    (enter c s).exec w = (.ok (), w) := by
  obtain ⟨call, hcall, rfl⟩ := exists_call_of_footing hf
  exact exec_enter_last hcall hclosed s

/-- A call that comes to the next stage of the itinerary enters it, unless the call has ended. -/
theorem exec_enter_reaches (h : (w.track c).Reaches n k m f) {s : Stage}
    (hs : (itinerary n)[k]? = some s) (hk : k < 2 * n + 4) :
    ∃ w' f', (enter c s).exec w = (.ok (), w') ∧ (w'.track c).Reaches n (k + 1) m f' ∧
      f'.held = f.held ∧ (w'.track c).kept = (w.track c).kept := by
  cases h.stands with
  | running visits before outcome =>
      obtain ⟨w', hexec, htrack⟩ :=
        exec_enter_running visits.footing (isTerminal_of_visits visits before) s
      refine ⟨w', { f with view := { f.view with stage := s } }, hexec,
        ⟨.running ?_ (by omega) outcome, ?_⟩, rfl, by rw [htrack]⟩
      · rw [List.take_add_one, hs, Option.toList_some]
        exact visits.enter (by rw [htrack]) (by rw [htrack]) rfl
      · rw [htrack]
        exact h.milestones
  | ended visits follows closed outcome =>
      exact ⟨w, f, exec_enter_ended visits.footing closed s,
        ⟨.ended visits follows closed outcome, h.milestones⟩, rfl, rfl⟩

/-! ## Using the right to go on -/

variable (hf : (w.track c).footing? = some f) (route : Route) (point : Point)

include hf

theorem exec_place_track (p : Place) :
    ∃ w', (place ⟨⟨c, route⟩, point⟩ p).exec w = (.ok (), w') ∧
      w'.track c =
        { w.track c with footing? := some { f with held := some (point, p) } } := by
  refine ⟨_, rfl, ?_⟩
  refine (track_editCall _ (fun f => { f with held := some (point, p) }) fun _ => rfl).trans ?_
  rw [hf, Option.map_some]

/-- A stop is passed with a continuation that is used to let the call go on. -/
theorem exec_spend_track (fate : Fate) :
    ∃ w', (spend ⟨⟨c, route⟩, point⟩ fate).exec w = (.ok (), w') ∧
      w'.track c =
        { w.track c with
          footing? := some { f with held := none }
          milestones := (w.track c).milestones ++
            if fate = .proceeded then [.passed point.stage] else [] } := by
  refine ⟨_, rfl, (track_logged _).trans ?_⟩
  rw [track_editCall (fun call => { call with held := none })
    (fun f => { f with held := none }) fun _ => rfl, hf]
  cases fate <;> simp [Entry.milestone?, Entry.move?]

end Act
end RouteDispatch
