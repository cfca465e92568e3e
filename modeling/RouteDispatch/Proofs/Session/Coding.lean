import RouteDispatch.Proofs.Session.Ending

/-!
# Running foreign code

Foreign code that holds a continuation may use it in any way and at any time.  Each use moves the
one right to let the call go on, or gives it up and ends the call, so whatever the code is, the
invariant holds when it is done.  The proof for whole pieces of code is an induction over them.
-/

namespace RouteDispatch
namespace Act

variable {c : CallId} {perform : Performer}

/-! ## Using a continuation -/

theorem withHeld_triple
    {α : Type} {own : Option Continuation} {use : Continuation → Act α} {otherwise : Act α}
    {pre : World → Prop} {post : α → World → Prop} {stopped : Stop → World → Prop}
    (huse : ∀ k, own = some k → Triple (fun w => pre w ∧ k.IsHeld w) (use k) post stopped)
    (hother : Triple pre otherwise post stopped) :
    Triple pre (withHeld own use otherwise) post stopped := by
  unfold withHeld
  cases own with
  | none => exact hother
  | some k =>
      refine Triple.of_world fun w hw => ?_
      have hholds : (holds k).exec w =
          (.ok (w.calls[k.pipeline.call]?.any fun call => call.held == some (k.point, .code)),
            w) := by
        unfold holds
        rw [exec_get_bind]
        cases hcall : w.calls[k.pipeline.call]? with
        | none => rfl
        | some call => rfl
      refine Triple.step hholds ?_
      cases hcall : w.calls[k.pipeline.call]? with
      | none => exact hother.apply hw
      | some call =>
          rw [Option.any_some]
          by_cases hheld : call.held = some (k.point, .code)
          · rw [if_pos (by simpa using hheld)]
            exact (huse k rfl).apply ⟨hw, call, hcall, hheld⟩
          · rw [if_neg (by simpa using hheld)]
            exact hother.apply hw

theorem spend_proceeded
    (f : Frame) (k : Continuation) (stopped : Stop → World → Prop) :
    Triple (fun w => Inv c f w ∧ k.IsHeld w) (spend k .proceeded)
      (fun _ => Inv c (f.plus (k.load c))) stopped := by
  unfold spend
  refine Triple.of_world ?_
  rintro w ⟨hw, hheld⟩
  refine Triple.editCall (Triple.write_last ?_)
  have hmoved := hw.unplace hheld none (by simp)
  refine hmoved.spent k.pipeline.call k.point .proceeded ?_ ?_ ?_
  · intro hown
    exact hmoved.isIdle_of_moving (by simp [Frame.plus, Continuation.load, hown])
  · simp
  · rintro - - ⟨⟨point, fate, hentry, hfate⟩, -⟩
    simp only [Entry.mark.injEq, Mark.spent.injEq] at hentry
    obtain ⟨-, -, rfl⟩ := hentry
    simp at hfate

theorem spend_givenUp
    (f : Frame) (k : Continuation) {fate : Fate} {o : Outcome}
    (hfate : fate = .aborted ∨ (fate = .dropped ∧ ∃ m, o = .error (.internal m)))
    (stopped : Stop → World → Prop) :
    Triple (fun w => Inv c f w ∧ k.IsHeld w) (spend k fate)
      (fun _ => MayEnd c f k.pipeline.call o) stopped := by
  unfold spend
  refine Triple.of_world ?_
  rintro w ⟨hw, hheld⟩
  refine Triple.editCall (Triple.write_last ?_)
  have hmoved := hw.unplace hheld none (by simp)
  have hnotLost : fate ≠ .lost := by
    rcases hfate with rfl | ⟨rfl, -⟩ <;> simp
  refine ⟨fun hown => ?_, fun hown => ?_⟩
  · have hload : k.load c = 1 := if_pos hown
    rw [hload] at hmoved
    have hidle : f.phase.isIdle = false := hmoved.isIdle_of_moving (Nat.succ_pos _)
    -- The right that is given up was the only one, so none outlives the end of the call.
    have hzero := hmoved.facts.linear
    have hnone := hmoved.facts.lost
    simp only [Frame.plus] at hzero hnone
    refine ⟨?_, hidle, ?_, ?_, ?_⟩
    · exact hmoved.unplus.loosen.spent _ _ _ (fun _ => hidle) (fun _ hlost => absurd hlost hnotLost)
        fun _ hstrict => by simp [Frame.loose] at hstrict
    · intro hended
      refine hmoved.unplus.spent _ _ _ (fun _ => hidle) (fun _ hlost => absurd hlost hnotLost) ?_
      rintro - - ⟨-, hopen⟩
      exact hopen (hmoved.facts.closed.mpr hended)
    · intro _
      refine ⟨.inl ?_, ?_⟩
      · dsimp only
        omega
      · intro hlost
        rcases (lost_append_singleton _ _ _).mp hlost with hold | hnew
        · have := hnone hold
          omega
        · cases fate <;> simp [Entry.loses] at hnew hnotLost
    · intro _
      rcases hfate with rfl | ⟨-, hinternal⟩
      · refine .inl (hmoved.unplus.spent _ _ _ (fun _ => hidle) (by simp) ?_)
        rintro - - ⟨⟨point, fate, hentry, hfate⟩, -⟩
        simp only [Entry.mark.injEq, Mark.spent.injEq] at hentry
        obtain ⟨-, -, rfl⟩ := hentry
        simp at hfate
      · exact .inr hinternal
  · exact hmoved.unplus.spent _ _ _ (fun h => absurd h hown) (fun h => absurd h hown)
      fun h => absurd h hown

section Jobs

variable (hp : Good c perform)

include hp

theorem proceed_keeps (f : Frame) (own : Option Continuation) (payload : Payload) :
    Triple (Inv c f) (proceed perform own payload) (fun _ => Inv c f) (Kept c f false) := by
  unfold proceed
  refine withHeld_triple (fun k _ => ?_) (Triple.pure fun _ => id)
  by_cases htakes : k.takes payload = true
  · simp only [htakes, if_true]
    exact Triple.bind (spend_proceeded f k _) fun _ =>
      (hp.goOn f k payload).stops fun _ _ => Kept.undriven
  · simp only [htakes]
    exact Triple.pure fun _ hw => hw.1

theorem abort_keeps (f : Frame) (own : Option Continuation) (e : CallError) :
    Triple (Inv c f) (abort perform own e) (fun _ => Inv c f) (Kept c f false) := by
  unfold abort
  refine withHeld_triple (fun k _ => ?_) (Triple.pure fun _ => id)
  exact Triple.bind (spend_givenUp f k (.inl rfl) _) fun _ =>
    (fail_keeps hp f k.pipeline e).stops fun _ _ => Kept.undriven

/-- Dropping the continuation stops only when the call has ended. -/
theorem release_drives (f : Frame) (k : Continuation) :
    Triple (Inv c f) (release perform (some k)) (fun _ => Inv c f)
      (Kept c f (k.pipeline.call == c)) := by
  unfold release
  refine withHeld_triple (fun k' hk => ?_) (Triple.pure fun _ => id)
  obtain rfl := Option.some.inj hk
  exact Triple.bind (spend_givenUp f k (.inr ⟨rfl, _, rfl⟩) _) fun _ =>
    fail_keeps hp f k.pipeline dropped

theorem release_keeps (f : Frame) (own : Option Continuation) :
    Triple (Inv c f) (release perform own) (fun _ => Inv c f) (Kept c f false) := by
  cases own with
  | none => exact Triple.pure fun _ => id
  | some k =>
      exact (release_drives hp f k).stops fun _ _ => Kept.undriven

omit hp in
theorem look_keeps (f : Frame) (own : Option Continuation) :
    Triple (Inv c f) (look own) (fun _ => Inv c f) (Kept c f false) := by
  unfold look
  refine withHeld_triple (fun k _ => ?_) (Triple.pure fun _ => id)
  exact Triple.get fun w hw => Triple.done hw.1

theorem entrust_keeps
    (f : Frame) (own : Option Continuation) (t : TaskId) (h : Outcome → Code .nothing) :
    Triple (Inv c f) (entrust perform own t h) (fun _ => Inv c f) (Kept c f false) := by
  unfold entrust
  refine withHeld_triple (fun k _ => ?_) (attachCode_keeps hp f t h)
  have hplace : Triple (fun w => Inv c f w ∧ k.IsHeld w) (place k .task)
      (fun _ => Inv c (f.plus (k.load c))) (Kept c f false) := by
    refine Triple.of_world ?_
    rintro w ⟨hw, hheld⟩
    exact Triple.editCall_last (hw.unplace hheld (some (k.point, .task)) (by simp))
  -- A task with a consumer refuses the handler, and the right goes back to the code.
  have hback : Triple (Inv c (f.plus (k.load c))) (place k .code) (fun _ => Inv c f)
      fun _ _ => False :=
    Triple.of_world fun w hw => Triple.editCall_last hw.placeCode
  refine Triple.bind hplace fun _ => ?_
  refine (attachOr_keeps hp f t (.resume k h) (by simp [Completion.target?]) hback).stops ?_
  rintro s w (hkept | ⟨-, hw⟩)
  · exact hkept
  · exact hw.kept s

theorem abandon_keeps (f : Frame) (t : TaskId) :
    Triple (Inv c f) (abandon perform t) (fun _ => Inv c f) (Kept c f false) := by
  unfold abandon
  refine Triple.get fun w hw => ?_
  cases hcell : w.cells[t]? with
  | none => exact Triple.done hw
  | some cell =>
      obtain ⟨hnone, hsame⟩ := Cell.abandon_fst cell
      have hset : ∀ turn n, n ≤ cellLoad c cell + f.moving →
          Inv c { f with moving := n } (w.turn t turn cell.abandon.1) := by
        intro turn n hn
        refine hw.setCell hcell _ cell.abandon.1 n ?_ ?_ (.inl hsame)
        · simpa [cellLoad, hnone] using hn
        · intro k u hk
          simp [hnone] at hk
      have hplain : ∀ turn, Inv c f (w.turn t turn cell.abandon.1) :=
        fun turn => hset turn f.moving (Nat.le_add_left _ _)
      dsimp only
      refine Triple.setCell ?_
      rw [Cell.abandon_snd]
      cases hhandler : cell.handler? with
      | none => exact Triple.done (hplain _)
      | some h =>
          cases h with
          | resume k g =>
              have hplus : Inv c (f.plus (k.load c))
                  (w.turn t (.abandoned (some (.resume k g))) cell.abandon.1) :=
                hset _ _ (by simp [cellLoad, hhandler, Completion.load, Nat.add_comm])
              refine Triple.editCall ?_
              exact (release_keeps hp f (some k)).apply hplus.placeCode
          | _ => exact Triple.done (hplain _)

/-! ## Running code -/

/-- Whatever a piece of foreign code does, the invariant holds afterwards. -/
theorem run_keeps (f : Frame) (own : Option Continuation) {y : Yield} (code : Code y) :
    Triple (Inv c f) (run perform own code) (fun _ => Inv c f) (Kept c f false) := by
  -- Handlers inside the code are stored and not run here, so what is known of them is not needed.
  induction code with
  | done v => exact Triple.pure fun _ => id
  | panic p => exact Triple.raise fun w hw => hw.kept _
  | log r next ih =>
      refine Triple.of_world fun w hw => Triple.write (Triple.apply ih ?_)
      exact hw.logged rfl fun _ => rfl
  | create next ih =>
      exact Triple.of_world fun w hw => Triple.newTask ((ih _).apply hw.newTask.1)
  | settle t o next ih => exact Triple.bind (settleMarked_keeps hp f t o) ih
  | attach t h next _ ih => exact Triple.bind (attachCode_keeps hp f t h) fun _ => ih
  | entrust t h next _ ih => exact Triple.bind (entrust_keeps hp f own t h) fun _ => ih
  | transform t g next _ ih =>
      refine Triple.bind (derive_keeps hp f t (.transform g) ?_ ?_ ?_) ih
      · exact fun _ => rfl
      · exact fun _ => rfl
      · exact fun _ => rfl
  | chain t g next _ ih =>
      refine Triple.bind (derive_keeps hp f t (.chain g) ?_ ?_ ?_) ih
      · exact fun _ => rfl
      · exact fun _ => rfl
      · exact fun _ => rfl
  | poll t waker next ih => exact Triple.bind (poll_keeps f t waker) ih
  | state t next ih => exact Triple.get fun w hw => (ih _).apply hw
  | abandon t next ih => exact Triple.bind (abandon_keeps hp f t) fun _ => ih
  | proceed payload next ih => exact Triple.bind (proceed_keeps hp f own payload) fun _ => ih
  | abort e next ih => exact Triple.bind (abort_keeps hp f own e) fun _ => ih
  | release next ih => exact Triple.bind (release_keeps hp f own) fun _ => ih
  | inspect next ih => exact Triple.bind (look_keeps f own) ih
  | register name t next ih =>
      exact Triple.of_world fun w hw => Triple.step rfl (Triple.apply ih ⟨hw.facts, hw.apart⟩)
  | find name next ih => exact Triple.get fun w hw => (ih _).apply hw
  | unregister name next ih =>
      exact Triple.of_world fun w hw => Triple.step rfl (Triple.apply ih ⟨hw.facts, hw.apart⟩)
  | tick next ih =>
      exact Triple.of_world fun w hw => Triple.step rfl ((ih _).apply ⟨hw.facts, hw.apart⟩)

end Jobs

end Act
end RouteDispatch
