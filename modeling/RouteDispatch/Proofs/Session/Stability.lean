import RouteDispatch.Proofs.Session.Upholding

/-!
# Stable conditions

A condition on worlds that every single change keeps is kept by all acts, and so by whole runs.
Often a condition is about some calls only, and what those calls themselves do is looked at apart.
So a condition is `Stable` for a class of calls if it is kept by whatever is done for the calls of
the class, and `Serves` says how jobs keep it: the jobs of the class do, and so does what a
completion handler of another call does that is found in a task.  A depth that is not enough may
leave any world behind if one is lax about it.
-/

namespace RouteDispatch

/-! ## Stable conditions -/

/-- Single changes keep the condition that are made for calls of the class or for none. -/
structure Stable (calls : CallId → Prop) (P : World → Prop) : Prop where
  turn : ∀ {w : World} {t : TaskId} {turn : Cell.Turn Completion} {cell cell' : Cell Completion},
    P w → w.cells[t]? = some cell → cell.Takes turn cell' →
      (∀ h, turn.handler? = some h → h.IsFor calls) → P (w.turnLogged t turn cell')
  logged : ∀ {w : World} {e : Entry}, P w → e.IsFor calls → P { w with log := w.log ++ [e] }
  newTask : ∀ {w : World}, P w → P { w with cells := w.cells ++ [.fresh] }
  editCall : ∀ {w : World} {c : CallId} (g : Call → Call), P w → calls c →
    P { w with calls := w.calls.modify c g }
  newCall : ∀ {w : World} (call : Call), P w → P { w with calls := w.calls ++ [call] }
  others : ∀ {w : World} (names : List (String × TaskId)) (table : RouteTable) (ticks : Nat), P w →
    P { w with names, table, ticks }

/-- Of two stable conditions one stays to hold. -/
theorem Stable.or
    {calls : CallId → Prop} {P Q : World → Prop} (hP : Stable calls P) (hQ : Stable calls Q) :
    Stable calls fun w => P w ∨ Q w where
  turn hw hcell htakes hother := hw.imp (hP.turn · hcell htakes hother)
    (hQ.turn · hcell htakes hother)
  logged hw he := hw.imp (hP.logged · he) (hQ.logged · he)
  newTask hw := hw.imp hP.newTask hQ.newTask
  editCall g hw hc := hw.imp (hP.editCall g · hc) (hQ.editCall g · hc)
  newCall call hw := hw.imp (hP.newCall call) (hQ.newCall call)
  others names table ticks hw := hw.imp (hP.others names table ticks) (hQ.others names table ticks)

namespace Act

/-- Jobs keep a stable condition. -/
structure Serves (lax : Prop) (calls : CallId → Prop) (P : World → Prop)
    (perform : Performer) : Prop where
  stable : Stable calls P
  complete : ∀ (h : Completion) (o : Outcome), h.IsFor calls →
    Keeps lax P (perform (.complete h o))
  goOn : ∀ (k : Continuation) (payload : Payload), calls k.pipeline.call →
    Keeps lax P (perform (.goOn k payload))
  report : ∀ (c : CallId) (t : TaskId) (o : Outcome), Keeps lax P (perform (.report c t o))
  -- The completion handlers of other calls are not left alone either when they are found.
  found : ∀ {w : World} {t : TaskId} {cell cell' : Cell Completion} {h : Completion} {o : Outcome},
    P w → w.cells[t]? = some cell → cell.settle o = some (cell', .run h) → ¬ h.IsFor calls →
      Triple (· = w.turn t (.settled o (.run h)) cell') (perform (.complete h o)) (fun _ => P)
        fun s w => P w ∨ (lax ∧ s = .tooDeep)
  givenUp : ∀ {w : World} {t : TaskId} {cell cell' : Cell Completion} {h : Completion},
    P w → w.cells[t]? = some cell → cell.abandon = (cell', some h) → ¬ h.IsFor calls →
      Triple (· = w.turn t (.abandoned (some h)) cell') (giveUp perform h) (fun _ => P)
        fun s w => P w ∨ (lax ∧ s = .tooDeep)

variable {lax : Prop} {calls : CallId → Prop} {P : World → Prop} {perform : Performer}

namespace Serves

theorem or {Q : World → Prop} (hP : Serves lax calls P perform) (hQ : Serves lax calls Q perform) :
    Serves lax calls (fun w => P w ∨ Q w) perform where
  stable := hP.stable.or hQ.stable
  complete h o hfor := (hP.complete h o hfor).or (hQ.complete h o hfor)
  goOn k payload hk := (hP.goOn k payload hk).or (hQ.goOn k payload hk)
  report c t o := (hP.report c t o).or (hQ.report c t o)
  found hw hcell hsettle hother := hw.elim
    (fun hw => (hP.found hw hcell hsettle hother).leaves fun _ => .inl)
    fun hw => (hQ.found hw hcell hsettle hother).leaves fun _ => .inr
  givenUp hw hcell habandon hother := hw.elim
    (fun hw => (hP.givenUp hw hcell habandon hother).leaves fun _ => .inl)
    fun hw => (hQ.givenUp hw hcell habandon hother).leaves fun _ => .inr

variable (hp : Serves lax calls P perform)

include hp
theorem allows : Allows lax calls P perform where
  logged := hp.stable.logged
  added := hp.stable.newTask
  edited := hp.stable.editCall
  opened := hp.stable.newCall
  others := hp.stable.others
  goOn := hp.goOn
  report := hp.report

/-- Completion handlers of the class do their work on a condition that holds, and those of other
calls are looked after where they are found. -/
theorem upholds : Upholds lax calls (fun h _ => h.IsFor calls) P perform where
  toAllows := hp.allows
  welcomes _ hfor _ := hfor
  turned hw hcell htakes _ _ hwelcome := hp.stable.turn hw hcell htakes hwelcome
  handed {w t turn cell cell' h o} hw hcell htakes hhanded hwelcome := by
    have hown (hfor : h.IsFor calls) (hwoken : turn.woken? = none)
        (hturn : turn.handler? = some h) : P (w.turn t turn cell') := by
      rw [← World.turnLogged_eq_turn hwoken]
      exact hp.stable.turn hw hcell htakes fun k hk => Option.some.inj (hturn.symm.trans hk) ▸ hfor
    rcases htakes.handed_cases hhanded with ⟨rfl, hsettle⟩ | ⟨rfl, -⟩
    · by_cases hfor : h.IsFor calls
      · exact (hp.complete h o hfor).apply (hown hfor rfl rfl)
      · exact hp.found hw hcell hsettle hfor
    · exact (hp.complete h o (hwelcome rfl)).apply (hown (hwelcome rfl) rfl rfl)
  givenUp {w t cell cell' h} hw hcell habandon := by
    by_cases hfor : h.IsFor calls
    · have hturn := hp.stable.turn hw hcell (.abandoned habandon) fun k hk =>
        Option.some.inj hk ▸ hfor
      rw [World.turnLogged_eq_turn rfl] at hturn
      exact (hp.allows.giveUp hfor).apply hturn
    · exact hp.givenUp hw hcell habandon hfor

theorem run {own : Option Continuation} (hown : HoldsFor calls own) {y : Yield} (code : Code y) :
    Keeps lax P (run perform own code) :=
  hp.upholds.run hown code

theorem completeJob {h : Completion} (hfor : h.IsFor calls) (o : Outcome) :
    Keeps lax P (Act.complete perform h o) := by
  refine hp.upholds.completeJob (fun _ => id) hfor o fun f into hchain => ?_
  have hcode := hp.allows.guarded (hp.run (holdsFor_none calls) (f o))
  exact hcode.weaken (fun _ => id)
    (fun _ w hw => ⟨hw, Completion.isFor_of_call?_eq_none rfl⟩) fun _ _ => id

end Serves

/-- One more level of jobs keeps the condition if the handlers of other calls do that are found. -/
theorem Serves.succ {d : Dispatcher} {depth : Nat}
    (hp : Serves lax calls P (RouteDispatch.perform d depth))
    (hfound : ∀ {w : World} {t : TaskId} {cell cell' : Cell Completion} {h : Completion}
      {o : Outcome},
      P w → w.cells[t]? = some cell → cell.settle o = some (cell', .run h) → ¬ h.IsFor calls →
        Triple (· = w.turn t (.settled o (.run h)) cell')
          (Act.complete (RouteDispatch.perform d depth) h o) (fun _ => P)
          fun s w => P w ∨ (lax ∧ s = .tooDeep))
    (hgivenUp : ∀ {w : World} {t : TaskId} {cell cell' : Cell Completion} {h : Completion},
      P w → w.cells[t]? = some cell → cell.abandon = (cell', some h) → ¬ h.IsFor calls →
        Triple (· = w.turn t (.abandoned (some h)) cell')
          (Act.giveUp (RouteDispatch.perform d (depth + 1)) h) (fun _ => P)
          fun s w => P w ∨ (lax ∧ s = .tooDeep)) :
    Serves lax calls P (RouteDispatch.perform d (depth + 1)) where
  stable := hp.stable
  complete _ o hfor := hp.completeJob hfor o
  goOn _ payload hk := hp.upholds.goOnJob hk payload
  report c t o := hp.upholds.reportJob d c t o
  found := hfound
  givenUp := hgivenUp

end Act

/-! ## Runs -/

namespace Stable

variable {P : World → Prop} (hP : Stable (fun _ => True) P)

include hP

/-- All jobs keep a condition that is stable whatever call a change is made for. -/
theorem serves (d : Dispatcher) (depth : Nat) :
    Act.Serves False (fun _ => True) P (perform d depth) := by
  have hall : ∀ h : Completion, h.IsFor fun _ => True := fun _ _ _ => trivial
  induction depth with
  | zero =>
      exact ⟨hP, fun _ _ _ => .throw _, fun _ _ _ => .throw _, fun _ _ _ => .throw _,
        fun _ _ _ hother => absurd (hall _) hother, fun _ _ _ hother => absurd (hall _) hother⟩
  | succ depth ih =>
      exact ih.succ (fun _ _ _ hother => absurd (hall _) hother)
        fun _ _ _ hother => absurd (hall _) hother

theorem take (d : Dispatcher) (depth : Nat) {p : Past} (hp : P p.world) (step : Step) :
    P (d.take depth p step).world := by
  have hact := (hP.serves d depth).upholds.act step
  rcases hact.take ⟨hp, fun _ _ => trivial⟩ with ⟨hpost, -⟩ | ⟨s, hstop | ⟨hfalse, -⟩, -⟩
  · exact hpost
  · exact hstop
  · exact hfalse.elim

theorem foldl_take (d : Dispatcher) (depth : Nat) {p : Past} (hp : P p.world) (steps : List Step) :
    P (steps.foldl (d.take depth) p).world := by
  induction steps generalizing p with
  | nil => exact hp
  | cons step rest ih => exact ih (hP.take d depth hp step)

/-! ## Conditions that other work cannot break -/

omit hP

/-- A condition on what has happened so far is stable, if more that happens does not change it. -/
theorem of_history
    {calls : CallId → Prop}
    (h : ∀ w w' : World, w.turns ⊆ w'.turns → w.log <+: w'.log → P w → P w') : Stable calls P where
  turn {w _ _ _ _} hw _ _ _ := h w _ (List.subset_append_left ..) (List.prefix_append ..) hw
  logged {w _} hw _ := h w _ (fun _ => id) (List.prefix_append ..) hw
  newTask {w} hw := h w _ (fun _ => id) (List.prefix_refl _) hw
  editCall {w _} _ hw _ := h w _ (fun _ => id) (List.prefix_refl _) hw
  newCall {w} _ hw := h w _ (fun _ => id) (List.prefix_refl _) hw
  others {w} _ _ _ hw := h w _ (fun _ => id) (List.prefix_refl _) hw

/-- A stable condition may be put under another one that nothing brings about. -/
theorem imp
    {calls : CallId → Prop} {A : World → Prop} (hA : Stable (fun _ => True) fun w => ¬ A w)
    (hP : Stable calls P) : Stable calls fun w => A w → P w where
  turn hw hcell htakes hother hafter :=
    hP.turn (hw (not_not.mp fun hbefore => hA.turn hbefore hcell htakes
      (fun _ _ _ _ => trivial) hafter))
      hcell htakes hother
  logged hw he hafter :=
    hP.logged (hw (not_not.mp fun hbefore => hA.logged hbefore (he.mono fun _ _ => trivial) hafter))
      he
  newTask hw hafter := hP.newTask (hw (not_not.mp fun hbefore => hA.newTask hbefore hafter))
  editCall g hw hc hafter :=
    hP.editCall g (hw (not_not.mp fun hbefore => hA.editCall g hbefore trivial hafter)) hc
  newCall call hw hafter :=
    hP.newCall call (hw (not_not.mp fun hbefore => hA.newCall call hbefore hafter))
  others names table ticks hw hafter :=
    hP.others names table ticks (hw (not_not.mp fun hbefore =>
      hA.others names table ticks hbefore hafter))

end Stable

/-- Jobs keep a stable condition if no task waits with a completion handler of another call, or the
condition holds for a reason that nothing changes. -/
theorem Act.Serves.of_stable
    {lax : Prop} {calls : CallId → Prop} {P R : World → Prop} (hP : Stable calls P)
    (hR : Stable (fun _ => True) R) (hRP : ∀ w, R w → P w)
    (hown : ∀ (w : World) (t : TaskId) (cell : Cell Completion) (h : Completion), P w →
      w.cells[t]? = some cell → cell.handler? = some h → R w ∨ h.IsFor calls)
    (d : Dispatcher) (depth : Nat) : Serves lax calls P (RouteDispatch.perform d depth) := by
  have hall : ∀ h : Completion, h.IsFor fun _ => True := fun _ _ _ => trivial
  have hturned : ∀ {w : World} {t : TaskId} {turn : Cell.Turn Completion}
      {cell cell' : Cell Completion}
      {h : Completion}, P w → w.cells[t]? = some cell → cell.handler? = some h → ¬ h.IsFor calls →
      cell.Takes turn cell' → turn.woken? = none → R (w.turn t turn cell') := by
    intro w t turn cell cell' h hw hcell hhandler hother htakes hwoken
    have hold := (hown w t cell h hw hcell hhandler).resolve_right hother
    rw [← World.turnLogged_eq_turn hwoken]
    exact hR.turn hold hcell htakes fun _ _ => hall _
  have hkeeps : ∀ {a : Act Unit} {w : World}, Keeps False R a → R w →
      Triple (· = w) a (fun _ => P) fun s w => P w ∨ (lax ∧ s = .tooDeep) := by
    intro a w ha hw
    refine ha.weaken (fun _ hsame => hsame ▸ hw) (fun _ => hRP) fun s w' hw' => ?_
    exact hw'.imp (hRP w') fun hfalse => hfalse.1.elim
  have hfound : ∀ (depth : Nat) {w : World} {t : TaskId} {cell cell' : Cell Completion}
      {h : Completion} {o : Outcome}, P w → w.cells[t]? = some cell →
      cell.settle o = some (cell', .run h) → ¬ h.IsFor calls →
      Triple (· = w.turn t (.settled o (.run h)) cell')
        (RouteDispatch.perform d depth (.complete h o))
        (fun _ => P) fun s w => P w ∨ (lax ∧ s = .tooDeep) := by
    intro depth w t cell cell' h o hw hcell hsettle hother
    exact hkeeps ((hR.serves d depth).complete h o (hall h))
      (hturned hw hcell (Cell.handler?_of_settle hsettle).2 hother (.settled hsettle) rfl)
  have hgivenUp : ∀ (depth : Nat) {w : World} {t : TaskId} {cell cell' : Cell Completion}
      {h : Completion}, P w → w.cells[t]? = some cell → cell.abandon = (cell', some h) →
      ¬ h.IsFor calls →
      Triple (· = w.turn t (.abandoned (some h)) cell')
        (Act.giveUp (RouteDispatch.perform d depth) h)
        (fun _ => P) fun s w => P w ∨ (lax ∧ s = .tooDeep) := by
    intro depth w t cell cell' h hw hcell habandon hother
    have hhandler := Cell.abandon_snd cell
    rw [habandon] at hhandler
    exact hkeeps ((hR.serves d depth).allows.giveUp (hall h))
      (hturned hw hcell hhandler.symm hother (.abandoned habandon) rfl)
  induction depth with
  | zero =>
      exact ⟨hP, fun _ _ _ => .throw _, fun _ _ _ => .throw _, fun _ _ _ => .throw _,
        hfound 0, hgivenUp 0⟩
  | succ depth ih => exact ih.succ (hfound (depth + 1)) (hgivenUp (depth + 1))

end RouteDispatch
