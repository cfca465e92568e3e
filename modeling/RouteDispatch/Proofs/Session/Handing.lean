import RouteDispatch.Proofs.Session.Delivery

/-!
# Work that is handed over

A turn that hands an outcome to a completion handler sets off the work of the handler, which is done
before anything else is.  So the history of a run tells of work: for every such turn there was a
world with the history up to the turn on which the handler was performed, and what the handler did
comes next in the history.  Only a depth that is not enough breaks this.
-/

namespace RouteDispatch

/-- Only an attached completion handler that has to wait is in a task behind a turn. -/
theorem Cell.Takes.eq_attached_of_handler?
    {η : Type} {c c' : Cell η} {turn : Cell.Turn η} {h : η} (hturn : c.Takes turn c')
    (hhandler : c'.handler? = some h) : turn = .attached h none := by
  cases hturn with
  | settled hsettle => simp [(Cell.handler?_of_settle hsettle).1] at hhandler
  | @attached _ k o hattach =>
      rw [(Cell.handler?_of_attach hattach).2] at hhandler
      cases o with
      | none =>
          obtain rfl : k = h := by simpa using hhandler
          rfl
      | some o => simp at hhandler
  | polled hpoll => simp [Cell.handler?_of_poll hpoll] at hhandler
  | abandoned habandon =>
      have hnone := (Cell.abandon_fst c).1
      rw [habandon] at hnone
      simp [hnone] at hhandler

/-- The record of the world is that of its tasks, and the completion handlers that wait in them
resolve tasks that are there. -/
structure Coherent (w : World) : Prop where
  recorded : Recorded w
  aimed : ∀ {t : TaskId} {cell : Cell Completion} {h : Completion}, w.cells[t]? = some cell →
    cell.handler? = some h → h.IsAimed w

namespace Coherent

variable {w : World}

theorem of_table (table : RouteTable) : Coherent { table } :=
  ⟨.of_table table, by simp⟩

theorem newTask (h : Coherent w) : Coherent { w with cells := w.cells ++ [.fresh] } := by
  refine ⟨h.recorded.newTask, fun {t cell k} hcell hhandler u hu => ?_⟩
  have hold : w.cells[t]? = some cell := by
    by_cases hnew : w.cells.length = t
    · subst hnew
      obtain rfl : Cell.fresh = cell := by simpa using hcell
      cases hhandler
    · exact (getElem?_append_singleton_ne hnew _).symm.trans hcell
  have haimed : u < w.cells.length := h.aimed hold hhandler u hu
  rw [List.length_append]
  exact Nat.lt_add_right _ haimed

theorem turn
    {t : TaskId} {turn : Cell.Turn Completion} {cell cell' : Cell Completion} (h : Coherent w)
    (hcell : w.cells[t]? = some cell) (htakes : cell.Takes turn cell')
    (hwelcome : ∀ k, turn = .attached k none → k.IsAimed w) :
    Coherent (w.turnLogged t turn cell') := by
  refine ⟨h.recorded.turn hcell htakes, fun {u cell₁ k} hcell₁ hhandler v hv => ?_⟩
  have hlength : (w.turnLogged t turn cell').cells.length = w.cells.length := List.length_set
  rw [hlength]
  have hlt := (List.getElem?_eq_some_iff.mp hcell).1
  by_cases hsame : u = t
  · subst hsame
    obtain rfl : cell' = cell₁ := by simpa [World.turnLogged, hlt] using hcell₁
    exact hwelcome k (htakes.eq_attached_of_handler? hhandler) v hv
  · have hold : w.cells[u]? = some cell₁ := by
      simpa [World.turnLogged, List.getElem?_set_ne (Ne.symm hsame)] using hcell₁
    exact h.aimed hold hhandler v hv

/-- A turn that hands an outcome over leaves a coherent world behind, in which the handler resolves
a task that is there. -/
theorem handed
    {t : TaskId} {turn : Cell.Turn Completion} {cell cell' : Cell Completion} {k : Completion}
    {o : Outcome} (h : Coherent w) (hcell : w.cells[t]? = some cell)
    (htakes : cell.Takes turn cell')
    (hsome : turn.handed? = some (k, o))
    (hwelcome : turn = .attached k (some o) → k.IsAimed w) :
    Coherent (w.turn t turn cell') ∧ k.IsAimed (w.turn t turn cell') := by
  have hnot : ∀ k', turn ≠ .attached k' none := by
    rintro k' rfl
    cases hsome
  have hlogged := h.turn hcell htakes fun k' hk => absurd hk (hnot k')
  have hlength : (w.turn t turn cell').cells.length = w.cells.length := List.length_set
  rcases htakes.handed_cases hsome with ⟨rfl, hsettle⟩ | ⟨rfl, -⟩
  · rw [World.turnLogged_eq_turn rfl] at hlogged
    have haimed := h.aimed hcell (Cell.handler?_of_settle hsettle).2
    exact ⟨hlogged, fun u hu => hlength ▸ haimed u hu⟩
  · rw [World.turnLogged_eq_turn rfl] at hlogged
    exact ⟨hlogged, fun u hu => hlength ▸ hwelcome rfl u hu⟩

end Coherent

/-- Tasks keep their places. -/
theorem stable_length (n : Nat) : Stable (fun _ => True) fun w => n ≤ w.cells.length where
  turn hw _ _ _ := by simpa [World.turnLogged] using hw
  logged hw _ := hw
  newTask hw := by
    rw [List.length_append]
    exact Nat.le_add_right_of_le hw
  editCall _ hw _ := hw
  newCall _ hw := hw
  others _ _ _ hw := hw

namespace Act

variable {d : Dispatcher} {T : List (TaskId × Cell.Turn Completion) → Prop}

/-- The work of completion handlers that resolve tasks which are there keeps worlds coherent, and a
condition on their histories. -/
def Works (T : List (TaskId × Cell.Turn Completion) → Prop) (perform : Performer) : Prop :=
  ∀ (h : Completion) (o : Outcome),
    Triple (fun w => (Coherent w ∧ T w.turns) ∧ h.IsAimed w) (perform (.complete h o))
      (fun _ w => Coherent w ∧ T w.turns)
      fun s w => (Coherent w ∧ T w.turns) ∨ (True ∧ s = .tooDeep)

/-- What completion handlers do on one more level comes down to what acts do. -/
theorem Works.succ
    {depth : Nat}
    (hp : Upholds True (fun _ => True) Completion.IsAimed (fun w => Coherent w ∧ T w.turns)
      (perform d depth)) : Works T (perform d (depth + 1)) := by
  intro h o
  refine hp.completeJob (fun w hw => hw.1) (fun _ _ => trivial) o fun f into hchain => ?_
  -- The task that a chain resolves is still there when its continuation has ended.
  have hgrows := (stable_length (into + 1)).serves d depth
  have hcode := hp.guarded (hp.run (holdsFor_none _) (f o))
  have hlong := hgrows.allows.guarded (hgrows.run (holdsFor_none _) (f o))
  have hthere : ∀ w, h.IsAimed w → into + 1 ≤ w.cells.length := fun w haimed =>
    haimed into (by rw [hchain]; rfl)
  refine ((hcode.strengthen fun w hw => hw.1).and
    (hlong.strengthen fun w hw => hthere w hw.2)).weaken (fun w hw => hw) ?_ fun _ _ => And.left
  rintro result w ⟨hw, hlength⟩
  refine ⟨hw, fun u hu => ?_⟩
  obtain rfl : into = u := Option.some.inj hu
  exact hlength

theorem works_zero : Works T (perform d 0) :=
  fun _ _ => Triple.throw fun _ hw => .inl hw.1

/-- Single changes that are no turns keep worlds coherent and leave their histories alone. -/
theorem allows_coherent
    {depth : Nat}
    (hgoOn : ∀ k payload,
      Keeps True (fun w => Coherent w ∧ T w.turns) (perform d depth (.goOn k payload)))
    (hreport : ∀ c t o,
      Keeps True (fun w => Coherent w ∧ T w.turns) (perform d depth (.report c t o))) :
    Allows True (fun _ => True) (fun w => Coherent w ∧ T w.turns) (perform d depth) where
  logged := fun ⟨hw, hT⟩ he => ⟨⟨Recorded.stable.logged hw.recorded he, hw.aimed⟩, hT⟩
  added := fun ⟨hw, hT⟩ => ⟨hw.newTask, hT⟩
  edited g := fun ⟨hw, hT⟩ hc => ⟨⟨Recorded.stable.editCall g hw.recorded hc, hw.aimed⟩, hT⟩
  opened call := fun ⟨hw, hT⟩ => ⟨⟨Recorded.stable.newCall call hw.recorded, hw.aimed⟩, hT⟩
  others names table ticks := fun ⟨hw, hT⟩ =>
    ⟨⟨Recorded.stable.others names table ticks hw.recorded, hw.aimed⟩, hT⟩
  goOn k payload _ := hgoOn k payload
  report := hreport

section Upholding

variable
  (hturned : ∀ {turns : List (TaskId × Cell.Turn Completion)} {t : TaskId}
    {turn : Cell.Turn Completion}, T turns → turn.handed? = none → T (turns ++ [(t, turn)]))
  (hhanded : ∀ {w : World} {turns : List (TaskId × Cell.Turn Completion)} {t : TaskId}
    {turn : Cell.Turn Completion} {h : Completion} {o : Outcome}, Coherent w → h.IsAimed w →
    w.turns = turns ++ [(t, turn)] → T turns → turn.handed? = some (h, o) →
    T w.turns ∨ ∀ depth,
      Triple (· = w) (perform d depth (.complete h o)) (fun _ w' => Coherent w' ∧ T w'.turns)
        fun s w' => (Coherent w' ∧ T w'.turns) ∨ (True ∧ s = .tooDeep))

include hturned hhanded

theorem upholds_of_works
    {depth : Nat}
    (hallows : Allows True (fun _ => True) (fun w => Coherent w ∧ T w.turns) (perform d depth))
    (hworks : Works T (perform d depth)) :
    Upholds True (fun _ => True) Completion.IsAimed (fun w => Coherent w ∧ T w.turns)
      (perform d depth) where
  toAllows := hallows
  welcomes _ _ haimed := haimed
  turned := by
    rintro w t turn cell cell' ⟨hw, hT⟩ hcell htakes hnone - hwelcome
    refine ⟨hw.turn hcell htakes fun k hk => hwelcome k (by rw [hk]; rfl), ?_⟩
    exact hturned hT hnone
  handed := by
    rintro w t turn cell cell' h o ⟨hw, hT⟩ hcell htakes hsome hwelcome
    obtain ⟨hafter, haimed⟩ := hw.handed hcell htakes hsome hwelcome
    rcases hhanded hafter haimed rfl hT hsome with hdone | hjob
    · exact (hworks h o).apply ⟨⟨hafter, hdone⟩, haimed⟩
    · exact hjob depth
  givenUp := by
    rintro w t cell cell' h ⟨hw, hT⟩ hcell habandon
    have hafter := hw.turn hcell (.abandoned habandon) nofun
    rw [World.turnLogged_eq_turn rfl] at hafter
    exact (hallows.giveUp fun _ _ => trivial).apply ⟨hafter, hturned hT rfl⟩

/-- A condition on histories is kept by all acts, if turns that hand nothing over keep it, and those
that hand an outcome over do with the work that they set off. -/
theorem upholds_coherent (depth : Nat) :
    Upholds True (fun _ => True) Completion.IsAimed (fun w => Coherent w ∧ T w.turns)
      (perform d depth) := by
  induction depth with
  | zero =>
      have hallows := @allows_coherent d T 0 (fun _ _ => .throw _) fun _ _ _ => .throw _
      exact upholds_of_works hturned hhanded hallows works_zero
  | succ depth ih =>
      have hallows := @allows_coherent d T (depth + 1)
        (fun k payload => ih.goOnJob trivial payload) fun c t o => ih.reportJob d c t o
      exact upholds_of_works hturned hhanded hallows (.succ ih)

end Upholding

/-- Work leaves worlds coherent, whatever is said of their histories. -/
theorem works_coherent (d : Dispatcher) (depth : Nat) :
    Works (fun _ => True) (perform d depth) := by
  cases depth with
  | zero => exact works_zero
  | succ depth =>
      exact .succ (upholds_coherent (T := fun _ => True) (fun _ _ => trivial)
        (fun _ _ _ _ _ => .inl trivial) depth)

end Act

/-! ## Performed work -/

/-- A completion handler was performed on a world with the given history, and what it did stands
next in the later history. -/
def Dispatcher.Performed (d : Dispatcher) (turns later : List (TaskId × Cell.Turn Completion))
    (h : Completion) (o : Outcome) : Prop :=
  ∃ depth w₀ result w₁, w₀.turns = turns ∧ Coherent w₀ ∧ h.IsAimed w₀ ∧
    (perform d depth (.complete h o)).exec w₀ = (result, w₁) ∧ result ≠ .error .tooDeep ∧
    w₁.turns <+: later

theorem Dispatcher.Performed.mono
    {d : Dispatcher} {turns later later' : List (TaskId × Cell.Turn Completion)} {h : Completion}
    {o : Outcome} (hperformed : d.Performed turns later h o) (hlater : later <+: later') :
    d.Performed turns later' h o := by
  obtain ⟨depth, w₀, result, w₁, hturns, hw₀, haimed, hexec, hdeep, hprefix⟩ := hperformed
  exact ⟨depth, w₀, result, w₁, hturns, hw₀, haimed, hexec, hdeep, hprefix.trans hlater⟩

/-- The work was performed that the last of the turns set off, if they come first in the history. -/
def Dispatcher.Accounts (d : Dispatcher) (turns : List (TaskId × Cell.Turn Completion))
    (h : Completion) (o : Outcome) (later : List (TaskId × Cell.Turn Completion)) : Prop :=
  turns <+: later → d.Performed turns later h o

/-- Another turn sets other work off. -/
theorem Dispatcher.Accounts.append
    {d : Dispatcher} {turns later : List (TaskId × Cell.Turn Completion)} {h : Completion}
    {o : Outcome} {next : TaskId × Cell.Turn Completion} (haccounts : d.Accounts turns h o later)
    (hother : turns ≠ later ++ [next]) : d.Accounts turns h o (later ++ [next]) := by
  intro hprefix
  have hearlier := (List.prefix_concat_iff.mp hprefix).resolve_left hother
  exact (haccounts hearlier).mono (List.prefix_append _ _)

namespace Act

/-- Work that is performed now is on record afterwards. -/
theorem accounts_of_complete
    (d : Dispatcher) (level : Nat) {w : World} (hw : Coherent w) {h : Completion} (o : Outcome)
    (haimed : h.IsAimed w) :
    Triple (· = w) (perform d level (.complete h o))
      (fun _ w' => Coherent w' ∧ d.Accounts w.turns h o w'.turns)
      fun s w' => (Coherent w' ∧ d.Accounts w.turns h o w'.turns) ∨ (True ∧ s = .tooDeep) := by
  have hcoherent := (works_coherent d level h o).apply ⟨⟨hw, trivial⟩, haimed⟩
  have hperformed : ∀ result w', (perform d level (.complete h o)).exec w = (result, w') →
      result ≠ .error .tooDeep → d.Accounts w.turns h o w'.turns :=
    fun result w' hexec hdeep _ =>
      ⟨level, w, result, w', rfl, hw, haimed, hexec, hdeep, List.prefix_refl _⟩
  refine (hcoherent.and (Triple.self _ w)).weaken (fun _ => id) ?_ ?_
  · rintro v w' ⟨⟨hw', -⟩, hexec⟩
    exact ⟨hw', hperformed _ w' hexec nofun⟩
  · rintro s w' ⟨hstop, hexec⟩
    by_cases hdeep : s = .tooDeep
    · exact .inr ⟨trivial, hdeep⟩
    · have hw' := (hstop.resolve_right fun htoo => hdeep htoo.2).1
      exact .inl ⟨hw', hperformed _ w' hexec fun htoo => hdeep (Except.error.inj htoo)⟩

/-- All acts see to it that work is performed where it is handed over. -/
theorem upholds_accounts
    (d : Dispatcher) {front : List (TaskId × Cell.Turn Completion)} {t : TaskId}
    {turn : Cell.Turn Completion} {h : Completion} {o : Outcome}
    (hsome : turn.handed? = some (h, o)) (depth : Nat) :
    Upholds True (fun _ => True) Completion.IsAimed
      (fun w => Coherent w ∧ d.Accounts (front ++ [(t, turn)]) h o w.turns)
      (perform d depth) := by
  have hsame : ∀ {turns : List (TaskId × Cell.Turn Completion)} {u next},
      front ++ [(t, turn)] = turns ++ [(u, next)] → turn = next := by
    intro turns u next heq
    obtain ⟨-, hlast⟩ := List.append_inj' heq rfl
    exact (Prod.mk.inj (List.singleton_inj.mp hlast)).2
  refine upholds_coherent (T := d.Accounts (front ++ [(t, turn)]) h o) ?_ ?_ depth
  · intro turns u next hT hnone
    refine hT.append fun heq => ?_
    rw [← hsame heq, hsome] at hnone
    cases hnone
  · intro w turns u next k o' hw haimed hturns hT hnext
    by_cases hhere : front ++ [(t, turn)] = w.turns
    · obtain rfl := hsame (hhere.trans hturns)
      obtain ⟨rfl, rfl⟩ := Prod.mk.inj (Option.some.inj (hsome.symm.trans hnext))
      rw [hhere]
      exact .inr fun level => accounts_of_complete d level hw o haimed
    · rw [hturns] at hhere ⊢
      exact .inl (hT.append hhere)

end Act

namespace Dispatcher

variable {d : Dispatcher} {depth : Nat} {table : RouteTable} {steps : List Step}

/-- In a run that was not nested too deep, what was handed over was performed. -/
theorem performed_after
    (hdeep : .tooDeep ∉ (d.after depth table steps).stops)
    {front behind : List (TaskId × Cell.Turn Completion)} {t : TaskId}
    {turn : Cell.Turn Completion} {h : Completion} {o : Outcome}
    (hturns : (d.after depth table steps).world.turns = front ++ (t, turn) :: behind)
    (hsome : turn.handed? = some (h, o)) :
    d.Performed (front ++ [(t, turn)]) (d.after depth table steps).world.turns h o := by
  have hupholds := @Act.upholds_accounts d front t turn h o hsome depth
  refine (hupholds.foldl_take ⟨.of_table table, fun hprefix => ?_⟩ steps hdeep).2 ?_
  · simp at hprefix
  · refine ⟨behind, ?_⟩
    change front ++ [(t, turn)] ++ behind = (d.after depth table steps).world.turns
    simp [hturns]

end Dispatcher
end RouteDispatch
