import RouteDispatch.Session.Run
import RouteDispatch.Proofs.Session.Effects
import RouteDispatch.Proofs.Session.Triple

/-!
# Code keeps the invariant

Whatever foreign code does, the invariant of a call holds afterwards inside the same frame.  `Good`
says what that needs of the way to perform jobs; each act of the library then has one triple, and an
induction over a piece of code puts them together.
-/

namespace RouteDispatch

/-! ## Stops -/

/-- After a stop some invariant of the call holds.  After one that a guard may capture it is the
invariant inside the frame; if the work was to bring the call itself on, the call has ended, and its
caller has had a task before. -/
structure Kept (c : CallId) (f : Frame) (drives : Bool) (s : Stop) (w : World) : Prop where
  sound : ∃ g : Frame, g.phase.standing = f.phase.standing ∧ Inv c g w
  soft : s.isHard = false →
    Inv c (f.knowing drives) w ∧ (drives = true → f.phase.isSettled = true)

section Frames

variable {c : CallId} {f : Frame} {w : World}

theorem Inv.forget (h : Inv c f w) (g : Frame) (hphase : g.phase = f.phase)
    (hmoving : g.moving ≤ f.moving) (hended : g.ended = true → f.ended = true)
    (hstrict : g.strict = true → f.strict = true) (haims : ∀ t ∈ g.aims, t ∈ f.aims) :
    Inv c g w :=
  h.frame g hphase hmoving (fun hg => h.facts.known (hended hg))
    (fun hg => h.facts.answered (hstrict hg)) fun t ht => h.facts.free t (haims t ht)

theorem Inv.unknowing {drives : Bool} (h : Inv c (f.knowing drives) w) : Inv c f w :=
  h.forget f rfl (Nat.le_refl _) (fun hf => by simp [Frame.knowing, hf]) id fun _ => id

theorem Inv.knowing (h : Inv c f w) (hend : endOf w.calls[c]? ≠ none) (drives : Bool) :
    Inv c (f.knowing drives) w :=
  h.frame _ rfl (Nat.le_refl _) (fun _ => hend) h.facts.answered h.facts.free

theorem Inv.aiming (h : Inv c f w) (t? : Option TaskId)
    (ht : ∀ t, t? = some t → IsFree w.calls[c]? w.cells t) : Inv c (f.aiming t?) w := by
  refine h.frame _ rfl (Nat.le_refl _) h.facts.known h.facts.answered ?_
  intro u hu
  rcases List.mem_append.mp hu with hnew | hold
  · exact ht u (by simpa using hnew)
  · exact h.facts.free u hold

theorem Inv.unaiming {t? : Option TaskId} (h : Inv c (f.aiming t?) w) : Inv c f w :=
  h.forget f rfl (Nat.le_refl _) id id fun _ hu => List.mem_append_right _ hu

theorem Inv.unplus {n : Nat} (h : Inv c (f.plus n) w) : Inv c f w :=
  h.forget f rfl (Nat.le_add_right _ _) id id fun _ => id

theorem Inv.loosen (h : Inv c f w) : Inv c f.loose w :=
  h.forget f.loose rfl (Nat.le_refl _) id (fun hf => by simp [Frame.loose] at hf) fun _ => id

theorem Inv.kept (h : Inv c f w) (s : Stop) : Kept c f false s w :=
  ⟨⟨f, rfl, h⟩, fun _ => ⟨h.forget _ rfl (Nat.le_refl _) (by simp [Frame.knowing]) id fun _ => id,
    by simp⟩⟩

theorem Kept.of_hard
    {drives : Bool} {s : Stop}
    (h : ∃ g : Frame, g.phase.standing = f.phase.standing ∧ Inv c g w) (hhard : s.isHard = true) :
    Kept c f drives s w :=
  ⟨h, fun hsoft => by simp [hhard] at hsoft⟩

theorem Inv.kept_of_hard
    {g : Frame} {drives : Bool} {s : Stop} (h : Inv c g w)
    (hphase : g.phase.standing = f.phase.standing) (hhard : s.isHard = true) :
    Kept c f drives s w :=
  .of_hard ⟨g, hphase, h⟩ hhard

theorem Kept.undriven {drives : Bool} {s : Stop} (h : Kept c f drives s w) :
    Kept c f false s w :=
  ⟨h.sound, fun hsoft => ((h.soft hsoft).1.unknowing.kept s).soft hsoft⟩

theorem Kept.unaiming {t? : Option TaskId} {drives : Bool} {s : Stop}
    (h : Kept c (f.aiming t?) drives s w) : Kept c f drives s w := by
  refine ⟨h.sound, fun hsoft => ?_⟩
  obtain ⟨hinv, hphase⟩ := h.soft hsoft
  exact ⟨Inv.unaiming (f := f.knowing drives) hinv, hphase⟩

theorem Kept.inv {s : Stop} {drives : Bool} (h : Kept c f drives s w) (hsoft : s.isHard = false) :
    Inv c f w :=
  (h.soft hsoft).1.unknowing

end Frames

/-! ## Ways to perform jobs -/

def Completion.drives (c : CallId) : Completion → Bool
  | .handled p => p.call == c
  | _ => false

/-- Jobs keep the invariant of the call: they use up the right to go on that they bring along, and
the report of the call's own end settles it. -/
structure Good (c : CallId) (perform : Performer) : Prop where
  complete : ∀ (f : Frame) (h : Completion) (o : Outcome),
    (∀ t, h.target? = some t → t ∈ f.aims) →
    Act.Triple (Inv c (f.plus (h.load c))) (perform (.complete h o)) (fun _ => Inv c f)
      (Kept c f (h.drives c))
  goOn : ∀ (f : Frame) (k : Continuation) (payload : Payload),
    Act.Triple (Inv c (f.plus (k.load c))) (perform (.goOn k payload)) (fun _ => Inv c f)
      (Kept c f (k.pipeline.call == c))
  reportOther : ∀ (f : Frame) (d : CallId) (t : TaskId) (o : Outcome), d ≠ c → t ∈ f.aims →
    Act.Triple (Inv c f) (perform (.report d t o)) (fun _ => Inv c f) (Kept c f false)
  reportOwn : ∀ (f : Frame) (t : TaskId) (o : Outcome),
    Act.Triple (Inv c (f.inPhase (.due t o))) (perform (.report c t o))
      (fun _ => Inv c (f.inPhase (.settled t))) (Kept c (f.inPhase (.settled t)) true)

namespace Act

variable {c : CallId} {perform : Performer}

/-! ## Tasks -/

theorem poll_keeps (f : Frame) (t : TaskId) (waker : String) :
    Triple (Inv c f) (poll t waker) (fun _ => Inv c f) (Kept c f false) := by
  unfold poll
  refine Triple.get fun w hw => ?_
  cases hcell : w.cells[t]? with
  | none => exact Triple.done hw
  | some cell =>
      dsimp only
      cases hpoll : cell.poll waker with
      | error refusal => exact Triple.raise fun w' hw' => (hw' ▸ hw).kept _
      | ok result =>
          obtain ⟨cell', outcome⟩ := result
          have hnone := Cell.handler?_of_poll hpoll
          refine Triple.setCell (Triple.done (hw.setCell hcell _ cell' f.moving ?_ ?_
            (.inl (Cell.outcome?_of_poll hpoll).2)))
          · simp [cellLoad, hnone]
          · intro k u hk
            simp [hnone] at hk

section Jobs

variable (hp : Good c perform)

include hp

/-- What follows once a cell has been resolved: its handler is run, and the answer is that the task
was still waiting. -/
theorem follow_keeps
    (g : Frame) {w : World} {cell cell' : Cell Completion} {t : TaskId} {o : Outcome}
    {follow : Cell.Settling Completion} {turn : Cell.Turn Completion}
    (hsettle : cell.settle o = some (cell', follow))
    (htarget : ∀ k, follow.handler? = some k → ∀ u, k.target? = some u →
      IsFree w.calls[c]? (w.cells.set t cell') u)
    (hset : ∀ n, n ≤ cellLoad c cell + g.moving →
      Inv c { g with moving := n } (w.turn t turn cell')) :
    Triple (· = w.turn t turn cell')
      (do
        match follow with
        | .quiet => Pure.pure ()
        | .wake label => write (.woken label)
        | .run h => perform (.complete h o)
        Pure.pure true)
      (fun settled w => settled = true ∧ Inv c g w) (Kept c g false) := by
  have hhandler := (Cell.handler?_of_settle hsettle).2
  have hplain := hset g.moving (Nat.le_add_left _ _)
  cases follow with
  | quiet => exact Triple.done ⟨rfl, hplain⟩
  | wake label =>
      have hwoken := hplain.logged (e := .woken label) rfl fun _ => rfl
      exact Triple.write (Triple.done ⟨rfl, hwoken⟩)
  | run k =>
      have hload : cellLoad c cell = k.load c := by
        simp [cellLoad, hhandler, Cell.Settling.handler?]
      have hplus : Inv c (g.plus (k.load c)) (w.turn t turn cell') :=
        hset _ (by omega)
      have haiming := hplus.aiming k.target? (htarget k rfl)
      have hjob := hp.complete (g.aiming k.target?) k o fun u hu =>
        List.mem_append_left _ (by simp [hu])
      refine Triple.bind (Triple.apply (hjob.weaken (fun _ => id) (fun _ _ => Inv.unaiming)
        fun _ _ hkept => hkept.unaiming.undriven) haiming) fun _ => ?_
      exact Triple.pure fun _ hw => ⟨rfl, hw⟩

/-- A task may be resolved if it is not the caller's, or is resolved already, or foreign code
resolves it. -/
theorem settle_keeps (f : Frame) (t : TaskId) (o : Outcome) :
    Triple (fun w => Inv c f w ∧ (answerOf w.calls[c]? = some t → outcomeOf w.cells t = none →
        .mark (.resolved t) ∈ w.log))
      (settle perform t o) (fun _ => Inv c f) (Kept c f false) := by
  unfold settle
  refine Triple.get ?_
  rintro w ⟨hw, hresolved⟩
  cases hcell : w.cells[t]? with
  | none => exact Triple.pure fun w' hw' => hw' ▸ hw
  | some cell =>
      dsimp only
      cases hsettle : cell.settle o with
      | none => exact Triple.pure fun w' hw' => hw' ▸ hw
      | some result =>
          obtain ⟨cell', follow⟩ := result
          obtain ⟨hbefore, -⟩ := Cell.outcome?_of_settle hsettle
          obtain ⟨hnone, hhandler⟩ := Cell.handler?_of_settle hsettle
          refine Triple.setCell (Triple.weaken (follow_keeps hp f hsettle ?_ ?_) (fun _ => id)
            (fun _ _ => And.right) fun _ _ => id)
          · intro k hk u hu
            have hfree := hw.facts.aimed cell (List.mem_of_getElem? hcell) k
              (hhandler.trans hk) u hu
            exact ⟨by simpa using hfree.1, hfree.2⟩
          · intro n hn
            refine hw.setCell hcell _ cell' n ?_ ?_ ?_
            · simpa [cellLoad, hnone] using hn
            · intro k u hk
              simp [hnone] at hk
            · refine .inr ⟨hbefore, fun hanswer => hresolved hanswer ?_⟩
              simp [outcomeOf, hcell, hbefore]

theorem settleMarked_keeps (f : Frame) (t : TaskId) (o : Outcome) :
    Triple (Inv c f) (settleMarked perform t o) (fun _ => Inv c f) (Kept c f false) := by
  unfold settleMarked
  refine Triple.get fun w hw => ?_
  by_cases hwaits : w.awaits t = true
  · rw [if_pos hwaits]
    have hmarked : Inv c f { w with log := w.log ++ [.mark (.resolved t)] } :=
      hw.logged rfl fun _ => rfl
    refine Triple.write ((settle_keeps hp f t o).apply ⟨hmarked, ?_⟩)
    intro _ _
    simp
  · rw [if_neg hwaits]
    refine (settle_keeps hp f t o).apply ⟨hw, ?_⟩
    intro hanswer hnone
    have hlt := hw.facts.stands.lt_length hanswer
    simp only [World.awaits, List.getElem?_eq_getElem hlt] at hwaits
    simp [outcomeOf, List.getElem?_eq_getElem hlt] at hnone
    simp [hnone] at hwaits

/-- A task that is not the caller's may be resolved; a second resolution is a hard stop. -/
theorem resolve_keeps (f : Frame) {t : TaskId} (ht : t ∈ f.aims) (o : Outcome) :
    Triple (Inv c f) (resolve perform t o) (fun _ => Inv c f) (Kept c f false) := by
  unfold resolve
  refine Triple.bind ((settle_keeps hp f t o).weaken (fun w hw => ⟨hw, ?_⟩) (fun _ _ => id)
    fun _ _ => id) fun settled => ?_
  · intro hanswer
    exact absurd hanswer (hw.facts.free t ht).2
  · cases settled with
    | true => exact Triple.pure fun _ => id
    | false => exact Triple.raise fun w hw => hw.kept _

/-- A completion handler may be attached to any task.  A refusal leaves what `refused` makes of the
world. -/
theorem attachOr_keeps
    (f : Frame) {refused : Act Unit} {left : World → Prop} (t : TaskId) (h : Completion)
    (htarget : ∀ u, h.target? = some u → u ∈ f.aims)
    (hrefused : Triple (Inv c (f.plus (h.load c))) refused (fun _ => left) fun _ _ => False) :
    Triple (Inv c (f.plus (h.load c))) (attachOr perform refused t h) (fun _ => Inv c f)
      fun s w => Kept c f (h.drives c) s w ∨ (s = .panic (.text Cell.secondConsumer) ∧ left w) := by
  refine Triple.of_world fun w hw => ?_
  have hset : ∀ {cell cell' outcome} (n : Nat), w.cells[t]? = some cell →
      cell.attach h = some (cell', outcome) → cellLoad c cell' + n ≤ f.moving + h.load c →
      Inv c { f with moving := n } (w.turn t (.attached h outcome) cell') := by
    intro cell cell' outcome n hcell hattach hn
    obtain ⟨hnone, hhandler⟩ := Cell.handler?_of_attach hattach
    have hload : cellLoad c cell = 0 := by simp [cellLoad, hnone]
    refine hw.setCell hcell _ cell' n (by rw [hload]; simpa [Frame.plus] using hn) ?_
      (.inl (Cell.outcome?_of_attach hattach).2)
    intro k u hk hu
    rw [hhandler] at hk
    split at hk
    · obtain rfl := Option.some.inj hk
      exact hw.facts.free u (htarget u hu)
    · simp at hk
  refine Triple.attachOr ?_ (fun cell cell' hcell hattach => hset f.moving hcell hattach ?_)
    fun cell cell' o hcell hattach => ?_
  · refine Triple.bind (Triple.apply (hrefused.stops fun _ _ hfalse => hfalse.elim) hw) fun _ => ?_
    exact Triple.raise fun w' hw' => .inr ⟨rfl, hw'⟩
  · simp [cellLoad, (Cell.handler?_of_attach hattach).2, Nat.add_comm]
  · have hplus : Inv c (f.plus (h.load c)) (w.turn t (.attached h (some o)) cell') :=
      hset _ hcell hattach (by simp [cellLoad, (Cell.handler?_of_attach hattach).2])
    exact ((hp.complete f h o htarget).stops fun _ _ => .inl).apply hplus

theorem attach_keeps
    (f : Frame) (t : TaskId) (h : Completion) (htarget : ∀ u, h.target? = some u → u ∈ f.aims) :
    Triple (Inv c (f.plus (h.load c))) (attach perform t h) (fun _ => Inv c f)
      fun s w => Kept c f (h.drives c) s w ∨
        (s = .panic (.text Cell.secondConsumer) ∧ Inv c (f.plus (h.load c)) w) :=
  attachOr_keeps hp f t h htarget (Triple.pure fun _ => id)

theorem attachCode_keeps (f : Frame) (t : TaskId) (g : Outcome → Code .nothing) :
    Triple (Inv c f) (attach perform t (.code g)) (fun _ => Inv c f) (Kept c f false) := by
  refine (attach_keeps hp f t (.code g) (by simp [Completion.target?])).stops ?_
  rintro s w (hkept | ⟨-, hw⟩)
  · exact hkept
  · exact hw.kept s

/-- A derived task is resolved by the handler that is made for it. -/
theorem derive_keeps
    (f : Frame) (t : TaskId) (handler : TaskId → Completion)
    (hload : ∀ u, (handler u).load c = 0) (htarget : ∀ u, (handler u).target? = some u)
    (hdrives : ∀ u, (handler u).drives c = false) :
    Triple (Inv c f) (derive perform t handler) (fun _ => Inv c f) (Kept c f false) := by
  unfold derive
  refine Triple.of_world fun w hw => Triple.newTask ?_
  obtain ⟨hnew, hfree⟩ := hw.newTask
  have haiming := hnew.aiming (some w.cells.length) fun u hu =>
    Option.some.inj hu ▸ hfree
  have hattach := attach_keeps hp (f.aiming (some w.cells.length)) t (handler w.cells.length)
    fun u hu => by
      rw [htarget] at hu
      exact List.mem_append_left _ (by simpa using hu.symm)
  rw [hload, hdrives] at hattach
  refine Triple.bind (Triple.apply (hattach.weaken (fun _ => id) (fun _ _ => Inv.unaiming) ?_)
    haiming) fun _ => Triple.pure fun _ => id
  rintro s w' (hkept | ⟨-, hw'⟩)
  · exact hkept.unaiming
  · exact hw'.unaiming.kept s

end Jobs

end Act
end RouteDispatch
