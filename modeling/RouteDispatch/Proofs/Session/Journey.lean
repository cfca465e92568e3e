import RouteDispatch.Proofs.Session.Playing
import RouteDispatch.Proofs.Session.Tracking

/-!
# The journey of a call

Between two steps of a run a call is at rest: nothing brings it on any more, or a single task waits
to do so from the stop that was begun last.  In between the right to let the call go on is with
running code at a stop, or on its way from one stop to the next.  Whatever the code of the plugins
and of the handler does, it can only move the right along, so every job leaves the call at rest,
and no further than the plan allows.
-/

namespace RouteDispatch

/-! ## At rest and on the way -/

/-- The completion handler lets a call with `n` plugins go on from the stop at a place. -/
inductive Completion.Resumes (c : CallId) (n : Nat) : Completion → Nat → Prop where
  | plugin {route : Route} {point : Point} (f : Outcome → Code .nothing)
      (hroute : route.attachments.length = n) (hpoint : point.index < n) :
      Resumes c n (.resume ⟨⟨c, route⟩, point⟩ f) (point.place n)
  | handler {route : Route} (hroute : route.attachments.length = n) :
      Resumes c n (.handled ⟨c, route⟩) n

theorem Completion.Resumes.call?_eq
    {c : CallId} {n j : Nat} {h : Completion} (hres : h.Resumes c n j) : h.call? = some c := by
  cases hres <;> rfl

namespace Track

/-- Neither code nor a task has the right to let the call go on. -/
structure IsLoose (t : Track) (f : Footing) : Prop where
  away : IsAway f.held
  unkept : ∀ task, t.kept task = none

/-- The call has passed `j` stops and is on its way to the next one. -/
def Passed (n j : Nat) (t : Track) : Prop :=
  ∃ f, t.Reaches n (j + 3) (2 * j) f ∧ t.IsLoose f

/-- The call has begun the stop at place `j`, and no code has the right to let it go on yet. -/
def Begun (n j : Nat) (t : Track) : Prop :=
  ∃ f, t.Reaches n (j + 4) (2 * j + 1) f ∧ t.IsLoose f

/-- Running code has the right to let the call go on from the point. -/
def Holds (n : Nat) (point : Point) (t : Track) : Prop :=
  ∃ f, t.Reaches n (point.place n + 4) (2 * point.place n + 1) f ∧
    f.held = some (point, .code) ∧ ∀ task, t.kept task = none

inductive IsAtRest (c : CallId) (n : Nat) (t : Track) : Prop where
  | loose {k m : Nat} {f : Footing} (reaches : t.Reaches n k m f) (loose : t.IsLoose f)
  | waiting {h : Completion} {j : Nat} {task : TaskId} {f : Footing}
      (reaches : t.Reaches n (j + 4) (2 * j + 1) f) (away : IsAway f.held)
      (resumes : h.Resumes c n j)
      (kept : t.kept = Function.update (fun _ => none) task (some h))

variable {c : CallId} {n j : Nat} {point : Point} {t t' : Track} {f f' : Footing}

theorem IsLoose.of_eq (h : t.IsLoose f) (hheld : f'.held = f.held) (hkept : t'.kept = t.kept) :
    t'.IsLoose f' where
  away := by
    rw [hheld]
    exact h.away
  unkept := by
    rw [hkept]
    exact h.unkept

theorem Passed.isAtRest (h : t.Passed n j) : t.IsAtRest c n := by
  obtain ⟨f, hreach, hloose⟩ := h
  exact .loose hreach hloose

theorem Begun.isAtRest (h : t.Begun n j) : t.IsAtRest c n := by
  obtain ⟨f, hreach, hloose⟩ := h
  exact .loose hreach hloose

theorem Begun.footing (h : t.Begun n j) : ∃ f, t.footing? = some f := by
  obtain ⟨f, hreach, -⟩ := h
  exact ⟨f, hreach.footing⟩

/-- A call at rest that comes no further in its stages and stops stays at rest. -/
theorem IsAtRest.exists_reaches (h : t.IsAtRest c n) :
    ∃ k m f, t.Reaches n k m f ∧ IsAway f.held ∧
      ∀ {t' : Track} {f' : Footing}, t'.Reaches n k m f' → f'.held = f.held → t'.kept = t.kept →
        t'.IsAtRest c n := by
  cases h with
  | loose reaches loose =>
      exact ⟨_, _, _, reaches, loose.away, fun hreach hheld hkept =>
        .loose hreach (loose.of_eq hheld hkept)⟩
  | waiting reaches away resumes kept =>
      refine ⟨_, _, _, reaches, away, fun hreach hheld hkept => ?_⟩
      refine .waiting hreach ?_ resumes (hkept.trans kept)
      rw [hheld]
      exact away

theorem IsAtRest.footing (h : t.IsAtRest c n) :
    ∃ f, t.footing? = some f ∧ IsAway f.held := by
  obtain ⟨k, m, f, hreach, haway, -⟩ := h.exists_reaches
  exact ⟨f, hreach.footing, haway⟩

/-- The right to let the call go on is given to code. -/
theorem Begun.holds (h : t.Begun n (point.place n)) (hf : t.footing? = some f) :
    Holds n point { t with footing? := some { f with held := some (point, .code) } } := by
  obtain ⟨f', hreach, hloose⟩ := h
  obtain rfl : f' = f := Option.some.inj (hreach.footing.symm.trans hf)
  exact ⟨_, hreach.of_eq rfl rfl rfl rfl rfl, rfl, hloose.unkept⟩

/-- The right to let the call go on is taken from code. -/
theorem Holds.begun (h : t.Holds n point) (hf : t.footing? = some f)
    (held : Option (Point × Place)) (haway : IsAway held) :
    Begun n (point.place n) { t with footing? := some { f with held } } := by
  obtain ⟨f', hreach, -, hunkept⟩ := h
  obtain rfl : f' = f := Option.some.inj (hreach.footing.symm.trans hf)
  exact ⟨_, hreach.of_eq rfl rfl rfl rfl rfl, haway, hunkept⟩

/-- A stop that is passed brings the call on its way to the next one. -/
theorem Begun.passed (h : t.Begun n j) {s : Stage} (hs : (stops n)[j]? = some s) :
    Passed n (j + 1) { t with milestones := t.milestones ++ [.passed s] } := by
  obtain ⟨f, hreach, hloose⟩ := h
  exact ⟨f, hreach.milestone (schedule_stop hs).2 rfl rfl rfl, hloose.away, hloose.unkept⟩

theorem Holds.footing (h : t.Holds n point) :
    ∃ f, t.footing? = some f ∧ f.held = some (point, .code) := by
  obtain ⟨f, hreach, hheld, -⟩ := h
  exact ⟨f, hreach.footing, hheld⟩

end Track

/-! ## Jobs that leave a call at rest -/

namespace Act

open Track

variable {c : CallId} {n j : Nat} {point : Point} {perform : Performer}

/-- The act leaves a call that was so at rest, whether or not it stops. -/
def BringsToRest (c : CallId) (n : Nat) (Q : Track → Prop) {α : Type} (a : Act α) : Prop :=
  Triple (fun w => Q (w.track c)) a (fun _ w => (w.track c).IsAtRest c n)
    fun _ w => (w.track c).IsAtRest c n

/-- The report of its end leaves a call at rest. -/
def Reports (c : CallId) (n : Nat) (perform : Performer) : Prop :=
  ∀ into o, Keeps False (fun w => (w.track c).IsAtRest c n) (perform (.report c into o))

/-- Jobs leave a call with `n` plugins at rest, and what they do for others does not concern it. -/
structure Drives (c : CallId) (n : Nat) (perform : Performer) : Prop where
  others : ∀ {Q : Track → Prop},
    (∀ t, Q t → t.footing? ≠ none ∧ ∀ task, t.kept task = none) →
      Serves False (· ≠ c) (fun w => Q (w.track c)) perform
  rest : Serves False (· ≠ c) (fun w => (w.track c).IsAtRest c n) perform
  complete : ∀ {h : Completion} {j : Nat} (o : Outcome), h.Resumes c n j →
    BringsToRest c n (Begun n j) (perform (.complete h o))
  goOn : ∀ {route : Route} {point : Point} {payload : Payload}, route.attachments.length = n →
    point.index < n → (Continuation.mk ⟨c, route⟩ point).takes payload = true →
      BringsToRest c n (Passed n (point.place n + 1)) (perform (.goOn ⟨⟨c, route⟩, point⟩ payload))

theorem Drives.reports (hd : Drives c n perform) : Reports c n perform :=
  fun into o => hd.rest.report c into o

theorem Keeps.sure {α : Type} {P : World → Prop} {a : Act α} (h : Keeps False P a) :
    Triple P a (fun _ => P) fun _ => P :=
  h.stops fun _ _ hw => hw.resolve_right And.left

/-- A call that is left at rest need not tell whether code was given the right to go on. -/
theorem BringsToRest.orHolds {α : Type} {Q : Track → Prop} {a : Act α} (h : BringsToRest c n Q a) :
    Triple (fun w => Q (w.track c)) a
      (fun _ w => (w.track c).IsAtRest c n ∨ (w.track c).Holds n point)
      fun s w => ((w.track c).IsAtRest c n ∨ (w.track c).Holds n point) ∨
        (False ∧ s = .tooDeep) :=
  h.weaken (fun _ => id) (fun _ _ => .inl) fun _ _ hw => .inl (.inl hw)

/-- What is written about no stop and no move keeps every condition on the track. -/
theorem write_silent {Q : Track → Prop} {e : Entry} (he : e.IsSilent c) :
    Keeps False (fun w => Q (w.track c)) (write e) := by
  refine Triple.of_world fun w hw => Triple.write_last ?_
  rwa [track_silent he]

theorem calling_track {α : Type} {Q : Track → Prop} {a : Act α}
    (ha : Keeps False (fun w => Q (w.track c)) a) (d : CallId) (piece : Piece) :
    Keeps False (fun w => Q (w.track c)) (calling d piece a) := by
  refine ha.tryCatch (fun s => ?_) fun w _ => rfl
  cases s with
  | panic p => exact (write_silent ⟨rfl, rfl⟩).bind fun _ => .throw _
  | tooDeep => exact (Keeps.pure ()).bind fun _ => .throw _

/-! ## Ending the call -/

section Ending

variable (hp : Reports c n perform)

include hp

/-- A call that runs may end if its last stage may come now; one that has ended stays as it is. -/
theorem finish_track {w : World} {k m : Nat} {f : Footing} {o : Outcome}
    (hreach : (w.track c).Reaches n k m f)
    (hend : k < 2 * n + 5 → Follows n ((itinerary n).take k ++ [.ofOutcome o]))
    (hafter : ∀ {t : Track} {f' : Footing}, t.Reaches n k m f' → f'.held = f.held →
      t.kept = (w.track c).kept → t.IsAtRest c n) :
    Triple (· = w) (finish perform c o) (fun _ w => (w.track c).IsAtRest c n)
      fun _ w => (w.track c).IsAtRest c n := by
  cases hreach.stands with
  | running visits before outcome =>
      obtain ⟨w₁, hexec, htrack⟩ :=
        exec_enter_running visits.footing (isTerminal_of_visits visits before) (.ofOutcome o)
      refine Triple.step hexec (Triple.stops (conclude_triple (congrArg Track.footing? htrack)
        outcome (hp · o) fun w₂ hlog haspect => ?_)
        fun s w hw => hw.resolve_right And.left)
      have htrack₂ : w₂.track c = { w₁.track c with
          footing? := some ⟨{ f.view with stage := .ofOutcome o }, f.held, some o⟩ } := by
        simp [World.track, hlog, haspect]
      rw [htrack₂, htrack]
      refine hafter ⟨.ended (visits.enter rfl rfl rfl) (hend before) ?_ (by simp), ?_⟩ rfl rfl
      · cases o <;> rfl
      · exact hreach.milestones
  | ended visits follows closed outcome =>
      obtain ⟨call, hcall, rfl⟩ := exists_call_of_footing hreach.footing
      have hsettle : call.ending.settle o = none := Cell.settle_eq_none_iff.mpr outcome
      refine Triple.step (exec_enter_ended visits.footing closed _) (Triple.step (v := w) rfl ?_)
      rw [hcall, Option.bind_some, hsettle]
      refine Triple.write (Triple.raise ?_)
      rintro _ rfl
      rw [track_silent ⟨rfl, rfl⟩]
      exact hafter hreach rfl rfl

/-- A call may fail at any time. -/
theorem finish_error_track (e : CallError) :
    BringsToRest c n (IsAtRest c n) (finish perform c (.error e)) := by
  refine Triple.of_world fun w hw => ?_
  obtain ⟨k, m, f, hreach, -, hafter⟩ := hw.exists_reaches
  refine finish_track hp hreach (fun hk => .inr ⟨_, List.take_prefix k _, ?_, rfl⟩) hafter
  intro hall
  have hlength := congrArg List.length hall
  rw [List.length_take, length_itinerary] at hlength
  omega

theorem fail_track (route : Route) (e : CallError) :
    BringsToRest c n (IsAtRest c n) (fail perform ⟨c, route⟩ e) := by
  refine Triple.get fun w hw => ?_
  by_cases hrunning : w.isRunning c = true
  · rw [if_pos hrunning]
    exact (finish_error_track hp e).apply hw
  · rw [if_neg hrunning]
    exact (write_silent ⟨rfl, rfl⟩).sure.apply hw

/-- A call that has passed all stops succeeds. -/
theorem succeed_track (route : Route) (v : Json) :
    BringsToRest c n (Passed n (2 * n + 1)) (succeed perform ⟨c, route⟩ v) := by
  refine Triple.get fun w hw => ?_
  by_cases hrunning : w.isRunning c = true
  · rw [if_pos hrunning]
    obtain ⟨f, hreach, hloose⟩ := hw
    exact finish_track hp hreach
      (fun _ => .inl ⟨[], (List.append_nil _).trans (take_itinerary n)⟩)
      fun hreach hheld hkept => .loose hreach (hloose.of_eq hheld hkept)
  · rw [if_neg hrunning]
    exact (write_silent ⟨rfl, rfl⟩).sure.apply hw.isAtRest

end Ending

/-! ## Using the right to go on -/

section Using

variable (route : Route)

/-- Code that was given the right to go on uses it as long as it has it. -/
theorem withHeld_track {α : Type} {use : Continuation → Act α} {otherwise : Act α}
    {post : α → World → Prop} {stopped : Stop → World → Prop}
    (huse : Triple (fun w => (w.track c).Holds n point) (use ⟨⟨c, route⟩, point⟩) post stopped)
    (hother : Triple (fun w => (w.track c).IsAtRest c n) otherwise post stopped) :
    Triple (fun w => (w.track c).IsAtRest c n ∨ (w.track c).Holds n point)
      (withHeld (some ⟨⟨c, route⟩, point⟩) use otherwise) post stopped := by
  refine Triple.of_world fun w hw => ?_
  rcases hw with hrest | hholds
  · obtain ⟨f, hf, haway⟩ := hrest.footing
    exact Triple.of_exec_eq (exec_withHeld_away (k := ⟨⟨c, route⟩, point⟩) hf haway _ _)
      (hother.apply hrest)
  · obtain ⟨f, hf, hheld⟩ := hholds.footing
    exact Triple.of_exec_eq (exec_withHeld_held (k := ⟨⟨c, route⟩, point⟩) hf hheld _ _)
      (huse.apply hholds)

/-- A right that is not used to let the call go on brings it no further. -/
theorem spend_begun {fate : Fate} (hfate : fate ≠ .proceeded) :
    Triple (fun w => (w.track c).Holds n point) (spend ⟨⟨c, route⟩, point⟩ fate)
      (fun _ w => (w.track c).IsAtRest c n) fun _ w => (w.track c).IsAtRest c n := by
  refine Triple.of_world fun w hw => ?_
  obtain ⟨f, hf, -⟩ := hw.footing
  obtain ⟨w₁, hexec, htrack⟩ := exec_spend_track hf route point fate
  refine Triple.of_exec_eq (b := Pure.pure ()) hexec (Triple.done ?_)
  have hbegun := hw.begun hf none fun point => by simp
  rw [htrack, if_neg hfate, List.append_nil]
  exact hbegun.isAtRest

/-- The right passes the stop when it is used. -/
theorem spend_passed (hpoint : point.index < n) :
    Triple (fun w => (w.track c).Holds n point) (spend ⟨⟨c, route⟩, point⟩ .proceeded)
      (fun _ w => (w.track c).Passed n (point.place n + 1))
      fun _ w => (w.track c).IsAtRest c n := by
  refine Triple.of_world fun w hw => ?_
  obtain ⟨f, hf, -⟩ := hw.footing
  obtain ⟨w₁, hexec, htrack⟩ := exec_spend_track hf route point .proceeded
  refine Triple.of_exec_eq (b := Pure.pure ()) hexec (Triple.done ?_)
  have hbegun := hw.begun hf none fun point => by simp
  rw [htrack, if_pos rfl]
  exact hbegun.passed (stops_place hpoint)

theorem forfeit_track :
    Triple (fun w => (w.track c).IsAtRest c n ∨ (w.track c).Holds n point)
      (forfeit (some ⟨⟨c, route⟩, point⟩)) (fun _ w => (w.track c).IsAtRest c n)
      fun _ w => (w.track c).IsAtRest c n :=
  withHeld_track route (spend_begun route (by decide)) (Triple.pure fun _ => id)

theorem release_track (hp : Reports c n perform) :
    BringsToRest c n (fun t => t.IsAtRest c n ∨ t.Holds n point)
      (release perform (some ⟨⟨c, route⟩, point⟩)) :=
  withHeld_track route
    (Triple.bind (spend_begun route (by decide)) fun _ => fail_track hp route dropped)
    (Triple.pure fun _ => id)

theorem abort_track (hp : Reports c n perform) (e : CallError) :
    BringsToRest c n (fun t => t.IsAtRest c n ∨ t.Holds n point)
      (abort perform (some ⟨⟨c, route⟩, point⟩) e) :=
  withHeld_track route
    (Triple.bind (spend_begun route (by decide)) fun _ => fail_track hp route e)
    (Triple.pure fun _ => id)

variable (hd : Drives c n perform)

include hd

/-- A continuation that cannot take what is handed on stays with the code. -/
theorem proceed_track (hroute : route.attachments.length = n) (hpoint : point.index < n)
    (payload : Payload) :
    Keeps False (fun w => (w.track c).IsAtRest c n ∨ (w.track c).Holds n point)
      (proceed perform (some ⟨⟨c, route⟩, point⟩) payload) := by
  refine withHeld_track route ?_ (Triple.pure fun _ => .inl)
  by_cases htakes : (Continuation.mk ⟨c, route⟩ point).takes payload = true
  · rw [if_pos htakes]
    exact BringsToRest.orHolds
      (Triple.bind (spend_passed route hpoint) fun _ => hd.goOn hroute hpoint htakes)
  · rw [if_neg htakes]
    exact Triple.pure fun _ => .inr

/-- A task takes the completion handler over and keeps it, or has it run at once, or refuses it. -/
theorem attachOr_track {h : Completion} (hres : h.Resumes c n j) {refused : Act Unit}
    {P : World → Prop} (hP : ∀ w, (w.track c).IsAtRest c n → P w)
    (hrefused : Triple (fun w => (w.track c).Begun n j)
      (refused >>= fun _ => raise (.text Cell.secondConsumer)) (fun _ : Unit => P) fun _ => P)
    (t : TaskId) :
    Triple (fun w => (w.track c).Begun n j) (attachOr perform refused t h) (fun _ => P)
      fun _ => P := by
  refine Triple.of_world fun w hw => ?_
  obtain ⟨f, hreach, hloose⟩ := id hw
  refine Triple.attachOr (hrefused.apply hw) (fun cell cell' hcell hattach => hP _ ?_)
    fun cell cell' o hcell hattach => ?_
  · have hkept : cell'.keptFor c = some h :=
      (Aspect.keptFor_eq_some_iff c).mpr ⟨(Cell.handler?_of_attach hattach).2, hres.call?_eq⟩
    rw [track_turn (List.getElem?_eq_some_iff.mp hcell).1, hkept]
    have hwaits : Function.update (w.track c).kept t (some h) =
        Function.update (fun _ => none) t (some h) :=
      congrArg (Function.update · t _) (funext hloose.unkept)
    exact .waiting (hreach.of_eq hreach.footing rfl rfl rfl rfl) hloose.away hres hwaits
  · have hgone := Setting.keptFor_of_handler?_eq_none (c := c) (Cell.handler?_of_attach hattach).2
    refine Triple.apply ((hd.complete o hres).weaken (fun _ => id) (fun _ => hP) fun _ => hP) ?_
    rw [track_turn (List.getElem?_eq_some_iff.mp hcell).1, hgone]
    refine ⟨f, hreach.of_eq hreach.footing rfl rfl rfl rfl, hloose.away, fun u => ?_⟩
    by_cases hu : u = t
    · simp [hu]
    · simp [Function.update_of_ne hu, hloose.unkept]

theorem entrust_track (hroute : route.attachments.length = n) (hpoint : point.index < n)
    (t : TaskId) (h : Outcome → Code .nothing) :
    Keeps False (fun w => (w.track c).IsAtRest c n ∨ (w.track c).Holds n point)
      (entrust perform (some ⟨⟨c, route⟩, point⟩) t h) := by
  refine withHeld_track route (Triple.of_world fun w hw => ?_) ?_
  · obtain ⟨f, hf, -⟩ := hw.footing
    obtain ⟨w₁, hexec, htrack⟩ := exec_place_track hf route point .task
    have hbegun := hw.begun hf (some (point, .task)) fun point => by simp
    rw [← htrack] at hbegun
    refine Triple.step hexec (Triple.stops ((attachOr_track hd (.plugin h hroute hpoint)
      (fun _ => .inl) (Triple.of_world fun w₂ hw₂ => ?_) t).apply hbegun) fun _ _ => .inl)
    obtain ⟨f₂, hf₂⟩ := hw₂.footing
    obtain ⟨w₃, hexec, htrack⟩ := exec_place_track hf₂ route point .code
    refine Triple.step hexec (Triple.raise ?_)
    rintro _ rfl
    rw [htrack]
    exact .inr (hw₂.holds hf₂)
  · exact BringsToRest.orHolds
      (hd.rest.upholds.attach t (Completion.isFor_of_call?_eq_none rfl) rfl).sure

end Using

/-! ## Foreign code -/

section Code

variable (hd : Drives c n perform) {route : Route} (hroute : route.attachments.length = n)

include hd

theorem holds_serves : Serves False (· ≠ c) (fun w => (w.track c).Holds n point) perform := by
  refine hd.others fun t ht => ?_
  obtain ⟨f, hreach, -, hunkept⟩ := ht
  exact ⟨by simp [hreach.footing], hunkept⟩

theorem begun_serves : Serves False (· ≠ c) (fun w => (w.track c).Begun n j) perform := by
  refine hd.others fun t ht => ?_
  obtain ⟨f, hreach, hloose⟩ := ht
  exact ⟨by simp [hreach.footing], hloose.unkept⟩

include hroute

/-- Code that was given the right either has it still or has left the call at rest. -/
theorem run_track (hpoint : point.index < n) (code : Code .nothing) :
    Keeps False (fun w => (w.track c).IsAtRest c n ∨ (w.track c).Holds n point)
      (run perform (some ⟨⟨c, route⟩, point⟩) code) := by
  have hserves : Serves False (· ≠ c)
      (fun w => (w.track c).IsAtRest c n ∨ (w.track c).Holds n point) perform :=
    hd.rest.or (holds_serves hd)
  exact hserves.upholds.runUsing (proceed_track route hd hroute hpoint)
    (fun e => (abort_track route hd.reports e).orHolds)
    (release_track route hd.reports).orHolds
    (entrust_track route hd hroute hpoint) code

/-- When the code is done or has panicked, nothing of the right is left with it. -/
theorem runHolding_track (hpoint : point.index < n) (piece : Piece) (code : Code .nothing) :
    BringsToRest c n (Holds n point) (runHolding perform ⟨⟨c, route⟩, point⟩ piece code) := by
  have hcode := (calling_track (Q := fun t => t.IsAtRest c n ∨ t.Holds n point)
    (run_track hd hroute hpoint code) c piece).sure
  refine Triple.bind (Triple.tryCatch (hcode.strengthen fun _ => .inr) fun s => ?_) fun _ =>
    release_track route hd.reports
  exact Triple.bind (forfeit_track route) fun _ => Triple.throw fun _ => id

omit hroute in
/-- A guard that captures a panic has the call fail. -/
theorem guarded_track {Q : Track → Prop} {a : Act Unit} (ha : BringsToRest c n Q a) :
    BringsToRest c n Q
      (do
        match ← guarded a with
        | .ok () => pure ()
        | .error e => fail perform ⟨c, route⟩ e) := by
  refine Triple.bind ((Triple.guarded ha).stops fun _ _ => And.right) fun result => ?_
  cases result with
  | ok v => exact Triple.pure fun _ => id
  | error e =>
      refine (fail_track hd.reports route e).strengthen ?_
      rintro _ ⟨p, w, -, hw, rfl, -⟩
      rwa [track_silent ⟨rfl, rfl⟩]

/-! ## Stages -/

theorem runPlugin_track (hpoint : point.index < n) (plugin : String)
    (code : CallView → Code .nothing) :
    BringsToRest c n (Passed n (point.place n)) (runPlugin perform ⟨c, route⟩ point plugin code) := by
  refine Triple.of_world fun w hw => ?_
  obtain ⟨f, hreach, hloose⟩ := hw
  have hstop := stops_place hpoint
  have hplace := (List.getElem?_eq_some_iff.mp hstop).1
  rw [length_stops] at hplace
  obtain ⟨w₁, f₁, hexec, hreach₁, hheld, hkept⟩ :=
    exec_enter_reaches hreach (itinerary_stop hstop) (by omega)
  refine Triple.step hexec (Triple.step (v := w₁) rfl (Triple.write ?_))
  have hbegun : Begun n (point.place n) (World.track c { w₁ with
      log := w₁.log ++
        [.trace (.pluginStarted (w₁.callRef c) point route.name plugin)] }) := by
    rw [track_logged]
    refine ⟨f₁, hreach₁.milestone (schedule_stop hstop).1 rfl ?_ ?_, hloose.of_eq hheld hkept⟩
    · simp [Entry.move?]
    · simp [Entry.milestone?, World.callRef]
  obtain ⟨call, hcall, -⟩ := exists_call_of_footing hreach₁.footing
  obtain ⟨f₂, hf₂⟩ := hbegun.footing
  obtain ⟨w₂, hexec, htrack⟩ := exec_place_track hf₂ route point .code
  rw [hcall]
  refine Triple.step hexec
    ((guarded_track hd (runHolding_track hd hroute hpoint (.plugin point) (code call.view))).apply ?_)
  rw [htrack]
  exact hbegun.holds hf₂

theorem runHandler_track (args : Args) :
    BringsToRest c n (Passed n n) (runHandler perform ⟨c, route⟩ args) := by
  refine Triple.of_world fun w hw => ?_
  obtain ⟨f, hreach, hloose⟩ := hw
  obtain ⟨w₁, f₁, hexec, hreach₁, hheld, hkept⟩ :=
    exec_enter_reaches hreach (itinerary_stop (stops_handler n)) (by omega)
  refine Triple.step hexec (Triple.step (v := w₁) rfl (Triple.write (Triple.write ?_)))
  have hcode := calling_track ((begun_serves hd (j := n)).run (holdsFor_none _)
    (route.handler.invoke args)) c .handler
  have hbody : BringsToRest c n (Begun n n)
      (do
        let t ← calling c .handler (run perform none (route.handler.invoke args))
        attach perform t (.handled ⟨c, route⟩)) := by
    refine Triple.bind (hcode.sure.stops fun _ _ => Begun.isAtRest) fun t => ?_
    refine attachOr_track hd (.handler hroute) (fun _ => id) ?_ t
    exact Triple.bind (Triple.pure fun _ => id) fun _ => Triple.raise fun _ => Begun.isAtRest
  refine (guarded_track hd hbody).apply ?_
  rw [track_silent ⟨rfl, rfl⟩, track_logged]
  refine ⟨f₁, hreach₁.milestone (schedule_stop (stops_handler n)).1 rfl ?_ ?_,
    hloose.of_eq hheld hkept⟩
  · simp [Entry.move?]
  · simp [Entry.milestone?, World.callRef]

theorem callStage_track {i : Nat} (hi : i ≤ n) (args : Args) :
    BringsToRest c n (Passed n i) (callStage perform ⟨c, route⟩ i args) := by
  unfold callStage
  cases hplugin : route.attachments[i]? with
  | none =>
      have hle := List.getElem?_eq_none_iff.mp hplugin
      obtain rfl : i = n := by omega
      exact runHandler_track hd hroute args
  | some a =>
      have hpoint : (Point.call i).index < n := hroute ▸ (List.getElem?_eq_some_iff.mp hplugin).1
      exact runPlugin_track hd hroute hpoint _ _

theorem resultStage_track {i : Nat} (hi : i ≤ n) (v : Json) :
    BringsToRest c n (Passed n (n + 1 + i)) (resultStage perform ⟨c, route⟩ i v) := by
  unfold resultStage
  cases hplugin : route.attachments[i]? with
  | none =>
      have hle := List.getElem?_eq_none_iff.mp hplugin
      obtain rfl : i = n := by omega
      have hsucceed := succeed_track hd.reports route v
      rwa [show 2 * i + 1 = i + 1 + i by omega] at hsucceed
  | some a =>
      have hpoint : (Point.result i).index < n := hroute ▸ (List.getElem?_eq_some_iff.mp hplugin).1
      exact runPlugin_track hd hroute hpoint _ _

/-! ## Jobs -/

theorem goOn_track {payload : Payload} (hpoint : point.index < n)
    (htakes : (Continuation.mk ⟨c, route⟩ point).takes payload = true) :
    BringsToRest c n (Passed n (point.place n + 1))
      (Act.goOn perform ⟨⟨c, route⟩, point⟩ payload) := by
  cases point with
  | call i =>
      cases payload with
      | args args => exact callStage_track hd hroute (i := i + 1) hpoint args
      | result v => simp [Continuation.takes] at htakes
  | result i =>
      cases payload with
      | args args => simp [Continuation.takes] at htakes
      | result v => exact resultStage_track hd hroute (i := i + 1) hpoint v

end Code

/-- A completion handler of the call brings it on from the stop where it was left. -/
theorem complete_track (hd : Drives c n perform) {h : Completion} (hres : h.Resumes c n j)
    (o : Outcome) : BringsToRest c n (Begun n j) (Act.complete perform h o) := by
  cases hres with
  | plugin f hroute hpoint =>
      refine Triple.of_world fun w hw => ?_
      obtain ⟨footing, hf⟩ := hw.footing
      obtain ⟨w₁, hexec, htrack⟩ := exec_place_track hf _ _ .code
      refine Triple.step hexec ((runHolding_track hd hroute hpoint _ (f o)).apply ?_)
      rw [htrack]
      exact hw.holds hf
  | handler hroute =>
      cases o with
      | ok v =>
          refine Triple.of_world fun w hw => Triple.write ?_
          refine (resultStage_track hd hroute (Nat.zero_le _) v).apply ?_
          rw [track_logged]
          simpa [Entry.milestone?, Entry.move?] using hw.passed (stops_handler n)
      | error e => exact (fail_track hd.reports _ e).strengthen fun _ => Begun.isAtRest

theorem giveUp_track (hp : Reports c n perform) {h : Completion} (hres : h.Resumes c n j) :
    BringsToRest c n (Begun n j) (giveUp perform h) := by
  cases hres with
  | plugin f hroute hpoint =>
      refine Triple.of_world fun w hw => ?_
      obtain ⟨footing, hf⟩ := hw.footing
      obtain ⟨w₁, hexec, htrack⟩ := exec_place_track hf _ _ .code
      refine Triple.step hexec ((release_track _ hp).apply (.inr ?_))
      rw [htrack]
      exact hw.holds hf
  | handler hroute => exact Triple.pure fun _ => Begun.isAtRest

end Act
end RouteDispatch
