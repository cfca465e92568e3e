import Mathlib.Data.List.Induction
import RouteDispatch.Proofs.Session.Dispatching

/-!
# Runs

A run starts with a table and nothing else, and takes steps one after the other: a request is
dispatched, code outside of all calls runs, or the table is replaced.  A stop ends its step and not
the run.  Between two steps nothing of a call is on its way, so the invariant of each call holds at
rest.  A run is calm if all its stops are panics that a guard could have captured.
-/

namespace RouteDispatch

inductive Step where
  | dispatch (r : Request)
  | code {y : Yield} (code : Code y)
  | replace (table : RouteTable)

/-- What a run has come to: the stops of its steps, and the world. -/
structure Past where
  stops : List Stop := []
  world : World

/-- No task was resolved twice, and no work was given up because it was nested too deep. -/
def Past.isCalm (p : Past) : Bool :=
  p.stops.all fun s => !s.isHard

namespace Dispatcher

def act (d : Dispatcher) (depth : Nat) : Step → Act Unit
  | .dispatch r => do
    let _ ← Act.dispatch (perform d depth) d r
    pure ()
  | .code c => do
    let _ ← Act.run (perform d depth) none c
    pure ()
  | .replace table => do
    let _ ← Act.replaceTable table
    pure ()

def take (d : Dispatcher) (depth : Nat) (p : Past) (step : Step) : Past :=
  match (d.act depth step).exec p.world with
  | (.ok _, world) => { p with world }
  | (.error stop, world) => { stops := p.stops ++ [stop], world }

/-- What steps that start with a table come to, with jobs nested up to a depth. -/
def after (d : Dispatcher) (depth : Nat) (table : RouteTable) (steps : List Step) : Past :=
  steps.foldl (d.take depth) { world := { table } }

theorem after_append
    (d : Dispatcher) (depth : Nat) (table : RouteTable) (steps later : List Step) :
    d.after depth table (steps ++ later) = later.foldl (d.take depth) (d.after depth table steps) :=
  List.foldl_append

end Dispatcher

/-! ## Calls at rest -/

/-- Nothing of the call is on its way.  In a calm run there is no such call yet, or its caller has a
task and knows of the end if there was one. -/
def Rests (c : CallId) (calm : Bool) (standing : Option (Option TaskId)) (w : World) : Prop :=
  ∃ φ : Phase, φ.standing = standing ∧ Inv c { strict := calm, phase := φ } w ∧
    (calm = true → φ.isAbsent = true ∨ φ.isSettled = true)

variable {c : CallId} {calm : Bool} {φ : Phase} {w : World}

theorem Inv.rests_of_hard
    {g : Frame} (h : Inv c g w) {standing : Option (Option TaskId)}
    (hphase : g.phase.standing = standing) : Rests c false standing w :=
  ⟨g.phase, hphase, h.forget { strict := false, phase := g.phase } rfl (Nat.zero_le _) (by simp)
    (by simp) (by simp), by simp⟩

theorem Kept.rests
    {s : Stop} (h : Kept c { strict := calm, phase := φ } false s w)
    (hphase : calm = true → φ.isAbsent = true ∨ φ.isSettled = true) :
    Rests c (calm && !s.isHard) φ.standing w := by
  cases hhard : s.isHard with
  | true =>
      obtain ⟨g, hstanding, hg⟩ := h.sound
      rw [Bool.not_true, Bool.and_false]
      exact hg.rests_of_hard hstanding
  | false =>
      rw [Bool.not_false, Bool.and_true]
      exact ⟨φ, rfl, h.inv hhard, hphase⟩

theorem rests_nil (c : CallId) (table : RouteTable) : Rests c true none { table } := by
  refine ⟨.absent, rfl, ⟨?_, ?_⟩, fun _ => .inl rfl⟩
  · refine ⟨?_, ?_, ?_, ?_, ?_, ?_, ?_, ?_, ?_, ?_, ?_, ?_, ?_, ?_, ?_, ?_⟩
    all_goals simp [carried, Closed, Lost, endOf, Phase.isAbsent, Stands]
  · intro d call _ hcall
    simp at hcall

namespace Act

open Dispatcher

/-! ## One step -/

theorem replaceTable_keeps (f : Frame) (table : RouteTable) :
    Triple (Inv c f) (replaceTable table) (fun _ => Inv c f) (Kept c f false) := by
  unfold replaceTable
  refine Triple.get fun w hw => Triple.write (Triple.step rfl (Triple.done ?_))
  have hreplaced := hw.logged (e := .trace (.tableReplaced table.routes.length)) rfl fun _ => rfl
  exact ⟨hreplaced.facts, hreplaced.apart⟩

/-- A step keeps the invariant of a call that was made before. -/
theorem act_keeps
    (d : Dispatcher) (depth : Nat) (f : Frame) (step : Step) (hpresent : f.phase.isAbsent = false) :
    Triple (Inv c f) (d.act depth step) (fun _ => Inv c f) (Kept c f false) := by
  cases step with
  | dispatch r =>
      refine Triple.bind ((dispatch_other (perform_good d c depth) f d r).strengthen
        fun w hw => ⟨hw, ?_⟩) fun _ => Triple.pure fun _ => id
      obtain ⟨call, hcall⟩ := hw.exists_call hpresent
      exact Nat.ne_of_gt (List.getElem?_eq_some_iff.mp hcall).1
  | code code =>
      exact Triple.bind (run_keeps (perform_good d c depth) f none code) fun _ =>
        Triple.pure fun _ => id
  | replace table => exact Triple.bind (replaceTable_keeps f table) fun _ => Triple.pure fun _ => id

/-- A step before the call is made, or the one that makes it. -/
theorem act_absent
    (d : Dispatcher) (depth : Nat) (f : Frame) (hmoving : f.moving = 0) (haims : f.aims = [])
    (step : Step) :
    Triple (Inv c (f.inPhase .absent)) (d.act depth step)
      (fun _ w => Inv c (f.inPhase .absent) w ∨ ∃ t, Inv c (f.inPhase (.settled t)) w)
      fun s w => Kept c (f.inPhase .absent) false s w ∨
        (∃ t, Kept c (f.inPhase (.settled t)) false s w) ∨
        (s.isHard = true ∧ ∃ g, g.phase.standing = some none ∧ Inv c g w) := by
  have hgood := perform_good d c depth
  cases step with
  | dispatch r =>
      refine Triple.of_world fun w hw => ?_
      by_cases hc : w.calls.length = c
      · have hown := dispatch_own hgood f hmoving haims d r
        exact Triple.bind (Triple.apply (hown.stops fun _ _ => .inr) ⟨hw, hc⟩) fun t =>
          Triple.pure fun _ hw' => .inr ⟨t, hw'⟩
      · have hother := dispatch_other hgood (f.inPhase .absent) d r
        exact Triple.bind (Triple.apply (hother.stops fun _ _ => .inl) ⟨hw, hc⟩) fun _ =>
          Triple.pure fun _ => .inl
  | code code =>
      have hrun := run_keeps hgood (f.inPhase .absent) none code
      exact Triple.bind (hrun.stops fun _ _ => .inl) fun _ => Triple.pure fun _ => .inl
  | replace table =>
      have hreplace := replaceTable_keeps (c := c) (f.inPhase .absent) table
      exact Triple.bind (hreplace.stops fun _ _ => .inl) fun _ => Triple.pure fun _ => .inl

theorem Triple.take
    {d : Dispatcher} {depth : Nat} {step : Step} {pre post : World → Prop}
    {stopped : Stop → World → Prop} (h : Triple pre (d.act depth step) (fun _ => post) stopped)
    {p : Past} (hp : pre p.world) :
    (post (d.take depth p step).world ∧ (d.take depth p step).isCalm = p.isCalm) ∨
      ∃ s, stopped s (d.take depth p step).world ∧
        (d.take depth p step).isCalm = (p.isCalm && !s.isHard) := by
  have hrun := h p.world hp
  unfold Dispatcher.take
  cases hexec : (d.act depth step).exec p.world with
  | mk result w =>
      rw [hexec] at hrun
      cases result with
      | ok v => exact .inl ⟨hrun, rfl⟩
      | error s => exact .inr ⟨s, hrun, by simp [Past.isCalm]⟩

/-- What a step leaves behind that was not nested too deep. -/
theorem Triple.take_of_not_tooDeep
    {d : Dispatcher} {depth : Nat} {p : Past} {step : Step} {pre post : World → Prop}
    (h : Triple pre (d.act depth step) (fun _ => post) fun s w => post w ∨ (True ∧ s = .tooDeep))
    (hp : pre p.world) (hdeep : .tooDeep ∉ (d.take depth p step).stops) :
    post (d.take depth p step).world := by
  have hrun := h p.world hp
  unfold Dispatcher.take at hdeep ⊢
  cases hexec : (d.act depth step).exec p.world with
  | mk result w =>
      rw [hexec] at hrun hdeep
      cases result with
      | ok v => exact hrun
      | error s =>
          refine hrun.resolve_right fun hs => hdeep ?_
          simp [hs.2]

end Act

/-! ## Whole runs -/

namespace Dispatcher

variable (d : Dispatcher) (depth : Nat)

theorem stops_subset_take (p : Past) (step : Step) : p.stops ⊆ (d.take depth p step).stops := by
  unfold take
  split
  · exact fun _ => id
  · exact List.subset_append_left ..

theorem stops_subset_foldl (p : Past) (steps : List Step) :
    p.stops ⊆ (steps.foldl (d.take depth) p).stops := by
  induction steps generalizing p with
  | nil => exact fun _ => id
  | cons step rest ih => exact List.Subset.trans (d.stops_subset_take depth p step) (ih _)

theorem rests_take
    {p : Past} {standing : Option (Option TaskId)} (h : Rests c p.isCalm standing p.world)
    (hpresent : standing ≠ none) (step : Step) :
    Rests c (d.take depth p step).isCalm standing (d.take depth p step).world := by
  obtain ⟨φ, rfl, hinv, hphase⟩ := h
  have habsent : φ.isAbsent = false := by
    by_contra hnone
    rw [Bool.not_eq_false, Phase.isAbsent_eq_isNone, Option.isNone_iff_eq_none] at hnone
    exact hpresent hnone
  rcases (Act.act_keeps d depth _ step habsent).take hinv with ⟨hpost, hcalm⟩ | ⟨s, hkept, hcalm⟩
  · rw [hcalm]
    exact ⟨φ, rfl, hpost, hphase⟩
  · rw [hcalm]
    exact hkept.rests hphase

theorem exists_rests_take
    {p : Past} (h : Rests c p.isCalm none p.world) (step : Step) :
    ∃ standing, Rests c (d.take depth p step).isCalm standing (d.take depth p step).world := by
  obtain ⟨φ, hstanding, hinv, -⟩ := h
  obtain rfl : φ = .absent := by
    cases φ <;> simp_all [Phase.standing]
  rcases (Act.act_absent d depth { strict := p.isCalm, phase := .absent } rfl rfl step).take hinv
    with ⟨hpost | ⟨t, hpost⟩, hcalm⟩ | ⟨s, hkept | ⟨t, hkept⟩ | ⟨hhard, g, hg, hinv'⟩, hcalm⟩
  · rw [hcalm]
    exact ⟨_, .absent, rfl, hpost, fun _ => .inl rfl⟩
  · rw [hcalm]
    exact ⟨_, .settled t, rfl, hpost, fun _ => .inr rfl⟩
  · rw [hcalm]
    exact ⟨_, hkept.rests fun _ => .inl rfl⟩
  · rw [hcalm]
    exact ⟨_, Kept.rests hkept fun _ => .inr rfl⟩
  · rw [hcalm, hhard, Bool.not_true, Bool.and_false]
    exact ⟨_, hinv'.rests_of_hard hg⟩

theorem rests_foldl
    {p : Past} {standing : Option (Option TaskId)} (h : Rests c p.isCalm standing p.world)
    (hpresent : standing ≠ none) (steps : List Step) :
    Rests c (steps.foldl (d.take depth) p).isCalm standing
      (steps.foldl (d.take depth) p).world := by
  induction steps generalizing p with
  | nil => exact h
  | cons step rest ih => exact ih (d.rests_take depth h hpresent step)

/-- After every run each call is at rest. -/
theorem exists_rests_after (table : RouteTable) (steps : List Step) (c : CallId) :
    ∃ standing, Rests c (d.after depth table steps).isCalm standing
      (d.after depth table steps).world := by
  induction steps using List.reverseRecOn with
  | nil => exact ⟨_, rests_nil c table⟩
  | append_singleton steps step ih =>
      obtain ⟨standing, h⟩ := ih
      rw [after_append]
      cases standing with
      | none => exact d.exists_rests_take depth h step
      | some standing => exact ⟨_, d.rests_take depth h (by simp) step⟩

/-- A call that has not been made is at rest, and nothing is known of it. -/
theorem inv_absent_after
    {table : RouteTable} {steps : List Step}
    (hnone : (d.after depth table steps).world.calls[c]? = none) :
    Inv c { strict := (d.after depth table steps).isCalm, phase := .absent }
      (d.after depth table steps).world := by
  obtain ⟨standing, φ, -, hinv, -⟩ := d.exists_rests_after depth table steps c
  have habsent : φ = .absent := by
    by_contra hpresent
    obtain ⟨call, hcall⟩ := hinv.exists_call (by cases φ <;> simp_all [Phase.isAbsent])
    simp [hnone] at hcall
  exact habsent ▸ hinv

/-- The call that a dispatch makes has the task that the dispatch gives, in every later run. -/
theorem rests_of_dispatch
    {table : RouteTable} {steps : List Step} {r : Request} {t : TaskId}
    (h : ((Act.dispatch (perform d depth) d r).exec (d.after depth table steps).world).1 = .ok t)
    (later : List Step) :
    Rests (d.after depth table steps).world.calls.length
      (d.after depth table (steps ++ .dispatch r :: later)).isCalm (some (some t))
      (d.after depth table (steps ++ .dispatch r :: later)).world := by
  have happend : d.after depth table (steps ++ .dispatch r :: later) =
      later.foldl (d.take depth) (d.take depth (d.after depth table steps) (.dispatch r)) :=
    d.after_append depth table steps _
  rw [happend]
  refine d.rests_foldl depth ?_ (by simp) later
  have hinv := d.inv_absent_after depth (List.getElem?_eq_none (Nat.le_refl
    (d.after depth table steps).world.calls.length))
  generalize d.after depth table steps = p at h hinv ⊢
  have hdispatch := Act.dispatch_own (perform_good d _ depth)
    { strict := p.isCalm, phase := .absent } rfl rfl d r p.world ⟨hinv, rfl⟩
  cases hexec : (Act.dispatch (perform d depth) d r).exec p.world with
  | mk result w =>
      rw [hexec] at h hdispatch
      obtain rfl : result = .ok t := h
      have hact : (d.act depth (.dispatch r)).exec p.world = (.ok (), w) := by
        unfold act
        rw [Act.exec_bind, hexec]
        rfl
      unfold take
      rw [hact]
      exact ⟨.settled t, rfl, hdispatch, fun _ => .inr rfl⟩

/-! ## A small table -/

def waitingHandler : Handler :=
  .raw fun _ => .create fun t => .done t

/-- The table with one route that plugins are offered. -/
def echoTable (plugins : List Plugin) : RouteTable :=
  (RouteTable.build plugins [⟨"echo", "GET", "/echo", [], waitingHandler⟩]).2.toOption.getD .empty

end Dispatcher
end RouteDispatch
