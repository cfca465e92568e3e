import Mathlib.Data.List.Nodup
import Mathlib.Logic.Function.Basic
import RouteDispatch.Proofs.Session.Mirroring
import RouteDispatch.Proofs.Session.Runs

/-!
# Traffic

From outside calls are dispatched, their tasks are resolved or dropped, and the table is replaced,
in any order.  What happens on an event of a call is in the course of that call, so that the tasks
and the entries of a world fall into lanes, one for each call.  What is seen of a call is its lane
and its state.

This module keeps the lanes apart: no task belongs to two of them, no call has two, and the entries
that are about a call are in its lane.
-/

namespace RouteDispatch

/-- Something done from outside to the calls of a dispatcher.  Calls are named by labels. -/
inductive Event where
  | dispatch (label : Nat) (r : Request)
  /-- Resolves the task at a position among those of a call. -/
  | settle (label position : Nat) (o : Outcome)
  | abandon (label position : Nat)
  | replace (table : RouteTable)

namespace Event

def isFor (label : Nat) : Event → Bool
  | .dispatch l _ | .settle l .. | .abandon l _ => l == label
  | .replace _ => false

/-- The table that is installed when the call is dispatched. -/
def tableFor (label : Nat) : RouteTable → List Event → RouteTable
  | table, [] => table
  | table, .dispatch l _ :: rest => if l = label then table else tableFor label table rest
  | _, .replace table :: rest => tableFor label table rest
  | table, _ :: rest => tableFor label table rest

end Event

/-- What belongs to one call: its place, the tasks that were made in its course, what was logged in
its course, and how the work for each event ended. -/
structure Lane where
  call : CallId
  tasks : List TaskId := []
  log : List Entry := []
  stops : List (Option Stop) := []

def Stop.of? {α : Type} : Except Stop α → Option Stop
  | .ok _ => none
  | .error s => some s

/-- The lane when work in it has led from one world to another. -/
def Lane.extended (l : Lane) (w : World) {α : Type} (result : Except Stop α × World) : Lane :=
  { l with
    tasks := l.tasks ++ List.range' w.cells.length (result.2.cells.length - w.cells.length)
    log := l.log ++ result.2.log.drop w.log.length
    stops := l.stops ++ [Stop.of? result.1] }

/-- A world and the lanes of the labels that are in use. -/
structure Traffic where
  world : World
  lane : Nat → Option Lane

/-- What can be seen of a call, but for its number, its position and the places of its tasks. -/
structure Seen where
  /-- The entries of the log of the world that are about the call. -/
  course : List Entry
  /-- Everything that was logged in the course of the call, the notes of its code as well. -/
  log : List Entry
  stops : List (Option Stop)
  view : Option CallView
  ending : Option Outcome
  /-- What the task of the caller was resolved with. -/
  answer : Option Outcome
  tasks : List (Option Outcome)

namespace Traffic

def start (table : RouteTable) : Traffic :=
  ⟨{ table }, fun _ => none⟩

/-- Work in a lane has been done, with a result. -/
def advance (τ : Traffic) (label : Nat) (l : Lane) {α : Type} (result : Except Stop α × World) :
    Traffic :=
  ⟨result.2, Function.update τ.lane label (some (l.extended τ.world result))⟩

section Advance

variable (τ : Traffic) (label : Nat) (l : Lane) {α : Type} (result : Except Stop α × World)

@[simp]
theorem world_advance : (τ.advance label l result).world = result.2 :=
  rfl

@[simp]
theorem lane_advance_self :
    (τ.advance label l result).lane label = some (l.extended τ.world result) :=
  Function.update_self ..

theorem lane_advance_of_ne {other : Nat} (h : other ≠ label) :
    (τ.advance label l result).lane other = τ.lane other :=
  Function.update_of_ne h ..

end Advance

section Run

variable (d : Dispatcher) (depth : Nat)

/-- Runs a piece of code on the task at a position of a lane, if there is one. -/
def touch (τ : Traffic) (label position : Nat) (code : TaskId → Code .nothing) : Traffic :=
  match τ.lane label with
  | none => τ
  | some l =>
    match l.tasks[position]? with
    | none => τ
    | some t => τ.advance label l ((d.act depth (.code (code t))).exec τ.world)

/-- What an event does.  A label that is in use is not given to another call. -/
def step (τ : Traffic) : Event → Traffic
  | .dispatch label r =>
    match τ.lane label with
    | some _ => τ
    | none =>
      τ.advance label { call := τ.world.calls.length } ((d.act depth (.dispatch r)).exec τ.world)
  | .settle label position o => τ.touch d depth label position fun t => .settle t o fun _ => .skip
  | .abandon label position => τ.touch d depth label position fun t => .abandon t .skip
  | .replace table => { τ with world := ((d.act depth (.replace table)).exec τ.world).2 }

def run (τ : Traffic) (events : List Event) : Traffic :=
  events.foldl (step d depth) τ

end Run

section Bookkeeping

variable (d : Dispatcher) (depth : Nat)

theorem world_step_cases (τ : Traffic) (e : Event) :
    (τ.step d depth e).world = τ.world ∨
      ∃ s, (τ.step d depth e).world = ((d.act depth s).exec τ.world).2 := by
  have htouch : ∀ label position code,
      (τ.touch d depth label position code).world = τ.world ∨
        ∃ s, (τ.touch d depth label position code).world = ((d.act depth s).exec τ.world).2 := by
    intro label position code
    unfold touch
    split
    · exact .inl rfl
    · split
      · exact .inl rfl
      · exact .inr ⟨_, rfl⟩
  cases e with
  | dispatch label r =>
      rw [step]
      split
      · exact .inl rfl
      · exact .inr ⟨_, rfl⟩
  | settle label position o => exact htouch ..
  | abandon label position => exact htouch ..
  | replace table => exact .inr ⟨.replace table, rfl⟩

/-- The lanes are bookkeeping: the world of a traffic is the world of a run. -/
theorem exists_world_run_eq (table : RouteTable) (events : List Event) :
    ∃ steps, ((start table).run d depth events).world = (d.after depth table steps).world := by
  induction events using List.reverseRecOn with
  | nil => exact ⟨[], rfl⟩
  | append_singleton events e ih =>
      obtain ⟨steps, hsteps⟩ := ih
      rw [run, List.foldl_append, List.foldl_cons, List.foldl_nil]
      rcases world_step_cases d depth ((start table).run d depth events) e with hidle | ⟨s, hs⟩
      · exact ⟨steps, hidle.trans hsteps⟩
      · refine ⟨steps ++ [s], hs.trans ?_⟩
        rw [Dispatcher.after_append, hsteps, List.foldl_cons, List.foldl_nil, Dispatcher.take]
        generalize (d.act depth s).exec _ = result
        rcases result with ⟨_ | _, w⟩
        · rfl
        · rfl

end Bookkeeping

/-- What is seen of the call with a label, if there is one. -/
def seen (τ : Traffic) (label : Nat) : Option Seen :=
  (τ.lane label).map fun l =>
    let call? := τ.world.calls[l.call]?
    { course := (τ.world.log.filter (Entry.concerns l.call)).map Entry.anonymous
      log := l.log.map Entry.anonymous
      stops := l.stops
      view := call?.map fun call => { call.view with id := 0 }
      ending := endOf call?
      answer := (answerOf call?).bind (outcomeOf τ.world.cells)
      tasks := l.tasks.map (outcomeOf τ.world.cells) }

end Traffic

/-! ## Lanes -/

namespace Lane

/-- The tasks of a lane are distinct tasks of a world. -/
structure Fits (l : Lane) (w : World) : Prop where
  lt : ∀ t ∈ l.tasks, t < w.cells.length
  nodup : l.tasks.Nodup

variable {l : Lane} {w w₁ : World} {α : Type}

theorem Fits.mono (h : l.Fits w) (hgrown : w.cells.length ≤ w₁.cells.length) : l.Fits w₁ :=
  ⟨fun t ht => Nat.lt_of_lt_of_le (h.lt t ht) hgrown, h.nodup⟩

theorem mem_tasks_extended {result : Except Stop α × World} {t : Nat}
    (ht : t ∈ (l.extended w result).tasks) :
    t ∈ l.tasks ∨ (w.cells.length ≤ t ∧ t < result.2.cells.length) := by
  refine (List.mem_append.mp ht).imp_right fun hnew => ?_
  obtain ⟨hle, hlt⟩ := List.mem_range'_1.mp hnew
  omega

theorem Fits.extended (h : l.Fits w) {result : Except Stop α × World}
    (hgrown : w.cells.length ≤ result.2.cells.length) : (l.extended w result).Fits result.2 where
  lt := fun t ht => by
    rcases mem_tasks_extended ht with hold | hnew
    · exact Nat.lt_of_lt_of_le (h.lt t hold) hgrown
    · exact hnew.2
  nodup := by
    refine List.nodup_append.mpr ⟨h.nodup, List.nodup_range', fun t ht u hu => ?_⟩
    have hlt := h.lt t ht
    have hle := (List.mem_range'_1.mp hu).1
    exact Nat.ne_of_lt (Nat.lt_of_lt_of_le hlt hle)

/-- The tasks of two lanes, by their positions. -/
abbrev pairing (l l' : Lane) : Pairing :=
  l.tasks.zip l'.tasks

/-- The call of a lane in one world and the call of a lane in another. -/
def scene (ids : Nat → Nat → Prop) (l : Lane) (w : World) (l' : Lane) (w' : World) : Scene :=
  ⟨ids, l.call, l'.call, w, w', l.pairing l'⟩

theorem isSet_scene (ids : Nat → Nat → Prop) {l' : Lane} {w' : World} (h : l.Fits w)
    (h' : l'.Fits w') : (scene ids l w l' w').IsSet where
  lt := fun _ hp => ⟨h.lt _ (List.of_mem_zip hp).1, h'.lt _ (List.of_mem_zip hp).2⟩
  functional := by
    intro p hp q hq
    obtain ⟨i, hi⟩ := List.mem_iff_getElem?.mp hp
    obtain ⟨j, hj⟩ := List.mem_iff_getElem?.mp hq
    obtain ⟨hi, hi'⟩ := List.getElem?_zip_eq_some.mp hi
    obtain ⟨hj, hj'⟩ := List.getElem?_zip_eq_some.mp hj
    constructor
    · intro hsame
      have hij : i = j :=
        (List.getElem?_inj (List.getElem?_eq_some_iff.mp hi).1 h.nodup).mp (by rw [hi, hj, hsame])
      rw [hij, hj'] at hi'
      exact (Option.some.inj hi').symm
    · intro hsame
      have hij : i = j :=
        (List.getElem?_inj (List.getElem?_eq_some_iff.mp hi').1 h'.nodup).mp
          (by rw [hi', hj', hsame])
      rw [hij, hj] at hi
      exact (Option.some.inj hi).symm

end Lane

/-- A lane of one world and a lane of another are those of one call. -/
structure Twins (ids : Nat → Nat → Prop) (w : World) (l : Lane) (w' : World) (l' : Lane) :
    Prop where
  length : l.tasks.length = l'.tasks.length
  call : ∃ x x', w.calls[l.call]? = some x ∧ w'.calls[l'.call]? = some x' ∧
    x.Alike ids (l.pairing l') x'
  cells : ∀ {t t' : TaskId}, (t, t') ∈ l.pairing l' → ∃ x x', w.cells[t]? = some x ∧
    w'.cells[t']? = some x' ∧ x.Alike (Completion.Alike ids l.call l'.call (l.pairing l')) x'
  log : l.log.map Entry.anonymous = l'.log.map Entry.anonymous
  stops : l.stops = l'.stops

namespace Twins

variable {ids : Nat → Nat → Prop} {w w₁ w' w₁' : World} {l l' : Lane} {α β : Type}

theorem mirrored (h : Twins ids w l w' l') :
    (l.scene ids w l' w').Mirrored (l.pairing l') w w' :=
  Scene.Mirrored.start (S := l.scene ids w l' w') h.call h.cells

/-- Work that matches keeps the lanes twins. -/
theorem extended (h : Twins ids w l w' l') {ρ : Pairing} {result : Except Stop α × World}
    {result' : Except Stop β × World} {R : α → β → Prop}
    (hmirrored : (l.scene ids w l' w').Mirrored ρ result.2 result'.2)
    (hend : Scene.EndAlike R result.1 result'.1) :
    Twins ids result.2 (l.extended w result) result'.2 (l'.extended w' result') := by
  obtain ⟨n, hn, hn', hρ⟩ := hmirrored.grown
  change result.2.cells.length = w.cells.length + n at hn
  change result'.2.cells.length = w'.cells.length + n at hn'
  have hpairing : (l.extended w result).pairing (l'.extended w' result') = ρ := by
    rw [hρ, Lane.pairing, Lane.extended, Lane.extended, hn, hn', Nat.add_sub_cancel_left,
      Nat.add_sub_cancel_left, List.zip_append h.length, List.range'_eq_map_range,
      List.range'_eq_map_range, List.zip_map']
    rfl
  refine ⟨?_, ?_, ?_, ?_, ?_⟩
  · simp [Lane.extended, hn, hn', h.length]
  · rw [hpairing]
    exact hmirrored.call
  · rw [hpairing]
    exact hmirrored.cells
  · obtain ⟨new, new', hlog, hlog', hsame, -⟩ := hmirrored.log
    change result.2.log = w.log ++ new at hlog
    change result'.2.log = w'.log ++ new' at hlog'
    simp [Lane.extended, hlog, hlog', h.log, hsame]
  · have hstop : Stop.of? result.1 = Stop.of? result'.1 := by
      generalize result.1 = r, result'.1 = r' at hend ⊢
      cases hend with
      | ok => rfl
      | error e => rfl
    simp only [Lane.extended, h.stops, hstop]

/-- Lanes stay twins where nothing is done to them. -/
theorem frame (h : Twins ids w l w' l') (hcall : w₁.calls[l.call]? = w.calls[l.call]?)
    (hcells : ∀ t ∈ l.tasks, w₁.cells[t]? = w.cells[t]?) : Twins ids w₁ l w' l' where
  length := h.length
  call := by rw [hcall]; exact h.call
  cells := fun hmem => by rw [hcells _ (List.of_mem_zip hmem).1]; exact h.cells hmem
  log := h.log
  stops := h.stops

end Twins

namespace Traffic

/-! ## Lanes that keep apart -/

/-- The lanes are those of different calls of the world, and share no task; what is logged about a
call is in its lane. -/
structure IsTidy (τ : Traffic) : Prop where
  fits : ∀ {label : Nat} {l : Lane}, τ.lane label = some l → l.Fits τ.world
  call_lt : ∀ {label : Nat} {l : Lane}, τ.lane label = some l → l.call < τ.world.calls.length
  apart : ∀ {label label' : Nat} {l l' : Lane}, τ.lane label = some l → τ.lane label' = some l' →
    label ≠ label' → l.call ≠ l'.call ∧ l.tasks.Disjoint l'.tasks
  own : ∀ {label : Nat} {l : Lane}, τ.lane label = some l →
    ∀ e ∈ l.log, ∀ c, e.concerns c = true → c = l.call
  course : ∀ {label : Nat} {l : Lane}, τ.lane label = some l →
    τ.world.log.filter (Entry.concerns l.call) = l.log.filter (Entry.concerns l.call)
  concerned : ∀ e ∈ τ.world.log, ∀ c, e.concerns c = true → c < τ.world.calls.length

/-- The traffic in which a call has just been made. -/
def opened (τ : Traffic) (label : Nat) (view : CallView) : Traffic :=
  ⟨{ τ.world with calls := τ.world.calls ++ [{ view }] },
    Function.update τ.lane label (some { call := τ.world.calls.length })⟩

theorem update_eq_some_iff {f : Nat → Option Lane} {label label' : Nat} {l l' : Lane} :
    Function.update f label (some l) label' = some l' ↔
      (label' = label ∧ l = l') ∨ (label' ≠ label ∧ f label' = some l') := by
  by_cases h : label' = label
  · subst h
    simp
  · simp [h]

variable {τ : Traffic}

theorem isTidy_start (table : RouteTable) : (start table).IsTidy where
  fits h := by cases h
  call_lt h := by cases h
  apart h := by cases h
  own h := by cases h
  course h := by cases h
  concerned _ he := by cases he

/-- No entry is about a call that has not been made. -/
theorem IsTidy.filter_concerns_of_le (h : τ.IsTidy) {c : CallId}
    (hc : τ.world.calls.length ≤ c) : τ.world.log.filter (Entry.concerns c) = [] := by
  refine List.filter_eq_nil_iff.mpr fun e he hconcerns => ?_
  exact absurd (h.concerned e he c hconcerns) (Nat.not_lt.mpr hc)

theorem IsTidy.opened (h : τ.IsTidy) (label : Nat) (view : CallView) :
    (τ.opened label view).IsTidy where
  fits hl := by
    rcases update_eq_some_iff.mp hl with ⟨-, rfl⟩ | ⟨-, hold⟩
    · exact ⟨fun t ht => absurd ht List.not_mem_nil, List.nodup_nil⟩
    · exact (h.fits hold).mono (Nat.le_refl _)
  call_lt hl := by
    rcases update_eq_some_iff.mp hl with ⟨-, rfl⟩ | ⟨-, hold⟩
    · simp [Traffic.opened]
    · simpa [Traffic.opened] using Nat.lt_succ_of_lt (h.call_lt hold)
  apart hl hl' hne := by
    rcases update_eq_some_iff.mp hl with ⟨hsame, rfl⟩ | ⟨-, hold⟩ <;>
      rcases update_eq_some_iff.mp hl' with ⟨hsame', rfl⟩ | ⟨-, hold'⟩
    · exact absurd (hsame.trans hsame'.symm) hne
    · exact ⟨Nat.ne_of_gt (h.call_lt hold'), List.disjoint_nil_left _⟩
    · exact ⟨Nat.ne_of_lt (h.call_lt hold), List.disjoint_nil_right _⟩
    · exact h.apart hold hold' hne
  own hl := by
    rcases update_eq_some_iff.mp hl with ⟨-, rfl⟩ | ⟨-, hold⟩
    · exact fun e he => absurd he List.not_mem_nil
    · exact h.own hold
  course hl := by
    rcases update_eq_some_iff.mp hl with ⟨-, rfl⟩ | ⟨-, hold⟩
    · exact h.filter_concerns_of_le (Nat.le_refl _)
    · exact h.course hold
  concerned e he c hconcerns := by
    simpa [Traffic.opened] using Nat.lt_succ_of_lt (h.concerned e he c hconcerns)

/-- The traffic in which a table has been replaced. -/
def replaced (τ : Traffic) (table : RouteTable) : Traffic :=
  { τ with
    world := { τ.world with
      table
      log := τ.world.log ++ [.trace (.tableReplaced table.routes.length)] } }

theorem IsTidy.replaced (h : τ.IsTidy) (table : RouteTable) : (τ.replaced table).IsTidy where
  fits hl := (h.fits hl).mono (Nat.le_refl _)
  call_lt := h.call_lt
  apart := h.apart
  own := h.own
  course hl := by simp [Traffic.replaced, h.course hl, Entry.concerns]
  concerned e he c hconcerns := by
    rcases List.mem_append.mp he with hold | hnew
    · exact h.concerned e hold c hconcerns
    · rw [List.mem_singleton.mp hnew] at hconcerns
      cases hconcerns

/-- New tasks are in no other lane. -/
theorem IsTidy.apart_extended (h : τ.IsTidy) {label label' : Nat} {l k : Lane} {α : Type}
    (result : Except Stop α × World) (hl : τ.lane label = some l) (hk : τ.lane label' = some k)
    (hne : label' ≠ label) :
    l.call ≠ k.call ∧ (l.extended τ.world result).tasks.Disjoint k.tasks := by
  obtain ⟨hcall, hdisjoint⟩ := h.apart hl hk hne.symm
  refine ⟨hcall, fun t ht hmem => ?_⟩
  rcases Lane.mem_tasks_extended ht with hold | ⟨hle, -⟩
  · exact hdisjoint hold hmem
  · exact absurd ((h.fits hk).lt t hmem) (Nat.not_lt.mpr hle)

/-- The lanes keep apart when work in one of them does nothing to the rest of the world. -/
theorem IsTidy.advance (h : τ.IsTidy) {ids : Nat → Nat → Prop} {label : Nat} {l l' : Lane}
    {w' w₁' : World} {ρ : Pairing} {α : Type} {result : Except Stop α × World}
    (hl : τ.lane label = some l)
    (hmirrored : (l.scene ids τ.world l' w').Mirrored ρ result.2 w₁') :
    (τ.advance label l result).IsTidy := by
  have hgrown : τ.world.cells.length ≤ result.2.cells.length := by
    obtain ⟨n, hn, -⟩ := hmirrored.grown
    exact hn ▸ Nat.le_add_right _ n
  have hcalls : result.2.calls.length = τ.world.calls.length :=
    hmirrored.calls_length (h.call_lt hl)
  obtain ⟨new, -, hlog, -, -, hown⟩ := hmirrored.log
  change result.2.log = τ.world.log ++ new at hlog
  constructor
  case fits =>
    intro label' k hk
    rcases update_eq_some_iff.mp hk with ⟨-, rfl⟩ | ⟨-, hold⟩
    · exact (h.fits hl).extended hgrown
    · exact (h.fits hold).mono hgrown
  case call_lt =>
    intro label' k hk
    refine hcalls ▸ ?_
    rcases update_eq_some_iff.mp hk with ⟨-, rfl⟩ | ⟨-, hold⟩
    · exact (show l.call < _ from h.call_lt hl)
    · exact h.call_lt hold
  case apart =>
    intro label₁ label₂ k₁ k₂ hk₁ hk₂ hne
    rcases update_eq_some_iff.mp hk₁ with ⟨hsame, rfl⟩ | ⟨hother, hold⟩ <;>
      rcases update_eq_some_iff.mp hk₂ with ⟨hsame', rfl⟩ | ⟨hother', hold'⟩
    · exact absurd (hsame.trans hsame'.symm) hne
    · exact h.apart_extended result hl hold' hother'
    · obtain ⟨hcall, hdisjoint⟩ := h.apart_extended result hl hold hother
      exact ⟨hcall.symm, fun t ht hmem => hdisjoint hmem ht⟩
    · exact h.apart hold hold' hne
  case own =>
    intro label' k hk e he c hconcerns
    rcases update_eq_some_iff.mp hk with ⟨-, rfl⟩ | ⟨-, hold⟩
    · simp only [Lane.extended, hlog, List.drop_left] at he
      rcases List.mem_append.mp he with hbefore | hnew
      · exact h.own hl e hbefore c hconcerns
      · exact hown e hnew c hconcerns
    · exact h.own hold e he c hconcerns
  case course =>
    intro label' k hk
    change result.2.log.filter _ = _
    rw [hlog, List.filter_append]
    rcases update_eq_some_iff.mp hk with ⟨-, rfl⟩ | ⟨hother, hold⟩
    · simp [Lane.extended, hlog, ← h.course hl]
    · have hnone : new.filter (Entry.concerns k.call) = [] :=
        List.filter_eq_nil_iff.mpr fun e he hconcerns =>
          (h.apart hl hold hother.symm).1 (hown e he _ hconcerns).symm
      rw [hnone, List.append_nil, h.course hold]
  case concerned =>
    intro e he c hconcerns
    change e ∈ result.2.log at he
    change c < result.2.calls.length
    rw [hlog] at he
    rw [hcalls]
    rcases List.mem_append.mp he with hold | hnew
    · exact h.concerned e hold c hconcerns
    · rw [hown e hnew c hconcerns]
      exact h.call_lt hl

end Traffic
end RouteDispatch
