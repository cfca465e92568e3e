import Mathlib.Data.List.Nodup
import RouteDispatch.Proofs.Session.Course

/-!
# The itinerary of a call

A call whose route has `n` plugins is meant to pass the same stages in the same order, whatever its
plugins and its handler do: it is received, matched and bound, it stops at each plugin, at the
handler, and at each plugin again, and it succeeds.  At a stop the code of a plugin or of the
handler is started first, and the stop is passed when that code lets the call go on.  This module
writes the plan down and reads off a log how much of it a call has carried out.
-/

namespace RouteDispatch

/-! ## The plan -/

/-- The stages at which foreign code decides how a call with `n` plugins goes on. -/
def stops (n : Nat) : List Stage :=
  (List.range n).map .pluginCall ++ .handler :: (List.range n).map .pluginResult

/-- The stages of a call with `n` plugins that succeeds. -/
def itinerary (n : Nat) : List Stage :=
  [.received, .matched, .bound] ++ stops n ++ [.succeeded]

/-- What happens at a stop.  A plugin lets the call go on with its continuation, and the handler
does with a task that comes to a value. -/
inductive Milestone where
  | begun (stop : Stage)
  | passed (stop : Stage)
  deriving DecidableEq, Repr

/-- Each stop is passed before the next one is begun. -/
def schedule (n : Nat) : List Milestone :=
  (stops n).flatMap fun s => [.begun s, .passed s]

/-- The stages are those of the itinerary up to one of them, or the call failed before the last. -/
def Follows (n : Nat) (stages : List Stage) : Prop :=
  stages <+: itinerary n ∨
    ∃ front, front <+: itinerary n ∧ front ≠ itinerary n ∧ stages = front ++ [.failed]

/-- The place among the stops of a call with `n` plugins. -/
def Point.place (n : Nat) : Point → Nat
  | .call i => i
  | .result i => n + 1 + i

@[simp]
theorem length_stops (n : Nat) : (stops n).length = 2 * n + 1 := by
  simp only [stops, List.length_append, List.length_cons, List.length_map, List.length_range]
  omega

@[simp]
theorem length_itinerary (n : Nat) : (itinerary n).length = 2 * n + 5 := by
  simp [itinerary]

theorem stops_place {n : Nat} {point : Point} (h : point.index < n) :
    (stops n)[point.place n]? = some point.stage := by
  cases point with
  | call i =>
      have hi : i < n := h
      simp [stops, Point.place, Point.stage, hi, List.getElem?_append_left]
  | result i =>
      have hi : i < n := h
      rw [stops, Point.place, List.getElem?_append_right (by simp; omega)]
      simp [Point.stage, hi, show n + 1 + i - n = i + 1 by omega]

theorem stops_handler (n : Nat) : (stops n)[n]? = some .handler := by
  rw [stops, List.getElem?_append_right (by simp)]
  simp

theorem itinerary_stop {n j : Nat} {s : Stage} (h : (stops n)[j]? = some s) :
    (itinerary n)[j + 3]? = some s := by
  have hj := (List.getElem?_eq_some_iff.mp h).1
  rw [itinerary, List.getElem?_append_left (by simp at hj ⊢; omega),
    List.getElem?_append_right (by simp)]
  simpa using h

/-- Behind the last stop the call succeeds. -/
theorem take_itinerary (n : Nat) : (itinerary n).take (2 * n + 4) ++ [.succeeded] = itinerary n := by
  rw [itinerary, List.take_append_of_le_length (by simp), List.take_of_length_le (by simp)]

/-- A stop has two places in the schedule. -/
theorem schedule_stop {n j : Nat} {s : Stage} (h : (stops n)[j]? = some s) :
    (schedule n)[2 * j]? = some (.begun s) ∧ (schedule n)[2 * j + 1]? = some (.passed s) := by
  unfold schedule
  generalize stops n = l at h ⊢
  induction l generalizing j with
  | nil => simp at h
  | cons x rest ih =>
      cases j with
      | zero =>
          obtain rfl : x = s := by simpa using h
          exact ⟨rfl, rfl⟩
      | succ j =>
          have hrest := ih (j := j) (by simpa using h)
          simpa [Nat.mul_succ] using hrest

theorem nodup_stops (n : Nat) : (stops n).Nodup := by
  have hcall : ((List.range n).map Stage.pluginCall).Nodup :=
    List.nodup_range.map fun _ _ => Stage.pluginCall.inj
  have hresult : ((List.range n).map Stage.pluginResult).Nodup :=
    List.nodup_range.map fun _ _ => Stage.pluginResult.inj
  refine List.nodup_append.mpr ⟨hcall, List.nodup_cons.mpr ⟨by simp, hresult⟩, ?_⟩
  simp

/-- No milestone is meant to come twice. -/
theorem nodup_schedule (n : Nat) : (schedule n).Nodup := by
  refine List.nodup_flatMap.mpr ⟨fun s _ => by simp, (nodup_stops n).imp fun hne => ?_⟩
  simp [Function.onFun, Ne.symm hne]

theorem isTerminal_of_mem_stops {n : Nat} {s : Stage} (h : s ∈ stops n) : s.isTerminal = false := by
  simp only [stops, List.mem_append, List.mem_cons, List.mem_map] at h
  rcases h with ⟨i, -, rfl⟩ | rfl | ⟨i, -, rfl⟩ <;> rfl

/-- Only the last stage of the itinerary is terminal. -/
theorem isTerminal_of_mem_prefix {n : Nat} {front : List Stage} {s : Stage}
    (hfront : front <+: itinerary n) (hlt : front.length < 2 * n + 5) (hs : s ∈ front) :
    s.isTerminal = false := by
  have hopen : front <+: [.received, .matched, .bound] ++ stops n :=
    List.prefix_of_prefix_length_le hfront (List.prefix_append ..) (by simp; omega)
  rcases List.mem_append.mp (hopen.subset hs) with hopening | hstop
  · simp only [List.mem_cons, List.not_mem_nil, or_false] at hopening
    rcases hopening with rfl | rfl | rfl <;> rfl
  · exact isTerminal_of_mem_stops hstop

theorem length_lt_of_ne_itinerary {n : Nat} {front : List Stage} (h : front <+: itinerary n)
    (hne : front ≠ itinerary n) : front.length < 2 * n + 5 := by
  have hle := h.length_le
  rw [length_itinerary] at hle
  by_contra hlt
  exact hne (h.eq_of_length (by rw [length_itinerary]; omega))

/-- No stage follows a terminal one. -/
theorem Follows.isTerminal_of_mem_dropLast {n : Nat} {stages : List Stage} (h : Follows n stages)
    {s : Stage} (hs : s ∈ stages.dropLast) : s.isTerminal = false := by
  rcases h with hprefix | ⟨front, hprefix, hne, rfl⟩
  · have hle := hprefix.length_le
    rw [length_itinerary] at hle
    refine isTerminal_of_mem_prefix ((List.dropLast_prefix _).trans hprefix) ?_ hs
    rw [List.length_dropLast]
    omega
  · rw [List.dropLast_concat] at hs
    exact isTerminal_of_mem_prefix hprefix (length_lt_of_ne_itinerary hprefix hne) hs

/-! ## What a log says of it -/

namespace Entry

/-- The milestone of the call that is reached. -/
def milestone? (c : CallId) : Entry → Option Milestone
  | .trace (.pluginStarted r point ..) =>
    if r.position = c then some (.begun point.stage) else none
  | .trace (.handlerStarted r _) => if r.position = c then some (.begun .handler) else none
  | .mark (.spent d point .proceeded) => if d = c then some (.passed point.stage) else none
  | .mark (.returned d) => if d = c then some (.passed .handler) else none
  | _ => none

/-- The stage that the call leaves and the one that it enters. -/
def move? (c : CallId) : Entry → Option (Stage × Stage)
  | .trace (.entered r source target) => if r.position = c then some (source, target) else none
  | _ => none

end Entry

def milestones (c : CallId) (log : List Entry) : List Milestone :=
  log.filterMap (Entry.milestone? c)

def moves (c : CallId) (log : List Entry) : List (Stage × Stage) :=
  log.filterMap (Entry.move? c)

/-- The stages that a call has come to; at the first it is received. -/
def visited (moves : List (Stage × Stage)) : List Stage :=
  .received :: moves.map Prod.snd

/-- So far the call with `n` plugins has passed its stages in their order. -/
structure InOrder (c : CallId) (n : Nat) (log : List Entry) : Prop where
  milestones : milestones c log <+: schedule n
  stages : Follows n (visited (moves c log))
  -- Each stage is entered from the one that was entered before.
  chained : (moves c log).map Prod.fst = (visited (moves c log)).dropLast
  final : ∀ move ∈ moves c log, move.1.isTerminal = false

theorem InOrder.nodup {c : CallId} {n : Nat} {log : List Entry} (h : InOrder c n log) :
    (RouteDispatch.milestones c log).Nodup :=
  h.milestones.sublist.nodup (nodup_schedule n)

/-- When a stop is begun, the stops in front of it have been passed, and nothing else has come. -/
theorem InOrder.eq_of_begun
    {c : CallId} {n : Nat} {log : List Entry} (h : InOrder c n log) {front back : List Milestone}
    {s : Stage} (hs : RouteDispatch.milestones c log = front ++ .begun s :: back) :
    ∃ before behind, stops n = before ++ s :: behind ∧
      front = before.flatMap fun s => [.begun s, .passed s] := by
  have hfront : front ++ [.begun s] <+: schedule n := by
    refine List.IsPrefix.trans ⟨back, ?_⟩ h.milestones
    simp [hs]
  clear h hs
  unfold schedule at hfront
  generalize stops n = l at hfront ⊢
  induction l generalizing front with
  | nil => simp at hfront
  | cons x rest ih =>
      rcases front with _ | ⟨a, _ | ⟨b, front⟩⟩
      · obtain rfl : s = x := by simpa using hfront
        exact ⟨[], rest, rfl, rfl⟩
      · simp at hfront
      · simp only [List.flatMap_cons, List.cons_append, List.nil_append, List.cons_prefix_cons]
          at hfront
        obtain ⟨rfl, rfl, hrest⟩ := hfront
        obtain ⟨before, behind, rfl, rfl⟩ := ih hrest
        exact ⟨x :: before, behind, rfl, rfl⟩

end RouteDispatch
