import RouteDispatch.Proofs.Session.Hearing

/-!
# Losing a continuation

A continuation that is dropped, or lost in a panic, must not leave its call without an end.
Dropping it fails the call, and so does the guard around a plugin whose panic loses it.  A
completion handler that holds it runs without a guard of its own: if it panics, the call is ended
only by a guard that happens to be around it.
-/

namespace RouteDispatch

/-- The listener heard of an end, and the task of the caller was resolved. -/
def IsAnswered (hears : Option Outcome → Prop) (t : TaskId) (w : World) : Prop :=
  (∃ o, hears (some o)) ∧ outcomeOf w.cells t ≠ none

/-- The call failed with an internal error, of which the listener heard, and of no other end. -/
def IsInternalFailure (hears : Option Outcome → Prop) (c : CallId) (t : TaskId) (w : World) :
    Prop :=
  (∃ m, told c w.log = [.error (.internal m)] ∧ hears (some (.error (.internal m)))) ∧
    ∃ m, outcomeOf w.cells t = some (.error (.internal m))

/-- The call enters its last stage because a panic has just been captured. -/
def ClosesCaptured (c : CallId) (before : List Entry) (e : Entry) : Prop :=
  e.closes c = true ∧ JustCaptured before

variable {c : CallId} {f : Frame} {w : World}

section Hearing

variable {hears : Option Outcome → Prop} (hhears : ∀ o, hears (some o) ↔ o ∈ told c w.log)

include hhears

theorem Inv.isAnswered_iff {t : TaskId} (h : Inv c f w) (hphase : f.phase = .settled t) :
    IsAnswered hears t w ↔ Closed c w.log := by
  have hstands := h.facts.stands
  rw [hphase] at hstands
  obtain ⟨call, hcall, -, -, ⟨hending, htold, -⟩ | ⟨o, hending, htold, o', hgiven, -⟩⟩ := hstands
  · have hopen : endOf w.calls[c]? = none := by simp [endOf, hcall, hending, Cell.outcome?]
    rw [h.facts.closed]
    simp [IsAnswered, hhears, htold, hopen]
  · have hended : endOf w.calls[c]? = some o := by simp [endOf, hcall, hending, Cell.outcome?]
    rw [h.facts.closed]
    simp [IsAnswered, hhears, htold, hgiven, hended]

theorem Inv.isInternalFailure
    {t : TaskId} (h : Inv c f w) (hphase : f.phase = .settled t) {m : String}
    (hend : endOf w.calls[c]? = some (.error (.internal m))) : IsInternalFailure hears c t w := by
  have hstands := h.facts.stands
  rw [hphase] at hstands
  obtain ⟨call, hcall, -, -, ⟨hending, -⟩ | ⟨o, hending, htold, o', hgiven, hwhy⟩⟩ := hstands
  · simp [endOf, hcall, hending, Cell.outcome?] at hend
  · have ho : o = .error (.internal m) := by
      simpa [endOf, hcall, hending, Cell.outcome?] using hend
    subst ho
    have hheard : hears (some (.error (.internal m))) := (hhears _).mpr (by simp [htold])
    rcases hwhy with rfl | ⟨-, m', rfl⟩
    · exact ⟨⟨m, htold, hheard⟩, m, hgiven⟩
    · exact ⟨⟨m, htold, hheard⟩, m', hgiven⟩

end Hearing

/-- A call that was open when a continuation was lost enters its last stage only because of a
captured panic. -/
theorem Inv.closesCaptured
    (h : Inv c f w) {before behind : List Entry} {point : Point}
    (hlog : w.log = before ++ .mark (.spent c point .lost) :: behind) (hopen : ¬ Closed c before)
    (hclosed : Closed c w.log) : Occurs (ClosesCaptured c) w.log := by
  obtain ⟨e, he, hcloses⟩ := hclosed
  have hbehind : e ∈ behind := by
    rw [hlog] at he
    rcases List.mem_append.mp he with hfront | hback
    · exact absurd ⟨e, hfront, hcloses⟩ hopen
    · rcases List.mem_cons.mp hback with rfl | hmem
      · simp [Entry.closes] at hcloses
      · exact hmem
  obtain ⟨front, back, rfl⟩ := List.append_of_mem hbehind
  have hsplit : w.log = (before ++ .mark (.spent c point .lost) :: front) ++ e :: back := by
    rw [hlog]
    simp
  refine ⟨_, e, back, hsplit, hcloses, ?_⟩
  by_contra hcaptured
  refine h.facts.captured ⟨_, e, back, hsplit, hcloses, ?_, hcaptured⟩
  exact ⟨.mark (.spent c point .lost), by simp, by simp [Entry.loses]⟩

namespace Dispatcher

/-- In a calm run a call whose continuation was dropped or lost is answered, unless a completion
handler lost it in a panic while the call had not ended, and no guard of the call captured the
panic.  A call that had not ended fails with an internal error. -/
theorem isAnswered_iff_of_spent
    (d : Dispatcher) (depth : Nat) (table : RouteTable) (steps : List Step) {past : Past}
    (hpast : d.after depth table steps = past) (hcalm : past.isCalm = true)
    {c : CallId} {point : Point} {fate : Fate} {before behind : List Entry}
    (hlog : past.world.log = before ++ .mark (.spent c point fate) :: behind)
    (hfate : fate = .dropped ∨ fate = .lost) :
    ∃ call t, past.world.calls[c]? = some call ∧ call.answer = some t ∧
      (IsAnswered (d.Heard depth table steps c) t past.world ↔
        ¬ (fate = .lost ∧ JustLeftDeferred c point before) ∨
          Closed c before ∨ Occurs (ClosesCaptured c) past.world.log) ∧
      (IsAnswered (d.Heard depth table steps c) t past.world → ¬ Closed c before →
        IsInternalFailure (d.Heard depth table steps c) c t past.world) := by
  subst hpast
  obtain ⟨standing, φ, -, hinv, hphase⟩ := d.exists_rests_after depth table steps c
  have hhears := fun o => @heard_end_iff d depth table steps c o
  generalize d.Heard depth table steps c = hears at hhears ⊢
  generalize d.after depth table steps = past at hcalm hlog hinv hphase hhears ⊢
  rw [hcalm] at hinv
  have hspent : .mark (.spent c point fate) ∈ past.world.log := by
    rw [hlog]
    simp
  obtain ⟨t, rfl⟩ : ∃ t, φ = .settled t := by
    rcases hphase hcalm with habsent | hsettled
    · obtain rfl : φ = .absent := by
        cases φ <;> simp_all [Phase.isAbsent]
      have hother := hinv.facts.stands.2 _ hspent
      simp [Entry.concerns] at hother
    · cases φ <;> simp_all [Phase.isSettled]
  obtain ⟨call, hcall, hanswer, -⟩ := hinv.facts.stands
  have hanswered := hinv.isAnswered_iff hhears rfl
  -- What holds of the end if the call had not ended when the continuation was given up or lost.
  have hgivenUp : ¬ (fate = .lost ∧ JustLeftDeferred c point before) → ¬ Closed c before →
      ∃ m, endOf past.world.calls[c]? = some (.error (.internal m)) := by
    intro hguarded hopen
    refine hinv.facts.answered rfl ⟨before, _, behind, hlog, ⟨point, fate, rfl, ?_⟩, hopen⟩
    rcases hfate with hdropped | hlost
    · exact .inl hdropped
    · exact .inr ⟨hlost, fun hleft => hguarded ⟨hlost, hleft⟩⟩
  have hlostOpen : fate = .lost → ¬ Closed c before → ∀ o,
      endOf past.world.calls[c]? = some o → ∃ m, o = .error (.internal m) := by
    rintro rfl hopen
    refine hinv.facts.internal ⟨before, _, behind, hlog, ?_, hopen⟩
    simp [Entry.loses]
  refine ⟨call, t, hcall, hanswer, ⟨fun hends => ?_, ?_⟩, fun hends hopen => ?_⟩
  · by_contra hnone
    simp only [not_or, not_not] at hnone
    obtain ⟨⟨rfl, -⟩, hopen, huncaptured⟩ := hnone
    exact huncaptured (hinv.closesCaptured hlog hopen (hanswered.mp hends))
  · intro hwhy
    rw [hanswered]
    rcases hwhy with hguarded | ⟨e, he, hcloses⟩ | ⟨front, e, back, hsplit, hcloses, -⟩
    · by_cases hopen : Closed c before
      · obtain ⟨e, he, hcloses⟩ := hopen
        exact ⟨e, hlog ▸ List.mem_append_left _ he, hcloses⟩
      · obtain ⟨m, hend⟩ := hgivenUp hguarded hopen
        exact hinv.facts.closed.mpr (by simp [hend])
    · exact ⟨e, hlog ▸ List.mem_append_left _ he, hcloses⟩
    · exact ⟨e, by rw [hsplit]; simp, hcloses⟩
  · have hclosed := hinv.facts.closed.mp (hanswered.mp hends)
    obtain ⟨o, hend⟩ := Option.ne_none_iff_exists'.mp hclosed
    obtain ⟨m, rfl⟩ : ∃ m, o = .error (.internal m) := by
      rcases hfate with hdropped | hlost
      · obtain ⟨m, hend'⟩ := hgivenUp (by simp [hdropped]) hopen
        exact ⟨m, Option.some.inj (hend.symm.trans hend')⟩
      · exact hlostOpen hlost hopen o hend
    exact hinv.isInternalFailure hhears rfl hend

def idlePlugin : Plugin :=
  { name := "p"
    bind := Plugin.bindAlways
    modifyCall := fun _ _ _ => .skip
    modifyResult := Plugin.passResult }

def idleSteps : List Step :=
  [.dispatch { method := "GET", path := "/echo" }]

def idlePast : Past :=
  after {} nesting (echoTable [idlePlugin]) idleSteps

theorem isInternalFailure_idlePast :
    ∃ point before behind,
      idlePast.world.log = before ++ .mark (.spent 0 point .dropped) :: behind ∧
        ∃ t, IsInternalFailure (Heard {} nesting (echoTable [idlePlugin]) idleSteps 0) 0 t
          idlePast.world := by
  have hcalm : idlePast.isCalm = true := by
    decide +kernel
  have hopen : (idlePast.world.log.take 8).any (Entry.closes 0) = false := by
    decide +kernel
  have hspent : ((idlePast.world.log.drop 8).head?.bind (Entry.fate? 0)) = some .dropped := by
    decide +kernel
  cases hbehind : idlePast.world.log.drop 8 with
  | nil => simp [hbehind] at hspent
  | cons e behind =>
      obtain ⟨point, rfl⟩ := Entry.fate?_eq_some_iff.mp (by simpa [hbehind] using hspent)
      have hlog : idlePast.world.log =
          idlePast.world.log.take 8 ++ .mark (.spent 0 point .dropped) :: behind := by
        rw [← hbehind, List.take_append_drop]
      obtain ⟨call, t, -, -, hanswered, hinternal⟩ :=
        isAnswered_iff_of_spent {} nesting _ _ (rfl : _ = idlePast) hcalm hlog (.inl rfl)
      refine ⟨point, _, behind, hlog, t, hinternal (hanswered.mpr (.inl (by simp))) ?_⟩
      rintro ⟨e, he, hcloses⟩
      exact List.any_eq_false.mp hopen e he hcloses

/-- Hands its continuation to a task, whose completion handler panics. -/
def carelessPlugin : Plugin :=
  { name := "p"
    bind := Plugin.bindAlways
    modifyCall := fun _ _ _ => .create fun g => .entrust g (fun _ => .panic (.text "boom")) .skip
    modifyResult := Plugin.passResult }

/-- The task that the continuation was handed to is resolved outside of all calls. -/
def carelessSteps : List Step :=
  [.dispatch { method := "GET", path := "/echo" }, .code (.settle 0 (.ok .null) fun _ => .skip)]

def carelessPast : Past :=
  after {} nesting (echoTable [carelessPlugin]) carelessSteps

/-- The panic of the completion handler leaves the call without an end. -/
theorem not_isAnswered_carelessPast :
    carelessPast.isCalm = true ∧
      ¬ ∀ point fate, .mark (.spent 0 point fate) ∈ carelessPast.world.log →
        fate = .dropped ∨ fate = .lost →
          ∃ t, IsAnswered (Heard {} nesting (echoTable [carelessPlugin]) carelessSteps 0) t
            carelessPast.world := by
  refine ⟨by decide +kernel, fun h => ?_⟩
  have hlost : carelessPast.world.log.any (fun e => e.fate? 0 == some .lost) = true := by
    decide +kernel
  obtain ⟨e, he, hfate⟩ := List.any_eq_true.mp hlost
  obtain ⟨point, rfl⟩ := Entry.fate?_eq_some_iff.mp (by simpa using hfate)
  obtain ⟨t, ⟨o, hheard⟩, -⟩ := h point .lost he (.inr rfl)
  have hnone : (told 0 carelessPast.world.log).isEmpty = true := by
    decide +kernel
  have htold : o ∈ told 0 carelessPast.world.log := heard_end_iff.mp hheard
  simp [List.isEmpty_iff.mp hnone] at htold

end Dispatcher
end RouteDispatch
