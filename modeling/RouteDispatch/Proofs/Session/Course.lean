import RouteDispatch.Session.World

/-!
# The course of a call in a log

What happened to a call is read off the log.  This module names the entries that matter: the start
and the end of a call, the starts of its stages, and what became of its continuations.  A condition
on an entry may look at the log in front of it; `Occurs` says that some entry meets such a
condition.
-/

namespace RouteDispatch

/-! ## Entries about a call -/

namespace Entry

def concerns (c : CallId) : Entry → Bool
  | .mark (.started d) | .mark (.ended d _) | .mark (.spent d _ _) | .mark (.escaped d _ _)
  | .mark (.refused d) | .mark (.invoked d _) | .mark (.returned d) => d == c
  | .trace (.matched r ..) | .trace (.entered r ..) | .trace (.pluginStarted r ..)
  | .trace (.handlerStarted r ..) | .trace (.lateResult r ..) | .trace (.lateFailure r ..) =>
    r.position == c
  | _ => false

/-- A plugin or the handler of the call is started. -/
def startsStage (c : CallId) : Entry → Bool
  | .trace (.pluginStarted r ..) | .trace (.handlerStarted r ..) => r.position == c
  | _ => false

/-- The call enters its last stage. -/
def closes (c : CallId) : Entry → Bool
  | .trace (.entered r _ target) => r.position == c && target.isTerminal
  | _ => false

def spends (c : CallId) : Entry → Bool
  | .mark (.spent d _ _) => d == c
  | _ => false

def loses (c : CallId) : Entry → Bool
  | .mark (.spent d _ .lost) => d == c
  | _ => false

/-- What became of the continuation of the call that comes to its end. -/
def fate? (c : CallId) : Entry → Option Fate
  | .mark (.spent d _ fate) => if d = c then some fate else none
  | _ => none

/-- The end that the listener is told of. -/
def end? (c : CallId) : Entry → Option Outcome
  | .mark (.ended d o) => if d = c then some o else none
  | _ => none

def resolves (t : TaskId) : Entry → Bool
  | .mark (.resolved u) => u == t
  | _ => false

/-- A panic leaves the listener that is told of the end of the call. -/
def escapesEnd (c : CallId) : Entry → Bool
  | .mark (.escaped d .onEnd _) => d == c
  | _ => false

/-- The entry is none of those that change the course of the call. -/
def isIncidental (c : CallId) (e : Entry) : Bool :=
  !e.startsStage c && !e.closes c && !e.spends c && (e.end? c).isNone
    && match e with
      | .mark (.started d) | .mark (.refused d) => d != c
      | _ => true

theorem isIncidental_iff {c : CallId} {e : Entry} :
    e.isIncidental c = true ↔
      e.startsStage c = false ∧ e.closes c = false ∧ e.spends c = false ∧ e.end? c = none ∧
        e ≠ .mark (.started c) ∧ e ≠ .mark (.refused c) := by
  cases e with
  | remark => simp [isIncidental, startsStage, closes, spends, end?]
  | woken => simp [isIncidental, startsStage, closes, spends, end?]
  | trace t => simp [isIncidental, startsStage, closes, spends, end?]
  | mark m =>
      cases m <;> simp [isIncidental, startsStage, closes, spends, end?]

theorem isIncidental_of_not_concerns {c : CallId} {e : Entry} (h : e.concerns c = false) :
    e.isIncidental c = true := by
  cases e with
  | remark => rfl
  | woken => rfl
  | trace t => cases t <;> simp_all [concerns, isIncidental, startsStage, closes, spends, end?]
  | mark m => cases m <;> simp_all [concerns, isIncidental, startsStage, closes, spends, end?]

theorem fate?_eq_some_iff {c : CallId} {e : Entry} {fate : Fate} :
    e.fate? c = some fate ↔ ∃ point, e = .mark (.spent c point fate) := by
  constructor
  · intro h
    unfold fate? at h
    split at h
    · next d point fate' =>
        split at h
        · next hd =>
            obtain rfl := Option.some.inj h
            exact ⟨point, by rw [hd]⟩
        · simp at h
    · simp at h
  · rintro ⟨point, rfl⟩
    simp [fate?]

theorem spends_of_loses {c : CallId} {e : Entry} (h : e.loses c = true) : e.spends c = true := by
  unfold loses at h
  split at h
  · exact h
  · simp at h

end Entry

/-! ## Conditions on the entries of a log -/

/-- Some entry of the log meets a condition on the log in front of it and the entry. -/
def Occurs (condition : List Entry → Entry → Prop) (log : List Entry) : Prop :=
  ∃ before e behind, log = before ++ e :: behind ∧ condition before e

@[simp]
theorem not_occurs_nil (condition : List Entry → Entry → Prop) : ¬ Occurs condition [] := by
  rintro ⟨before, e, behind, hlog, -⟩
  simp at hlog

@[simp]
theorem occurs_append_singleton
    (condition : List Entry → Entry → Prop) (log : List Entry) (e : Entry) :
    Occurs condition (log ++ [e]) ↔ Occurs condition log ∨ condition log e := by
  constructor
  · rintro ⟨before, x, behind, hlog, hx⟩
    rcases List.eq_nil_or_concat behind with rfl | ⟨rest, last, rfl⟩
    · obtain ⟨rfl, hsame⟩ := List.append_inj' hlog rfl
      have hex : e = x := by simpa using hsame
      exact .inr (hex ▸ hx)
    · have hlog' : log ++ [e] = (before ++ x :: rest) ++ [last] := by
        rw [hlog]
        simp
      obtain ⟨rfl, -⟩ := List.append_inj' hlog' rfl
      exact .inl ⟨before, x, rest, rfl, hx⟩
  · rintro (⟨before, x, behind, rfl, hx⟩ | hx)
    · exact ⟨before, x, behind ++ [e], by simp, hx⟩
    · exact ⟨log, e, [], rfl, hx⟩

/-- The call has entered its last stage. -/
def Closed (c : CallId) (log : List Entry) : Prop :=
  ∃ e ∈ log, e.closes c = true

@[simp]
theorem closed_append_singleton (c : CallId) (log : List Entry) (e : Entry) :
    Closed c (log ++ [e]) ↔ Closed c log ∨ e.closes c = true := by
  simp [Closed, or_and_right, exists_or]

def Lost (c : CallId) (log : List Entry) : Prop :=
  ∃ e ∈ log, e.loses c = true

@[simp]
theorem lost_append_singleton (c : CallId) (log : List Entry) (e : Entry) :
    Lost c (log ++ [e]) ↔ Lost c log ∨ e.loses c = true := by
  simp [Lost, or_and_right, exists_or]

/-- The ends of the call that the listener was told of. -/
def told (c : CallId) (log : List Entry) : List Outcome :=
  log.filterMap (Entry.end? c)

@[simp]
theorem told_append_singleton (c : CallId) (log : List Entry) (e : Entry) :
    told c (log ++ [e]) = told c log ++ (e.end? c).toList := by
  cases h : e.end? c <;> simp [told, h]

def JustCaptured (log : List Entry) : Prop :=
  ∃ message, log.getLast? = some (.trace (.panicCaptured message))

/-- A panic has just been captured that left the code of a plugin of the call, which held no
continuation any more. -/
def JustCut (c : CallId) (log : List Entry) : Prop :=
  ∃ front point p,
    log = front ++ [.mark (.escaped c (.plugin point) p), .trace (.panicCaptured p.message)]

/-- The call enters the stage of failure because a panic has just left a plugin that had handed its
continuation on. -/
def CutsOff (c : CallId) (before : List Entry) (e : Entry) : Prop :=
  (∃ r source, e = .trace (.entered r source .failed) ∧ r.position = c) ∧ JustCut c before

/-- A panic failed the call after the continuation had been handed on. -/
def CutOff (c : CallId) (log : List Entry) : Prop :=
  Occurs (CutsOff c) log

/-- A plugin or the handler of the call is started although the call has entered its last stage and
has not been cut off. -/
def StartsLate (c : CallId) (before : List Entry) (e : Entry) : Prop :=
  e.startsStage c = true ∧ Closed c before ∧ ¬ CutOff c before

/-- A panic has just left a completion handler that held the continuation of the call at a point. -/
def JustLeftDeferred (c : CallId) (point : Point) (log : List Entry) : Prop :=
  ∃ p, log.getLast? = some (.mark (.escaped c (.deferred point) p))

/-- A continuation of the call is dropped, or lost in a panic of other code than a completion
handler. -/
def GivesUp (c : CallId) (before : List Entry) (e : Entry) : Prop :=
  ∃ point fate, e = .mark (.spent c point fate) ∧
    (fate = .dropped ∨ (fate = .lost ∧ ¬ JustLeftDeferred c point before))

def GivesUpOpen (c : CallId) (before : List Entry) (e : Entry) : Prop :=
  GivesUp c before e ∧ ¬ Closed c before

/-- The call enters its last stage after a continuation was lost, and not because of a captured
panic. -/
def ClosesUncaptured (c : CallId) (before : List Entry) (e : Entry) : Prop :=
  e.closes c = true ∧ Lost c before ∧ ¬ JustCaptured before

def LosesOpen (c : CallId) (before : List Entry) (e : Entry) : Prop :=
  e.loses c = true ∧ ¬ Closed c before

theorem lost_of_occurs {c : CallId} {log : List Entry} (h : Occurs (LosesOpen c) log) :
    Lost c log := by
  obtain ⟨before, e, behind, rfl, hloses, -⟩ := h
  exact ⟨e, by simp, hloses⟩

theorem CutsOff.closes {c : CallId} {before : List Entry} {e : Entry} (h : CutsOff c before e) :
    e.closes c = true := by
  obtain ⟨⟨r, source, rfl, hposition⟩, -⟩ := h
  simp [Entry.closes, hposition, Stage.isTerminal]

theorem GivesUp.spends {c : CallId} {before : List Entry} {e : Entry} (h : GivesUp c before e) :
    e.spends c = true := by
  obtain ⟨point, fate, rfl, -⟩ := h
  simp [Entry.spends]

end RouteDispatch
