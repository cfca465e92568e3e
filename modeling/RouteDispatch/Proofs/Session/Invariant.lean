import RouteDispatch.Proofs.Session.Course
import Mathlib.Tactic.Common

/-!
# The invariant of a call

One call is followed through everything that may happen to a world.  The right to let it go on is
counted wherever it may be: with running code, with a task that keeps it, or on its way in the work
that surrounds the code (`Frame.moving`).  It is there once at most, and is gone when the call has
ended, unless a panic cut the call off.  The rest of the invariant ties four things together: the
stage of the call, the cell of its end, the task of its caller, and the log.
-/

namespace RouteDispatch

/-! ## Where the right to go on is -/

def Continuation.load (c : CallId) (k : Continuation) : Nat :=
  if k.pipeline.call = c then 1 else 0

/-- How many rights to let the call go on a completion handler carries. -/
def Completion.load (c : CallId) : Completion → Nat
  | .resume k _ => k.load c
  | .handled p => if p.call = c then 1 else 0
  | _ => 0

/-- The task that a completion handler resolves. -/
def Completion.target? : Completion → Option TaskId
  | .transform _ into | .chain _ into | .relay into => some into
  | _ => none

def Cell.handler? {η : Type} : Cell η → Option η
  | .waiting (.handler h) => some h
  | _ => none

def cellLoad (c : CallId) (cell : Cell Completion) : Nat :=
  match cell.handler? with
  | some h => h.load c
  | none => 0

def Call.load (call : Call) : Nat :=
  match call.held with
  | some (_, .code) => 1
  | _ => 0

/-- How many rights to let the call go on there are in cells and with running code. -/
def carried (c : CallId) (cells : List (Cell Completion)) (call? : Option Call) : Nat :=
  (cells.map (cellLoad c)).foldr (· + ·) 0 + call?.elim 0 Call.load

/-! ## What surrounds the code -/

/-- How far a call is, and its report. -/
inductive Phase where
  /-- There is no such call yet. -/
  | absent
  /-- The call is numbered, matched and bound. -/
  | preparing
  /-- The call passes its stages, and its caller has no task yet. -/
  | launching
  /-- The caller has a task, and knows of the end if there was one. -/
  | settled (t : TaskId)
  /-- The end is to be reported. -/
  | due (t : TaskId) (o : Outcome)
  /-- The listener has been told of the end, and the caller's task is to be resolved. -/
  | reporting (t : TaskId) (o : Outcome)

/-- No continuation of the call has been made yet. -/
def Phase.isIdle : Phase → Bool
  | .absent | .preparing => true
  | _ => false

def Phase.isAbsent : Phase → Bool
  | .absent => true
  | _ => false

def Phase.isSettled : Phase → Bool
  | .settled _ => true
  | _ => false

/-- Whether there is such a call, and the task that its caller was given. -/
def Phase.standing : Phase → Option (Option TaskId)
  | .absent => none
  | .preparing | .launching => some none
  | .settled t | .due t _ | .reporting t _ => some (some t)

theorem Phase.isAbsent_eq_isNone (φ : Phase) : φ.isAbsent = φ.standing.isNone := by
  cases φ <;> rfl

theorem Phase.isIdle_of_isSettled {φ : Phase} (h : φ.isSettled = true) : φ.isIdle = false := by
  cases φ <;> simp_all [isSettled, isIdle]

/-- What the work that surrounds running code does for a call. -/
structure Frame where
  /-- How many rights to let the call go on are on their way. -/
  moving : Nat := 0
  /-- Tasks that are to be resolved. -/
  aims : List TaskId := []
  /-- The call is known to have ended. -/
  ended : Bool := false
  /-- No loss is still to be answered. -/
  strict : Bool := true
  phase : Phase

namespace Frame

def plus (f : Frame) (n : Nat) : Frame :=
  { f with moving := f.moving + n }

def aiming (f : Frame) (t? : Option TaskId) : Frame :=
  { f with aims := t?.toList ++ f.aims }

def knowing (f : Frame) (ended : Bool) : Frame :=
  { f with ended := ended || f.ended }

def loose (f : Frame) : Frame :=
  { f with strict := false }

def inPhase (f : Frame) (phase : Phase) : Frame :=
  { f with phase }

end Frame

/-! ## The invariant -/

def endOf (call? : Option Call) : Option Outcome :=
  call?.bind fun call => call.ending.outcome?

/-- The task that the caller of a call was given. -/
def answerOf (call? : Option Call) : Option TaskId :=
  call?.bind Call.answer

def outcomeOf (cells : List (Cell Completion)) (t : TaskId) : Option Outcome :=
  cells[t]?.bind Cell.outcome?

/-- The task has not been resolved, unless by foreign code. -/
def IsOpen (t : TaskId) (cells : List (Cell Completion)) (log : List Entry) : Prop :=
  outcomeOf cells t = none ∨ .mark (.resolved t) ∈ log

/-- The task was resolved with the outcome, or with a failure because the listener panicked. -/
def IsGiven (c : CallId) (t : TaskId) (o : Outcome) (cells : List (Cell Completion))
    (log : List Entry) : Prop :=
  ∃ o', outcomeOf cells t = some o' ∧
    (o' = o ∨ ((∃ p, .mark (.escaped c .onEnd p) ∈ log) ∧ ∃ m, o' = .error (.internal m)))

/-- A call and the task of its caller are in a phase. -/
def Stands (c : CallId) (call? : Option Call) (cells : List (Cell Completion)) (log : List Entry) :
    Phase → Prop
  | .absent => call? = none ∧ ∀ e ∈ log, e.concerns c = false
  | .preparing => ∃ call, call? = some call ∧ call.answer = none ∧ call.ending = .fresh ∧
      told c log = []
  | .launching => ∃ call, call? = some call ∧ call.answer = none ∧
      (call.ending = .fresh ∨ ∃ o, call.ending = .cached o false) ∧ told c log = []
  | .settled t => ∃ call, call? = some call ∧ call.answer = some t ∧ t < cells.length ∧
      ((call.ending = .waiting (.handler t) ∧ told c log = [] ∧ IsOpen t cells log) ∨
        ∃ o, call.ending = .taken o ∧ told c log = [o] ∧ IsGiven c t o cells log)
  | .due t o => ∃ call, call? = some call ∧ call.answer = some t ∧ t < cells.length ∧
      call.ending = .taken o ∧ told c log = [] ∧ IsOpen t cells log
  | .reporting t o => ∃ call, call? = some call ∧ call.answer = some t ∧ t < cells.length ∧
      call.ending = .taken o ∧ told c log = [o] ∧ IsOpen t cells log

/-- The first entry about the call is its start, and there is no other start of it. -/
def IsOpened (c : CallId) (log : List Entry) : Prop :=
  ∃ front rest, log = front ++ .mark (.started c) :: rest ∧
    (∀ e ∈ front, e.concerns c = false) ∧ .mark (.started c) ∉ rest

/-- The task is there and is not the one of the call's caller. -/
def IsFree (call? : Option Call) (cells : List (Cell Completion)) (t : TaskId) : Prop :=
  t < cells.length ∧ answerOf call? ≠ some t

/-- What holds of a call, the tasks and the log inside a frame. -/
structure Facts (c : CallId) (f : Frame) (call? : Option Call) (cells : List (Cell Completion))
    (log : List Entry) : Prop where
  linear : carried c cells call? + f.moving ≤ 1
  idle : f.phase.isIdle = true →
    carried c cells call? + f.moving = 0 ∧ ∀ e ∈ log, e.spends c = false
  known : f.ended = true → endOf call? ≠ none
  closed : Closed c log ↔ endOf call? ≠ none
  staged : ∀ call, call? = some call →
    (call.ending.outcome? = none → call.view.stage.isTerminal = false) ∧
      ∀ o, call.ending.outcome? = some o → call.view.stage = .ofOutcome o
  -- Only a call that was cut off leaves a right to go on behind its end.
  severed : endOf call? ≠ none → carried c cells call? + f.moving = 0 ∨ CutOff c log
  lost : Lost c log → carried c cells call? + f.moving = 0
  timely : ¬ Occurs (StartsLate c) log
  -- While a loss waits for its answer the frame is not strict.
  answered : f.strict = true → Occurs (GivesUpOpen c) log →
    ∃ m, endOf call? = some (.error (.internal m))
  internal : Occurs (LosesOpen c) log → ∀ o, endOf call? = some o → ∃ m, o = .error (.internal m)
  captured : ¬ Occurs (ClosesUncaptured c) log
  opened : f.phase.isAbsent = false → IsOpened c log
  refused : .mark (.refused c) ∈ log →
    ∃ t, answerOf call? = some t ∧ .mark (.resolved t) ∈ log
  -- Nothing but the report of the call's end resolves the task of its caller.
  free : ∀ t ∈ f.aims, IsFree call? cells t
  aimed : ∀ cell ∈ cells, ∀ h, cell.handler? = some h → ∀ t, h.target? = some t →
    IsFree call? cells t
  stands : Stands c call? cells log f.phase

/-- The other calls wait for tasks that are not the one of the call's caller. -/
def OthersApart (c : CallId) (w : World) : Prop :=
  ∀ d call, d ≠ c → w.calls[d]? = some call → ∀ t, call.ending.handler? = some t →
    IsFree w.calls[c]? w.cells t

/-- What holds of a call in a world inside a frame. -/
structure Inv (c : CallId) (f : Frame) (w : World) : Prop where
  facts : Facts c f w.calls[c]? w.cells w.log
  apart : OthersApart c w

/-! ## What keeps a phase -/

theorem CutOff.append {c : CallId} {log : List Entry} (h : CutOff c log) (e : Entry) :
    CutOff c (log ++ [e]) :=
  (occurs_append_singleton _ _ _).mpr (.inl h)

theorem IsOpen.append
    {t : TaskId} {cells : List (Cell Completion)} {log : List Entry} (h : IsOpen t cells log)
    (e : Entry) : IsOpen t cells (log ++ [e]) :=
  h.imp_right (List.mem_append_left _)

theorem IsGiven.append
    {c : CallId} {t : TaskId} {o : Outcome} {cells : List (Cell Completion)} {log : List Entry}
    (h : IsGiven c t o cells log) (e : Entry) : IsGiven c t o cells (log ++ [e]) := by
  obtain ⟨o', houtcome, hsame | ⟨⟨p, hp⟩, hinternal⟩⟩ := h
  · exact ⟨o', houtcome, .inl hsame⟩
  · exact ⟨o', houtcome, .inr ⟨⟨p, List.mem_append_left _ hp⟩, hinternal⟩⟩

theorem IsOpened.started_mem {c : CallId} {log : List Entry} (h : IsOpened c log) :
    .mark (.started c) ∈ log := by
  obtain ⟨front, rest, rfl, -⟩ := h
  simp

theorem IsOpened.append {c : CallId} {log : List Entry} (h : IsOpened c log)
    {e : Entry} (he : e ≠ .mark (.started c)) : IsOpened c (log ++ [e]) := by
  obtain ⟨front, rest, rfl, hfront, hrest⟩ := h
  refine ⟨front, rest ++ [e], by simp, hfront, ?_⟩
  simpa [hrest, eq_comm] using he

/-- An entry that tells the listener nothing keeps the phase. -/
theorem Stands.append
    {c : CallId} {call? : Option Call} {cells : List (Cell Completion)} {log : List Entry}
    {φ : Phase} (h : Stands c call? cells log φ) {e : Entry} (he : e.end? c = none)
    (habsent : φ.isAbsent = true → e.concerns c = false) :
    Stands c call? cells (log ++ [e]) φ := by
  have htold : told c (log ++ [e]) = told c log := by simp [he]
  cases φ with
  | absent =>
      refine ⟨h.1, ?_⟩
      intro x hx
      rcases List.mem_append.mp hx with hold | hnew
      · exact h.2 x hold
      · rw [List.mem_singleton.mp hnew]
        exact habsent rfl
  | preparing =>
      obtain ⟨call, hcall, hanswer, hending, htold'⟩ := h
      exact ⟨call, hcall, hanswer, hending, htold.trans htold'⟩
  | launching =>
      obtain ⟨call, hcall, hanswer, hending, htold'⟩ := h
      exact ⟨call, hcall, hanswer, hending, htold.trans htold'⟩
  | settled t =>
      obtain ⟨call, hcall, hanswer, ht, hstate⟩ := h
      refine ⟨call, hcall, hanswer, ht, ?_⟩
      rcases hstate with ⟨hending, htold', hopen⟩ | ⟨o, hending, htold', hgiven⟩
      · exact .inl ⟨hending, htold.trans htold', hopen.append e⟩
      · exact .inr ⟨o, hending, htold.trans htold', hgiven.append e⟩
  | due t o =>
      obtain ⟨call, hcall, hanswer, ht, hending, htold', hopen⟩ := h
      exact ⟨call, hcall, hanswer, ht, hending, htold.trans htold', hopen.append e⟩
  | reporting t o =>
      obtain ⟨call, hcall, hanswer, ht, hending, htold', hopen⟩ := h
      exact ⟨call, hcall, hanswer, ht, hending, htold.trans htold', hopen.append e⟩

/-- A phase is kept when the caller's task keeps its outcome, unless foreign code resolves it. -/
theorem Stands.recell
    {c : CallId} {call? : Option Call} {cells : List (Cell Completion)} {log : List Entry}
    {φ : Phase} (h : Stands c call? cells log φ) {cells' : List (Cell Completion)}
    (hlength : cells.length ≤ cells'.length)
    (houtcome : ∀ t, answerOf call? = some t →
      outcomeOf cells' t = outcomeOf cells t ∨
        (outcomeOf cells t = none ∧ .mark (.resolved t) ∈ log)) :
    Stands c call? cells' log φ := by
  have hopen : ∀ t, answerOf call? = some t → IsOpen t cells log → IsOpen t cells' log := by
    intro t ht hopen
    rcases houtcome t ht with hsame | ⟨-, hresolved⟩
    · exact hopen.imp_left fun hnone => hsame.trans hnone
    · exact .inr hresolved
  cases φ with
  | absent => exact h
  | preparing => exact h
  | launching => exact h
  | settled t =>
      obtain ⟨call, hcall, hanswer, ht, hstate⟩ := h
      have ht' : answerOf call? = some t := by simp [answerOf, hcall, hanswer]
      refine ⟨call, hcall, hanswer, Nat.lt_of_lt_of_le ht hlength, ?_⟩
      rcases hstate with ⟨hending, htold, hopen'⟩ | ⟨o, hending, htold, o', hgiven, hwhy⟩
      · exact .inl ⟨hending, htold, hopen t ht' hopen'⟩
      · refine .inr ⟨o, hending, htold, o', ?_, hwhy⟩
        rcases houtcome t ht' with hsame | ⟨hnone, -⟩
        · exact hsame.trans hgiven
        · simp [hnone] at hgiven
  | due t o =>
      obtain ⟨call, hcall, hanswer, ht, hending, htold, hopen'⟩ := h
      have ht' : answerOf call? = some t := by simp [answerOf, hcall, hanswer]
      exact ⟨call, hcall, hanswer, Nat.lt_of_lt_of_le ht hlength, hending, htold,
        hopen t ht' hopen'⟩
  | reporting t o =>
      obtain ⟨call, hcall, hanswer, ht, hending, htold, hopen'⟩ := h
      have ht' : answerOf call? = some t := by simp [answerOf, hcall, hanswer]
      exact ⟨call, hcall, hanswer, Nat.lt_of_lt_of_le ht hlength, hending, htold,
        hopen t ht' hopen'⟩

/-- A phase is about the end of a call and the task of its caller only. -/
theorem Stands.recall
    {c : CallId} {call call' : Call} {cells : List (Cell Completion)} {log : List Entry}
    {φ : Phase} (h : Stands c (some call) cells log φ) (hending : call'.ending = call.ending)
    (hanswer : call'.answer = call.answer) : Stands c (some call') cells log φ := by
  cases φ with
  | absent => exact absurd h.1 (by simp)
  | _ =>
      obtain ⟨x, hx, hstate⟩ := h
      obtain rfl : call = x := Option.some.inj hx
      exact ⟨call', rfl, by rwa [hanswer, hending]⟩

/-- The task of the caller is the one that the phase names, and there is such a task. -/
theorem Stands.answerOf_iff
    {c : CallId} {call? : Option Call} {cells : List (Cell Completion)} {log : List Entry}
    {φ : Phase} (h : Stands c call? cells log φ) {t : TaskId} :
    answerOf call? = some t ↔ φ.standing = some (some t) := by
  cases φ with
  | absent => simp [h.1, answerOf, Phase.standing]
  | _ =>
      obtain ⟨call, rfl, hanswer, -⟩ := h
      simp [answerOf, hanswer, Phase.standing]

theorem Stands.lt_length
    {c : CallId} {call? : Option Call} {cells : List (Cell Completion)} {log : List Entry}
    {φ : Phase} (h : Stands c call? cells log φ) {t : TaskId} (ht : answerOf call? = some t) :
    t < cells.length := by
  have hstanding := h.answerOf_iff.mp ht
  cases φ with
  | absent => simp [Phase.standing] at hstanding
  | preparing => simp [Phase.standing] at hstanding
  | launching => simp [Phase.standing] at hstanding
  | _ =>
      simp only [Phase.standing, Option.some.injEq] at hstanding
      subst hstanding
      obtain ⟨call, -, -, hlt, -⟩ := h
      exact hlt

end RouteDispatch
