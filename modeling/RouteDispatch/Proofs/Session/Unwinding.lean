import RouteDispatch.Proofs.Session.Discipline

/-!
# Panics on their way out

Three disciplines tell what panics do.  While the panic of a second resolution is on its way, the
log gets nothing but the pieces that it leaves and the continuations that are lost in it.  Any other
panic that leaves the foreign code of a running call fails the call.  And nobody waits for the end
of a call until its caller does.
-/

namespace RouteDispatch

namespace Entry

/-- The panic of a second resolution leaves a piece of foreign code. -/
def unwinds : Entry → Bool
  | .mark (.escaped _ _ .alreadyResolved) => true
  | _ => false

/-- The entry may be left while a panic is on its way out. -/
def isUnwinding : Entry → Bool
  | .mark (.escaped _ _ .alreadyResolved) | .mark (.spent _ _ .lost) => true
  | _ => false

/-- The panic leaves foreign code whose panics fail the call. -/
def fails (c : CallId) (p : Panic) : Entry → Bool
  | .mark (.escaped d piece q) => d == c && piece.failsCall && q == p
  | _ => false

theorem fails_iff {c : CallId} {p : Panic} {e : Entry} :
    e.fails c p = true ↔
      ∃ piece : Piece, piece.failsCall = true ∧ e = .mark (.escaped c piece p) := by
  constructor
  · intro h
    unfold fails at h
    split at h
    · next d piece q =>
        simp only [Bool.and_eq_true, beq_iff_eq] at h
        obtain ⟨⟨rfl, hpiece⟩, rfl⟩ := h
        exact ⟨piece, hpiece, rfl⟩
    · simp at h
  · rintro ⟨piece, hpiece, rfl⟩
    simp [fails, hpiece]

theorem unwinds_of_isPlain {e : Entry} (h : e.isPlain = true) : e.unwinds = false := by
  rcases e with _ | _ | _ | m
  · rfl
  · rfl
  · rfl
  · cases m with
    | escaped => simp [isPlain] at h
    | _ => rfl

end Entry

/-! ## While a panic unwinds -/

/-- No panic of a second resolution left foreign code since the log was `base`. -/
def CalmSince (base : List Entry) (w : World) : Prop :=
  ∃ calm, w.log = base ++ calm ∧ ∀ e ∈ calm, e.unwinds = false

/-- Such a panic has been on its way out since some time, or the stop is another one. -/
def UnwoundSince (base : List Entry) (s : Stop) (w : World) : Prop :=
  (s ≠ .panic .alreadyResolved → CalmSince base w) ∧
    ∃ calm unwinding, w.log = base ++ calm ++ unwinding ∧ (∀ e ∈ calm, e.unwinds = false) ∧
      ∀ e ∈ unwinding, e.isUnwinding = true

variable {base : List Entry} {w : World}

theorem CalmSince.append (h : CalmSince base w) {e : Entry} (he : e.unwinds = false)
    {w' : World} (hw' : w'.log = w.log ++ [e]) : CalmSince base w' := by
  obtain ⟨calm, hlog, hcalm⟩ := h
  refine ⟨calm ++ [e], by rw [hw', hlog, List.append_assoc], ?_⟩
  intro x hx
  rcases List.mem_append.mp hx with hold | hnew
  · exact hcalm x hold
  · exact List.mem_singleton.mp hnew ▸ he

theorem CalmSince.unwound (h : CalmSince base w) (s : Stop) : UnwoundSince base s w := by
  obtain ⟨calm, hlog, hcalm⟩ := h
  exact ⟨fun _ => ⟨calm, hlog, hcalm⟩, calm, [], by rw [hlog, List.append_nil], hcalm, by simp⟩

theorem UnwoundSince.append {s : Stop} (h : UnwoundSince base s w) {e : Entry}
    (he : e.isUnwinding = true) (hcalm : s ≠ .panic .alreadyResolved → e.unwinds = false)
    {w' : World} (hw' : w'.log = w.log ++ [e]) : UnwoundSince base s w' := by
  refine ⟨fun hs => (h.1 hs).append (hcalm hs) hw', ?_⟩
  obtain ⟨calm, unwinding, hlog, hbefore, hafter⟩ := h.2
  refine ⟨calm, unwinding ++ [e], by rw [hw', hlog, List.append_assoc], hbefore, ?_⟩
  intro x hx
  rcases List.mem_append.mp hx with hold | hnew
  · exact hafter x hold
  · exact List.mem_singleton.mp hnew ▸ he

/-- A panic that leaves a piece of foreign code goes on. -/
theorem UnwoundSince.escaped {p : Panic} (h : UnwoundSince base (.panic p) w) (c : CallId)
    (piece : Piece) :
    UnwoundSince base (.panic p) { w with log := w.log ++ [.mark (.escaped c piece p)] } := by
  by_cases hp : p = .alreadyResolved
  · subst hp
    exact h.append rfl (fun hs => absurd rfl hs) rfl
  · have hcalm : CalmSince base w := h.1 fun hs => hp (Stop.panic.inj hs)
    refine (hcalm.append ?_ rfl).unwound _
    cases p with
    | alreadyResolved => exact absurd rfl hp
    | _ => rfl

theorem UnwoundSince.captured {p : Panic} (h : UnwoundSince base (.panic p) w)
    (hsoft : Stop.isHard (.panic p) = false) : CalmSince base (w.caught p) := by
  refine (h.1 fun hs => ?_).append rfl rfl
  rw [hs] at hsoft
  simp [Stop.isHard] at hsoft

theorem CalmSince.finished (h : CalmSince base w) (c : CallId) (call : Call) (o : Outcome)
    (ending : Cell TaskId) : CalmSince base (w.finished c call o ending) := by
  unfold World.finished
  by_cases hlast : call.view.stage.isTerminal = true
  · rw [if_pos hlast]
    exact h
  · rw [if_neg hlast]
    exact h.append rfl rfl

/-- Work goes on while no panic of a second resolution has left foreign code, and such a panic only
leaves more foreign code. -/
theorem discipline_unwinding (base : List Entry) :
    Act.Discipline (CalmSince base) (UnwoundSince base)
      fun _ p => UnwoundSince base (.panic p) where
  stop s h := h.unwound s
  turn _ _ _ h := h
  logged h he := h.append (Entry.unwinds_of_isPlain he) rfl
  newTask h := h
  edit _ _ h _ := h
  others _ _ h := h
  moved h _ _ := h.append rfl rfl
  finished h _ _ := h.finished _ _ _ _
  escaped c _ _ h _ := h.escaped c _
  forfeited _ h := h.append rfl (fun _ => rfl) rfl
  captured h hsoft := h.captured hsoft
  leaves c _ _ h _ := h.escaped c _
  lost _ h := h.append rfl (fun _ => rfl) rfl
  hard h _ := h
  late h hsoft _ := h.captured hsoft
  failed h hsoft _ _ := (h.captured hsoft).finished _ _ _ _

/-! ## The failure of a running call -/

/-- The panic leaves foreign code whose panics fail the call while the call is running. -/
def EscapesOpen (c : CallId) (p : Panic) (before : List Entry) (e : Entry) : Prop :=
  e.fails c p = true ∧ ¬ Closed c before

/-- What is known of the end of a call: the log tells whether the call has ended, and the panics
that have left its foreign code have failed it, but for one that is about to. -/
structure Answers (c : CallId) (open? : Option Panic) (w : World) : Prop where
  made : ∃ call, w.calls[c]? = some call ∧
    (call.ending.outcome? = none → call.view.stage.isTerminal = false)
  closed : Closed c w.log ↔ endOf w.calls[c]? ≠ none
  escaped : ∀ p, p ≠ .alreadyResolved → Occurs (EscapesOpen c p) w.log →
    endOf w.calls[c]? = some (.error p.failure) ∨ (endOf w.calls[c]? = none ∧ open? = some p)

variable {c : CallId} {open? : Option Panic}

namespace Answers

theorem logged (h : Answers c open? w) {e : Entry} (hcloses : e.closes c = false)
    (hescapes : ∀ p, p ≠ .alreadyResolved → EscapesOpen c p w.log e → open? = some p) :
    Answers c open? { w with log := w.log ++ [e] } := by
  refine ⟨h.made, ?_, fun p hp hoccurs => ?_⟩
  · rw [closed_append_singleton, hcloses]
    simpa using h.closed
  · rcases (occurs_append_singleton _ _ _).mp hoccurs with hold | hnew
    · exact h.escaped p hp hold
    · refine .inr ⟨?_, hescapes p hp hnew⟩
      exact not_not.mp fun hended => hnew.2 (h.closed.mpr hended)

theorem keep (h : Answers c open? w) {w' : World} (hlog : w'.log = w.log)
    (hend : endOf w'.calls[c]? = endOf w.calls[c]?)
    (hmade : ∃ call, w'.calls[c]? = some call ∧
      (call.ending.outcome? = none → call.view.stage.isTerminal = false)) :
    Answers c open? w' := by
  refine ⟨hmade, ?_, ?_⟩
  · rw [hlog, hend]
    exact h.closed
  · rw [hlog, hend]
    exact h.escaped

theorem editOther (h : Answers c open? w) {d : CallId} (hd : d ≠ c) (g : Call → Call) :
    Answers c open? { w with calls := w.calls.modify d g } := by
  have hsame : (w.calls.modify d g)[c]? = w.calls[c]? := List.getElem?_modify_ne _ _ hd
  exact h.keep rfl (congrArg endOf hsame) (hsame ▸ h.made)

/-- An edit of a call that leaves its end alone may move it between stages that are not the last. -/
theorem editOwn (h : Answers c open? w) {g : Call → Call}
    (hend : ∀ call, (g call).ending = call.ending)
    (hstage : ∀ call, call.view.stage.isTerminal = false →
      (g call).view.stage.isTerminal = false) :
    Answers c open? { w with calls := w.calls.modify c g } := by
  obtain ⟨call, hcall, hopen⟩ := h.made
  have hafter : (w.calls.modify c g)[c]? = some (g call) := Inv.getElem?_modify_self hcall g
  refine h.keep rfl ?_ ⟨g call, hafter, fun hnone => hstage call (hopen (hend call ▸ hnone))⟩
  simp [endOf, hcall, hafter, hend]

theorem edit (h : Answers c open? w) (d : CallId) {g : Call → Call} (hg : Call.IsMinor g) :
    Answers c open? { w with calls := w.calls.modify d g } := by
  by_cases hd : d = c
  · subst hd
    exact h.editOwn (fun call => (hg call).1) fun call hopen => (hg call).2 ▸ hopen
  · exact h.editOther hd g

theorem moved (h : Answers c open? w) (d : CallId) (source : Stage) {stage : Stage}
    (hstage : stage.isTerminal = false) : Answers c open? (w.moved d source stage) := by
  have hlogged := h.logged (e := .trace (.entered (w.callRef d) source stage))
    (by simp [Entry.closes, hstage]) (by simp [EscapesOpen, Entry.fails])
  by_cases hd : d = c
  · subst hd
    exact hlogged.editOwn (fun _ => rfl) fun _ _ => hstage
  · exact hlogged.editOther hd _

theorem finished_other (h : Answers c open? w) {d : CallId} (hd : d ≠ c) (call : Call)
    (o : Outcome) (ending : Cell TaskId) : Answers c open? (w.finished d call o ending) := by
  unfold World.finished
  by_cases hlast : call.view.stage.isTerminal = true
  · rw [if_pos hlast]
    exact h.editOther hd _
  · rw [if_neg hlast]
    have hlogged := h.logged
      (e := .trace (.entered (w.callRef d) call.view.stage (.ofOutcome o)))
      (by simp [Entry.closes, World.callRef, hd]) (by simp [EscapesOpen, Entry.fails])
    exact (hlogged.editOther hd _).editOther hd _

/-- A panic that is about to fail a running call does. -/
theorem finished_own (h : Answers c open? w) {call : Call} {o : Outcome} {ending : Cell TaskId}
    {follow : Cell.Settling TaskId} (hcall : w.calls[c]? = some call)
    (hsettle : call.ending.settle o = some (ending, follow))
    (ho : ∀ p, open? = some p → o = .error p.failure) :
    Answers c none (w.finished c call o ending) := by
  obtain ⟨hnone, hafter⟩ := Cell.outcome?_of_settle hsettle
  obtain ⟨x, hx, hopen⟩ := h.made
  obtain rfl : call = x := Option.some.inj (hcall.symm.trans hx)
  have hstage : call.view.stage.isTerminal = false := hopen hnone
  have hend : endOf w.calls[c]? = none := by simp [endOf, hcall, hnone]
  unfold World.finished
  rw [if_neg (by simp [hstage])]
  set last : Call := { call with view := { call.view with stage := .ofOutcome o }, ending }
  have hcall' : ((w.calls.modify c fun x => { x with view := { x.view with stage := .ofOutcome o } }
      ).modify c fun x => { x with ending })[c]? = some last :=
    (Inv.getElem?_modify_self (w := { w with calls := w.calls.modify c _ })
      (Inv.getElem?_modify_self hcall _) _)
  have hend' : endOf (some last) = some o := hafter
  refine ⟨⟨last, hcall', fun hrunning => ?_⟩, ?_, fun p hp hoccurs => .inl ?_⟩
  · rw [hafter] at hrunning
    contradiction
  · dsimp only [World.moved]
    rw [hcall', hend', closed_append_singleton]
    cases o <;> simp [Entry.closes, World.callRef, Stage.isTerminal, Stage.ofOutcome]
  · dsimp only [World.moved] at hoccurs ⊢
    rw [hcall', hend']
    rcases (occurs_append_singleton _ _ _).mp hoccurs with hold | hnew
    · rcases h.escaped p hp hold with hended | ⟨-, hpending⟩
      · simp [hend] at hended
      · rw [ho p hpending]
    · simp [EscapesOpen, Entry.fails] at hnew

/-- No panic is about to fail a call that has ended. -/
theorem settled (h : Answers c open? w)
    (hopen : ∀ p, open? = some p → p = .alreadyResolved ∨ endOf w.calls[c]? ≠ none) :
    Answers c none w := by
  refine ⟨h.made, h.closed, fun p hp hoccurs => .inl ?_⟩
  rcases h.escaped p hp hoccurs with hended | ⟨hnone, hpending⟩
  · exact hended
  · exact ((hopen p hpending).resolve_left hp hnone).elim

theorem endOf_of_occurs (h : Answers c none w) {p : Panic} (hp : p ≠ .alreadyResolved)
    (hoccurs : Occurs (EscapesOpen c p) w.log) :
    endOf w.calls[c]? = some (.error p.failure) :=
  (h.escaped p hp hoccurs).resolve_right fun hpending => by simp at hpending

theorem pending (h : Answers c none w) (open? : Option Panic) : Answers c open? w :=
  ⟨h.made, h.closed, fun p hp hoccurs => (h.escaped p hp hoccurs).imp_right fun hpending => by
    simp at hpending⟩

/-- A panic that leaves foreign code of the call is about to fail it. -/
theorem leaves (h : Answers c none w) (d : CallId) (piece : Piece) (p : Panic) :
    Answers c (if d = c then some p else none)
      { w with log := w.log ++ [.mark (.escaped d piece p)] } := by
  refine (h.pending _).logged rfl ?_
  rintro q - ⟨hfails, -⟩
  obtain ⟨_, -, hentry⟩ := Entry.fails_iff.mp hfails
  simp only [Entry.mark.injEq, Mark.escaped.injEq] at hentry
  obtain ⟨rfl, -, rfl⟩ := hentry
  exact if_pos rfl

theorem loggedPlain (h : Answers c open? w) {e : Entry} (he : e.isPlain = true) :
    Answers c open? { w with log := w.log ++ [e] } := by
  refine h.logged ?_ ?_
  · cases e with
    | trace t => cases t <;> simp_all [Entry.isPlain, Entry.closes]
    | _ => rfl
  · rintro p - ⟨hfails, -⟩
    obtain ⟨piece, -, rfl⟩ := Entry.fails_iff.mp hfails
    simp [Entry.isPlain] at he

theorem forfeited (h : Answers c open? w) (k : Continuation) :
    Answers c open? (w.forfeited k) :=
  (h.loggedPlain (e := .mark (.spent k.pipeline.call k.point .lost)) rfl).edit _
    fun _ => ⟨rfl, rfl⟩

theorem captured (h : Answers c open? w) (p : Panic) : Answers c open? (w.caught p) :=
  h.loggedPlain rfl

theorem finished (h : Answers c none w) {d : CallId} {call : Call} {o : Outcome}
    {ending : Cell TaskId} {follow : Cell.Settling TaskId} (hcall : w.calls[d]? = some call)
    (hsettle : call.ending.settle o = some (ending, follow)) :
    Answers c none (w.finished d call o ending) := by
  by_cases hd : d = c
  · subst hd
    exact h.finished_own hcall hsettle (by simp)
  · exact h.finished_other hd call o ending

end Answers

/-- Panics fail the call whose foreign code they leave, if it is running. -/
theorem discipline_answers (c : CallId) :
    Act.Discipline (Answers c none) (fun _ => Answers c none)
      fun d p => Answers c (if d = c then some p else none) where
  stop _ h := h
  turn _ _ _ h := ⟨h.made, h.closed, h.escaped⟩
  logged h he := h.loggedPlain he
  newTask h := ⟨h.made, h.closed, h.escaped⟩
  edit d _ h hg := h.edit d hg
  others _ _ h := ⟨h.made, h.closed, h.escaped⟩
  moved h _ hstage := h.moved _ _ hstage
  finished h hcall hsettle := h.finished hcall hsettle
  escaped d piece p h hpiece := by
    refine h.logged rfl ?_
    rintro q - ⟨hfails, -⟩
    obtain ⟨piece', hpiece', hentry⟩ := Entry.fails_iff.mp hfails
    simp only [Entry.mark.injEq, Mark.escaped.injEq] at hentry
    obtain ⟨-, rfl, -⟩ := hentry
    simp [hpiece] at hpiece'
  forfeited k h := h.forfeited k
  captured h _ := h.captured _
  leaves d _ _ h _ := h.leaves d _ _
  lost k h := h.forfeited k
  hard {w d p} h hhard := by
    refine h.settled fun q hq => .inl ?_
    obtain ⟨-, hsame⟩ := Option.ite_none_right_eq_some.mp hq
    obtain rfl := Option.some.inj hsame
    cases p with
    | alreadyResolved => rfl
    | _ => simp [Stop.isHard] at hhard
  late {w d p} h _ hrunning := by
    refine (h.captured p).settled fun q hq => .inr fun hnone => ?_
    obtain ⟨rfl, -⟩ := Option.ite_none_right_eq_some.mp hq
    obtain ⟨call, hcall, -⟩ := h.made
    have hopen : (w.caught p).isRunning d = true :=
      World.isRunning_iff.mpr ⟨call, hcall, by simpa [World.caught, endOf, hcall] using hnone⟩
    simp [hopen] at hrunning
  failed {w d p call ending follow} h _ hcall hsettle := by
    by_cases hd : d = c
    · subst hd
      refine (h.captured p).finished_own hcall hsettle fun q hq => ?_
      obtain rfl := Option.some.inj ((if_pos rfl).symm.trans hq)
      rfl
    · have hother := h.captured p
      rw [if_neg hd] at hother
      exact hother.finished_other hd call _ ending

/-! ## A call that nobody waits for -/

/-- Nobody waits for the end of the call yet. -/
def Unawaited (c : CallId) (w : World) : Prop :=
  ∀ call, w.calls[c]? = some call → call.ending.handler? = none

/-- The panic of a second resolution has left foreign code of the call. -/
def HasUnwound (c : CallId) (log : List Entry) : Prop :=
  ∃ piece, .mark (.escaped c piece .alreadyResolved) ∈ log

/-- A panic has left foreign code of a call that nobody waits for. -/
def LeftUnawaited (c d : CallId) (p : Panic) (w : World) : Prop :=
  Unawaited c w ∧ (d = c → p = .alreadyResolved → HasUnwound c w.log)

theorem Unawaited.edit (h : Unawaited c w) (d : CallId) {g : Call → Call} {w' : World}
    (hw' : w'.calls = w.calls.modify d g)
    (hg : ∀ call, call.ending.handler? = none → (g call).ending.handler? = none) :
    Unawaited c w' := by
  intro call hcall
  rw [hw'] at hcall
  by_cases hd : d = c
  · subst hd
    rw [List.getElem?_modify_eq] at hcall
    obtain ⟨before, hbefore, rfl⟩ := Option.map_eq_some_iff.mp hcall
    exact hg before (h before hbefore)
  · rw [List.getElem?_modify_ne _ _ hd] at hcall
    exact h call hcall

theorem Unawaited.finished (h : Unawaited c w) {d : CallId} {call : Call} {o : Outcome}
    {ending : Cell TaskId} {follow : Cell.Settling TaskId}
    (hsettle : call.ending.settle o = some (ending, follow)) :
    Unawaited c (w.finished d call o ending) := by
  have hlast : Unawaited c (if call.view.stage.isTerminal then w else
      w.moved d call.view.stage (.ofOutcome o)) := by
    by_cases hterminal : call.view.stage.isTerminal = true
    · rwa [if_pos hterminal]
    · rw [if_neg hterminal]
      exact h.edit d rfl fun _ => id
  exact hlast.edit d rfl fun _ _ => (Cell.handler?_of_settle hsettle).1

theorem HasUnwound.append {log : List Entry} (h : HasUnwound c log) (later : List Entry) :
    HasUnwound c (log ++ later) := by
  obtain ⟨piece, hmem⟩ := h
  exact ⟨piece, List.mem_append_left _ hmem⟩

/-- Only the caller's wait for the end of a call puts a handler in its end. -/
theorem discipline_unawaited (c : CallId) :
    Act.Discipline (Unawaited c) (fun _ => Unawaited c) (LeftUnawaited c) where
  stop _ h := h
  turn _ _ _ h := h
  logged h _ := h
  newTask h := h
  edit d _ h hg := h.edit d rfl fun call hnone => (hg call).1 ▸ hnone
  others _ _ h := h
  moved h _ _ := h.edit _ rfl fun _ => id
  finished h _ hsettle := h.finished hsettle
  escaped _ _ _ h _ := h
  forfeited k h := h.edit _ rfl fun _ => id
  captured h _ := h
  leaves d piece p h _ := by
    refine ⟨h, ?_⟩
    rintro rfl rfl
    exact ⟨piece, by simp⟩
  lost k h := ⟨h.1.edit _ rfl fun _ => id, fun hd hp => (h.2 hd hp).append _⟩
  hard h _ := h.1
  late h _ _ := h.1
  failed h _ _ hsettle := Unawaited.finished (w := World.caught _ _) h.1 hsettle

end RouteDispatch
