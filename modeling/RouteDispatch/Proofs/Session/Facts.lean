import RouteDispatch.Proofs.Session.Invariant

/-!
# What may happen to a call

The facts about a call against single events: an entry is added to the log, the cells change, the
call changes, comes into being, ends, or gets a task for its caller.
-/

namespace RouteDispatch

section Effects

variable {c : CallId} {f : Frame} {call? : Option Call} {cells : List (Cell Completion)}
  {log : List Entry}

theorem Facts.frame
    (h : Facts c f call? cells log) (g : Frame) (hphase : g.phase = f.phase)
    (hmoving : g.moving ≤ f.moving) (hended : g.ended = true → endOf call? ≠ none)
    (hstrict : g.strict = true → Occurs (GivesUpOpen c) log →
      ∃ m, endOf call? = some (.error (.internal m)))
    (haims : ∀ t ∈ g.aims, IsFree call? cells t) :
    Facts c g call? cells log where
  linear := by
    have := h.linear
    omega
  idle := by
    intro hidle
    have hnone := h.idle (hphase ▸ hidle)
    exact ⟨by omega, hnone.2⟩
  known := hended
  closed := h.closed
  staged := h.staged
  severed := by
    intro hend
    exact (h.severed hend).imp_left fun hnone => by omega
  lost := by
    intro hlost
    have := h.lost hlost
    omega
  timely := h.timely
  answered := hstrict
  internal := h.internal
  captured := h.captured
  opened := hphase ▸ h.opened
  refused := h.refused
  free := haims
  aimed := h.aimed
  stands := hphase ▸ h.stands

/-- The entry may come next without ending the call or starting it. -/
structure Admits (c : CallId) (f : Frame) (call? : Option Call) (cells : List (Cell Completion))
    (log : List Entry) (e : Entry) : Prop where
  closes : e.closes c = false
  started : e ≠ .mark (.started c)
  timely : e.startsStage c = true → Closed c log → CutOff c log
  spends : e.spends c = true → f.phase.isIdle = false
  loses : e.loses c = true → carried c cells call? + f.moving = 0
  gives : f.strict = true → ¬ GivesUpOpen c log e
  refused : e = .mark (.refused c) → ∃ t, answerOf call? = some t ∧ .mark (.resolved t) ∈ log

/-- An entry that neither starts a stage nor brings a continuation to its end is admitted. -/
theorem Admits.of_idle
    {e : Entry} (hcloses : e.closes c = false) (hstarted : e ≠ .mark (.started c))
    (hstart : e.startsStage c = false) (hspends : e.spends c = false)
    (hrefused : e = .mark (.refused c) →
      ∃ t, answerOf call? = some t ∧ .mark (.resolved t) ∈ log) :
    Admits c f call? cells log e := by
  refine ⟨hcloses, hstarted, ?_, ?_, ?_, ?_, hrefused⟩
  · simp [hstart]
  · simp [hspends]
  · intro hloses
    simp [Entry.spends_of_loses hloses] at hspends
  · rintro - ⟨hgives, -⟩
    simp [hgives.spends] at hspends

theorem Admits.of_isIncidental {e : Entry} (he : e.isIncidental c = true) :
    Admits c f call? cells log e := by
  obtain ⟨hstart, hcloses, hspends, -, hstarted, hrefused⟩ := Entry.isIncidental_iff.mp he
  exact .of_idle hcloses hstarted hstart hspends fun hsame => absurd hsame hrefused

/-- An admitted entry keeps what holds, if it fits the phase that comes with it. -/
theorem Facts.entry
    (h : Facts c f call? cells log) {e : Entry} (he : Admits c f call? cells log e) {φ : Phase}
    (hidle : φ.isIdle = true → f.phase.isIdle = true)
    (habsent : φ.isAbsent = false → f.phase.isAbsent = false)
    (hstands : Stands c call? cells (log ++ [e]) φ) :
    Facts c { f with phase := φ } call? cells (log ++ [e]) where
  linear := h.linear
  idle := by
    intro hφ
    refine ⟨(h.idle (hidle hφ)).1, ?_⟩
    intro x hx
    rcases List.mem_append.mp hx with hold | hnew
    · exact (h.idle (hidle hφ)).2 x hold
    · rw [List.mem_singleton.mp hnew]
      by_contra hspends
      have := he.spends (by simpa using hspends)
      simp [hidle hφ] at this
  known := h.known
  closed := by
    rw [closed_append_singleton, he.closes]
    simpa using h.closed
  staged := h.staged
  severed := by
    intro hended
    exact (h.severed hended).imp_right fun hcut => hcut.append e
  lost := by
    intro hlost
    rcases (lost_append_singleton c log e).mp hlost with hold | hnew
    · exact h.lost hold
    · exact he.loses hnew
  timely := by
    rw [occurs_append_singleton]
    rintro (hlate | ⟨hstart, hclosed, hcut⟩)
    · exact h.timely hlate
    · exact hcut (he.timely hstart hclosed)
  answered := by
    intro hstrict hgives
    rcases (occurs_append_singleton _ _ _).mp hgives with hold | hnew
    · exact h.answered hstrict hold
    · exact absurd hnew (he.gives hstrict)
  internal := by
    intro hlost o ho
    rcases (occurs_append_singleton _ _ _).mp hlost with hold | ⟨-, hopen⟩
    · exact h.internal hold o ho
    · exact absurd (h.closed.mpr (by simp [ho])) hopen
  captured := by
    rw [occurs_append_singleton]
    rintro (hold | ⟨hcloses, -⟩)
    · exact h.captured hold
    · simp [he.closes] at hcloses
  opened := fun hφ => (h.opened (habsent hφ)).append he.started
  refused := by
    intro hmem
    rcases List.mem_append.mp hmem with hold | hnew
    · obtain ⟨t, ht, hresolved⟩ := h.refused hold
      exact ⟨t, ht, List.mem_append_left _ hresolved⟩
    · obtain ⟨t, ht, hresolved⟩ := he.refused (List.mem_singleton.mp hnew).symm
      exact ⟨t, ht, List.mem_append_left _ hresolved⟩
  free := h.free
  aimed := h.aimed
  stands := hstands

theorem Facts.logged
    (h : Facts c f call? cells log) {e : Entry} (he : e.isIncidental c = true)
    (habsent : f.phase.isAbsent = true → e.concerns c = false) :
    Facts c f call? cells (log ++ [e]) := by
  have hend := (Entry.isIncidental_iff.mp he).2.2.2.1
  exact h.entry (.of_isIncidental he) id id (h.stands.append hend habsent)

/-! ## Changes of tasks and of the call -/

/-- The cells may change as long as no right to go on is added and handlers resolve free tasks
only. -/
theorem Facts.recell
    (h : Facts c f call? cells log) {cells' : List (Cell Completion)} {n : Nat} {φ : Phase}
    (hload : carried c cells' call? + n ≤ carried c cells call? + f.moving)
    (hlength : cells.length ≤ cells'.length)
    (haimed : ∀ cell ∈ cells', ∀ h, cell.handler? = some h → ∀ t, h.target? = some t →
      IsFree call? cells' t)
    (hidle : φ.isIdle = true → f.phase.isIdle = true)
    (habsent : φ.isAbsent = false → f.phase.isAbsent = false)
    (hstands : Stands c call? cells' log φ) :
    Facts c { f with moving := n, phase := φ } call? cells' log where
  linear := Nat.le_trans hload h.linear
  idle := by
    intro hφ
    have hnone := h.idle (hidle hφ)
    refine ⟨?_, hnone.2⟩
    dsimp only
    omega
  known := h.known
  closed := h.closed
  staged := h.staged
  severed := by
    intro hended
    refine (h.severed hended).imp_left ?_
    intro hnone
    dsimp only
    omega
  lost := by
    intro hlost
    have := h.lost hlost
    dsimp only
    omega
  timely := h.timely
  answered := h.answered
  internal := h.internal
  captured := h.captured
  opened := fun hφ => h.opened (habsent hφ)
  refused := h.refused
  free := fun t ht => ⟨Nat.lt_of_lt_of_le (h.free t ht).1 hlength, (h.free t ht).2⟩
  aimed := haimed
  stands := hstands

/-- The visible state of a call may change as long as its stage stays one that is not the last, and
the right to go on may change hands. -/
theorem Facts.recall
    {call call' : Call} (h : Facts c f (some call) cells log) {n : Nat}
    (hload : call'.load + n ≤ call.load + f.moving)
    (hending : call'.ending = call.ending) (hanswer : call'.answer = call.answer)
    (hstage : call'.view.stage = call.view.stage ∨
      (call.view.stage.isTerminal = false ∧ call'.view.stage.isTerminal = false)) :
    Facts c { f with moving := n } (some call') cells log := by
  have hend : endOf (some call') = endOf (some call) := by simp [endOf, hending]
  have hans : answerOf (some call') = answerOf (some call) := by simp [answerOf, hanswer]
  have hcarried : carried c cells (some call') + n ≤ carried c cells (some call) + f.moving := by
    simp only [carried, Option.elim_some]
    omega
  have hfree : ∀ t, IsFree (some call) cells t → IsFree (some call') cells t :=
    fun t ht => ⟨ht.1, hans ▸ ht.2⟩
  refine
    { linear := Nat.le_trans hcarried h.linear
      idle := ?_
      known := hend ▸ h.known
      closed := hend ▸ h.closed
      staged := ?_
      severed := ?_
      lost := ?_
      timely := h.timely
      answered := hend ▸ h.answered
      internal := hend ▸ h.internal
      captured := h.captured
      opened := h.opened
      refused := hans ▸ h.refused
      free := fun t ht => hfree t (h.free t ht)
      aimed := fun cell hcell k hk t ht => hfree t (h.aimed cell hcell k hk t ht)
      stands := h.stands.recall hending hanswer }
  · intro hidle
    have hnone := h.idle hidle
    refine ⟨?_, hnone.2⟩
    dsimp only
    omega
  · intro x hx
    obtain rfl : call' = x := Option.some.inj hx
    have hold := h.staged call rfl
    rw [hending]
    rcases hstage with hsame | ⟨hbefore, hafter⟩
    · rw [hsame]
      exact hold
    · refine ⟨fun _ => hafter, ?_⟩
      intro o ho
      have hlast := hold.2 o ho
      rw [hlast] at hbefore
      cases o <;> simp [Stage.ofOutcome, Stage.isTerminal] at hbefore
  · rw [hend]
    intro hended
    refine (h.severed hended).imp_left ?_
    intro hnone
    dsimp only
    omega
  · intro hlost
    have := h.lost hlost
    dsimp only
    omega

/-- What must hold for a running call to end with an outcome. -/
structure MayClose (c : CallId) (f : Frame) (call? : Option Call)
    (cells : List (Cell Completion)) (log : List Entry) (o : Outcome) : Prop where
  severed : carried c cells call? + f.moving = 0 ∨ (JustCut c log ∧ .ofOutcome o = Stage.failed)
  captured : Lost c log → JustCaptured log ∧ ∃ m, o = .error (.internal m)

/-- A running call ends: it enters its last stage, and its cell gets the outcome. -/
theorem Facts.close
    {call : Call} (h : Facts c f (some call) cells log) (call' : Call) {o : Outcome} {φ : Phase}
    (hrunning : call.ending.outcome? = none)
    (hclose : MayClose c f (some call) cells log o)
    (hload : call'.load = call.load) (hanswer : call'.answer = call.answer)
    (hstage : call'.view.stage = .ofOutcome o) (hending : call'.ending.outcome? = some o)
    {r : CallRef} (hposition : r.position = c) (source : Stage)
    (hidle : φ.isIdle = false) {strict : Bool}
    (hstrict : strict = true → f.strict = true ∨ ∃ m, o = .error (.internal m))
    (hstands : Stands c (some call') cells
      (log ++ [.trace (.entered r source (.ofOutcome o))]) φ) :
    Facts c { f with phase := φ, ended := true, strict } (some call') cells
      (log ++ [.trace (.entered r source (.ofOutcome o))]) := by
  have hterminal : (Stage.ofOutcome o).isTerminal = true := by
    cases o <;> rfl
  have hcloses : (Entry.trace (.entered r source (.ofOutcome o))).closes c = true := by
    simp [Entry.closes, hposition, hterminal]
  have hend : endOf (some call') = some o := by simp [endOf, hending]
  have hnotEnded : endOf (some call) = none := by simp [endOf, hrunning]
  have hans : answerOf (some call') = answerOf (some call) := by simp [answerOf, hanswer]
  have hcarried : carried c cells (some call') = carried c cells (some call) := by
    simp [carried, hload]
  have hfree : ∀ t, IsFree (some call) cells t → IsFree (some call') cells t :=
    fun t ht => ⟨ht.1, hans ▸ ht.2⟩
  have hopen : ¬ Closed c log := by
    rw [h.closed, hnotEnded]
    simp
  refine
    { linear := hcarried ▸ h.linear
      idle := ?_
      known := ?_
      closed := ?_
      staged := ?_
      severed := ?_
      lost := ?_
      timely := ?_
      answered := ?_
      internal := ?_
      captured := ?_
      opened := ?_
      refused := ?_
      free := fun t ht => hfree t (h.free t ht)
      aimed := fun cell hcell k hk t ht => hfree t (h.aimed cell hcell k hk t ht)
      stands := hstands }
  · intro hφ
    simp [hidle] at hφ
  · simp [hend]
  · simp [hend, hcloses]
  · intro x hx
    obtain rfl : call' = x := Option.some.inj hx
    rw [hending]
    refine ⟨by simp, ?_⟩
    intro o' ho'
    rw [hstage, Option.some.inj ho']
  · intro _
    rcases hclose.severed with hnone | ⟨hcut, hfailed⟩
    · exact .inl (by simpa [hcarried] using hnone)
    · refine .inr ((occurs_append_singleton _ _ _).mpr (.inr ⟨⟨r, source, ?_, hposition⟩, hcut⟩))
      rw [hfailed]
  · intro hlost
    rcases (lost_append_singleton _ _ _).mp hlost with hold | hnew
    · have := h.lost hold
      dsimp only
      omega
    · simp [Entry.loses] at hnew
  · rw [occurs_append_singleton]
    rintro (hlate | ⟨hlate, -⟩)
    · exact h.timely hlate
    · simp [Entry.startsStage] at hlate
  · intro hkept hgives
    rcases (occurs_append_singleton _ _ _).mp hgives with hold | ⟨hnew, -⟩
    · rcases hstrict hkept with hbefore | ⟨m, hm⟩
      · obtain ⟨m, hm⟩ := h.answered hbefore hold
        simp [hnotEnded] at hm
      · exact ⟨m, by rw [hend, hm]⟩
    · have hspends := hnew.spends
      simp [Entry.spends] at hspends
  · intro hlost o' ho'
    obtain rfl : o = o' := Option.some.inj (hend.symm.trans ho')
    rcases (occurs_append_singleton _ _ _).mp hlost with hold | ⟨hnew, -⟩
    · exact (hclose.captured (lost_of_occurs hold)).2
    · simp [Entry.loses] at hnew
  · rw [occurs_append_singleton]
    rintro (hold | ⟨-, hlost, hcaptured⟩)
    · exact h.captured hold
    · exact hcaptured (hclose.captured hlost).1
  · intro _
    refine IsOpened.append (h.opened ?_) (by simp)
    cases hphase : f.phase with
    | absent =>
        have hstands' := h.stands
        rw [hphase] at hstands'
        exact absurd hstands'.1 (by simp)
    | _ => rfl
  · rw [hans]
    intro hmem
    rcases List.mem_append.mp hmem with hold | hnew
    · obtain ⟨t, ht, hresolved⟩ := h.refused hold
      exact ⟨t, ht, List.mem_append_left _ hresolved⟩
    · simp at hnew

/-- A call comes into being, and its listener is about to be told. -/
theorem Facts.open
    (h : Facts c f none cells log) (hphase : f.phase = .absent) (haims : f.aims = [])
    (view : CallView) (hstage : view.stage.isTerminal = false) :
    Facts c { f with phase := .preparing } (some { view }) cells
      (log ++ [.mark (.started c)]) := by
  have hstands := h.stands
  rw [hphase] at hstands
  obtain ⟨-, hnone⟩ := hstands
  obtain ⟨hempty, hspends⟩ := h.idle (by rw [hphase]; rfl)
  have hcarried : carried c cells (some { view }) = carried c cells none := by
    simp [carried, Call.load]
  have hclosed : ¬ Closed c log := by
    rw [h.closed]
    simp [endOf]
  have htold : told c log = [] := by
    rw [told, List.filterMap_eq_nil_iff]
    intro e he
    have hother := hnone e he
    cases e with
    | mark m => cases m <;> simp_all [Entry.concerns, Entry.end?]
    | _ => rfl
  refine
    { linear := hcarried ▸ h.linear
      idle := ?_
      known := ?_
      closed := ?_
      staged := ?_
      severed := ?_
      lost := ?_
      timely := ?_
      answered := ?_
      internal := ?_
      captured := ?_
      opened := ?_
      refused := ?_
      free := ?_
      aimed := ?_
      stands := ?_ }
  · intro _
    refine ⟨hcarried ▸ hempty, ?_⟩
    intro e he
    rcases List.mem_append.mp he with hold | hnew
    · exact hspends e hold
    · rw [List.mem_singleton.mp hnew]
      rfl
  · intro hended
    exact absurd rfl (h.known hended)
  · simpa [endOf, Cell.fresh, Cell.outcome?, Entry.closes] using hclosed
  · intro x hx
    obtain rfl : _ = x := Option.some.inj hx
    exact ⟨fun _ => hstage, by simp [Cell.fresh, Cell.outcome?]⟩
  · intro hended
    simp [endOf, Cell.fresh, Cell.outcome?] at hended
  · intro _
    exact hcarried ▸ hempty
  · rw [occurs_append_singleton]
    rintro (hlate | ⟨hlate, -⟩)
    · exact h.timely hlate
    · simp [Entry.startsStage] at hlate
  · intro hstrict hgives
    rcases (occurs_append_singleton _ _ _).mp hgives with hold | ⟨hnew, -⟩
    · obtain ⟨m, hm⟩ := h.answered hstrict hold
      simp [endOf] at hm
    · have hspends' := hnew.spends
      simp [Entry.spends] at hspends'
  · intro _ o ho
    simp [endOf, Cell.fresh, Cell.outcome?] at ho
  · rw [occurs_append_singleton]
    rintro (hold | ⟨hcloses, -⟩)
    · exact h.captured hold
    · simp [Entry.closes] at hcloses
  · intro _
    exact ⟨log, [], rfl, hnone, by simp⟩
  · intro hmem
    have hold : .mark (.refused c) ∈ log := by simpa using hmem
    have hother := hnone _ hold
    simp [Entry.concerns] at hother
  · simp [haims]
  · intro cell hcell k hk t ht
    exact ⟨(h.aimed cell hcell k hk t ht).1, by simp [answerOf]⟩
  · exact ⟨_, rfl, rfl, rfl, by simp [htold, Entry.end?]⟩

theorem Facts.launch
    (h : Facts c f call? cells log) (hphase : f.phase = .preparing) :
    Facts c { f with phase := .launching, moving := 1 } call? cells log := by
  obtain ⟨hempty, hspends⟩ := h.idle (by rw [hphase]; rfl)
  have hstands := h.stands
  rw [hphase] at hstands
  obtain ⟨call, rfl, hanswer, hending, htold⟩ := hstands
  have hnotEnded : endOf (some call) = none := by simp [endOf, hending, Cell.fresh, Cell.outcome?]
  refine { h with
    linear := ?_, idle := ?_, severed := ?_, lost := ?_, opened := ?_
    stands := ⟨call, rfl, hanswer, .inl hending, htold⟩ }
  · dsimp only
    omega
  · simp [Phase.isIdle]
  · rw [hnotEnded]
    simp
  · rintro ⟨e, he, hloses⟩
    have hspends' := Entry.spends_of_loses hloses
    rw [hspends e he] at hspends'
    simp at hspends'
  · intro _
    exact h.opened (by rw [hphase]; rfl)

/-- The caller of a call is given a task that nothing else resolves. -/
theorem Facts.await
    {call : Call} (h : Facts c f (some call) cells log) (call' : Call) (haims : f.aims = [])
    (hpresent : f.phase.isAbsent = false) (hnew : call.answer = none) {t : TaskId}
    (hunaimed : ∀ cell ∈ cells, ∀ h, cell.handler? = some h → h.target? ≠ some t)
    (hload : call'.load = call.load) (hview : call'.view = call.view)
    (hending : call'.ending.outcome? = call.ending.outcome?) (hanswer : call'.answer = some t)
    {φ : Phase} (hidle : φ.isIdle = false) (hstands : Stands c (some call') cells log φ) :
    Facts c { f with phase := φ } (some call') cells log := by
  have hend : endOf (some call') = endOf (some call) := by simp [endOf, hending]
  have hcarried : carried c cells (some call') = carried c cells (some call) := by
    simp [carried, hload]
  refine
    { linear := hcarried ▸ h.linear
      idle := ?_
      known := hend ▸ h.known
      closed := hend ▸ h.closed
      staged := ?_
      severed := hend ▸ hcarried ▸ h.severed
      lost := hcarried ▸ h.lost
      timely := h.timely
      answered := hend ▸ h.answered
      internal := hend ▸ h.internal
      captured := h.captured
      opened := fun _ => h.opened hpresent
      refused := ?_
      free := ?_
      aimed := ?_
      stands := hstands }
  · intro hφ
    simp [hidle] at hφ
  · intro x hx
    obtain rfl : call' = x := Option.some.inj hx
    rw [hending, hview]
    exact h.staged call rfl
  · intro hmem
    obtain ⟨u, hu, -⟩ := h.refused hmem
    simp [answerOf, hnew] at hu
  · simp [haims]
  · intro cell hcell k hk u hu
    refine ⟨(h.aimed cell hcell k hk u hu).1, ?_⟩
    simp only [answerOf, Option.bind_some, hanswer]
    rintro hsame
    exact hunaimed cell hcell k hk (hu.trans hsame.symm)

end Effects

end RouteDispatch
