import RouteDispatch.Session.Pipeline
import RouteDispatch.Proofs.Session.Coding

/-!
# Passing the stages

Each stage of a call uses up one right to let the call go on, gives it to foreign code under a
guard, and ends the call when a panic leaves the code.  By induction on the depth to which jobs are
nested, every job keeps the invariant.
-/

namespace RouteDispatch

variable {c : CallId} {f : Frame} {w : World}

/-! ## When a call may end -/

/-- A right that is on its way may be used up by ending the call. -/
theorem Ending.of_plus (h : Inv c (f.plus 1) w) (o : Outcome) : Ending c f o w := by
  have hlinear := h.facts.linear
  have hlost := h.facts.lost
  simp only [Frame.plus] at hlinear hlost
  refine ⟨h.unplus.loosen, h.isIdle_of_moving (Nat.succ_pos _), fun _ => h.unplus, ?_,
    fun _ => .inl h.unplus⟩
  refine fun _ => ⟨.inl (by omega), fun hgone => ?_⟩
  have := hlost hgone
  omega

theorem Ending.of_ended (h : Inv c (f.knowing true) w) (hactive : f.phase.isIdle = false)
    (o : Outcome) : Ending c f o w := by
  have hended : endOf w.calls[c]? ≠ none := h.facts.known rfl
  exact ⟨h.unknowing.loosen, hactive, fun _ => h.unknowing, fun hnone => absurd hnone hended,
    fun hnone => absurd hnone hended⟩

theorem MayEnd.of_plus {d : CallId} (h : Inv c (f.plus (if d = c then 1 else 0)) w) (o : Outcome) :
    MayEnd c f d o w := by
  refine ⟨fun hown => ?_, fun _ => h.unplus⟩
  rw [if_pos hown] at h
  exact .of_plus h o

/-! ## Panics that leave foreign code -/

/-- The panic that leaves foreign code has just been marked. -/
def JustEscaped (d : CallId) (piece : Piece) (s : Stop) (w : World) : Prop :=
  ∀ p, s = .panic p → ∃ front, w.log = front ++ [.mark (.escaped d piece p)]

theorem Kept.logged
    {drives : Bool} {s : Stop} (h : Kept c f drives s w) {e : Entry}
    (he : e.isIncidental c = true) (hpresent : e.concerns c = true → f.phase.isAbsent = false) :
    Kept c f drives s { w with log := w.log ++ [e] } := by
  have hconcerns : f.phase.isAbsent = true → e.concerns c = false := by
    intro habsent
    by_contra hconcerns
    have := hpresent (by simpa using hconcerns)
    simp [habsent] at this
  obtain ⟨g, hphase, hg⟩ := h.sound
  have habsent : g.phase.isAbsent = f.phase.isAbsent := by
    rw [Phase.isAbsent_eq_isNone, Phase.isAbsent_eq_isNone, hphase]
  refine ⟨⟨g, hphase, hg.logged he fun hnone => hconcerns (habsent ▸ hnone)⟩, fun hsoft => ?_⟩
  obtain ⟨hinv, hdrives⟩ := h.soft hsoft
  exact ⟨hinv.logged he hconcerns, hdrives⟩

/-- What is left of the invariant when a stop leaves code that held a continuation: the loss of the
continuation may be still unanswered, but then the call may be ended by the panic. -/
structure Unwound (c : CallId) (f : Frame) (k : Continuation) (piece : Piece) (s : Stop)
    (w : World) : Prop where
  sound : ∃ g : Frame, g.phase.standing = f.phase.standing ∧ Inv c g w
  other : s.isHard = false → k.pipeline.call ≠ c → Inv c f w
  loose : s.isHard = false → k.pipeline.call = c → Inv c f.loose w
  late : s.isHard = false → k.pipeline.call = c → endOf w.calls[c]? ≠ none → Inv c f w
  spent : s.isHard = false → k.pipeline.call = c → endOf w.calls[c]? = none →
    carried c w.cells w.calls[c]? + f.moving = 0 ∨ JustEscaped c piece s w
  deferred : s.isHard = false → piece = .deferred k.point → Inv c f w

theorem Kept.unwound
    {k : Continuation} {s : Stop} (h : Kept c f (k.pipeline.call == c) s w) (piece : Piece) :
    Unwound c f k piece s w := by
  refine ⟨h.sound, fun hsoft _ => h.inv hsoft, fun hsoft _ => (h.inv hsoft).loosen,
    fun hsoft _ _ => h.inv hsoft, fun hsoft hown hnone => ?_, fun hsoft _ => h.inv hsoft⟩
  have hknown := (h.soft hsoft).1.facts.known (by simp [Frame.knowing, hown])
  exact absurd hnone hknown

/-- A plugin's stage that captures a panic may end the call. -/
theorem Unwound.mayEnd
    {k : Continuation} {point : Point} {p : Panic}
    (h : Unwound c f k (.plugin point) (.panic p) w) (hsoft : Stop.isHard (.panic p) = false)
    (hactive : k.pipeline.call = c → f.phase.isIdle = false) :
    MayEnd c f k.pipeline.call (.error p.failure)
      { w with log := w.log ++ [.trace (.panicCaptured p.message)] } := by
  refine ⟨fun hown => ?_, fun hown => (h.other hsoft hown).logged rfl fun _ => rfl⟩
  refine ⟨(h.loose hsoft hown).logged rfl fun _ => rfl, hactive hown,
    fun hended => (h.late hsoft hown hended).logged rfl fun _ => rfl, fun hnone => ⟨?_, ?_⟩,
    fun _ => .inr ⟨_, rfl⟩⟩
  -- No right is left, unless the plugin had handed it on: then the panic cuts the call off.
  · refine (h.spent hsoft hown hnone).imp_right fun hescaped => ⟨?_, rfl⟩
    obtain ⟨front, hlog⟩ := hescaped p rfl
    exact ⟨front, point, p, by simp [hlog]⟩
  · exact fun _ => ⟨⟨p.message, by simp⟩, _, rfl⟩

theorem Inv.isIdle_of_right {d : CallId} (h : Inv c (f.plus (if d = c then 1 else 0)) w)
    (hown : d = c) : f.phase.isIdle = false := by
  rw [if_pos hown] at h
  exact h.isIdle_of_moving (Nat.succ_pos _)

theorem Entry.of_startsStage {e : Entry} (h : e.startsStage c = true) :
    e.closes c = false ∧ e.spends c = false ∧ e.end? c = none ∧ ∀ m, e ≠ .mark m := by
  cases e with
  | trace t => cases t <;> simp_all [startsStage, closes, spends, end?]
  | _ => simp [startsStage] at h

/-- A stage may be started by a right that is on its way. -/
theorem Inv.startsStage
    {e : Entry} {d : CallId} (h : Inv c (f.plus (if d = c then 1 else 0)) w)
    (hstart : e.startsStage d = true) (hconcerns : ∀ b, e.concerns b = (d == b)) :
    Inv c (f.plus (if d = c then 1 else 0)) { w with log := w.log ++ [e] } := by
  by_cases hown : d = c
  · subst hown
    rw [if_pos rfl] at h ⊢
    have hpresent : f.phase.isAbsent = false :=
      Inv.isAbsent_of_isIdle (h.isIdle_of_moving (Nat.succ_pos _))
    have habsent : f.phase.isAbsent = true → e.concerns d = false := by
      intro habsent
      simp [hpresent] at habsent
    obtain ⟨hcloses, hspends, hend, hmark⟩ := Entry.of_startsStage hstart
    refine ⟨h.facts.entry ⟨hcloses, hmark _, fun _ hclosed => ?_, ?_, ?_, ?_, fun hsame =>
      absurd hsame (hmark _)⟩ id id (h.facts.stands.append hend habsent), h.apart⟩
    -- The right on its way shows that a call which has ended was cut off.
    · refine (h.facts.severed (h.facts.closed.mp hclosed)).resolve_left ?_
      simp [Frame.plus]
    · simp [hspends]
    · intro hloses
      simp [Entry.spends_of_loses hloses] at hspends
    · rintro - ⟨hgives, -⟩
      simp [hgives.spends] at hspends
  · refine h.loggedOther ?_
    rw [hconcerns]
    simpa using hown

/-- A call that has ended, or is another one, may be ended once more. -/
theorem Kept.mayEnd
    {d : CallId} {s : Stop} (h : Kept c f (d == c) s w) (hsoft : s.isHard = false) {e : CallError}
    {entry : Entry} (hentry : entry.isIncidental c = true)
    (hconcerns : entry.concerns c = false) :
    MayEnd c f d (.error e) { w with log := w.log ++ [entry] } := by
  refine ⟨fun hown => ?_, fun _ => (h.inv hsoft).logged hentry fun _ => hconcerns⟩
  obtain ⟨hinv, hphase⟩ := h.soft hsoft
  have hdrives : (d == c) = true := by simpa using hown
  rw [hdrives] at hinv hphase
  exact .of_ended (hinv.logged hentry fun _ => hconcerns) (Phase.isIdle_of_isSettled (hphase rfl)) _

namespace Act

section Pieces

variable {α : Type}

theorem calling_keeps
    {drives : Bool} {pre : World → Prop} {a : Act α} {post : α → World → Prop}
    (h : Triple pre a post (Kept c f drives)) (d : CallId) (piece : Piece)
    (hpresent : d = c → f.phase.isAbsent = false) :
    Triple pre (calling d piece a) post
      fun s w => Kept c f drives s w ∧ JustEscaped d piece s w := by
  refine (h.calling d piece).stops ?_
  intro s w hs
  cases s with
  | tooDeep => exact ⟨hs, fun p hp => by simp at hp⟩
  | panic p =>
      obtain ⟨w₀, hkept, rfl⟩ := hs
      refine ⟨hkept.logged rfl fun hconcerns => hpresent ?_, fun p' hp' => ⟨w₀.log, ?_⟩⟩
      · simpa [Entry.concerns] using hconcerns
      · rw [(Stop.panic.inj hp').symm]

theorem calling_kept
    {drives : Bool} {pre : World → Prop} {a : Act α} {post : α → World → Prop}
    (h : Triple pre a post (Kept c f drives)) (d : CallId) (piece : Piece)
    (hpresent : d = c → f.phase.isAbsent = false) :
    Triple pre (calling d piece a) post (Kept c f drives) :=
  (calling_keeps h d piece hpresent).stops fun _ _ => And.left

theorem guarded_keeps
    {pre : World → Prop} {a : Act α} (h : Triple pre a (fun _ => Inv c f) (Kept c f false)) :
    Triple pre (guarded a) (fun _ => Inv c f)
      fun s w => s.isHard = true ∧ Kept c f false s w := by
  refine h.guarded.weaken (fun _ => id) ?_ fun _ _ => id
  intro result w hw
  cases result with
  | ok v => exact hw
  | error e =>
      obtain ⟨p, w₀, hsoft, hkept, rfl, -⟩ := hw
      exact (hkept.inv hsoft).logged rfl fun _ => rfl

theorem spend_lost
    {k : Continuation} (h : Inv c f w) (hheld : k.IsHeld w) :
    ∃ w', (spend k .lost).exec w = (.ok (), w') ∧ Inv c f.loose w' ∧
      w'.log = w.log ++ [.mark (.spent k.pipeline.call k.point .lost)] ∧
      (k.pipeline.call = c → carried c w'.cells w'.calls[c]? + f.moving = 0) ∧
      endOf w'.calls[c]? = endOf w.calls[c]? ∧
      ((k.pipeline.call = c →
          ¬ GivesUpOpen c w.log (.mark (.spent k.pipeline.call k.point .lost))) →
        Inv c f w') := by
  have hmoved := h.unplace hheld none (by simp)
  have hzero : k.pipeline.call = c → carried c w.cells
      (w.calls.modify k.pipeline.call fun call => { call with held := none })[c]? +
        f.moving = 0 := by
    intro hown
    have hlinear := hmoved.facts.linear
    simp only [Frame.plus, Continuation.load, if_pos hown] at hlinear
    omega
  have hidle : k.pipeline.call = c → f.phase.isIdle = false := by
    intro hown
    exact hmoved.isIdle_of_moving (by simp [Frame.plus, Continuation.load, hown])
  refine ⟨_, rfl, ?_, rfl, hzero, ?_, ?_⟩
  · exact hmoved.unplus.loosen.spent _ _ _ hidle (fun hown _ => hzero hown)
      fun _ hstrict => by simp [Frame.loose] at hstrict
  · dsimp only
    by_cases hown : k.pipeline.call = c
    · rw [hown, List.getElem?_modify_eq]
      cases hcall : w.calls[c]? with
      | none => rfl
      | some call => rfl
    · rw [List.getElem?_modify_ne _ _ hown]
  · intro hgives
    exact hmoved.unplus.spent _ _ _ hidle (fun hown _ => hzero hown) fun hown _ => hgives hown

theorem spend_lost_unwinds
    {k : Continuation} {piece : Piece} {s : Stop}
    (hkept : Kept c f false s w) (hescaped : JustEscaped k.pipeline.call piece s w)
    (hheld : k.IsHeld w) (stopped : Stop → World → Prop) :
    Triple (· = w) (spend k .lost) (fun _ => Unwound c f k piece s) stopped := by
  obtain ⟨g, hphase, hg⟩ := hkept.sound
  obtain ⟨w', hexec, hsound, hlog, -⟩ := spend_lost hg hheld
  have hsoft : s.isHard = false → Inv c f.loose w' ∧
      (k.pipeline.call = c → carried c w'.cells w'.calls[c]? + f.moving = 0) ∧
      endOf w'.calls[c]? = endOf w.calls[c]? ∧
      ((k.pipeline.call = c →
          ¬ GivesUpOpen c w.log (.mark (.spent k.pipeline.call k.point .lost))) →
        Inv c f w') := by
    intro hsoft
    obtain ⟨v, hexec', hloose, -, hrest⟩ := spend_lost (hkept.inv hsoft) hheld
    rw [hexec] at hexec'
    obtain rfl : w' = v := (Prod.mk.inj hexec').2
    exact ⟨hloose, hrest⟩
  have hclosed : s.isHard = false → endOf w.calls[c]? ≠ none → Closed c w.log :=
    fun hs => (hkept.inv hs).facts.closed.mpr
  rintro _ rfl
  rw [hexec]
  refine ⟨⟨g.loose, hphase, hsound⟩, fun hs hown => ?_, fun hs _ => (hsoft hs).1,
    fun hs _ hended => ?_, fun hs hown _ => .inl ((hsoft hs).2.1 hown), fun hs hpiece => ?_⟩
  · exact (hsoft hs).2.2.2 fun h => absurd h hown
  · obtain ⟨-, -, hend, hgives⟩ := hsoft hs
    exact hgives fun _ ⟨_, hopen⟩ => hopen (hclosed hs (hend ▸ hended))
  · refine (hsoft hs).2.2.2 ?_
    rintro hown ⟨⟨point, fate, hentry, hfate⟩, -⟩
    simp only [Entry.mark.injEq, Mark.spent.injEq] at hentry
    obtain ⟨-, rfl, rfl⟩ := hentry
    rcases hfate with hdropped | ⟨-, hother⟩
    · simp at hdropped
    · cases s with
      | tooDeep => simp [Stop.isHard] at hs
      | panic p =>
          obtain ⟨front, hfront⟩ := hescaped p rfl
          exact hother ⟨p, by rw [hfront, hpiece, hown, List.getLast?_concat]⟩

/-- A panic takes the continuation with it that the code still held. -/
theorem forfeit_unwinds
    (k : Continuation) (piece : Piece) (s : Stop) (post : α → World → Prop) :
    Triple (fun w => Kept c f false s w ∧ JustEscaped k.pipeline.call piece s w)
      (do
        forfeit (some k)
        throw s)
      post (Unwound c f k piece) := by
  refine Triple.bind (m := fun _ => Unwound c f k piece s) ?_ fun _ => Triple.throw fun _ => id
  unfold forfeit
  refine withHeld_triple (fun k' hk => ?_) (Triple.pure ?_)
  · obtain rfl := Option.some.inj hk
    refine Triple.of_world ?_
    rintro w ⟨⟨hkept, hescaped⟩, hheld⟩
    exact spend_lost_unwinds hkept hescaped hheld _
  · rintro w ⟨hkept, hescaped⟩
    refine ⟨hkept.sound, fun hs _ => hkept.inv hs, fun hs _ => (hkept.inv hs).loosen,
      fun hs _ _ => hkept.inv hs, fun _ hown _ => .inr (hown ▸ hescaped), fun hs _ => hkept.inv hs⟩

end Pieces

/-! ## Stages -/

section Jobs

variable {perform : Performer} (hp : Good c perform)

include hp

theorem runHolding_unwinds
    (f : Frame) (k : Continuation) (piece : Piece) (code : Code .nothing)
    (hpresent : k.pipeline.call = c → f.phase.isAbsent = false) :
    Triple (Inv c f) (runHolding perform k piece code) (fun _ => Inv c f)
      (Unwound c f k piece) := by
  unfold runHolding
  refine Triple.bind (m := fun _ => Inv c f) ?_ fun _ => ?_
  · exact Triple.tryCatch (calling_keeps (run_keeps hp f (some k) code) _ _ hpresent)
      fun s => forfeit_unwinds k piece s _
  · exact (release_drives hp f k).stops fun _ _ hkept => hkept.unwound piece

/-- A plugin's turn uses up a right to let the call go on. -/
theorem runPlugin_keeps
    (f : Frame) (p : Pipeline) (point : Point) (plugin : String)
    (code : CallView → Code .nothing) :
    Triple (Inv c (f.plus (if p.call = c then 1 else 0))) (runPlugin perform p point plugin code)
      (fun _ => Inv c f) (Kept c f (p.call == c)) := by
  refine Triple.of_world fun w₀ hw₀ => ?_
  have hactive : p.call = c → f.phase.isIdle = false := hw₀.isIdle_of_right
  have hpresent : p.call = c → f.phase.isAbsent = false :=
    fun hown => Inv.isAbsent_of_isIdle (hactive hown)
  refine Triple.apply (Triple.bind (enter_keeps (f.plus _) p.call point.stage
    (fun hown => ⟨by cases point <;> rfl, hpresent hown⟩) _) fun _ => ?_) hw₀
  refine Triple.get fun w hw => Triple.write ?_
  have hstarted := hw.startsStage (e := .trace (.pluginStarted (w.callRef p.call) point p.route.name
    plugin)) (by simp [Entry.startsStage, World.callRef]) fun _ => rfl
  cases hcall : w.calls[p.call]? with
  | none => exact Triple.done hstarted.unplus
  | some call =>
      dsimp only
      refine Triple.editCall ?_
      have hplaced := hstarted.placeCode (k := ⟨p, point⟩)
      refine Triple.bind (Triple.apply ((runHolding_unwinds hp f ⟨p, point⟩ (.plugin point)
        (code call.view) hpresent).guarded.stops ?_) hplaced) ?_
      · rintro s w' ⟨hhard, hunwound⟩
        exact .of_hard hunwound.sound hhard
      · intro result
        cases result with
        | ok v => exact Triple.pure fun _ => id
        | error e =>
            refine Triple.of_world ?_
            rintro _ ⟨pn, w₁, hsoft, hunwound, rfl, rfl⟩
            exact (fail_keeps hp f p _).apply (hunwound.mayEnd hsoft hactive)

/-- The handler's turn uses up a right to let the call go on, which waits for the handler's task. -/
theorem runHandler_keeps (f : Frame) (p : Pipeline) (args : Args) :
    Triple (Inv c (f.plus (if p.call = c then 1 else 0))) (runHandler perform p args)
      (fun _ => Inv c f) (Kept c f (p.call == c)) := by
  refine Triple.of_world fun w₀ hw₀ => ?_
  have hpresent : p.call = c → f.phase.isAbsent = false :=
    fun hown => Inv.isAbsent_of_isIdle (hw₀.isIdle_of_right hown)
  unfold runHandler
  refine Triple.apply (Triple.bind (enter_keeps (f.plus _) p.call .handler
    (fun hown => ⟨rfl, hpresent hown⟩) _) fun _ => ?_) hw₀
  refine Triple.get fun w hw => Triple.write ?_
  have hstarted := hw.startsStage (e := .trace (.handlerStarted (w.callRef p.call) p.route.name))
    (by simp [Entry.startsStage, World.callRef]) fun _ => rfl
  have hinvoked := hstarted.logged (e := .mark (.invoked p.call args)) rfl fun habsent =>
    beq_eq_false_iff_ne.mpr fun hown => Bool.false_ne_true ((hpresent hown).symm.trans habsent)
  -- The right is still on its way, or the call has ended, when a stop leaves the guarded part.
  have hturn : Triple (Inv c (f.plus (if p.call = c then 1 else 0)))
      (do
        let t ← calling p.call .handler (run perform none (p.route.handler.invoke args))
        attach perform t (.handled p))
      (fun _ => Inv c f) fun s w =>
        Kept c (f.plus (if p.call = c then 1 else 0)) false s w ∨ Kept c f (p.call == c) s w := by
    refine Triple.bind ((calling_keeps (run_keeps hp (f.plus _) none _) p.call .handler
      hpresent).stops fun _ _ hs => .inl hs.1) fun t => ?_
    refine (attach_keeps hp f t (.handled p) (by simp [Completion.target?])).stops ?_
    rintro s w (hkept | ⟨-, hw⟩)
    · exact .inr hkept
    · exact .inl (hw.kept s)
  refine Triple.write (Triple.bind (Triple.apply (hturn.guarded.stops ?_) hinvoked) ?_)
  · rintro s w' ⟨hhard, hkept | hkept⟩
    · exact .of_hard hkept.sound hhard
    · exact hkept
  · intro result
    cases result with
    | ok v => exact Triple.pure fun _ => id
    | error e =>
        refine Triple.of_world ?_
        rintro _ ⟨pn, w₁, hsoft, hkept | hkept, rfl, rfl⟩
        · have hmoving := (hkept.inv hsoft).logged (e := .trace (.panicCaptured pn.message)) rfl
            fun _ => rfl
          exact (fail_keeps hp f p _).apply (.of_plus hmoving _)
        · exact (fail_keeps hp f p _).apply (hkept.mayEnd hsoft rfl rfl)

theorem callStage_keeps (f : Frame) (p : Pipeline) (index : Nat) (args : Args) :
    Triple (Inv c (f.plus (if p.call = c then 1 else 0))) (callStage perform p index args)
      (fun _ => Inv c f) (Kept c f (p.call == c)) := by
  unfold callStage
  cases p.route.attachments[index]? with
  | none => exact runHandler_keeps hp f p args
  | some a => exact runPlugin_keeps hp f p _ _ _

theorem resultStage_keeps (f : Frame) (p : Pipeline) (index : Nat) (v : Json) :
    Triple (Inv c (f.plus (if p.call = c then 1 else 0))) (resultStage perform p index v)
      (fun _ => Inv c f) (Kept c f (p.call == c)) := by
  unfold resultStage
  cases p.route.attachments[index]? with
  | none =>
      exact (succeed_keeps hp f p v).strengthen fun _ hw => .of_plus hw _
  | some a => exact runPlugin_keeps hp f p _ _ _

theorem goOn_keeps (f : Frame) (k : Continuation) (payload : Payload) :
    Triple (Inv c (f.plus (k.load c))) (Act.goOn perform k payload) (fun _ => Inv c f)
      (Kept c f (k.pipeline.call == c)) := by
  unfold Act.goOn
  split
  · exact callStage_keeps hp f k.pipeline _ _
  · exact resultStage_keeps hp f k.pipeline _ _
  · exact Triple.pure fun _ => Inv.unplus

/-! ## Completion handlers -/

/-- What foreign code computes under a guard goes on to a task that is not the caller's. -/
theorem guardedRun_keeps
    {y : Yield} {β : Type} (f : Frame) (code : Code y) {next : Except CallError y.Value → Act β}
    {post : β → World → Prop}
    (hnext : ∀ result, Triple (Inv c f) (next result) post (Kept c f false)) :
    Triple (Inv c f) (guarded (run perform none code) >>= next) post (Kept c f false) := by
  exact Triple.bind ((guarded_keeps (run_keeps hp f none code)).stops fun _ _ => And.right) hnext

theorem complete_keeps
    (f : Frame) (h : Completion) (o : Outcome) (htarget : ∀ t, h.target? = some t → t ∈ f.aims) :
    Triple (Inv c (f.plus (h.load c))) (Act.complete perform h o) (fun _ => Inv c f)
      (Kept c f (h.drives c)) := by
  cases h with
  | code g => exact run_keeps hp f none (g o)
  | resume k g =>
      refine Triple.of_world fun w hw => Triple.editCall ?_
      have hpresent : k.pipeline.call = c → f.phase.isAbsent = false :=
        fun hown => Inv.isAbsent_of_isIdle (hw.isIdle_of_right hown)
      have hrun := runHolding_unwinds hp f k (.deferred k.point) (g o) hpresent
      refine (hrun.stops ?_).apply hw.placeCode
      intro s w' hunwound
      exact ⟨hunwound.sound, fun hsoft => ((hunwound.deferred hsoft rfl).kept s).soft hsoft⟩
  | transform g into =>
      refine guardedRun_keeps hp f (g o) fun result => ?_
      cases result with
      | ok mapped => exact resolve_keeps hp f (htarget into rfl) mapped
      | error e => exact resolve_keeps hp f (htarget into rfl) (.error e)
  | chain g into =>
      refine guardedRun_keeps hp f (g o) fun result => ?_
      cases result with
      | ok t =>
          refine (attach_keeps hp f t (.relay into) htarget).stops ?_
          rintro s w (hkept | ⟨-, hw⟩)
          · exact hkept
          · exact hw.kept s
      | error e => exact resolve_keeps hp f (htarget into rfl) (.error e)
  | relay into => exact resolve_keeps hp f (htarget into rfl) o
  | handled p =>
      cases o with
      | ok v =>
          refine Triple.of_world fun w hw => Triple.write ?_
          refine (resultStage_keeps hp f p 0 v).apply (hw.logged rfl fun habsent => ?_)
          by_contra hconcerns
          have hown : p.call = c := by simpa [Entry.concerns] using hconcerns
          have hpresent := Inv.isAbsent_of_isIdle (hw.isIdle_of_right hown)
          exact Bool.false_ne_true (hpresent.symm.trans habsent)
      | error e =>
          exact (fail_keeps hp f p e).strengthen fun _ hw => .of_plus hw _

end Jobs

end Act
end RouteDispatch
