import RouteDispatch.Proofs.Session.Facts

/-!
# Changes of a world

The invariant of a call against the single changes that acts make to a world: a cell is replaced, a
task is made, a call is edited, an entry is added to the log.
-/

namespace RouteDispatch

/-! ## Cells -/

namespace Cell

variable {η : Type}

def Settling.handler? : Settling η → Option η
  | .run h => some h
  | _ => none

theorem handler?_of_settle
    {o : Outcome} {cell cell' : Cell η} {follow : Settling η}
    (h : cell.settle o = some (cell', follow)) :
    cell'.handler? = none ∧ cell.handler? = follow.handler? := by
  rcases cell with (_ | _ | _) | _ | _ <;> simp [settle] at h <;> obtain ⟨rfl, rfl⟩ := h <;>
    exact ⟨rfl, rfl⟩

theorem handler?_of_attach
    {k : η} {cell cell' : Cell η} {o : Option Outcome} (h : cell.attach k = some (cell', o)) :
    cell.handler? = none ∧ cell'.handler? = (if o.isNone then some k else none) := by
  rcases cell with (_ | _ | _) | ⟨_, _ | _⟩ | _ <;> simp [attach] at h <;>
    obtain ⟨rfl, rfl⟩ := h <;> exact ⟨rfl, rfl⟩

theorem handler?_of_poll
    {label : String} {cell cell' : Cell η} {o : Option Outcome}
    (h : cell.poll label = .ok (cell', o)) : cell'.handler? = none := by
  rcases cell with (_ | _ | _) | _ | _ <;> simp [poll] at h <;> obtain ⟨rfl, rfl⟩ := h <;> rfl

theorem abandon_fst (cell : Cell η) :
    cell.abandon.1.handler? = none ∧ cell.abandon.1.outcome? = cell.outcome? := by
  rcases cell with (_ | _ | _) | _ | _ <;> simp [abandon, fresh, handler?, outcome?]

theorem abandon_snd (cell : Cell η) : cell.abandon.2 = cell.handler? := by
  rcases cell with (_ | _ | _) | _ | _ <;> simp [abandon, handler?]

end Cell

/-! ## Lists of cells -/

theorem foldr_map_set
    {α : Type} (f : α → Nat) {l : List α} {i : Nat} {a : α} (h : l[i]? = some a) (b : α) :
    ((l.set i b).map f).foldr (· + ·) 0 + f a = (l.map f).foldr (· + ·) 0 + f b := by
  induction l generalizing i with
  | nil => simp at h
  | cons x l ih =>
      cases i with
      | zero =>
          have hx : x = a := by simpa using h
          simp only [hx, List.set_cons_zero, List.map_cons, List.foldr_cons]
          omega
      | succ i =>
          have htail := ih (by simpa using h)
          simp only [List.set_cons_succ, List.map_cons, List.foldr_cons]
          omega

section Cells

variable {c : CallId} {cells : List (Cell Completion)} {call? : Option Call}

theorem carried_set
    {t : TaskId} {cell : Cell Completion} (h : cells[t]? = some cell) (cell' : Cell Completion)
    (call? : Option Call) :
    carried c (cells.set t cell') call? + cellLoad c cell =
      carried c cells call? + cellLoad c cell' := by
  have hsum := foldr_map_set (cellLoad c) h cell'
  unfold carried
  omega

theorem carried_append_fresh :
    carried c (cells ++ [.fresh]) call? = carried c cells call? := by
  simp [carried, cellLoad, Cell.fresh, Cell.handler?]

theorem outcomeOf_set_self
    {t : TaskId} {cell : Cell Completion} (h : cells[t]? = some cell) (cell' : Cell Completion) :
    outcomeOf (cells.set t cell') t = cell'.outcome? := by
  have hlt := (List.getElem?_eq_some_iff.mp h).1
  simp [outcomeOf, hlt]

theorem outcomeOf_set_ne {t u : TaskId} (h : u ≠ t) (cell' : Cell Completion) :
    outcomeOf (cells.set t cell') u = outcomeOf cells u := by
  simp [outcomeOf, List.getElem?_set_ne h.symm]

theorem getElem?_append_singleton_ne {α : Type} {l : List α} {i : Nat} (h : l.length ≠ i) (a : α) :
    (l ++ [a])[i]? = l[i]? := by
  rcases Nat.lt_or_gt_of_ne h with hlt | hgt
  · rw [List.getElem?_eq_none (Nat.le_of_lt hlt)]
    exact List.getElem?_eq_none (by rwa [List.length_append])
  · exact List.getElem?_append_left hgt

theorem outcomeOf_append_fresh (u : TaskId) :
    outcomeOf (cells ++ [.fresh]) u = outcomeOf cells u := by
  unfold outcomeOf
  by_cases hnew : cells.length = u
  · subst hnew
    simp [Cell.fresh, Cell.outcome?]
  · rw [getElem?_append_singleton_ne hnew]

end Cells

def Continuation.IsHeld (k : Continuation) (w : World) : Prop :=
  ∃ call, w.calls[k.pipeline.call]? = some call ∧ call.held = some (k.point, .code)

namespace Inv

variable {c : CallId} {f : Frame} {w : World}

/-! ## Changes that the call does not see -/

theorem logged
    (h : Inv c f w) {e : Entry} (he : e.isIncidental c = true)
    (habsent : f.phase.isAbsent = true → e.concerns c = false) :
    Inv c f { w with log := w.log ++ [e] } :=
  ⟨h.facts.logged he habsent, h.apart⟩

theorem loggedOther (h : Inv c f w) {e : Entry} (he : e.concerns c = false) :
    Inv c f { w with log := w.log ++ [e] } :=
  h.logged (Entry.isIncidental_of_not_concerns he) fun _ => he

theorem frame
    (h : Inv c f w) (g : Frame) (hphase : g.phase = f.phase) (hmoving : g.moving ≤ f.moving)
    (hended : g.ended = true → endOf w.calls[c]? ≠ none)
    (hstrict : g.strict = true → Occurs (GivesUpOpen c) w.log →
      ∃ m, endOf w.calls[c]? = some (.error (.internal m)))
    (haims : ∀ t ∈ g.aims, IsFree w.calls[c]? w.cells t) : Inv c g w :=
  ⟨h.facts.frame g hphase hmoving hended hstrict haims, h.apart⟩

/-- A cell may be replaced as long as no right to go on is added, its handler resolves a free task
only, and it is resolved only if the caller's task is not concerned or foreign code resolves it. -/
theorem setCell
    (h : Inv c f w) {t : TaskId} {cell : Cell Completion} (hcell : w.cells[t]? = some cell)
    (turn : Cell.Turn Completion) (cell' : Cell Completion) (n : Nat)
    (hload : cellLoad c cell' + n ≤ cellLoad c cell + f.moving)
    (htarget : ∀ k u, cell'.handler? = some k → k.target? = some u →
      IsFree w.calls[c]? w.cells u)
    (houtcome : cell'.outcome? = cell.outcome? ∨
      (cell.outcome? = none ∧
        (answerOf w.calls[c]? = some t → .mark (.resolved t) ∈ w.log))) :
    Inv c { f with moving := n } (w.turn t turn cell') := by
  have hlength : w.cells.length ≤ (w.cells.set t cell').length := by simp
  have hset := carried_set (c := c) hcell cell' w.calls[c]?
  have hold : outcomeOf w.cells t = cell.outcome? := by simp [outcomeOf, hcell]
  refine ⟨h.facts.recell (by rw [World.turn_cells]; omega) hlength ?_ id id
    (h.facts.stands.recell hlength ?_), ?_⟩
  · intro x hx k hk u hu
    rcases List.mem_or_eq_of_mem_set hx with hmem | rfl
    · have hfree := h.facts.aimed x hmem k hk u hu
      exact ⟨Nat.lt_of_lt_of_le hfree.1 hlength, hfree.2⟩
    · have hfree := htarget k u hk hu
      exact ⟨Nat.lt_of_lt_of_le hfree.1 hlength, hfree.2⟩
  · intro u hu
    by_cases hut : u = t
    · subst hut
      rw [World.turn_cells, outcomeOf_set_self hcell, hold]
      exact houtcome.imp_right fun hresolved => ⟨hresolved.1, hresolved.2 hu⟩
    · exact .inl (outcomeOf_set_ne hut cell')
  · intro d call hd hcall u hu
    have hfree := h.apart d call hd hcall u hu
    exact ⟨Nat.lt_of_lt_of_le hfree.1 hlength, hfree.2⟩

theorem newTask (h : Inv c f w) :
    Inv c f { w with cells := w.cells ++ [.fresh] } ∧
      IsFree w.calls[c]? (w.cells ++ [.fresh]) w.cells.length := by
  have hlength : w.cells.length ≤ (w.cells ++ [(.fresh : Cell Completion)]).length := by simp
  have hload : carried c (w.cells ++ [.fresh]) w.calls[c]? + f.moving ≤
      carried c w.cells w.calls[c]? + f.moving := by
    rewrite [carried_append_fresh]
    exact Nat.le_refl _
  refine ⟨⟨h.facts.recell hload hlength ?_ id id
    (h.facts.stands.recell hlength fun u _ => .inl (outcomeOf_append_fresh u)), ?_⟩, ?_⟩
  · intro x hx k hk u hu
    rcases List.mem_append.mp hx with hmem | hnew
    · have hfree := h.facts.aimed x hmem k hk u hu
      exact ⟨Nat.lt_of_lt_of_le hfree.1 hlength, hfree.2⟩
    · rw [List.mem_singleton.mp hnew] at hk
      simp [Cell.fresh, Cell.handler?] at hk
  · intro d call hd hcall u hu
    have hfree := h.apart d call hd hcall u hu
    exact ⟨Nat.lt_of_lt_of_le hfree.1 hlength, hfree.2⟩
  · refine ⟨by simp, ?_⟩
    intro hanswer
    exact Nat.lt_irrefl _ (h.facts.stands.lt_length hanswer)

/-! ## Changes of calls -/

/-- Another call may change in any way, if it waits for a free task afterwards or for the one that
it waited for. -/
theorem editOther
    (h : Inv c f w) {d : CallId} (hd : d ≠ c) (g : Call → Call)
    (hg : ∀ call, w.calls[d]? = some call → ∀ t, (g call).ending.handler? = some t →
      call.ending.handler? = some t ∨ IsFree w.calls[c]? w.cells t) :
    Inv c f { w with calls := w.calls.modify d g } := by
  have hsame : (w.calls.modify d g)[c]? = w.calls[c]? := by
    simp [hd]
  refine ⟨?_, ?_⟩
  · dsimp only
    rw [hsame]
    exact h.facts
  · intro x call hx hcall t ht
    dsimp only at hcall ⊢
    rw [hsame]
    by_cases hxd : x = d
    · subst hxd
      rw [List.getElem?_modify_eq] at hcall
      obtain ⟨before, hbefore, rfl⟩ := Option.map_eq_some_iff.mp hcall
      rcases hg before hbefore t ht with hold | hfree
      · exact h.apart x before hx hbefore t hold
      · exact hfree
    · rw [List.getElem?_modify_ne g w.calls (Ne.symm hxd)] at hcall
      exact h.apart x call hx hcall t ht

theorem replaceOwn
    (h : Inv c f w) (w' : World) {call call' : Call} (hcall : w.calls[c]? = some call)
    (hcall' : w'.calls[c]? = some call') (hothers : ∀ d, d ≠ c → w'.calls[d]? = w.calls[d]?)
    (hcells : w'.cells = w.cells) (hanswer : call'.answer = call.answer)
    {f' : Frame} (hfacts : Facts c f' (some call') w.cells w'.log) :
    Inv c f' w' := by
  refine ⟨by rwa [hcall', hcells], ?_⟩
  intro d other hd hother t ht
  rw [hothers d hd] at hother
  have hfree := h.apart d other hd hother t ht
  rw [hcall] at hfree
  rw [hcall', hcells]
  exact ⟨hfree.1, by simpa [answerOf, hanswer] using hfree.2⟩

theorem getElem?_modify_self {call : Call} (hcall : w.calls[c]? = some call) (g : Call → Call) :
    (w.calls.modify c g)[c]? = some (g call) := by
  rw [List.getElem?_modify_eq, hcall]
  rfl

theorem getElem?_modify_other {d : CallId} (hd : d ≠ c) (g : Call → Call) :
    (w.calls.modify c g)[d]? = w.calls[d]? :=
  List.getElem?_modify_ne g w.calls (Ne.symm hd)

theorem editOwn
    (h : Inv c f w) {call : Call} (hcall : w.calls[c]? = some call) (g : Call → Call)
    {f' : Frame} (hfacts : Facts c f' (some (g call)) w.cells w.log)
    (hanswer : (g call).answer = call.answer) :
    Inv c f' { w with calls := w.calls.modify c g } :=
  h.replaceOwn { w with calls := w.calls.modify c g } hcall (getElem?_modify_self hcall g)
    (fun _ hd => getElem?_modify_other hd g) rfl hanswer hfacts

theorem exists_call (h : Inv c f w) (hphase : f.phase.isAbsent = false) :
    ∃ call, w.calls[c]? = some call := by
  have hstands := h.facts.stands
  cases hφ : f.phase with
  | absent => simp [hφ, Phase.isAbsent] at hphase
  | _ =>
      rw [hφ] at hstands
      obtain ⟨call, hcall, -⟩ := hstands
      exact ⟨call, hcall⟩

/-- A right to go on that is on its way shows that the call passes its stages. -/
theorem isIdle_of_moving (h : Inv c f w) (hmoving : 0 < f.moving) : f.phase.isIdle = false := by
  by_contra hidle
  have hnone := h.facts.idle (by simpa using hidle)
  omega

/-! ## Where the continuation is -/

theorem isAbsent_of_isIdle {φ : Phase} (h : φ.isIdle = false) : φ.isAbsent = false := by
  cases φ <;> simp_all [Phase.isIdle, Phase.isAbsent]

theorem placeCode
    {k : Continuation} (h : Inv c (f.plus (k.load c)) w) :
    Inv c f { w with calls := w.calls.modify k.pipeline.call fun call =>
      { call with held := some (k.point, .code) } } := by
  by_cases hown : k.pipeline.call = c
  · have hload : k.load c = 1 := if_pos hown
    rw [hload] at h
    rw [hown]
    have hidle := h.isIdle_of_moving (Nat.succ_pos _)
    obtain ⟨call, hcall⟩ := h.exists_call (isAbsent_of_isIdle hidle)
    have hfacts := h.facts
    rw [hcall] at hfacts
    refine h.editOwn hcall _ (hfacts.recall (n := f.moving) ?_ rfl rfl (.inl rfl)) rfl
    simp only [Call.load, Frame.plus]
    omega
  · have hload : k.load c = 0 := if_neg hown
    rw [hload] at h
    exact h.editOther hown _ fun call _ t ht => .inl ht

theorem unplace
    {k : Continuation} (h : Inv c f w) (hheld : k.IsHeld w) (held : Option (Point × Place))
    (hplace : ∀ point, held ≠ some (point, .code)) :
    Inv c (f.plus (k.load c))
      { w with calls := w.calls.modify k.pipeline.call fun call => { call with held } } := by
  by_cases hown : k.pipeline.call = c
  · have hload : k.load c = 1 := if_pos hown
    obtain ⟨call, hcall, hcode⟩ := hheld
    rw [hown] at hcall ⊢
    rw [hload]
    have hfacts := h.facts
    rw [hcall] at hfacts
    have hbefore : call.load = 1 := by simp [Call.load, hcode]
    have hafter : Call.load { call with held } = 0 := by
      unfold Call.load
      split
      next point hheld' => exact absurd hheld' (hplace point)
      next => rfl
    refine h.editOwn hcall _ (hfacts.recall (n := f.moving + 1) ?_ rfl rfl (.inl rfl)) rfl
    omega
  · have hload : k.load c = 0 := if_neg hown
    rw [hload]
    exact h.editOther hown _ fun call _ t ht => .inl ht

theorem spent
    (h : Inv c f w) (d : CallId) (point : Point) (fate : Fate)
    (hidle : d = c → f.phase.isIdle = false)
    (hlost : d = c → fate = .lost → carried c w.cells w.calls[c]? + f.moving = 0)
    (hgives : d = c → f.strict = true →
      ¬ GivesUpOpen c w.log (.mark (.spent d point fate))) :
    Inv c f { w with log := w.log ++ [.mark (.spent d point fate)] } := by
  by_cases hown : d = c
  · subst hown
    refine ⟨h.facts.entry ⟨rfl, by simp, ?_, ?_, ?_, hgives rfl, by simp⟩ id id
      (h.facts.stands.append rfl ?_), h.apart⟩
    · simp [Entry.startsStage]
    · exact fun _ => hidle rfl
    · intro hloses
      refine hlost rfl ?_
      cases fate <;> simp_all [Entry.loses]
    · intro habsent
      simp [isAbsent_of_isIdle (hidle rfl)] at habsent
  · exact h.loggedOther (by simpa [Entry.concerns] using hown)

end Inv
end RouteDispatch
