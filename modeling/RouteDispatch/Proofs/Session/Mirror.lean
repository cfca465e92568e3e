import RouteDispatch.Proofs.Session.Likeness
import RouteDispatch.Proofs.Session.Triple

/-!
# One call in two runs

A scene is a call with its tasks in two worlds.  The worlds may differ in everything else: in the
first one there may be other calls.  As work for the call goes on, the worlds stay mirrored: the
call and its tasks are alike, both logs get the same entries but for the numbers, and in the first
world nothing of other calls is touched.  Acts match if they take mirrored worlds to mirrored worlds
and end alike.  There is one rule for each way to compose acts.
-/

namespace RouteDispatch

/-- A call and its tasks in two worlds, from which on the call is followed. -/
structure Scene where
  ids : Nat → Nat → Prop
  call : CallId
  call' : CallId
  start : World
  start' : World
  tasks : Pairing

namespace Scene

/-- The pairs of tasks that are made when `n` tasks have been made in either world. -/
def made (S : Scene) (n : Nat) : Pairing :=
  (List.range n).map fun i => (S.start.cells.length + i, S.start'.cells.length + i)

/-- The tasks of the call were there when it began to be followed, and stand for each other. -/
structure IsSet (S : Scene) : Prop where
  lt : ∀ p ∈ S.tasks, p.1 < S.start.cells.length ∧ p.2 < S.start'.cells.length
  functional : ∀ p ∈ S.tasks, ∀ q ∈ S.tasks, p.1 = q.1 ↔ p.2 = q.2

abbrev AlikeCompletions (S : Scene) (ρ : Pairing) : Completion → Completion → Prop :=
  Completion.Alike S.ids S.call S.call' ρ

/-- Two worlds are mirrored if the call stands in them alike, and has come there by the same steps
that concern nothing else. -/
structure Mirrored (S : Scene) (ρ : Pairing) (w w' : World) : Prop where
  call : ∃ x x', w.calls[S.call]? = some x ∧ w'.calls[S.call']? = some x' ∧ x.Alike S.ids ρ x'
  cells : ∀ {t t' : TaskId}, (t, t') ∈ ρ → ∃ x x', w.cells[t]? = some x ∧
    w'.cells[t']? = some x' ∧ x.Alike (S.AlikeCompletions ρ) x'
  grown : ∃ n, w.cells.length = S.start.cells.length + n ∧
    w'.cells.length = S.start'.cells.length + n ∧ ρ = S.tasks ++ S.made n
  log : ∃ new new', w.log = S.start.log ++ new ∧ w'.log = S.start'.log ++ new' ∧
    new.map Entry.anonymous = new'.map Entry.anonymous ∧
    ∀ e ∈ new, ∀ d, e.concerns d = true → d = S.call
  otherCells : ∀ u < S.start.cells.length, (∀ p ∈ S.tasks, p.1 ≠ u) →
    w.cells[u]? = S.start.cells[u]?
  otherCalls : ∀ d ≠ S.call, w.calls[d]? = S.start.calls[d]?
  table : w.table = S.start.table
  table' : w'.table = S.start'.table

namespace Mirrored

variable {S : Scene} {ρ : Pairing} {w w' : World}

/-- Where the call begins to be followed, the worlds are mirrored if its state is alike. -/
theorem start
    (hcall : ∃ x x', S.start.calls[S.call]? = some x ∧ S.start'.calls[S.call']? = some x' ∧
      x.Alike S.ids S.tasks x')
    (hcells : ∀ {t t' : TaskId}, (t, t') ∈ S.tasks → ∃ x x', S.start.cells[t]? = some x ∧
      S.start'.cells[t']? = some x' ∧ x.Alike (S.AlikeCompletions S.tasks) x') :
    S.Mirrored S.tasks S.start S.start' where
  call := hcall
  cells := hcells
  grown := ⟨0, rfl, rfl, by simp [made]⟩
  log := ⟨[], [], by simp⟩
  otherCells := fun _ _ _ => rfl
  otherCalls := fun _ _ => rfl
  table := rfl
  table' := rfl

theorem calls_length (h : S.Mirrored ρ w w') (hcall : S.call < S.start.calls.length) :
    w.calls.length = S.start.calls.length := by
  obtain ⟨x, x', hx, -⟩ := h.call
  have hlt := (List.getElem?_eq_some_iff.mp hx).1
  by_contra hne
  rcases Nat.lt_or_gt_of_ne hne with hless | hmore
  · have hsame := h.otherCalls w.calls.length (Nat.ne_of_gt hlt)
    rw [List.getElem?_eq_none (Nat.le_refl _), List.getElem?_eq_getElem hless] at hsame
    cases hsame
  · have hsame := h.otherCalls S.start.calls.length (Nat.ne_of_gt hcall)
    rw [List.getElem?_eq_none (Nat.le_refl _), List.getElem?_eq_getElem hmore] at hsame
    cases hsame

/-! ## Single changes -/

theorem logged (h : S.Mirrored ρ w w') {e e' : Entry} (he : e.anonymous = e'.anonymous)
    (hconcerns : ∀ d, e.concerns d = true → d = S.call) :
    S.Mirrored ρ { w with log := w.log ++ [e] } { w' with log := w'.log ++ [e'] } := by
  obtain ⟨new, new', hlog, hlog', hsame, hown⟩ := h.log
  refine ⟨h.call, h.cells, h.grown, ⟨new ++ [e], new' ++ [e'], ?_, ?_, ?_, ?_⟩, h.otherCells,
    h.otherCalls, h.table, h.table'⟩
  · simp [hlog]
  · simp [hlog']
  · simp [hsame, he]
  · intro x hx
    rcases List.mem_append.mp hx with hold | hnew
    · exact hown x hold
    · exact List.mem_singleton.mp hnew ▸ hconcerns

theorem edited (h : S.Mirrored ρ w w') {g g' : Call → Call}
    (hg : ∀ x x', x.Alike S.ids ρ x' → (g x).Alike S.ids ρ (g' x')) :
    S.Mirrored ρ { w with calls := w.calls.modify S.call g }
      { w' with calls := w'.calls.modify S.call' g' } := by
  obtain ⟨x, x', hx, hx', halike⟩ := h.call
  refine ⟨⟨g x, g' x', ?_, ?_, hg x x' halike⟩, h.cells, h.grown, h.log, h.otherCells, ?_,
    h.table, h.table'⟩
  · simp [hx]
  · simp [hx']
  · intro d hd
    dsimp only
    rw [List.getElem?_modify_ne _ _ (Ne.symm hd)]
    exact h.otherCalls d hd

/-- The tasks of a pairing stand for each other. -/
theorem functional (h : S.Mirrored ρ w w') (hS : S.IsSet) {t t' u u' : TaskId}
    (ht : (t, t') ∈ ρ) (hu : (u, u') ∈ ρ) : t = u ↔ t' = u' := by
  obtain ⟨n, -, -, rfl⟩ := h.grown
  have hcases : ∀ {t t' : TaskId}, (t, t') ∈ S.tasks ++ S.made n → (t, t') ∈ S.tasks ∨
      ∃ i, t = S.start.cells.length + i ∧ t' = S.start'.cells.length + i := by
    intro t t' hmem
    refine (List.mem_append.mp hmem).imp_right fun hmade => ?_
    obtain ⟨i, -, hi⟩ := List.mem_map.mp hmade
    obtain ⟨rfl, rfl⟩ := Prod.mk.inj hi
    exact ⟨i, rfl, rfl⟩
  rcases hcases ht with hold | ⟨i, rfl, rfl⟩ <;> rcases hcases hu with hold' | ⟨j, rfl, rfl⟩
  · exact hS.functional _ hold _ hold'
  · obtain ⟨hlt, hlt'⟩ := hS.lt _ hold
    exact iff_of_false (Nat.ne_of_lt (Nat.lt_add_right j hlt))
      (Nat.ne_of_lt (Nat.lt_add_right j hlt'))
  · obtain ⟨hlt, hlt'⟩ := hS.lt _ hold'
    exact iff_of_false (Nat.ne_of_gt (Nat.lt_add_right i hlt))
      (Nat.ne_of_gt (Nat.lt_add_right i hlt'))
  · exact Nat.add_left_cancel_iff.trans Nat.add_left_cancel_iff.symm

theorem turned (h : S.Mirrored ρ w w') (hS : S.IsSet) {t t' : TaskId} (ht : (t, t') ∈ ρ)
    {cell cell' : Cell Completion} (hcell : cell.Alike (S.AlikeCompletions ρ) cell')
    (turn turn' : Cell.Turn Completion) :
    S.Mirrored ρ (w.turn t turn cell) (w'.turn t' turn' cell') := by
  obtain ⟨x, x', hx, hx', -⟩ := h.cells ht
  have hlt := (List.getElem?_eq_some_iff.mp hx).1
  have hlt' := (List.getElem?_eq_some_iff.mp hx').1
  refine ⟨h.call, fun {u u'} hu => ?_, ?_, h.log, fun u hu hother => ?_, h.otherCalls, h.table,
    h.table'⟩
  · have hiff := h.functional hS ht hu
    by_cases hsame : t = u
    · obtain rfl := hsame
      obtain rfl := hiff.mp rfl
      exact ⟨cell, cell', by simp [hlt], by simp [hlt'], hcell⟩
    · have hne : t' ≠ u' := fun hne => hsame (hiff.mpr hne)
      obtain ⟨y, y', hy, hy', halike⟩ := h.cells hu
      exact ⟨y, y', by simp [List.getElem?_set_ne hsame, hy],
        by simp [List.getElem?_set_ne hne, hy'], halike⟩
  · simpa using h.grown
  · have hne : t ≠ u := by
      obtain ⟨n, -, -, rfl⟩ := h.grown
      rcases List.mem_append.mp ht with hold | hmade
      · exact hother _ hold
      · obtain ⟨i, -, hi⟩ := List.mem_map.mp hmade
        obtain ⟨rfl, -⟩ := Prod.mk.inj hi
        exact Nat.ne_of_gt (Nat.lt_of_lt_of_le hu (Nat.le_add_right _ _))
    rw [World.turn_cells, List.getElem?_set_ne hne]
    exact h.otherCells u hu hother

/-- A new task in either world is paired with the one in the other. -/
theorem created (h : S.Mirrored ρ w w') :
    S.Mirrored (ρ ++ [(w.cells.length, w'.cells.length)])
      { w with cells := w.cells ++ [.fresh] } { w' with cells := w'.cells ++ [.fresh] } := by
  have hsub : ρ ⊆ ρ ++ [(w.cells.length, w'.cells.length)] := List.subset_append_left ..
  have hcells : ∀ {x x' : Cell Completion}, x.Alike (S.AlikeCompletions ρ) x' →
      x.Alike (S.AlikeCompletions (ρ ++ [(w.cells.length, w'.cells.length)])) x' :=
    fun halike => halike.mono fun _ _ hh => hh.mono hsub
  refine ⟨?_, fun {t t'} ht => ?_, ?_, h.log, fun u hu hother => ?_, h.otherCalls, h.table,
    h.table'⟩
  · obtain ⟨x, x', hx, hx', halike⟩ := h.call
    exact ⟨x, x', hx, hx', halike.mono hsub⟩
  · rcases List.mem_append.mp ht with hold | hnew
    · obtain ⟨x, x', hx, hx', halike⟩ := h.cells hold
      have hlt := (List.getElem?_eq_some_iff.mp hx).1
      have hlt' := (List.getElem?_eq_some_iff.mp hx').1
      exact ⟨x, x', by simpa [List.getElem?_append_left hlt] using hx,
        by simpa [List.getElem?_append_left hlt'] using hx', hcells halike⟩
    · obtain ⟨rfl, rfl⟩ := Prod.mk.inj (List.mem_singleton.mp hnew)
      exact ⟨.fresh, .fresh, by simp, by simp, .idle⟩
  · obtain ⟨n, hn, hn', rfl⟩ := h.grown
    refine ⟨n + 1, by simp [hn, Nat.add_assoc], by simp [hn', Nat.add_assoc], ?_⟩
    rw [made, made, List.range_succ, List.map_append, List.append_assoc, hn, hn']
    rfl
  · obtain ⟨n, hn, -⟩ := h.grown
    have hlt : u < w.cells.length := by omega
    dsimp only
    rw [List.getElem?_append_left hlt]
    exact h.otherCells u hu hother

theorem others (h : S.Mirrored ρ w w') (names names' : List (String × TaskId))
    (ticks ticks' : Nat) :
    S.Mirrored ρ { w with names, ticks } { w' with names := names', ticks := ticks' } :=
  ⟨h.call, h.cells, h.grown, h.log, h.otherCells, h.otherCalls, h.table, h.table'⟩

end Mirrored

/-! ## Matching acts -/

/-- Two acts end alike if they give values that are related or fail in the same way. -/
inductive EndAlike {ε α β : Type} (R : α → β → Prop) : Except ε α → Except ε β → Prop
  | ok {v : α} {v' : β} (h : R v v') : EndAlike R (.ok v) (.ok v')
  | error (e : ε) : EndAlike R (.error e) (.error e)

/-- From the two worlds the acts come to mirrored worlds and end alike. -/
def Meets (S : Scene) (ρ : Pairing) (w w' : World) {α β : Type} (a : Act α) (a' : Act β)
    (R : Pairing → α → β → Prop) : Prop :=
  ∃ ρ', ρ ⊆ ρ' ∧ S.Mirrored ρ' (a.exec w).2 (a'.exec w').2 ∧
    EndAlike (R ρ') (a.exec w).1 (a'.exec w').1

/-- The acts meet from any mirrored worlds in which at least the tasks of the pairing are paired. -/
def Matches (S : Scene) (ρ : Pairing) {α β : Type} (a : Act α) (a' : Act β)
    (R : Pairing → α → β → Prop) : Prop :=
  ∀ ρ', ρ ⊆ ρ' → ∀ w w', S.Mirrored ρ' w w' → S.Meets ρ' w w' a a' R

/-- Acts whose values need not be compared. -/
abbrev Mirrors (S : Scene) (ρ : Pairing) {α : Type} (a a' : Act α) : Prop :=
  S.Matches ρ a a' fun _ _ _ => True

variable {S : Scene} {ρ ρ' : Pairing} {w w' : World} {α β γ δ : Type}

theorem Meets.bind {a : Act α} {a' : Act β} {R : Pairing → α → β → Prop} {f : α → Act γ}
    {f' : β → Act δ} {Q : Pairing → γ → δ → Prop} (ha : S.Meets ρ w w' a a' R)
    (hf : ∀ ρ' w₁ w₁' v v', ρ ⊆ ρ' → S.Mirrored ρ' w₁ w₁' → R ρ' v v' →
      S.Meets ρ' w₁ w₁' (f v) (f' v') Q) :
    S.Meets ρ w w' (a >>= f) (a' >>= f') Q := by
  obtain ⟨ρ₁, hsub, hmirrored, hend⟩ := ha
  unfold Meets
  rw [Act.exec_bind, Act.exec_bind]
  cases hexec : a.exec w with
  | mk result w₁ =>
      cases hexec' : a'.exec w' with
      | mk result' w₁' =>
          rw [hexec, hexec'] at hmirrored hend
          cases hend with
          | error s => exact ⟨ρ₁, hsub, hmirrored, .error s⟩
          | ok hv =>
              obtain ⟨ρ₂, hsub', hmirrored', hend'⟩ := hf ρ₁ w₁ w₁' _ _ hsub hmirrored hv
              exact ⟨ρ₂, List.Subset.trans hsub hsub', hmirrored', hend'⟩

theorem Meets.pure {v : α} {v' : β} {R : Pairing → α → β → Prop} (hw : S.Mirrored ρ w w')
    (h : R ρ v v') : S.Meets ρ w w' (Pure.pure v) (Pure.pure v') R :=
  ⟨ρ, List.Subset.refl _, hw, .ok h⟩

namespace Matches

variable {a : Act α} {a' : Act β} {R : Pairing → α → β → Prop}

theorem mono (h : S.Matches ρ a a' R) (hsub : ρ ⊆ ρ') : S.Matches ρ' a a' R :=
  fun ρ₁ hsub₁ => h ρ₁ (List.Subset.trans hsub hsub₁)

theorem meets (h : S.Matches ρ a a' R) (hsub : ρ ⊆ ρ') (hw : S.Mirrored ρ' w w') :
    S.Meets ρ' w w' a a' R :=
  h ρ' hsub w w' hw

theorem here (h : S.Matches ρ a a' R) (hw : S.Mirrored ρ w w') : S.Meets ρ w w' a a' R :=
  h.meets (List.Subset.refl ρ) hw

theorem weaken {Q : Pairing → α → β → Prop} (h : S.Matches ρ a a' R)
    (hRQ : ∀ ρ' v v', ρ ⊆ ρ' → R ρ' v v' → Q ρ' v v') : S.Matches ρ a a' Q := by
  intro ρ₁ hsub w w' hw
  obtain ⟨ρ₂, hsub', hmirrored, hend⟩ := h ρ₁ hsub w w' hw
  refine ⟨ρ₂, hsub', hmirrored, ?_⟩
  generalize (a.exec w).1 = result, (a'.exec w').1 = result' at hend ⊢
  cases hend with
  | ok hv => exact .ok (hRQ _ _ _ (List.Subset.trans hsub hsub') hv)
  | error s => exact .error s

theorem mirrors {a a' : Act α} {R : Pairing → α → α → Prop} (h : S.Matches ρ a a' R) :
    S.Mirrors ρ a a' :=
  h.weaken fun _ _ _ _ _ => trivial

theorem pure {v : α} {v' : β} (h : ∀ ρ', ρ ⊆ ρ' → R ρ' v v') :
    S.Matches ρ (Pure.pure v) (Pure.pure v') R :=
  fun ρ₁ hsub _ _ hw => .pure hw (h ρ₁ hsub)

theorem skip (v : α) : S.Mirrors ρ (Pure.pure v) (Pure.pure v) :=
  pure fun _ _ => trivial

theorem throw (s : Stop) : S.Matches ρ (MonadExcept.throw s) (MonadExcept.throw s) R :=
  fun ρ₁ _ _ _ hw => ⟨ρ₁, List.Subset.refl _, hw, .error s⟩

theorem raise (p : Panic) : S.Matches ρ (Act.raise p) (Act.raise p) R :=
  throw (.panic p)

theorem bind {f : α → Act γ} {f' : β → Act δ} {Q : Pairing → γ → δ → Prop}
    (ha : S.Matches ρ a a' R)
    (hf : ∀ ρ' v v', ρ ⊆ ρ' → R ρ' v v' → S.Matches ρ' (f v) (f' v') Q) :
    S.Matches ρ (a >>= f) (a' >>= f') Q :=
  fun ρ₁ hsub w w' hw => (ha ρ₁ hsub w w' hw).bind fun ρ₂ _ _ v v' hsub' hw' hv =>
    (hf ρ₂ v v' (List.Subset.trans hsub hsub') hv).here hw'

/-- Nothing happens after the first act; only its values are changed. -/
theorem map {f : α → γ} {f' : β → δ} {Q : Pairing → γ → δ → Prop} (ha : S.Matches ρ a a' R)
    (hf : ∀ ρ' v v', R ρ' v v' → Q ρ' (f v) (f' v')) :
    S.Matches ρ (a >>= fun v => Pure.pure (f v)) (a' >>= fun v => Pure.pure (f' v)) Q :=
  fun ρ₁ hsub w w' hw => (ha ρ₁ hsub w w' hw).bind fun ρ₂ _ _ v v' _ hw' hv =>
    .pure hw' (hf ρ₂ v v' hv)

/-- What comes after does not depend on the first values. -/
theorem seq {a : Act α} {a' : Act β} {f : α → Act γ} {f' : β → Act δ} {Q : Pairing → γ → δ → Prop}
    (ha : S.Matches ρ a a' R) (hf : ∀ v v', S.Matches ρ (f v) (f' v') Q) :
    S.Matches ρ (a >>= f) (a' >>= f') Q :=
  ha.bind fun _ v v' hsub _ => (hf v v').mono hsub

theorem get {f : World → Act α} {f' : World → Act β}
    (h : ∀ ρ' w w', ρ ⊆ ρ' → S.Mirrored ρ' w w' → S.Meets ρ' w w' (f w) (f' w') R) :
    S.Matches ρ (MonadState.get >>= f) (MonadState.get >>= f') R :=
  fun ρ₁ hsub w w' hw => h ρ₁ w w' hsub hw

theorem tryCatch {a a' : Act α} {handler handler' : Stop → Act α} {R : Pairing → α → α → Prop}
    (ha : S.Matches ρ a a' R) (hhandler : ∀ s, S.Matches ρ (handler s) (handler' s) R) :
    S.Matches ρ (MonadExcept.tryCatch a handler) (MonadExcept.tryCatch a' handler') R := by
  intro ρ₁ hsub w w' hw
  obtain ⟨ρ₂, hsub', hmirrored, hend⟩ := ha ρ₁ hsub w w' hw
  unfold Meets
  rw [Act.exec_tryCatch, Act.exec_tryCatch]
  cases hexec : a.exec w with
  | mk result w₁ =>
      cases hexec' : a'.exec w' with
      | mk result' w₁' =>
          rw [hexec, hexec'] at hmirrored hend
          cases hend with
          | ok hv => exact ⟨ρ₂, hsub', hmirrored, .ok hv⟩
          | error s =>
              obtain ⟨ρ₃, hsub'', hmirrored', hend'⟩ :=
                (hhandler s).meets (List.Subset.trans hsub hsub') hmirrored
              exact ⟨ρ₃, List.Subset.trans hsub' hsub'', hmirrored', hend'⟩

/-- A change of the worlds that keeps them mirrored. -/
theorem modify {f f' : World → World}
    (h : ∀ ρ' w w', ρ ⊆ ρ' → S.Mirrored ρ' w w' → S.Mirrored ρ' (f w) (f' w')) :
    S.Mirrors ρ (MonadState.modifyGet fun w => ((), f w) : Act Unit)
      (MonadState.modifyGet fun w => ((), f' w)) :=
  fun ρ₁ hsub w w' hw => ⟨ρ₁, List.Subset.refl _, h ρ₁ w w' hsub hw, .ok trivial⟩

end Matches

end Scene
end RouteDispatch
