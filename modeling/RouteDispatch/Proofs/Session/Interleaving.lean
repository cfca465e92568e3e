import RouteDispatch.Proofs.Session.Evaluation

/-!
# Building and resolving in any order

By induction on the expression: whatever leaves have been resolved before, the code of an expression
builds a task that has the value or waits for a leaf, and to resolve that leaf takes the task to its
value or to the next leaf.  So it does not matter when a leaf is resolved, before the expression is
built, in between, or after a completion handler has been attached to it.
-/

namespace RouteDispatch

open Act

variable {d : Dispatcher} {leaves : TaskId → Prop} {sent : TaskId → Outcome → Prop}
  {own : TaskId → Prop} {e : Expr} {u v : TaskId} {c : Consumer Completion} {w : World}

namespace Goes

/-- A task is derived from the one of an expression. -/
theorem derive
    (h : Goes leaves d own e v .none (· = w) w) (handler : TaskId → Completion)
    (hv : (own v ∧ ¬ leaves v) ∨ (leaves v ∧ e.Mentions v)) (hmade : ¬ leaves w.cells.length)
    (hown : own w.cells.length) :
    ∃ w', Moves leaves sent own e.Mentions w w' ∧
      w'.cells[w.cells.length]? = some (.waiting .none) ∧
      ((own v ∧ v ≠ w.cells.length) ∨ leaves v) ∧
      Goes leaves d (fun x => own x ∧ x ≠ w.cells.length) e v (.handler (handler w.cells.length))
        (fun w'' => Comes d (fun perform => Act.derive perform v handler) w w.cells.length w'')
        w' := by
  have hne : v ≠ w.cells.length := Nat.ne_of_lt h.lt_length
  have hnew : Moves leaves sent own e.Mentions w { w with cells := w.cells ++ [.fresh] } :=
    .newTask hown
  have hgoes : Goes leaves d (fun x => own x ∧ x ≠ w.cells.length) e v .none (· = w) w :=
    h.mono (fun x hx hmem => ⟨hmem, Nat.ne_of_lt hx⟩) fun _ => id
  obtain ⟨w', hattached, hgoes⟩ : ∃ w',
      Moves leaves sent (fun x => own x ∧ x ≠ w.cells.length) e.Mentions
        { w with cells := w.cells ++ [.fresh] } w' ∧
      Goes leaves d (fun x => own x ∧ x ≠ w.cells.length) e v (.handler (handler w.cells.length))
        (fun w'' => Comes d (fun perform => Act.attach perform v (handler w.cells.length))
          { w with cells := w.cells ++ [.fresh] } () w'') w' :=
    hgoes.newTask.attach _ (hv.imp_left fun hv => ⟨⟨hv.1, hne⟩, hv.2⟩)
  refine ⟨w', hnew.trans (hattached.mono (fun x hx => hx.1) fun x => id), ?_,
    hv.imp (fun hv => ⟨hv.1, hne⟩) And.left, hgoes.mono (fun x _ => id) fun w'' => Comes.derive⟩
  rw [hattached.others _ hmade fun hmem => hmem.2 rfl]
  simp [Cell.fresh]

/-- What is resolved in between leaves an expression what it is. -/
theorem meanwhile {start : World → Prop} {x : TaskId} {o : Outcome}
    (h : Goes leaves d own e u c start w) :
    Goes leaves d own (.meanwhile e x o) u c start w := by
  rcases h with ⟨r, h⟩ | ⟨t, inner, h⟩
  · exact .inl ⟨r, h.value, h.idle, h.cell, h.comes⟩
  · exact .inr ⟨t, inner, .meanwhile h.waits, h.idle, h.own, h.comes⟩

/-- A leaf is resolved while nobody waits for the task of the expression. -/
theorem settleMarked
    {x : TaskId} {o : Outcome} (h : Goes leaves d own e u .none (· = w) w)
    (hresolves : Resolves d leaves sent e) (hleaf : leaves x) (hsent : sent x o)
    (hnew : ∀ y, w.cells.length ≤ y → own y) (hu : own u ∨ leaves u) :
    ∃ b w', Comes d (fun perform => Act.settleMarked perform x o) w b w' ∧
      Moves leaves sent own e.Mentions w w' ∧ Goes leaves d own e u .none (· = w') w' := by
  have hattended : IsAttended leaves own e u .none w.remarks
      (fun r w' => w'.cells[u]? = some (.cached r false) ∧ w'.remarks = w.remarks) w := by
    rcases h with ⟨r, h⟩ | ⟨t, inner, h⟩
    · exact .inl ⟨r, h.value, h.idle, h.cell, rfl⟩
    · exact .inr ⟨t, inner, h.waits, h.idle, h.own, rfl⟩
  obtain ⟨b, w', hcomes, hevolves, -, hafter⟩ :=
    hattended.settleMarked hresolves hsent hleaf hnew hu
    (fun w r hremarks hcell => ⟨w, .pure () w, rfl, hcell, hremarks⟩)
    (fun r w w' hremarks hcell hserved => by
      have hresolved : outcomeOf w.cells u ≠ none := by
        simp [outcomeOf_of_cell hserved.1, Cell.outcome?]
      exact ⟨(hcell hresolved).trans hserved.1, hremarks.trans hserved.2⟩)
  rcases hafter with ⟨r, hvalue, hidle, hcell, hremarks⟩ | ⟨t, inner, hafter⟩
  · exact ⟨b, w', hcomes, ⟨hevolves, hremarks⟩, .of_cached hvalue hidle hcell⟩
  · exact ⟨b, w', hcomes, ⟨hevolves, hafter.comes⟩,
      .inr ⟨t, inner, hafter.waits, hafter.idle, hafter.own, rfl⟩⟩

end Goes

/-! ## Building -/

theorem AllIdle.lt_length {cells : List (Cell Completion)} (h : AllIdle leaves none cells)
    {x : TaskId}
    (hleaf : leaves x) : x < cells.length :=
  lt_length_of_isIdle (h x hleaf nofun)

namespace Builds

theorem leaf {t : TaskId} (hleaf : leaves t) : Builds d leaves sent (.leaf t) := by
  intro w own hidle hleaves
  refine ⟨t, w, .pure t w, .refl w, .inr ⟨hleaf, rfl⟩, ?_⟩
  rcases hleaves t rfl with hcell | ⟨o, hcell⟩
  · exact .inr ⟨t, [], .leaf hleaf hcell, fun x hx _ => hidle x hx nofun, nofun, rfl⟩
  · exact .of_cached (outcomeOf_of_cell hcell) hidle hcell

theorem resolved (o : Outcome) : Builds d leaves sent (.resolved o) := by
  intro w own hidle hleaves
  obtain ⟨w₁, hw₁⟩ : ∃ w₁ : World, w₁ = { w with cells := w.cells ++ [.fresh] } := ⟨_, rfl⟩
  have hmade : ¬ leaves w.cells.length := fun hleaf => Nat.lt_irrefl _ (hidle.lt_length hleaf)
  have hnew : Moves leaves sent (w.cells.length ≤ ·) (Expr.resolved o).Mentions w w₁ :=
    hw₁ ▸ .newTask (Nat.le_refl _)
  have hmarked : Moves leaves sent (w.cells.length ≤ ·) (Expr.resolved o).Mentions w₁
      (w₁.marked w.cells.length) := .marked w₁ _
  have hcell : (w₁.marked w.cells.length).cells[w.cells.length]? = some (.waiting .none) := by
    simp [hw₁, Cell.fresh]
  have hidle₁ : AllIdle leaves none (w₁.marked w.cells.length).cells := by
    rw [World.marked_cells, hw₁]
    exact hidle.newTask
  obtain ⟨w', hmoves, hgoes⟩ : ∃ w',
      Moves leaves sent (w.cells.length ≤ ·) (Expr.resolved o).Mentions
        (w₁.marked w.cells.length) w' ∧
      Goes leaves d (w.cells.length ≤ ·) (.resolved o) w.cells.length .none
        (fun w' => Comes d (fun perform => Act.settleMarked perform w.cells.length o) w₁ true w')
        w' :=
    HasValue.of_settle none rfl hidle₁ hcell hmade (Nat.le_refl _) fun w' hw' => hw'.settleMarked
  obtain ⟨hcomes, hgoes⟩ := hgoes.here
  have hrun : Comes d (fun perform => Act.run perform own (Expr.resolved o).code) w
      w.cells.length w' :=
    .run_create (hw₁ ▸ hcomes.run_settle (.pure _ w'))
  exact ⟨w.cells.length, w', hrun, hnew.trans (hmarked.trans hmoves),
    .inl ⟨Nat.le_refl _, hmade⟩, hgoes⟩

theorem mapMaybe (h : Builds d leaves sent e) (f : Outcome → Answer) :
    Builds d leaves sent (.mapMaybe e f) := by
  intro w own hidle hleaves
  obtain ⟨v, w₁, hrun, hbuilt, hv, hgoes⟩ := h own hidle hleaves
  have hlength := hbuilt.length
  have hmade : ¬ leaves w₁.cells.length := fun hleaf =>
    Nat.not_lt.mpr hlength (hidle.lt_length hleaf)
  obtain ⟨w₂, hderived, hcell, hv, hgoes⟩ : ∃ w₂,
      Moves leaves sent (w.cells.length ≤ ·) e.Mentions w₁ w₂ ∧
      w₂.cells[w₁.cells.length]? = some (.waiting .none) ∧ _ ∧ Goes leaves d _ e v _ _ w₂ :=
    hgoes.derive (.transform fun o => (f o).code) hv hmade hlength
  obtain ⟨w₃, hmoves, hgoes⟩ : ∃ w₃, Moves leaves sent (w.cells.length ≤ ·) e.Mentions w₂ w₃ ∧
      Goes leaves d (w.cells.length ≤ ·) (.mapMaybe e f) w₁.cells.length .none _ w₃ :=
    hgoes.transform hv hcell hmade (fun hmem => hmem.2 rfl) (fun x hx => hx.1) hlength
  obtain ⟨hcomes, hgoes⟩ := hgoes.here
  exact ⟨_, w₃, hrun.run_andThen (hcomes.run_transform (.pure _ w₃)),
    hbuilt.trans (hderived.trans hmoves), .inl ⟨hlength, hmade⟩, hgoes⟩

theorem thenMaybe
    {panics : Outcome → Option SoftPanic} {next : Outcome → Expr} (h : Builds d leaves sent e)
    (hnext : ∀ o, Builds d leaves sent (next o))
    (hlinear : ∀ o x, (next o).Mentions x → leaves x ∧ ¬ e.Mentions x) :
    Builds d leaves sent (.thenMaybe e panics next) := by
  intro w own hidle hleaves
  obtain ⟨v, w₁, hrun, hbuilt, hv, hgoes⟩ := h own hidle fun x hx => hleaves x (.inl hx)
  have hlength := hbuilt.length
  have hmade : ¬ leaves w₁.cells.length := fun hleaf =>
    Nat.not_lt.mpr hlength (hidle.lt_length hleaf)
  obtain ⟨w₂, hderived, hcell, hv, hgoes⟩ : ∃ w₂,
      Moves leaves sent (w.cells.length ≤ ·) e.Mentions w₁ w₂ ∧
      w₂.cells[w₁.cells.length]? = some (.waiting .none) ∧ _ ∧ Goes leaves d _ e v _ _ w₂ :=
    hgoes.derive (.chain (Expr.continuation panics next)) hv hmade hlength
  have hfresh : ∀ x, w₂.cells.length ≤ x → w.cells.length ≤ x ∧ x ≠ w₁.cells.length := by
    intro x hx
    have hlt := (List.getElem?_eq_some_iff.mp hcell).1
    omega
  have hunconsumed : ∀ o x, (next o).Mentions x → leaves x ∧ Unconsumed w₂.cells x := by
    intro o x hx
    obtain ⟨hleaf, hother⟩ := hlinear o x hx
    exact ⟨hleaf, (hbuilt.trans hderived).unconsumed x hleaf hother (hleaves x (.inr ⟨o, hx⟩))⟩
  obtain ⟨w₃, hmoves, hgoes⟩ : ∃ w₃,
      Moves leaves sent (w.cells.length ≤ ·) (Expr.thenMaybe e panics next).Mentions w₂ w₃ ∧
      Goes leaves d (w.cells.length ≤ ·) (.thenMaybe e panics next) w₁.cells.length .none _ w₃ :=
    hgoes.chain hv hcell hmade (fun hmem => hmem.2 rfl) (fun x hx => hx.1) hlength hnext hfresh
      hunconsumed
  obtain ⟨hcomes, hgoes⟩ := hgoes.here
  have hmentions : ∀ x, e.Mentions x → (Expr.thenMaybe e panics next).Mentions x := fun x => .inl
  exact ⟨_, w₃, hrun.run_andThen (hcomes.run_chain (.pure _ w₃)),
    ((hbuilt.trans hderived).mono (fun x => id) hmentions).trans hmoves,
    .inl ⟨hlength, hmade⟩, hgoes⟩

theorem meanwhile
    {t : TaskId} {o : Outcome} (h : Builds d leaves sent e) (hresolves : Resolves d leaves sent e)
    (hleaf : leaves t) (hsent : sent t o) : Builds d leaves sent (.meanwhile e t o) := by
  intro w own hidle hleaves
  obtain ⟨u, w₁, hrun, hbuilt, hu, hgoes⟩ := h own hidle hleaves
  obtain ⟨b, w₂, hcomes, hmoves, hgoes⟩ := hgoes.settleMarked hresolves hleaf hsent
    (fun x => Nat.le_trans hbuilt.length) (hu.imp And.left And.left)
  exact ⟨u, w₂, hrun.run_andThen (hcomes.run_settle (.pure u w₂)), hbuilt.trans hmoves, hu,
    hgoes.meanwhile⟩

end Builds

/-! ## Resolving -/

namespace Resolves

theorem leaf (t : TaskId) : Resolves d leaves sent (.leaf t) := by
  intro w own t u inner c v hwaits hidle hsent hinner hnew
  cases hwaits with
  | leaf hleaf hcell =>
    have hmoves : Moves leaves sent own (Expr.leaf t).Mentions w
        (w.turn t (.settled v c.follow) (c.settledCell v)) :=
      .turn _ hcell (.inr hleaf) (.inr ⟨v, rfl, c.outcome?_settledCell v, fun _ => hsent⟩) fun _ =>
        .inl rfl
    have hcell' : (w.cells.set t (c.settledCell v))[t]? = some (c.settledCell v) :=
      List.getElem?_set_self (List.getElem?_eq_some_iff.mp hcell).1
    have hresolved : outcomeOf (w.cells.set t (c.settledCell v)) t = some v :=
      (outcomeOf_set_self hcell _).trans (c.outcome?_settledCell v)
    refine ⟨_, hmoves, hresolved, .inl ⟨v, hresolved, ?_, hcell', fun w' => Comes.settle hcell⟩⟩
    exact hidle.set_resolved (fun x _ hx => (Option.some.inj hx).symm) hcell
      (c.outcome?_settledCell v)

theorem resolved (o : Outcome) : Resolves d leaves sent (.resolved o) := by
  intro w own t u inner c v hwaits
  cases hwaits

/-- The leaf of an expression is resolved from whose task another task `u` is derived. -/
theorem derived
    {t : TaskId} {inner : List TaskId} {k : Consumer Completion} {o : Outcome}
    (h : Resolves d leaves sent e) (hwaits : Waits leaves w.cells e t v inner k)
    (hidle : AllIdle leaves (some t) w.cells) (hsent : sent t o)
    (hinner : ∀ x ∈ u :: v :: inner, own x ∨ leaves x) (hnew : ∀ x, w.cells.length ≤ x → own x)
    (hcell : w.cells[u]? = some (.waiting c)) (hmade : ¬ leaves u) (hfresh : u ∉ v :: inner) :
    ∃ w', Moves leaves sent own e.Mentions w w' ∧ outcomeOf w'.cells t = some o ∧
      w'.cells[u]? = some (.waiting c) ∧ ((own v ∧ v ≠ u) ∨ leaves v) ∧
      Goes leaves d (fun x => own x ∧ x ≠ u) e v k
        (fun w'' => Comes d (fun perform => Act.settle perform t o) w true w'') w' := by
  have hlt : u < w.cells.length := (List.getElem?_eq_some_iff.mp hcell).1
  have hothers : ∀ x ∈ v :: inner, (own x ∧ x ≠ u) ∨ leaves x := by
    intro x hx
    have hne : x ≠ u := fun hsame => hfresh (hsame ▸ hx)
    exact (hinner x (List.mem_cons_of_mem _ hx)).imp_left fun hx => ⟨hx, hne⟩
  have hnew' : ∀ x, w.cells.length ≤ x → own x ∧ x ≠ u := fun x hx =>
    ⟨hnew x hx, Nat.ne_of_gt (Nat.lt_of_lt_of_le hlt hx)⟩
  obtain ⟨w', hmoves, hresolved, hgoes⟩ := h hwaits hidle hsent hothers hnew'
  refine ⟨w', hmoves.mono (fun x hx => hx.1) fun x => id, hresolved, ?_,
    hothers v (List.mem_cons_self ..), hgoes⟩
  exact (hmoves.others u hmade fun hmem => hmem.2 rfl).trans hcell

theorem mapMaybe (h : Resolves d leaves sent e) (f : Outcome → Answer) :
    Resolves d leaves sent (.mapMaybe e f) := by
  intro w own t u inner c v hwaits hidle hsent hinner hnew
  cases hwaits with
  | mapMaybe hwaits hcell hmade hfresh =>
    have hu : own u := (hinner u (List.mem_cons_self ..)).resolve_right hmade
    obtain ⟨w₁, hmoves, hresolved, hcell, hv, hgoes⟩ :=
      h.derived hwaits hidle hsent hinner hnew hcell hmade hfresh
    obtain ⟨w₂, hmoved, hgoes⟩ : ∃ w₂, Moves leaves sent own e.Mentions w₁ w₂ ∧
        Goes leaves d own (.mapMaybe e f) u c _ w₂ :=
      hgoes.transform hv hcell hmade (fun hmem => hmem.2 rfl) (fun x hx => hx.1) hu
    exact ⟨w₂, hmoves.trans hmoved, hmoved.outcome t v hresolved, hgoes⟩

theorem thenMaybe
    {panics : Outcome → Option SoftPanic} {next : Outcome → Expr} (h : Resolves d leaves sent e)
    (hbuilds : ∀ o, Builds d leaves sent (next o)) (hnext : ∀ o, Resolves d leaves sent (next o))
    (hlinear : ∀ o x, (next o).Mentions x → ¬ e.Mentions x) :
    Resolves d leaves sent (.thenMaybe e panics next) := by
  intro w own t u inner c v hwaits hidle hsent hinner hnew
  have hmentions : ∀ x, e.Mentions x → (Expr.thenMaybe e panics next).Mentions x := fun x => .inl
  cases hwaits with
  | thenMaybe hwaits hcell hmade hfresh hunconsumed =>
    have hu : own u := (hinner u (List.mem_cons_self ..)).resolve_right hmade
    obtain ⟨w₁, hmoves, hresolved, hcell, hv, hgoes⟩ :=
      h.derived hwaits hidle hsent hinner hnew hcell hmade hfresh
    have hnew' : ∀ x, w₁.cells.length ≤ x → own x ∧ x ≠ u := by
      intro x hx
      have hlt := (List.getElem?_eq_some_iff.mp hcell).1
      exact ⟨hnew x (Nat.le_trans hmoves.length hx), Nat.ne_of_gt (Nat.lt_of_lt_of_le hlt hx)⟩
    have hunconsumed' : ∀ o x, (next o).Mentions x → leaves x ∧ Unconsumed w₁.cells x := by
      intro o x hx
      obtain ⟨hleaf, hbefore⟩ := hunconsumed o x hx
      exact ⟨hleaf, hmoves.unconsumed x hleaf (hlinear o x hx) hbefore⟩
    obtain ⟨w₂, hmoved, hgoes⟩ : ∃ w₂,
        Moves leaves sent own (Expr.thenMaybe e panics next).Mentions w₁ w₂ ∧
        Goes leaves d own (.thenMaybe e panics next) u c _ w₂ :=
      hgoes.chain hv hcell hmade (fun hmem => hmem.2 rfl) (fun x hx => hx.1) hu hbuilds hnew'
        hunconsumed'
    exact ⟨w₂, (hmoves.mono (fun x => id) hmentions).trans hmoved,
      hmoved.outcome t v hresolved, hgoes⟩
  | @chained _ _ _ o _ _ _ _ _ hvalue hpanics hwaits hcell hmade hfresh =>
    have hu : own u := (hinner u (List.mem_cons_self ..)).resolve_right hmade
    obtain ⟨w₁, hmoves, hresolved, hcell, hv, hgoes⟩ :=
      (hnext o).derived hwaits hidle hsent hinner hnew hcell hmade hfresh
    obtain ⟨w₂, hmoved, hgoes⟩ : ∃ w₂,
        Moves leaves sent own (Expr.thenMaybe e panics next).Mentions w₁ w₂ ∧
        Goes leaves d own (.thenMaybe e panics next) u c _ w₂ :=
      hgoes.relay hv hcell hmade (fun hmem => hmem.2 rfl) (fun x hx => hx.1) hu
        (Expr.value_mono hmoves.outcome hvalue) hpanics
    exact ⟨w₂, (hmoves.mono (fun x => id) fun x hx => .inr ⟨o, hx⟩).trans hmoved,
      hmoved.outcome t v hresolved, hgoes⟩

theorem meanwhile {x : TaskId} {o : Outcome} (h : Resolves d leaves sent e) :
    Resolves d leaves sent (.meanwhile e x o) := by
  intro w own t u inner c v hwaits hidle hsent hinner hnew
  cases hwaits with
  | meanwhile hwaits =>
    obtain ⟨w', hmoves, hresolved, hgoes⟩ := h hwaits hidle hsent hinner hnew
    exact ⟨w', hmoves, hresolved, hgoes.meanwhile⟩

end Resolves

namespace Expr

/-- An expression can be built and resolved in any order. -/
theorem IsLinear.builds_resolves (h : e.IsLinear leaves sent) :
    Builds d leaves sent e ∧ Resolves d leaves sent e := by
  induction e with
  | leaf t => exact ⟨.leaf h, .leaf t⟩
  | resolved o => exact ⟨.resolved o, .resolved o⟩
  | mapMaybe e f ih =>
      obtain ⟨hbuilds, hresolves⟩ := ih h
      exact ⟨hbuilds.mapMaybe f, hresolves.mapMaybe f⟩
  | thenMaybe e panics next ih ihnext =>
      obtain ⟨hbuilds, hresolves⟩ := ih h.1
      have hother : ∀ o x, (next o).Mentions x → ¬ e.Mentions x := fun o => (h.2 o).2
      exact ⟨hbuilds.thenMaybe (fun o => (ihnext o (h.2 o).1).1) fun o x hx =>
          ⟨(h.2 o).1.leaves_of_mentions hx, hother o x hx⟩,
        hresolves.thenMaybe (fun o => (ihnext o (h.2 o).1).1)
          (fun o => (ihnext o (h.2 o).1).2) hother⟩
  | meanwhile e t o ih =>
      obtain ⟨hbuilds, hresolves⟩ := ih h.1
      exact ⟨hbuilds.meanwhile hresolves h.2.1 h.2.2, hresolves.meanwhile⟩

end Expr

/-! ## A completion handler at the end -/

/-- Resolves tasks one after the other, those that are still waiting. -/
def Code.sends (l : List (TaskId × Outcome)) : Code .nothing :=
  l.foldr (fun s code => .settle s.1 s.2 fun _ => code) .skip

section Sends

variable {l : List (TaskId × Outcome)} {mentioned : TaskId → Prop} {k : Option Continuation}

/-- Each resolution keeps a property. -/
theorem Act.Comes.run_sends
    {P : World → Prop} (hP : P w)
    (hstep : ∀ w, P w → ∀ s ∈ l, ∃ b w',
      Comes d (fun perform => Act.settleMarked perform s.1 s.2) w b w' ∧
      Evolves leaves sent own mentioned w.cells w'.cells ∧ outcomeOf w'.cells s.1 ≠ none ∧ P w') :
    ∃ w', Comes d (fun perform => run perform k (.sends l)) w () w' ∧
      Evolves leaves sent own mentioned w.cells w'.cells ∧
        (∀ s ∈ l, outcomeOf w'.cells s.1 ≠ none) ∧
      P w' := by
  induction l generalizing w with
  | nil => exact ⟨w, .pure () w, .refl _, nofun, hP⟩
  | cons s l ih =>
      obtain ⟨b, w₁, hcomes, hevolves, hresolved, hP₁⟩ := hstep w hP s (List.mem_cons_self ..)
      obtain ⟨w', hrun, hlater, hall, hP'⟩ := ih hP₁ fun w hw s hs =>
        hstep w hw s (List.mem_cons_of_mem _ hs)
      refine ⟨w', hcomes.run_settle hrun, hevolves.trans hlater,
        List.forall_mem_cons.mpr ⟨?_, hall⟩, hP'⟩
      obtain ⟨o, ho⟩ := Option.ne_none_iff_exists'.mp hresolved
      rw [hlater.outcome s.1 o ho]
      nofun

/-- Leaves are resolved before anybody asks for them. -/
theorem Act.Comes.run_sends_unconsumed
    (hleaves : ∀ x, leaves x → Unconsumed w.cells x) (hsent : ∀ s ∈ l, leaves s.1 ∧ sent s.1 s.2) :
    ∃ w', Comes d (fun perform => run perform k (.sends l)) w () w' ∧
      Evolves leaves sent own mentioned w.cells w'.cells ∧
        (∀ s ∈ l, outcomeOf w'.cells s.1 ≠ none) ∧
      (∀ x, leaves x → Unconsumed w'.cells x) ∧ w'.remarks = w.remarks := by
  refine run_sends ⟨hleaves, rfl⟩ fun w₁ hw₁ s hs => ?_
  obtain ⟨hleaf, hsent⟩ := hsent s hs
  obtain ⟨b, w', hcomes, hresolved, -, hkept, hmoves⟩ : ∃ b w',
      Comes d (fun perform => Act.settleMarked perform s.1 s.2) w₁ b w' ∧
        outcomeOf w'.cells s.1 ≠ none ∧ _ ∧ (∀ x, Unconsumed w₁.cells x → Unconsumed w'.cells x) ∧
        Moves leaves sent own mentioned w₁ w' :=
    settleMarked_of_isIdle (hw₁.1 s.1 hleaf).isIdle hleaf hsent
  exact ⟨b, w', hcomes, hmoves.toEvolves, hresolved, fun x hx => hkept x (hw₁.1 x hx),
    hmoves.remarks.trans hw₁.2⟩

end Sends

/-- The completion handler runs that notes what it gets. -/
theorem Act.Comes.complete_note (note : Outcome → Remark) (r : Outcome) (w : World) :
    Comes d (fun perform => perform (.complete (.code fun o => .log (note o) .skip) r)) w ()
      { w with log := w.log ++ [.remark (note r)] } :=
  .complete (.of_exec fun _ => rfl)

/-- The expression has been built, and the completion handler is attached. -/
theorem Goes.attach_note
    (h : Goes leaves d own e u .none (· = w) w) (note : Outcome → Remark)
    (hu : (own u ∧ ¬ leaves u) ∨ (leaves u ∧ e.Mentions u)) :
    ∃ w', Comes d (fun perform => Act.attach perform u (.code fun o => .log (note o) .skip))
      w () w' ∧
      Evolves leaves sent own e.Mentions w.cells w'.cells ∧
      IsAttended leaves (fun _ => True) e u
        (.handler (.code fun o => .log (note o) .skip)) w.remarks
        (fun r w' => w'.remarks = w.remarks ++ [note r]) w' := by
  obtain ⟨w', hmoves, hgoes⟩ : ∃ w', Moves leaves sent own e.Mentions w w' ∧ Goes leaves d own e u
      (.handler (.code fun o => .log (note o) .skip)) _ w' :=
    h.attach (.code fun o => .log (note o) .skip) hu
  rcases hgoes with ⟨r, hgoes⟩ | ⟨t, inner, hgoes⟩
  · refine ⟨_, hgoes.comes _ (.complete_note note r w'), hmoves.toEvolves,
      .inl ⟨r, hgoes.value, hgoes.idle, ?_⟩⟩
    simpa [World.remarks, Entry.remark?] using hmoves.remarks
  · exact ⟨w', hgoes.comes, hmoves.toEvolves,
      .inr ⟨t, inner, hgoes.waits, hgoes.idle, fun x _ => .inl trivial, hmoves.remarks⟩⟩

theorem IsAttended.remarks_eq
    {remarks : List Remark} {note : Outcome → Remark}
    (h : IsAttended leaves own e u c remarks (fun r w' => w'.remarks = remarks ++ [note r]) w) :
    w.remarks = remarks ++ ((e.value (outcomeOf w.cells)).map note).toList := by
  rcases h with ⟨r, hvalue, -, hremarks⟩ | ⟨t, inner, h⟩
  · rw [hremarks, hvalue]
    rfl
  · rw [h.comes, h.waits.value_eq_none]
    simp

/-- Leaves are resolved after the completion handler has been attached. -/
theorem IsAttended.run_sends
    {l : List (TaskId × Outcome)} {k : Option Continuation} {remarks : List Remark}
    {note : Outcome → Remark} (hresolves : Resolves d leaves sent e)
    (h : IsAttended leaves (fun _ => True) e u
      (.handler (.code fun o => .log (note o) .skip)) remarks
      (fun r w' => w'.remarks = remarks ++ [note r]) w)
    (hsent : ∀ s ∈ l, leaves s.1 ∧ sent s.1 s.2) :
    ∃ w', Comes d (fun perform => run perform k (.sends l)) w () w' ∧
      Evolves leaves sent (fun _ => True) e.Mentions w.cells w'.cells ∧
      (∀ s ∈ l, outcomeOf w'.cells s.1 ≠ none) ∧
      IsAttended leaves (fun _ => True) e u (.handler (.code fun o => .log (note o) .skip)) remarks
        (fun r w' => w'.remarks = remarks ++ [note r]) w' := by
  refine Comes.run_sends h fun w₁ hw₁ s hs => ?_
  obtain ⟨hleaf, hsent⟩ := hsent s hs
  refine hw₁.settleMarked hresolves hsent hleaf (fun _ _ => trivial) (.inl trivial)
    (fun w₂ r hremarks _ => ⟨_, .complete_note note r w₂, rfl, ?_⟩)
    fun r w₂ w₃ hremarks _ hserved => ?_
  · simpa [World.remarks, Entry.remark?] using hremarks
  · exact hremarks.trans hserved

namespace Expr

/-- Resolves some leaves, builds the expression, attaches a completion handler that notes what it
gets, and resolves the other leaves. -/
def program (e : Expr) (note : Outcome → Remark) (before after : List (TaskId × Outcome)) :
    Code .nothing :=
  (Code.sends before).andThen fun _ => e.code.andThen fun u =>
    .attach u (fun o => .log (note o) .skip) (.sends after)

/-- Whatever is resolved before the expression is built, meanwhile, and after the completion handler
has been attached: the handler has run if the expression has a value, with this value, and once. -/
theorem program_comes
    {note : Outcome → Remark} {before after : List (TaskId × Outcome)}
    (hlinear : e.IsLinear (Unconsumed w.cells) sent)
    (hsent : ∀ s ∈ before ++ after, Unconsumed w.cells s.1 ∧ sent s.1 s.2)
    (d : Dispatcher) (k : Option Continuation) :
    ∃ w', Comes d (fun perform => run perform k (e.program note before after)) w () w' ∧
      w'.remarks = w.remarks ++ ((e.value (outcomeOf w'.cells)).map note).toList ∧
      (∀ s ∈ before ++ after, outcomeOf w'.cells s.1 ≠ none) ∧
      (∀ x o, outcomeOf w.cells x = some o → outcomeOf w'.cells x = some o) ∧
      ∀ x o, Unconsumed w.cells x → outcomeOf w'.cells x = some o →
        outcomeOf w.cells x = some o ∨ sent x o := by
  obtain ⟨hbefore, hafter⟩ := List.forall_mem_append.mp hsent
  obtain ⟨hbuilds, hresolves⟩ : Builds d (Unconsumed w.cells) sent e ∧
      Resolves d (Unconsumed w.cells) sent e :=
    hlinear.builds_resolves
  obtain ⟨w₁, hrun₁, hevolves₁, hall₁, hunconsumed, hremarks₁⟩ : ∃ w₁,
      Comes d (fun perform => run perform k (.sends before)) w () w₁ ∧
      Evolves (Unconsumed w.cells) sent (fun _ => True) (fun _ => True) w.cells w₁.cells ∧ _ :=
    Comes.run_sends_unconsumed (fun x => id) hbefore
  obtain ⟨u, w₂, hrun₂, hmoves₂, hu, hgoes⟩ := hbuilds k
    (fun x hx _ => (hunconsumed x hx).isIdle)
    fun x hx => hunconsumed x (hlinear.leaves_of_mentions hx)
  obtain ⟨w₃, hrun₃, hevolves₃, hattended⟩ : ∃ w₃, Comes d _ w₂ () w₃ ∧
      Evolves (Unconsumed w.cells) sent _ e.Mentions w₂.cells w₃.cells ∧ _ :=
    hgoes.attach_note note hu
  obtain ⟨w₄, hrun₄, hevolves₄, hall₄, hattended₄⟩ := hattended.run_sends (k := k) hresolves hafter
  have hlater :
      Evolves (Unconsumed w.cells) sent (fun _ => True) (fun _ => True) w₁.cells w₄.cells :=
    ((hmoves₂.toEvolves.trans hevolves₃).mono (fun _ _ => trivial) fun _ _ => trivial).trans
      (hevolves₄.mono (fun _ => id) fun _ _ => trivial)
  refine ⟨w₄, hrun₁.run_andThen (hrun₂.run_andThen (hrun₃.run_attach hrun₄)), ?_,
    List.forall_mem_append.mpr ⟨fun s hs => ?_, hall₄⟩, (hevolves₁.trans hlater).outcome,
    (hevolves₁.trans hlater).sent⟩
  · rw [hattended₄.remarks_eq, hmoves₂.remarks, hremarks₁]
  · obtain ⟨o, ho⟩ := Option.ne_none_iff_exists'.mp (hall₁ s hs)
    rw [hlater.outcome s.1 o ho]
    nofun

/-- Once the first task has a value, the second is waited for, and a panic meets its value. -/
def broken : Expr :=
  (leaf 0).andThen (fun _ => none) fun _ => (leaf 1).map fun _ => .error ⟨.text "boom", nofun⟩

/-- What comes out is an error, whose text stands for the outcome here. -/
def failureText : Outcome → Remark
  | .ok _ => .note .null
  | .error e => .note (.str e.reason)

theorem program_broken :
    ∃ w', Comes {} (fun perform => run perform none
        (broken.program failureText [(1, .ok (.int 2))] [(0, .ok (.int 1))]))
        { cells := [.fresh, .fresh] } () w' ∧
      w'.remarks = [.note (.str "panicked: boom")] := by
  let w : World := { cells := [.fresh, .fresh] }
  let sent : TaskId → Outcome → Prop := fun x o => (x, o) ∈ [(1, .ok (.int 2)), (0, .ok (.int 1))]
  have hfirst : Unconsumed w.cells 0 := .inl rfl
  have hsecond : Unconsumed w.cells 1 := .inl rfl
  have hlinear : broken.IsLinear (Unconsumed w.cells) sent := by
    refine ⟨hfirst, fun o => ?_⟩
    cases o with
    | ok v => exact ⟨hsecond, by simp [map, Mentions]⟩
    | error e => exact ⟨trivial, by simp [Mentions]⟩
  obtain ⟨w', hcomes, hremarks, hall, -, hsent⟩ : ∃ w',
      Comes {} (fun perform => run perform none
        (broken.program failureText [(1, .ok (.int 2))] [(0, .ok (.int 1))])) w () w' ∧ _ :=
    program_comes hlinear (by simp [hfirst, hsecond, sent]) {} none
  have houtcome : ∀ x o, Unconsumed w.cells x → outcomeOf w.cells x = none →
      outcomeOf w'.cells x ≠ none → (∀ o', sent x o' → o' = o) → outcomeOf w'.cells x = some o := by
    intro x o hleaf hopen hresolved honly
    obtain ⟨o', ho'⟩ := Option.ne_none_iff_exists'.mp hresolved
    rcases hsent x o' hleaf ho' with hbefore | hsent
    · rw [hopen] at hbefore
      contradiction
    · rw [ho', honly o' hsent]
  have h₀ : outcomeOf w'.cells 0 = some (.ok (.int 1)) :=
    houtcome 0 _ hfirst rfl (hall (0, .ok (.int 1)) (by simp)) (by simp [sent])
  have h₁ : outcomeOf w'.cells 1 = some (.ok (.int 2)) :=
    houtcome 1 _ hsecond rfl (hall (1, .ok (.int 2)) (by simp)) (by simp [sent])
  have hvalue : broken.value (outcomeOf w'.cells) = some (.error (.internal "panicked: boom")) := by
    simp [broken, value_andThen, value_map, value, h₀, h₁, Answer.outcome, Panic.failure,
      Panic.message]
  refine ⟨w', hcomes, hremarks.trans ?_⟩
  rw [hvalue]
  rfl

end Expr

end RouteDispatch
