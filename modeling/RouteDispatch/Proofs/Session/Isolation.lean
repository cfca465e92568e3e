import RouteDispatch.Proofs.Route.Compilation
import RouteDispatch.Proofs.Router.Resolution
import RouteDispatch.Proofs.Session.Traffic

/-!
# Calls do not interfere

Each call of a traffic is followed in a traffic of its own, in which nothing else happens: it is
dispatched alone on the table that is installed at its dispatch, and its tasks are resolved and
dropped as they are in the full traffic.  An event of a call is done in the full traffic and in its
own, where the lanes stay twins, and leaves the lanes of other calls as they are.  So a call is seen
in the full traffic as it is seen alone.
-/

namespace RouteDispatch

/-- A table that is compiled from local plugins and handlers finds routes with local code. -/
theorem RouteTable.isLocal_of_build
    {ids : Nat → Nat → Prop} {plugins : List Plugin} {definitions : List Definition}
    {table : RouteTable} (h : (build plugins definitions).2 = .ok table)
    (hplugins : ∀ p ∈ plugins, p.IsLocal ids)
    (hhandlers : ∀ d ∈ definitions, d.handler.IsLocal ids) : table.IsLocal ids := by
  intro method path version m hfind
  have hresolution := Router.resolution_of_build h method path version
  rw [hfind] at hresolution
  obtain ⟨i, hi, hroute⟩ := List.getElem_of_mem hresolution.registered
  have hall := compiles_of_build h
  have hcompiles := hall.get (hall.length_eq ▸ hi) hi
  change Compiles plugins _ table.routes[i] at hcompiles
  rw [hroute] at hcompiles
  refine ⟨fun a ha => hplugins _ (mem_plugins_of_compiles hcompiles a ha), ?_⟩
  rw [(isChecked_of_compiles hcompiles).2]
  exact hhandlers _ (List.get_mem ..)

namespace Traffic

variable {ids : Nat → Nat → Prop}

/-- The call with a label is the same call in two traffics, or is in neither. -/
inductive Follows (ids : Nat → Nat → Prop) (label : Nat) (τ τ' : Traffic) : Prop
  | absent (hl : τ.lane label = none) (hl' : τ'.lane label = none)
  | present {l l' : Lane} (hl : τ.lane label = some l) (hl' : τ'.lane label = some l')
      (htwins : Twins ids τ.world l τ'.world l') (hfits : l'.Fits τ'.world)

/-- A traffic and those in which each of its calls is alone, when some events are to come. -/
structure IsFollowed (ids : Nat → Nat → Prop) (σ : Nat → Traffic) (τ : Traffic)
    (rest : List Event) : Prop where
  tidy : τ.IsTidy
  follows : ∀ label, Follows ids label τ (σ label)
  -- A call that is to come finds the same table when it is alone.
  table : ∀ label, τ.lane label = none →
    (σ label).world.table = Event.tableFor label τ.world.table rest
  isLocal : τ.world.table.IsLocal ids

variable {σ σ' : Nat → Traffic} {τ : Traffic} {rest : List Event} {label : Nat}

theorem isFollowed_start {table : RouteTable} (hlocal : table.IsLocal ids) (events : List Event) :
    IsFollowed ids (fun label => start (Event.tableFor label table events)) (start table) events :=
  ⟨isTidy_start table, fun _ => .absent rfl rfl, fun _ _ => rfl, hlocal⟩

theorem fits_opened (τ : Traffic) (label : Nat) (view : CallView) :
    Lane.Fits { call := τ.world.calls.length } (τ.opened label view).world :=
  ⟨fun _ ht => absurd ht List.not_mem_nil, List.nodup_nil⟩

/-- A call that has just been made is the same wherever it was made. -/
theorem twins_opened {τ τ' : Traffic} {view : CallView} (hview : ids view.id view.id) :
    Twins ids (τ.opened label view).world { call := τ.world.calls.length }
      (τ'.opened label view).world { call := τ'.world.calls.length } where
  length := rfl
  call := ⟨{ view }, { view }, by simp [Traffic.opened], by simp [Traffic.opened],
    ⟨hview, rfl⟩, rfl, .idle, .none⟩
  cells := fun hmem => absurd hmem List.not_mem_nil
  log := rfl
  stops := rfl

/-- A dispatch makes a call and goes on with it. -/
theorem advance_dispatch (d : Dispatcher) (depth : Nat) (τ : Traffic) (label : Nat) (r : Request) :
    τ.advance label { call := τ.world.calls.length } ((d.act depth (.dispatch r)).exec τ.world) =
      (τ.opened label (r.firstView d)).advance label { call := τ.world.calls.length }
        ((do let _ ← Act.pursue (perform d depth) d τ.world.calls.length r; pure ()).exec
          (τ.opened label (r.firstView d)).world) := by
  unfold Dispatcher.act Traffic.advance
  rw [Act.exec_bind, Act.exec_bind, Act.exec_dispatch, Traffic.opened, Function.update_idem]
  rfl

theorem eq_of_others (hown : σ' label = σ label) (hothers : ∀ other ≠ label, σ' other = σ other) :
    σ' = σ := by
  funext other
  by_cases h : other = label
  · rw [h, hown]
  · exact hothers other h

namespace IsFollowed

/-- Matching work for a call, in the full traffic and where the call is alone. -/
theorem advance (h : IsFollowed ids σ τ rest) {l l' : Lane} (hl : τ.lane label = some l)
    (htwins : Twins ids τ.world l (σ label).world l') (hfits : l'.Fits (σ label).world)
    {α β : Type} {a : Act α} {a' : Act β} {R : Pairing → α → β → Prop}
    (hmatches : (l.scene ids τ.world l' (σ label).world).Matches (l.pairing l') a a' R)
    (hown : σ' label = (σ label).advance label l' (a'.exec (σ label).world))
    (hothers : ∀ other ≠ label, σ' other = σ other) :
    IsFollowed ids σ' (τ.advance label l (a.exec τ.world)) rest := by
  obtain ⟨ρ, -, hmirrored, hend⟩ := hmatches.here htwins.mirrored
  have htable : (a.exec τ.world).2.table = τ.world.table := hmirrored.table
  refine ⟨h.tidy.advance hl hmirrored, fun other => ?_, fun other hnone => ?_, ?_⟩
  · by_cases hsame : other = label
    · subst hsame
      rw [hown]
      obtain ⟨n, -, hn', -⟩ := hmirrored.grown
      exact .present (lane_advance_self ..) (lane_advance_self ..)
        (htwins.extended hmirrored hend) (hfits.extended (hn' ▸ Nat.le_add_right _ n))
    · rw [hothers other hsame]
      have hlane := lane_advance_of_ne τ label l (a.exec τ.world) hsame
      cases h.follows other with
      | absent hk hk' => exact .absent (hlane.trans hk) hk'
      | present hk hk' htwins' hfits' =>
          obtain ⟨hcall, hdisjoint⟩ := h.tidy.apart hk hl hsame
          refine .present (hlane.trans hk) hk'
            (htwins'.frame (hmirrored.otherCalls _ hcall) fun t ht => ?_) hfits'
          exact hmirrored.otherCells t ((h.tidy.fits hk).lt t ht) fun p hp hpt =>
            hdisjoint ht (hpt ▸ (List.of_mem_zip hp).1)
  · have hne : other ≠ label := by
      rintro rfl
      simp at hnone
    rw [lane_advance_of_ne _ _ _ _ hne] at hnone
    rw [hothers other hne, world_advance, htable]
    exact h.table other hnone
  · rw [world_advance, htable]
    exact h.isLocal

/-- An event that changes nothing is over. -/
theorem skip {e : Event} (h : IsFollowed ids σ τ (e :: rest))
    (htable : ∀ label, τ.lane label = none →
      Event.tableFor label τ.world.table (e :: rest) = Event.tableFor label τ.world.table rest) :
    IsFollowed ids σ τ rest :=
  ⟨h.tidy, h.follows, fun other hl => (h.table other hl).trans (htable other hl), h.isLocal⟩

/-! ## Events -/

section Events

variable {d : Dispatcher} (depth : Nat) (hlistener : d.listener.IsLocal ids)

include hlistener

/-- Code on a task of a call does the same where the call is alone. -/
theorem touch (h : IsFollowed ids σ τ rest) {position : Nat} {code : TaskId → Code .nothing}
    (hcode : ∀ t t', (code t).Alike ids [(t, t')] (code t'))
    (hown : σ' label = (σ label).touch d depth label position code)
    (hothers : ∀ other ≠ label, σ' other = σ other) :
    IsFollowed ids σ' (τ.touch d depth label position code) rest := by
  cases h.follows label with
  | absent hl hl' =>
      simp only [Traffic.touch, hl, hl'] at hown ⊢
      rwa [eq_of_others hown hothers]
  | @present l l' hl hl' htwins hfits =>
      cases ht : l.tasks[position]? with
      | none =>
          have ht' : l'.tasks[position]? = none := by
            rw [List.getElem?_eq_none_iff] at ht ⊢
            exact htwins.length ▸ ht
          simp only [Traffic.touch, hl, hl', ht, ht'] at hown ⊢
          rwa [eq_of_others hown hothers]
      | some t =>
          obtain ⟨hlt, -⟩ := List.getElem?_eq_some_iff.mp ht
          obtain ⟨t', ht'⟩ : ∃ t', l'.tasks[position]? = some t' :=
            ⟨_, List.getElem?_eq_getElem (htwins.length ▸ hlt)⟩
          have hmem : (t, t') ∈ l.pairing l' :=
            List.mem_of_getElem? (List.getElem?_zip_eq_some.mpr ⟨ht, ht'⟩)
          simp only [Traffic.touch, hl, hl', ht, ht'] at hown ⊢
          have hS := Lane.isSet_scene ids (h.tidy.fits hl) hfits
          have hcode := (hcode t t').mono (List.cons_subset.mpr ⟨hmem, List.nil_subset _⟩)
          have hrun := Scene.Matches.run hS (Scene.Matches.perform hS hlistener depth) .none hcode
          exact h.advance hl htwins hfits (hrun.seq fun _ _ => .skip ()) hown hothers

omit hlistener in
/-- A call is made in the full traffic, and alone. -/
theorem opened {r : Request} (h : IsFollowed ids σ τ (.dispatch label r :: rest))
    (hl : τ.lane label = none) {view : CallView} (hview : ids view.id view.id)
    (hown : σ' label = (σ label).opened label view)
    (hothers : ∀ other ≠ label, σ' other = σ other) :
    IsFollowed ids σ' (τ.opened label view) rest := by
  refine ⟨h.tidy.opened label view, fun other => ?_, fun other hnone => ?_, h.isLocal⟩
  · by_cases hsame : other = label
    · subst hsame
      rw [hown]
      exact .present (Function.update_self ..) (Function.update_self ..) (twins_opened hview)
        (fits_opened ..)
    · rw [hothers other hsame]
      have hlane : (τ.opened label view).lane other = τ.lane other := Function.update_of_ne hsame ..
      cases h.follows other with
      | absent hk hk' => exact .absent (hlane.trans hk) hk'
      | present hk hk' htwins hfits =>
          refine .present (hlane.trans hk) hk' (htwins.frame ?_ fun _ _ => rfl) hfits
          exact List.getElem?_append_left (h.tidy.call_lt hk)
  · have hne : other ≠ label := by
      rintro rfl
      simp [Traffic.opened] at hnone
    rw [hothers other hne, h.table other ((Function.update_of_ne hne ..).symm.trans hnone)]
    exact if_neg hne.symm

/-- A dispatch finds the table that is installed in the full traffic, and is the same alone. -/
theorem dispatched {r : Request} (h : IsFollowed ids σ τ (.dispatch label r :: rest))
    (hids : ids 0 0) (hown : σ' label = (σ label).step d depth (.dispatch label r))
    (hothers : ∀ other ≠ label, σ' other = σ other) :
    IsFollowed ids σ' (τ.step d depth (.dispatch label r)) rest := by
  cases h.follows label with
  | present hl hl' =>
      simp only [Traffic.step, hl, hl'] at hown ⊢
      rw [eq_of_others hown hothers]
      refine h.skip fun other hnone => if_neg fun hsame => ?_
      subst hsame
      simp [hl] at hnone
  | absent hl hl' =>
      have htable := (h.table label hl).trans (if_pos rfl)
      simp only [Traffic.step, hl, hl', advance_dispatch] at hown ⊢
      have hview : ids (r.firstView d).id (r.firstView d).id := hids
      obtain ⟨σ₁, hσ₁, hothers₁⟩ : ∃ σ₁ : Nat → Traffic,
          σ₁ label = (σ label).opened label (r.firstView d) ∧ ∀ other ≠ label, σ₁ other = σ other :=
        ⟨Function.update σ label _, Function.update_self .., fun other hne =>
          Function.update_of_ne hne ..⟩
      have hopened := h.opened hl hview hσ₁ hothers₁
      have htwins : Twins ids (τ.opened label (r.firstView d)).world
          { call := τ.world.calls.length } (σ₁ label).world
          { call := (σ label).world.calls.length } := hσ₁ ▸ twins_opened hview
      have hfits := fits_opened (σ label) label (r.firstView d)
      rw [← hσ₁] at hown hfits
      refine hopened.advance (R := fun _ _ _ => True) (Function.update_self ..) htwins hfits ?_ hown
        fun other hne => (hothers other hne).trans (hothers₁ other hne).symm
      have hS := Lane.isSet_scene ids (fits_opened τ label (r.firstView d)) hfits
      refine Scene.Matches.seq (Scene.Matches.pursue hS (Scene.Matches.perform hS hlistener _)
        hlistener ?_ h.isLocal r) fun _ _ => .skip ()
      change (σ₁ label).world.table = τ.world.table
      rw [hσ₁]
      exact htable

omit hlistener in
theorem replaced {table : RouteTable} (h : IsFollowed ids σ τ (.replace table :: rest))
    (hlocal : table.IsLocal ids) : IsFollowed ids σ (τ.replaced table) rest where
  tidy := h.tidy.replaced table
  follows other := by
    cases h.follows other with
    | absent hk hk' => exact .absent hk hk'
    | present hk hk' htwins hfits =>
        exact .present hk hk' (htwins.frame rfl fun _ _ => rfl) hfits
  table other hnone := h.table other hnone
  isLocal := hlocal

/-- After an event each call is still followed where it is alone. -/
theorem step {e : Event} (h : IsFollowed ids σ τ (e :: rest)) (hids : ids 0 0)
    (htables : ∀ table, e = .replace table → table.IsLocal ids) :
    IsFollowed ids (fun label => if e.isFor label then (σ label).step d depth e else σ label)
      (τ.step d depth e) rest := by
  cases e with
  | dispatch label r =>
      exact h.dispatched depth hlistener hids (if_pos (by simp [Event.isFor])) fun other hne =>
        if_neg (by simpa [Event.isFor] using hne.symm)
  | settle label position o =>
      refine (h.skip fun _ _ => rfl).touch depth hlistener (fun t t' => ?_)
        (if_pos (by simp [Event.isFor])) fun other hne =>
          if_neg (by simpa [Event.isFor] using hne.symm)
      exact .settle o List.mem_cons_self fun _ => .done trivial
  | abandon label position =>
      refine (h.skip fun _ _ => rfl).touch depth hlistener (fun t t' => ?_)
        (if_pos (by simp [Event.isFor])) fun other hne =>
          if_neg (by simpa [Event.isFor] using hne.symm)
      exact .abandon List.mem_cons_self (.done trivial)
  | replace table => exact h.replaced (htables table rfl)

/-- By induction on the events: after all of them each call is followed where it is alone. -/
theorem run {events : List Event} (h : IsFollowed ids σ τ events) (hids : ids 0 0)
    (htables : ∀ table, .replace table ∈ events → table.IsLocal ids) :
    IsFollowed ids (fun label => (σ label).run d depth (events.filter (Event.isFor label)))
      (τ.run d depth events) [] := by
  induction events generalizing σ τ with
  | nil => exact h
  | cons e rest ih =>
      have hstep := h.step depth hlistener hids fun table he =>
        htables table (he ▸ List.mem_cons_self)
      have hrest := ih hstep fun table hmem => htables table (List.mem_cons_of_mem _ hmem)
      have halone : ∀ label, (σ label).run d depth ((e :: rest).filter (Event.isFor label)) =
          (if e.isFor label then (σ label).step d depth e else σ label).run d depth
            (rest.filter (Event.isFor label)) := by
        intro label
        rw [List.filter_cons]
        split
        · rfl
        · rfl
      rw [funext halone]
      exact hrest

end Events

end IsFollowed

end Traffic

/-! ## What is seen -/

namespace Entry

/-- An entry without its call is about some call if it was. -/
theorem concerns_anonymous {e : Entry} :
    e.anonymous.concerns 0 = true ↔ ∃ c, e.concerns c = true := by
  cases e with
  | remark => simp [anonymous, concerns]
  | woken => simp [anonymous, concerns]
  | trace t => cases t <;> simp [anonymous, Trace.anonymous, concerns]
  | mark m => cases m <;> simp [anonymous, Mark.anonymous, concerns]

/-- Where the entries are about one call at most, it does not matter which one. -/
theorem map_anonymous_filter_concerns {c : CallId} {log : List Entry}
    (hown : ∀ e ∈ log, ∀ d, e.concerns d = true → d = c) :
    (log.filter (concerns c)).map anonymous = (log.map anonymous).filter (concerns 0) := by
  rw [List.filter_map]
  congr 1
  refine List.filter_congr fun e he => ?_
  rw [Function.comp_apply, Bool.eq_iff_iff, concerns_anonymous]
  exact ⟨fun h => ⟨c, h⟩, fun ⟨d, hd⟩ => hown e he d hd ▸ hd⟩

end Entry

namespace Traffic

variable {ids : Nat → Nat → Prop}

theorem tasks_eq_of_twins {w w' : World} {l l' : Lane} (h : Twins ids w l w' l') :
    l.tasks.map (outcomeOf w.cells) = l'.tasks.map (outcomeOf w'.cells) := by
  have hforall : List.Forall₂ (fun t t' => outcomeOf w.cells t = outcomeOf w'.cells t') l.tasks
      l'.tasks := by
    refine List.forall₂_iff_zip.mpr ⟨h.length, fun hmem => ?_⟩
    obtain ⟨x, x', hx, hx', halike⟩ := h.cells hmem
    simp [outcomeOf, hx, hx', halike.outcome?]
  rwa [← List.forall₂_eq_eq_eq, List.forall₂_map_left_iff, List.forall₂_map_right_iff]

theorem answer_eq_of_twins {w w' : World} {l l' : Lane} (h : Twins ids w l w' l') :
    (answerOf w.calls[l.call]?).bind (outcomeOf w.cells) =
      (answerOf w'.calls[l'.call]?).bind (outcomeOf w'.cells) := by
  obtain ⟨x, x', hx, hx', halike⟩ := h.call
  have hanswer := halike.answer
  rw [hx, hx', answerOf, answerOf, Option.bind_some, Option.bind_some]
  generalize x.answer = t, x'.answer = t' at hanswer ⊢
  cases hanswer with
  | none => rfl
  | some hmem =>
      obtain ⟨y, y', hy, hy', hcell⟩ := h.cells hmem
      simp [outcomeOf, hy, hy', hcell.outcome?]

/-- A call that is followed is seen alike in both traffics. -/
theorem Follows.seen_eq {label : Nat} {τ τ' : Traffic} (h : Follows ids label τ τ')
    (htidy : τ.IsTidy) (htidy' : τ'.IsTidy) : τ.seen label = τ'.seen label := by
  cases h with
  | absent hl hl' => rw [seen, seen, hl, hl', Option.map_none, Option.map_none]
  | @present l l' hl hl' htwins =>
      have hcourse : (τ.world.log.filter (Entry.concerns l.call)).map Entry.anonymous =
          (τ'.world.log.filter (Entry.concerns l'.call)).map Entry.anonymous := by
        rw [htidy.course hl, htidy'.course hl',
          Entry.map_anonymous_filter_concerns (htidy.own hl),
          Entry.map_anonymous_filter_concerns (htidy'.own hl'), htwins.log]
      have htasks := tasks_eq_of_twins htwins
      have hanswer := answer_eq_of_twins htwins
      obtain ⟨x, x', hx, hx', halike⟩ := htwins.call
      have hending : endOf τ.world.calls[l.call]? = endOf τ'.world.calls[l'.call]? := by
        simp [hx, hx', endOf, halike.ending.outcome?]
      have hview : τ.world.calls[l.call]?.map (fun call => { call.view with id := 0 }) =
          τ'.world.calls[l'.call]?.map fun call => { call.view with id := 0 } := by
        rw [hx, hx', Option.map_some, Option.map_some, halike.view.2]
      simp only [seen, hl, hl', Option.map_some, hcourse, htwins.log, htwins.stops, hview, hending,
        hanswer, htasks]

theorem isLocal_tableFor (label : Nat) {table : RouteTable} {events : List Event}
    (htable : table.IsLocal ids)
    (htables : ∀ table, .replace table ∈ events → table.IsLocal ids) :
    (Event.tableFor label table events).IsLocal ids := by
  induction events generalizing table with
  | nil => exact htable
  | cons e rest ih =>
      have hrest := fun table hmem => htables table (List.mem_cons_of_mem e hmem)
      cases e with
      | dispatch l r =>
          rw [Event.tableFor]
          split
          · exact htable
          · exact ih htable hrest
      | settle => exact ih htable hrest
      | abandon => exact ih htable hrest
      | replace table' => exact ih (htables table' List.mem_cons_self) hrest

variable (ids)

/-- Where all code keeps to its own call, each call is seen in any traffic as it is seen when it is
dispatched alone, on the table that is installed at its dispatch, and its own tasks are resolved and
dropped in the same order.  As plugins may note what they are given (`Plugin.IsLocal.noting`), this
holds of the payloads of every plugin, too. -/
theorem seen_alone (d : Dispatcher) (depth : Nat) (table : RouteTable) (events : List Event)
    (hids : ids 0 0) (hlistener : d.listener.IsLocal ids) (htable : table.IsLocal ids)
    (htables : ∀ table, .replace table ∈ events → table.IsLocal ids) (label : Nat) :
    ((start table).run d depth events).seen label =
      ((start (Event.tableFor label table events)).run d depth
        (events.filter (Event.isFor label))).seen label := by
  have hfull := (isFollowed_start htable events).run depth hlistener hids htables
  have halone := (isFollowed_start (isLocal_tableFor label htable htables)
    (events.filter (Event.isFor label))).run depth hlistener hids fun table hmem =>
      htables table (List.mem_of_mem_filter hmem)
  exact (hfull.follows label).seen_eq hfull.tidy halone.tidy

variable {ids}

/-- The plugin has the call wait for a task on its way to the handler. -/
def pausingPlugin : Plugin :=
  { name := "pausing"
    bind := Plugin.bindAlways
    modifyCall := fun _ _ args => .create fun t =>
      .entrust t (fun _ => .proceed (.args args) .skip) .skip
    modifyResult := Plugin.passResult }

theorem isLocal_pausingPlugin : pausingPlugin.IsLocal ids where
  modifyCall _ _ _ _ _ := .create fun _ _ =>
    .entrust List.mem_cons_self (fun _ => .proceed _ (.done trivial)) (.done trivial)
  modifyResult _ _ _ _ _ := .proceed _ (.done trivial)

theorem isLocal_echoTable {plugins : List Plugin} (hplugins : ∀ p ∈ plugins, p.IsLocal ids) :
    (Dispatcher.echoTable plugins).IsLocal ids := by
  unfold Dispatcher.echoTable
  cases hbuild : (RouteTable.build plugins _).2 with
  | error e => exact fun _ _ _ _ hfind => nomatch hfind
  | ok table =>
      refine RouteTable.isLocal_of_build hbuild hplugins fun d hd => ?_
      rw [List.mem_singleton.mp hd]
      exact fun _ => .create fun _ _ => .done List.mem_cons_self

/-- A note of the result that a plugin is given. -/
def resultNote : CallView → Payload → Json
  | _, .args _ => .null
  | _, .result v => v

def pausedTable : RouteTable :=
  Dispatcher.echoTable [pausingPlugin.noting resultNote]

/-- Two calls wait at the same time, and their tasks are resolved in turn; between that the table is
replaced, and a third call does not wait. -/
def pausedEvents : List Event :=
  [.dispatch 0 { method := "GET", path := "/echo" },
    .dispatch 1 { method := "GET", path := "/echo" }, .replace (Dispatcher.echoTable []),
    .settle 1 0 (.ok .null), .dispatch 2 { method := "GET", path := "/echo" },
    .settle 0 0 (.ok .null), .settle 1 2 (.ok (.int 7)), .settle 2 0 (.ok (.int 5)),
    .settle 0 2 (.ok (.int 3))]

def pausedTraffic : Traffic :=
  (start pausedTable).run {} Dispatcher.nesting pausedEvents

/-- The caller gets the number. -/
def Seen.gives (n : Int) (s : Seen) : Bool :=
  match s.answer with
  | some (.ok (.int m)) => m == n
  | _ => false

theorem seen_alone_pausedTraffic :
    (pausedTraffic.seen 0 =
        ((start pausedTable).run {} Dispatcher.nesting
          [.dispatch 0 { method := "GET", path := "/echo" }, .settle 0 0 (.ok .null),
            .settle 0 2 (.ok (.int 3))]).seen 0 ∧
      (pausedTraffic.seen 0).any (Seen.gives 3) = true) ∧
    pausedTraffic.seen 2 =
        ((start (Dispatcher.echoTable [])).run {} Dispatcher.nesting
          [.dispatch 2 { method := "GET", path := "/echo" }, .settle 2 0 (.ok (.int 5))]).seen 2 ∧
      (pausedTraffic.seen 2).any (Seen.gives 5) = true := by
  have hpaused : pausedTable.IsLocal fun _ _ => True := by
    refine isLocal_echoTable fun p hp => ?_
    rw [List.mem_singleton.mp hp]
    refine isLocal_pausingPlugin.noting fun payload _ => ?_
    cases payload <;> rfl
  have hreplaced : ∀ table, .replace table ∈ pausedEvents → table.IsLocal fun _ _ => True := by
    intro table hmem
    obtain rfl : table = Dispatcher.echoTable [] := by simpa [pausedEvents] using hmem
    exact isLocal_echoTable (by simp)
  have halone := seen_alone (fun _ _ => True) {} Dispatcher.nesting pausedTable pausedEvents trivial
    (Listener.isLocal_reporting fun _ _ => trivial) hpaused hreplaced
  exact ⟨⟨halone 0, by decide +kernel⟩, halone 2, by decide +kernel⟩

end Traffic
end RouteDispatch
