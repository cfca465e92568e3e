import RouteDispatch.Proofs.Binding.Filling
import RouteDispatch.Proofs.Session.Triple

/-!
# Bad requests are the client's fault

Matching and binding a request never panics, if the parser does not, and never fails for a reason of
the server's own: what a request can do wrong is to name no route, or to give values that cannot be
taken.  The binder's other ways out are there for captures without a place, and the captures of a
match have places.
-/

namespace RouteDispatch

/-- The parser comes to an end with a value or without one. -/
def ParamParser.NeverPanics (parser : ParamParser) : Prop :=
  ∀ type raw, ∃ found, parser type raw = .ok found

/-- A capture that denotes a parameter stands at a captured segment, whose parameter is there. -/
theorem Endpoint.exists_capture_of_denoted?
    {e : Endpoint} {c : Capture} {param : Nat} {spec : ParamSpec}
    (h : e.denoted? c = some (param, spec)) :
    ∃ name, e.segments[c.depth]? = some (.capture name param) ∧ e.params[param]? = some spec := by
  obtain ⟨hparam, hspec⟩ := denoted?_eq_some_iff.mp h
  obtain ⟨segment, hsegment, hcapture⟩ := Option.bind_eq_some_iff.mp hparam
  cases segment with
  | literal text => simp [Segment.param?] at hcapture
  | capture name other =>
      obtain rfl : other = param := by simpa [Segment.param?] using hcapture
      exact ⟨name, hsegment, hspec⟩

namespace Binder

/-! ## Failures -/

theorem eq_failure_of_faultOf
    {e : CallError} {reading : Except Panic (Option ParamValue)}
    (hreading : ∃ found, reading = .ok found) {f : Fault} (h : faultOf e reading = some f) :
    f = .failure e := by
  obtain ⟨found, rfl⟩ := hreading
  cases found with
  | none => exact (Option.some.inj h).symm
  | some v => cases h

theorem exists_convert
    {parser : ParamParser} (h : parser.NeverPanics) (type : ParamType) (raw : RawValue) :
    ∃ found, raw.convert parser type = .ok found := by
  rcases raw with raw | j
  · exact h type raw
  · cases j with
    | str raw => exact h type raw
    | _ => exact ⟨_, rfl⟩

/-- What stops the binder is a failure about the values of the request. -/
theorem invalidState_of_stops_bind
    {parser : ParamParser} (hparser : parser.NeverPanics) (order : List SourceKind) {s : Sources}
    (hs : s.IsHashed) {e : Endpoint} {captures : List Capture} (h : e.Takes captures) {f : Fault}
    (hstops : Stops (bind parser order s e captures) f) :
    ∃ failure, f = .failure failure ∧ failure.cause = .invalidState := by
  have hfirst := (stops_bind_iff_firstFault? hs h).mp hstops
  rcases Option.or_eq_some_iff.mp hfirst with hcapture | ⟨-, hquery⟩
  · obtain ⟨c, -, hfault⟩ := List.exists_of_findSome?_eq_some hcapture
    obtain ⟨denoted, -, hparse⟩ := Option.bind_eq_some_iff.mp hfault
    exact ⟨_, eq_failure_of_faultOf (hparser denoted.2.type c.text) hparse, rfl⟩
  · obtain ⟨spec, -, hfault⟩ := List.exists_of_findSome?_eq_some hquery
    unfold queryFault? at hfault
    split at hfault
    next raw _ =>
      exact ⟨_, eq_failure_of_faultOf (exists_convert hparser spec.type raw) hfault, rfl⟩
    · split at hfault
      · exact ⟨missing spec, (Option.some.inj hfault).symm, rfl⟩
      · cases hfault

end Binder

/-- Sources cannot be made of a JSON body that is no object, and of nothing else. -/
theorem Request.invalidState_of_sources {q : Request} {e : CallError} (h : q.sources = .error e) :
    e.cause = .invalidState := by
  unfold Request.sources at h
  dsimp only at h
  split at h
  next j _ =>
    cases j with
    | obj members => cases h
    | _ =>
        obtain rfl := Except.error.inj h
        rfl
  · cases h

namespace Act

/-! ## Preparing a call -/

section Runs

variable {stopped : Stop → World → Prop}

theorem runs_enter (c : CallId) (stage : Stage) :
    Triple (fun _ => True) (enter c stage) (fun _ _ => True) stopped := by
  unfold enter
  refine Triple.get fun w _ => ?_
  split
  · exact Triple.done trivial
  · split
    · exact Triple.done trivial
    · exact Triple.write (Triple.editCall_last trivial)

theorem runs_noteMatch (c : CallId) (m : RouteMatch) :
    Triple (fun _ => True) (noteMatch c m) (fun _ _ => True) stopped := by
  unfold noteMatch
  refine Triple.of_world fun w _ => Triple.editCall ?_
  refine Triple.bind ((runs_enter c .matched).apply trivial) fun _ => ?_
  exact Triple.get fun w _ => Triple.write_last trivial

/-- A computation that is stopped by failures of one kind only comes to a value or to one of them. -/
theorem runs_liftBinder
    {α : Type} {bound : Binder α} {allowed : CallError → Prop}
    (h : ∀ f, bound.Stops f → ∃ failure, f = .failure failure ∧ allowed failure) :
    Triple (fun _ => True) (liftBinder bound)
      (fun result _ => ∀ e, result = .error e → allowed e) stopped := by
  unfold liftBinder
  cases hrun : bound.run with
  | error p =>
      obtain ⟨failure, hfailure, -⟩ := h (.panic p) hrun
      cases hfailure
  | ok result =>
      refine Triple.pure fun _ _ e he => ?_
      subst he
      obtain ⟨failure, hfailure, hallowed⟩ := h (.failure e) hrun
      obtain rfl := Binder.Fault.failure.inj hfailure
      exact hallowed

theorem runs_calling
    {α : Type} {a : Act α} {post : α → World → Prop} {pre : World → Prop}
    (h : Triple pre a post fun _ _ => False) (c : CallId) (piece : Piece) :
    Triple pre (calling c piece a) post fun _ _ => False := by
  refine (h.calling c piece).stops ?_
  rintro (p | _) w hw
  · obtain ⟨_, hfalse, -⟩ := hw
    exact hfalse
  · exact hw

end Runs

/-- The preparation of a call comes to an end: without a match it fails for want of a route, and with
one it fails about the values of the request or not at all. -/
theorem runs_prepare
    {plugins : List Plugin} {definitions : List Definition} {table : RouteTable}
    (h : (RouteTable.build plugins definitions).2 = .ok table)
    {d : Dispatcher} (hparser : d.config.parser.NeverPanics) (c : CallId) (q : Request)
    (version : Nat) :
    Triple (fun w => w.table = table) (prepare d c q version)
      (fun result _ =>
        match table.router.find q.method q.path version with
        | none => result = .error (.noRoute q.method q.path version)
        | some _ => ∀ e, result = .error e → e.cause = .invalidState)
      fun _ _ => False := by
  unfold prepare
  refine Triple.get fun w hw => ?_
  subst hw
  refine Triple.step rfl ?_
  cases hfind : w.table.router.find q.method q.path version with
  | none => exact Triple.pure fun _ _ => rfl
  | some m =>
      obtain ⟨-, htakes⟩ := RouteTable.takes_of_find h hfind
      refine Triple.bind ((runs_noteMatch c m).apply trivial) fun _ => ?_
      cases hsources : q.sources with
      | error e =>
          refine Triple.pure fun _ _ e' he' => ?_
          obtain rfl := Except.error.inj he'
          exact Request.invalidState_of_sources hsources
      | ok sources =>
          have hbound := runs_calling (runs_liftBinder fun f =>
            Binder.invalidState_of_stops_bind hparser d.config.sourceOrder
              (Request.isHashed_of_sources hsources) htakes) c .binder
          refine Triple.bind hbound fun result => ?_
          cases result with
          | error e =>
              refine Triple.pure fun _ hw e' he' => ?_
              obtain rfl := Except.error.inj he'
              exact hw e rfl
          | ok values =>
              refine Triple.bind ((runs_enter c .bound).strengthen fun _ _ => trivial) fun _ => ?_
              exact Triple.pure fun _ _ => nofun

/-- For every compiled table, every parser that does not panic and every request, matching and
binding come to an end in whatever world: with a failure that nothing was found exactly when no route
may answer, and otherwise with the route and its arguments or with a failure about the values of the
request.  The captures of a match stand at captured segments of its route, and their parameters are
there. -/
theorem prepare_of_build
    {plugins : List Plugin} {definitions : List Definition} {table : RouteTable}
    (h : (RouteTable.build plugins definitions).2 = .ok table)
    {d : Dispatcher} (hparser : d.config.parser.NeverPanics) (c : CallId) (q : Request)
    (version : Nat) {w : World} (hw : w.table = table) :
    (∃ result w', (prepare d c q version).exec w = (.ok result, w') ∧
      ((∃ e, result = .error e ∧ e.cause = .notFound) ↔
        ∀ r ∈ table.routes, r.answers q.method q.path version = false) ∧
      ∀ e, result = .error e →
        e = .noRoute q.method q.path version ∨ e.cause = .invalidState) ∧
    ∀ m, table.router.find q.method q.path version = some m → ∀ c ∈ m.captures,
      ∃ name param spec, m.route.segments[c.depth]? = some (.capture name param) ∧
        m.route.params[param]? = some spec := by
  constructor
  · have hspec := runs_prepare h hparser c q version w hw
    have hresolution := Router.resolution_of_build h q.method q.path version
    cases hexec : (prepare d c q version).exec w with
    | mk outcome w' =>
        rw [hexec] at hspec
        cases outcome with
        | error s => exact hspec.elim
        | ok result =>
            refine ⟨result, w', rfl, ?_⟩
            cases hfind : table.router.find q.method q.path version with
            | none =>
                rw [hfind] at hspec hresolution
                dsimp only at hspec hresolution
                subst hspec
                exact ⟨⟨fun _ => hresolution, fun _ => ⟨_, rfl, rfl⟩⟩, fun e he =>
                  .inl (Except.error.inj he).symm⟩
            | some m =>
                rw [hfind] at hspec hresolution
                dsimp only at hspec hresolution
                refine ⟨⟨?_, ?_⟩, fun e he => .inr (hspec e he)⟩
                · rintro ⟨e, he, hcause⟩
                  simp [hspec e he] at hcause
                · intro hsilent
                  have hanswers := hresolution.answers
                  simp [hsilent m.route hresolution.registered] at hanswers
  · intro m hfind c hc
    obtain ⟨-, htakes⟩ := RouteTable.takes_of_find h hfind
    obtain ⟨param, spec, hdenoted, -⟩ := htakes.denotes c hc
    obtain ⟨name, hsegment, hspec⟩ := Endpoint.exists_capture_of_denoted? hdenoted
    exact ⟨name, param, spec, hsegment, hspec⟩

/-- Asks for a member by a number that is none. -/
def strayRequest : Request :=
  { method := "GET", path := "/teams/red/members/seven?limit=5" }

/-- There is a route for the request, so it fails about the number. -/
theorem prepare_stray :
    ∃ table, (RouteTable.build [] [RouteTable.memberDefinition]).2 = .ok table ∧
      ({} : Dispatcher).config.parser.NeverPanics ∧
      ∃ e w', (prepare {} 0 strayRequest 0).exec { table } = (.ok (.error e), w') ∧
        e = .invalidState "path parameter 'id' has invalid int value 'seven'" ∧
        ((∃ e', (.error e : Except CallError (Route × Args)) = .error e' ∧ e'.cause = .notFound) ↔
          ∀ r ∈ table.routes, r.answers "GET" strayRequest.path 0 = false) ∧
        (e = .noRoute "GET" strayRequest.path 0 ∨ e.cause = .invalidState) := by
  have hparser : ({} : Dispatcher).config.parser.NeverPanics := fun _ _ => ⟨_, rfl⟩
  have hfailed : ((RouteTable.build [] [RouteTable.memberDefinition]).2.toOption.bind fun table =>
      match ((prepare {} 0 strayRequest 0).exec { table }).1 with
      | .ok (.error e) => some e
      | _ => none) =
        some (.invalidState "path parameter 'id' has invalid int value 'seven'") := by
    decide +kernel
  cases htable : (RouteTable.build [] [RouteTable.memberDefinition]).2 with
  | error e => simp [htable, Except.toOption] at hfailed
  | ok table =>
      obtain ⟨⟨result, w', hexec, hnotFound, hcauses⟩, -⟩ :=
        prepare_of_build htable hparser 0 strayRequest 0 (w := { table }) rfl
      rw [htable] at hfailed
      change (match ((prepare {} 0 strayRequest 0).exec { table }).1 with
        | .ok (.error e) => some e
        | _ => none) = _ at hfailed
      rw [hexec] at hfailed
      cases result with
      | ok prepared => cases hfailed
      | error e =>
          exact ⟨table, rfl, hparser, e, w', hexec, Option.some.inj hfailed, hnotFound,
            hcauses e rfl⟩

end Act
end RouteDispatch
