import RouteDispatch.Binding.Basic
import RouteDispatch.Proofs.Param.Reading
import RouteDispatch.Proofs.Route.Compilation

/-!
# Typed handlers get what they were checked against

The compiler checks a typed handler against the declared types, and the binder makes values of these
types out of what a request gives.  Where a request gives nothing, a fallback is bound instead, and
no check looks at fallbacks.  So the arguments that the binder makes are read by a typed handler of
a compiled route exactly when the handler can read the fallbacks that stand among them.
-/

namespace RouteDispatch

namespace ParamSpec

/-- What is bound when the request gives no value for the parameter. -/
def fallback (s : ParamSpec) : ParamValue :=
  if s.source = .query then s.default else .null

/-- The value is of the declared type or stands in for it. -/
def Holds (s : ParamSpec) (v : ParamValue) : Prop :=
  v.type? = some s.type ∨ v = s.fallback

end ParamSpec

/-! ## Values of the declared type -/

theorem ParamParser.type?_standardValue?
    {type : ParamType} {raw : String} {v : ParamValue} (h : standardValue? type raw = some v) :
    v.type? = some type := by
  cases type with
  | string =>
      obtain rfl := Option.some.inj h
      rfl
  | _ =>
      obtain ⟨x, -, rfl⟩ := Option.map_eq_some_iff.mp h
      rfl

namespace Binder

theorem type?_jsonValue?
    {type : ParamType} {j : Json} {v : ParamValue} (h : jsonValue? type j = some v) :
    v.type? = some type := by
  cases type with
  | int =>
      dsimp only [jsonValue?] at h
      split at h
      · split at h
        · obtain rfl := Option.some.inj h
          rfl
        · simp at h
      · simp at h
  | string =>
      dsimp only [jsonValue?] at h
      split at h <;> cases h <;> rfl
  | _ =>
      obtain ⟨x, -, rfl⟩ := Option.map_eq_some_iff.mp h
      rfl

/-! ## Running the binder -/

variable {α β : Type}

/-- The computation comes to the value. -/
def Gives (c : Binder α) (a : α) : Prop :=
  c.run = .ok (.ok a)

theorem gives_pure_iff {a b : α} : Gives (pure a) b ↔ a = b := by
  constructor
  · intro h
    exact Except.ok.inj (Except.ok.inj h)
  · rintro rfl
    rfl

theorem not_gives_throw {e : CallError} {a : α} : ¬ Gives (throw e) a := by
  intro h
  cases Except.ok.inj h

theorem not_gives_raise {p : Panic} {a : α} : ¬ Gives (raise p) a :=
  nofun

theorem run_bind (c : Binder α) (f : α → Binder β) :
    (c >>= f).run =
      match c.run with
      | .ok (.ok a) => (f a).run
      | .ok (.error e) => .ok (.error e)
      | .error p => .error p := by
  rw [ExceptT.run_bind]
  rcases c.run with p | e | a
  · rfl
  · rfl
  · rfl

theorem gives_bind_iff {c : Binder α} {f : α → Binder β} {b : β} :
    Gives (c >>= f) b ↔ ∃ a, Gives c a ∧ Gives (f a) b := by
  unfold Gives
  rw [run_bind]
  rcases c.run with p | e | a
  · simp
  · simp
  · simp

/-- What every step keeps holds of what a fold gives. -/
theorem of_gives_foldlM
    {step : β → α → Binder β} {P : β → Prop}
    {inputs : List α} (hstep : ∀ a ∈ inputs, ∀ b b', P b → Gives (step b a) b' → P b')
    {start b : β} (hstart : P start) (h : Gives (inputs.foldlM step start) b) :
    P b := by
  induction inputs generalizing start with
  | nil =>
      obtain rfl := gives_pure_iff.mp h
      exact hstart
  | cons a inputs ih =>
      rw [List.foldlM_cons] at h
      obtain ⟨next, hnext, hrest⟩ := gives_bind_iff.mp h
      obtain ⟨hhead, htail⟩ := List.forall_mem_cons.mp hstep
      exact ih htail (hhead start next hstart hnext) hrest

/-- Takes up what was read: a reading without a value is a failure. -/
def settle (fault : CallError) : Except Panic (Option ParamValue) → Binder ParamValue
  | .ok (some v) => pure v
  | .ok none => throw fault
  | .error p => raise p

theorem gives_settle_iff
    {fault : CallError} {reading : Except Panic (Option ParamValue)} {v : ParamValue} :
    Gives (settle fault reading) v ↔ reading = .ok (some v) := by
  rcases reading with p | _ | w
  · simp [settle, not_gives_raise]
  · simp [settle, not_gives_throw]
  · simp [settle, gives_pure_iff]

/-- To parse is to take up what the parser reads. -/
theorem parse_eq (parser : ParamParser) (type : ParamType) (raw : String) (fault : CallError) :
    parse parser type raw fault = settle fault (parser type raw) := by
  have hlift : (liftM (parser type raw) : Binder (Option ParamValue)).run =
      (parser type raw).map .ok := rfl
  refine ExceptT.ext ?_
  rw [parse, run_bind, hlift]
  rcases parser type raw with p | _ | v
  · rfl
  · rfl
  · rfl

theorem gives_parse_iff
    {parser : ParamParser} {type : ParamType} {raw : String} {fault : CallError} {v : ParamValue} :
    Gives (parse parser type raw fault) v ↔ parser type raw = .ok (some v) := by
  rw [parse_eq, gives_settle_iff]

/-- What the standard parser gives is of the type it was asked for. -/
theorem type?_of_gives_parse
    {type : ParamType} {raw : String} {fault : CallError} {v : ParamValue}
    (h : Gives (parse .standard type raw fault) v) : v.type? = some type :=
  ParamParser.type?_standardValue? (Except.ok.inj (gives_parse_iff.mp h))

theorem holds_of_gives_queryValue
    {order : List SourceKind} {sources : Sources} {spec : ParamSpec} {v : ParamValue}
    (hquery : spec.source = .query)
    (h : Gives (queryValue .standard order sources spec) v) : spec.Holds v := by
  unfold queryValue at h
  split at h
  · exact .inl (type?_of_gives_parse h)
  next kind j hlookup =>
    unfold convertJson at h
    split at h
    · exact .inl (type?_of_gives_parse h)
    · split at h
      next value hvalue =>
        obtain rfl := gives_pure_iff.mp h
        exact .inl (type?_jsonValue? hvalue)
      · exact absurd h not_gives_throw
  · split at h
    · exact absurd h not_gives_throw
    · obtain rfl := gives_pure_iff.mp h
      refine .inr ?_
      rw [ParamSpec.fallback, if_pos hquery]

/-! ## Slots -/

/-- Every slot holds null or a value of the declared type. -/
def Captured (specs : List ParamSpec) (values : List ParamValue) : Prop :=
  values.length = specs.length ∧
    ∀ (i : Nat) (spec : ParamSpec) (v : ParamValue), specs[i]? = some spec →
      values[i]? = some v → v = .null ∨ v.type? = some spec.type

theorem captured_replicate (specs : List ParamSpec) :
    Captured specs (List.replicate specs.length .null) := by
  constructor
  · simp
  · intro i spec v _ hv
    obtain ⟨-, rfl⟩ := by simpa [List.getElem?_replicate] using hv
    exact .inl rfl

theorem captured_of_gives_bindCapture
    {e : Endpoint} {values values' : List ParamValue} {c : Capture}
    (hcaptured : Captured e.params values) (h : Gives (bindCapture .standard e values c) values') :
    Captured e.params values' := by
  unfold bindCapture at h
  split at h
  · exact absurd h not_gives_throw
  next param hparam =>
    split at h
    · exact absurd h not_gives_raise
    next spec hspec =>
      obtain ⟨value, hvalue, hset⟩ := gives_bind_iff.mp h
      obtain rfl := gives_pure_iff.mp hset
      refine ⟨by simpa using hcaptured.1, ?_⟩
      intro i otherSpec v hother hv
      by_cases hi : param = i
      · subst hi
        obtain rfl : spec = otherSpec := Option.some.inj (hspec.symm.trans hother)
        obtain ⟨-, rfl⟩ := by simpa [List.getElem?_set] using hv
        exact .inr (type?_of_gives_parse hvalue)
      · rw [List.getElem?_set_ne hi] at hv
        exact hcaptured.2 i otherSpec v hother hv

theorem captured_of_gives_bindCaptures
    {e : Endpoint} {captures : List Capture} {values : List ParamValue}
    (h : Gives (bindCaptures .standard e captures) values) : Captured e.params values :=
  of_gives_foldlM (fun _ _ _ _ hcaptured hstep => captured_of_gives_bindCapture hcaptured hstep)
    (captured_replicate e.params) h

theorem gives_bindQueries_cons_iff
    {parser : ParamParser} {order : List SourceKind} {sources : Sources} {spec : ParamSpec}
    {specs : List ParamSpec} {value : ParamValue} {before values : List ParamValue} :
    Gives (bindQueries parser order sources (spec :: specs) (value :: before)) values ↔
      ∃ first rest, values = first :: rest ∧
        (if spec.source = .query then Gives (queryValue parser order sources spec) first
          else first = value) ∧
        Gives (bindQueries parser order sources specs before) rest := by
  rw [bindQueries]
  split
  · simp only [gives_bind_iff, gives_pure_iff]
    grind
  · simp only [gives_bind_iff, gives_pure_iff]
    grind

theorem holds_of_gives_bindQueries
    {order : List SourceKind} {sources : Sources} {specs : List ParamSpec}
    {captured values : List ParamValue} (hcaptured : Captured specs captured)
    (h : Gives (bindQueries .standard order sources specs captured) values) :
    values.length = specs.length ∧
      ∀ (i : Nat) (spec : ParamSpec) (v : ParamValue), specs[i]? = some spec →
        values[i]? = some v → spec.Holds v := by
  induction specs generalizing captured values with
  | nil =>
      obtain rfl : values = [] := by
        cases captured with
        | nil => exact (gives_pure_iff.mp h).symm
        | cons w captured => exact (gives_pure_iff.mp h).symm
      simp
  | cons spec specs ih =>
      cases captured with
      | nil => simp [Captured] at hcaptured
      | cons w captured =>
          obtain ⟨first, rest, rfl, hfirst, hrest⟩ := gives_bindQueries_cons_iff.mp h
          have hhead : spec.Holds first := by
            by_cases hquery : spec.source = .query
            · rw [if_pos hquery] at hfirst
              exact holds_of_gives_queryValue hquery hfirst
            · rw [if_neg hquery] at hfirst
              subst hfirst
              rcases hcaptured.2 0 spec first rfl rfl with rfl | htype
              · refine .inr ?_
                rw [ParamSpec.fallback, if_neg hquery]
              · exact .inl htype
          have htail : Captured specs captured := by
            refine ⟨by simpa using hcaptured.1, fun i otherSpec v hspec hv => ?_⟩
            exact hcaptured.2 (i + 1) otherSpec v (by simpa using hspec) (by simpa using hv)
          obtain ⟨hlength, hholds⟩ := ih htail hrest
          refine ⟨by simp [hlength], ?_⟩
          intro i otherSpec v hspec hv
          cases i with
          | zero =>
              obtain rfl : spec = otherSpec := by simpa using hspec
              obtain rfl : first = v := by simpa using hv
              exact hhead
          | succ i => exact hholds i otherSpec v (by simpa using hspec) (by simpa using hv)

/-- With the standard parser, every slot is bound to a value of the declared type or to the
fallback. -/
theorem holds_of_gives_bind
    {order : List SourceKind} {sources : Sources} {e : Endpoint} {captures : List Capture}
    {values : List ParamValue} (h : Gives (bind .standard order sources e captures) values) :
    values.length = e.params.length ∧
      ∀ (i : Nat) (spec : ParamSpec) (v : ParamValue), e.params[i]? = some spec →
        values[i]? = some v → spec.Holds v := by
  obtain ⟨captured, hcaptures, hqueries⟩ := gives_bind_iff.mp h
  exact holds_of_gives_bindQueries (captured_of_gives_bindCaptures hcaptures) hqueries

end Binder

theorem Args.fit_of_length
    {length : Nat} {values : List ParamValue} (h : values.length = length) :
    fit length values = values := by
  simp [fit, ← h]

namespace RouteTable

/-- A typed handler of a compiled route reads the arguments that the binder makes exactly when, at
each of its positions that holds the fallback of the parameter, it can read the fallback. -/
theorem readAll_iff_of_build
    {plugins : List Plugin} {definitions : List Definition} {table : RouteTable}
    (h : (build plugins definitions).2 = .ok table) {r : Route} (hr : r ∈ table.routes)
    {readings : List Reading} {f : List Reading.Result → Code .task}
    (hhandler : r.handler = Handler.typed readings f)
    {order : List SourceKind} {sources : Sources} {captures : List Capture}
    {values : List ParamValue}
    (hbind : Binder.Gives (Binder.bind .standard order sources r.toEndpoint captures) values)
    (transport : Option Datum) :
    let args := Args.of r.params values transport
    (∃ results, Reading.readAll readings args.specs args.values = .ok results) ↔
      ∀ (i : Nat) (reading : Reading) (spec : ParamSpec), readings[i]? = some reading →
        args.specs[i]? = some spec → args.get? i = some spec.fallback →
          reading.Reads spec spec.fallback := by
  intro args
  obtain ⟨hlength, hholds⟩ := Binder.holds_of_gives_bind hbind
  have hvalues : args.values = values := Args.fit_of_length hlength
  have hcheck := (isChecked_of_build h hr).taken
  rw [hhandler] at hcheck
  obtain ⟨harity, haccepts⟩ := Reading.accepts_of_check hcheck
  have hfrom : Reading.readAll readings args.specs args.values =
      Reading.readFrom readings r.params values := by
    rw [hvalues, Reading.readAll, if_neg (by omega)]
    rfl
  rw [hfrom, Reading.reads_all_iff]
  constructor
  · intro hreads i reading spec hreading hspec hvalue
    rw [Args.get?, hvalues] at hvalue
    exact hreads i reading spec spec.fallback hreading hspec hvalue
  · intro hfallbacks i reading spec v hreading hspec hvalue
    rcases hholds i spec v hspec hvalue with htype | hfallback
    · exact (reading.reads_iff_accepts spec htype).mpr (haccepts i reading spec hreading hspec)
    · rw [hfallback] at hvalue ⊢
      refine hfallbacks i reading spec hreading hspec ?_
      rw [Args.get?, hvalues]
      exact hvalue

theorem routes_of_build_singleton
    {d : Definition} {table : RouteTable} (h : (build [] [d]).2 = .ok table) :
    ∃ r, table.routes = [r] ∧ Compiles [] d r := by
  obtain ⟨r, rest, hr, hrest, hroutes⟩ := List.forall₂_cons_left_iff.mp (compiles_of_build h)
  rw [List.forall₂_nil_left_iff.mp hrest] at hroutes
  exact ⟨r, hroutes, hr⟩

/-- Reads an optional value where the request may give none. -/
def itemDefinition : Definition :=
  ⟨"item", "GET", "/items/:id", [ParamSpec.path "id" .int, ParamSpec.query "verbose" .bool],
    Handler.typed [.long, .optional .bool] fun _ => .create fun t => .done t⟩

theorem readAll_item :
    ∃ table r, (build [] [itemDefinition]).2 = .ok table ∧ r ∈ table.routes ∧
      (table.router.find "GET" "/items/42" 0).map RouteMatch.captures = some [⟨1, "42"⟩] ∧
      Binder.Gives (Binder.bind .standard SourceKind.all {} r.toEndpoint [⟨1, "42"⟩])
        [.int 42, .null] ∧
      ∃ results, Reading.readAll [.long, .optional .bool] r.params [.int 42, .null] =
        .ok results := by
  have hcompiled : ((build [] [itemDefinition]).2.toOption.map fun table =>
      (table.routes.map Route.toEndpoint,
        (table.router.find "GET" "/items/42" 0).map RouteMatch.captures)) =
      some ([⟨"item", "GET", 0, "/items/:id", "/items/*", [.literal "items", .capture "id" 0],
        [ParamSpec.path "id" .int, ParamSpec.query "verbose" .bool]⟩], some [⟨1, "42"⟩]) := by
    decide +kernel
  cases htable : (build [] [itemDefinition]).2 with
  | error e => simp [htable, Except.toOption] at hcompiled
  | ok table =>
      rw [htable] at hcompiled
      obtain ⟨r, hroutes, hcompiles⟩ := routes_of_build_singleton htable
      obtain ⟨hendpoint, hcaptures⟩ := Prod.mk.inj (Option.some.inj hcompiled)
      have hendpoint' : r.toEndpoint = ⟨"item", "GET", 0, "/items/:id", "/items/*",
          [.literal "items", .capture "id" 0],
          [ParamSpec.path "id" .int, ParamSpec.query "verbose" .bool]⟩ := by
        simpa [hroutes] using hendpoint
      have hmem : r ∈ table.routes := by simp [hroutes]
      have hbind : Binder.Gives (Binder.bind .standard SourceKind.all {} r.toEndpoint [⟨1, "42"⟩])
          [.int 42, .null] := by
        rw [hendpoint']
        exact Binder.gives_bind_iff.mpr ⟨_, rfl, rfl⟩
      have hread := (readAll_iff_of_build htable hmem (isChecked_of_compiles hcompiles).2 hbind
        none).mpr
      rw [hendpoint'] at hread
      refine ⟨table, r, rfl, hmem, hcaptures, hbind, ?_⟩
      rw [hendpoint']
      refine hread fun i reading spec hreading hspec hvalue => ?_
      rcases i with _ | _ | i
      · -- The path gives a number for the first parameter, and its fallback is null.
        obtain rfl : ParamSpec.path "id" .int = spec := Option.some.inj hspec
        cases Option.some.inj hvalue
      · obtain rfl : Reading.optional .bool = reading := Option.some.inj hreading
        obtain rfl : ParamSpec.query "verbose" .bool = spec := Option.some.inj hspec
        exact ⟨.absent, rfl⟩
      · cases hreading

/-- Reads a number where the request may give none. -/
def pageDefinition : Definition :=
  ⟨"page", "GET", "/page", [ParamSpec.query "limit" .int],
    Handler.typed [.int] fun _ => .create fun t => .done t⟩

/-- The compiler accepts a handler that cannot read the null of an optional parameter. -/
theorem not_readAll_page :
    ∃ table r, (build [] [pageDefinition]).2 = .ok table ∧ r ∈ table.routes ∧
      r.handler = pageDefinition.handler ∧
      (table.router.find "GET" "/page" 0).map RouteMatch.captures = some [] ∧
      Binder.Gives (Binder.bind .standard SourceKind.all {} r.toEndpoint []) [.null] ∧
      Reading.readAll [.int] r.params [.null] =
        .error (.internal "parameter 'limit' expected int, got Null") := by
  have hcompiled : ((build [] [pageDefinition]).2.toOption.map fun table =>
      (table.routes.map Route.toEndpoint,
        (table.router.find "GET" "/page" 0).map RouteMatch.captures)) =
      some ([⟨"page", "GET", 0, "/page", "/page", [.literal "page"],
        [ParamSpec.query "limit" .int]⟩], some []) := by
    decide +kernel
  cases htable : (build [] [pageDefinition]).2 with
  | error e => simp [htable, Except.toOption] at hcompiled
  | ok table =>
      rw [htable] at hcompiled
      obtain ⟨r, hroutes, hcompiles⟩ := routes_of_build_singleton htable
      obtain ⟨hendpoint, hcaptures⟩ := Prod.mk.inj (Option.some.inj hcompiled)
      have hendpoint' : r.toEndpoint = ⟨"page", "GET", 0, "/page", "/page", [.literal "page"],
          [ParamSpec.query "limit" .int]⟩ := by
        simpa [hroutes] using hendpoint
      refine ⟨table, r, rfl, by simp [hroutes], (isChecked_of_compiles hcompiles).2, hcaptures,
        ?_, ?_⟩
      · rw [hendpoint']
        rfl
      · rw [hendpoint']
        rfl

end RouteTable
end RouteDispatch
