import RouteDispatch.Proofs.Binding.Exposure
import RouteDispatch.Proofs.Binding.Faults
import RouteDispatch.Proofs.Router.Captures

/-!
# What the binder comes to

The binder is compared with a specification that knows neither hashes nor slots being written: the
value given for a name is the first one among the sources in their order, each capture has a text,
and each of them either converts or has a fault.  The binder gives values exactly when there is no
fault, they are the converted ones, and otherwise it stops with the first fault: captures come
before parameters of the query, each in their order.
-/

namespace RouteDispatch

/-! ## Raw values -/

namespace RawValue

/-- What a raw value is under a declared type; texts are left to the parser. -/
def convert (parser : ParamParser) (type : ParamType) : RawValue → Except Panic (Option ParamValue)
  | .text raw => parser type raw
  | .json (.str raw) => parser type raw
  | .json j => .ok (Binder.jsonValue? type j)

/-- How a raw value is shown in a failure. -/
def shown : RawValue → String
  | .text raw => raw
  | .json (.str raw) => raw
  | .json j => j.text

end RawValue

namespace Sources

/-- Sources are made by decoding parts of a request, one after the other. -/
inductive Built : Sources → Prop
  | none : Built {}
  | query {s : Sources} (h : Built s) (query : String) : Built (s.withQuery query)
  | form {s : Sources} (h : Built s) (body : List UInt8) : Built (s.withForm body)
  | json {s s' : Sources} (h : Built s) {body : Json} (hbody : s.withJson body = .ok s') : Built s'

theorem Built.isHashed {s : Sources} (h : s.Built) : s.IsHashed := by
  induction h with
  | none => exact ⟨by simp, by simp⟩
  | query _ query ih => exact isHashed_withQuery ih query
  | form _ body ih => exact isHashed_withForm ih body
  | json _ hbody ih => exact isHashed_withJson ih hbody

/-- The value given for a name: the first source of the order counts whose first entry of the name is
more than a `null`. -/
def given? (s : Sources) (order : List SourceKind) (name : String) : Option RawValue :=
  order.findSome? fun kind =>
    (((s.entries kind).find? fun e => e.1 == name).map Prod.snd).filter fun raw => !raw.isNull

/-- Looking a name up by its hash finds what is given for the name. -/
theorem lookup?_eq_given?
    {s : Sources} (h : s.IsHashed) (order : List SourceKind) (name : String) :
    (s.lookup? order (Text.segmentHash name) name).map Prod.snd = s.given? order name := by
  rw [lookup?, given?, List.map_findSome?]
  refine findSome?_congr fun kind _ => ?_
  rw [Function.comp_apply, Option.map_map, get?_eq h, find?_supplied]
  cases (s.entries kind).find? fun e => e.1 == name with
  | none => rfl
  | some e => cases hnull : e.2.isNull <;> simp [Option.filter, hnull]

end Sources

namespace Binder

/-! ## One parameter -/

/-- The fault of a capture, if its text does not parse. -/
def captureFault? (parser : ParamParser) (e : Endpoint) (c : Capture) : Option Fault :=
  (e.denoted? c).bind fun denoted =>
    faultOf (invalidCapture denoted.2 c.text) (parser denoted.2.type c.text)

/-- The fault of a parameter of the query, if it is missing or does not convert. -/
def queryFault? (parser : ParamParser) (order : List SourceKind) (s : Sources) (spec : ParamSpec) :
    Option Fault :=
  match s.given? order spec.name with
  | some raw => faultOf (invalid spec raw.shown) (raw.convert parser spec.type)
  | none => if spec.required then some (.failure (missing spec)) else none

/-- The value that a parameter of the query has from the sources, or without them. -/
def HasValue (parser : ParamParser) (order : List SourceKind) (s : Sources) (spec : ParamSpec)
    (v : ParamValue) : Prop :=
  match s.given? order spec.name with
  | some raw => raw.convert parser spec.type = .ok (some v)
  | none => spec.required = false ∧ v = spec.default

theorem convertJson_eq (parser : ParamParser) (spec : ParamSpec) (j : Json) :
    convertJson parser spec j =
      settle (invalid spec (RawValue.json j).shown)
        ((RawValue.json j).convert parser spec.type) := by
  cases j with
  | str raw => exact parse_eq parser spec.type raw (invalid spec raw)
  | _ =>
      unfold convertJson RawValue.convert
      dsimp only
      split
      · next v hvalue => rw [hvalue]; rfl
      · next hnone => rw [hnone]; rfl

/-- The binder takes up what is given for the name of a parameter. -/
theorem queryValue_eq
    {s : Sources} (h : s.IsHashed) (parser : ParamParser) (order : List SourceKind)
    (spec : ParamSpec) :
    queryValue parser order s spec =
      match s.given? order spec.name with
      | some raw => settle (invalid spec raw.shown) (raw.convert parser spec.type)
      | none => if spec.required then throw (missing spec) else pure spec.default := by
  rw [← Sources.lookup?_eq_given? h]
  unfold queryValue ParamSpec.nameHash
  rcases s.lookup? order (Text.segmentHash spec.name) spec.name with _ | ⟨kind, raw | j⟩
  · rfl
  · exact parse_eq parser spec.type raw _
  · exact convertJson_eq parser spec j

theorem stops_queryValue_iff
    {s : Sources} (h : s.IsHashed) {parser : ParamParser} {order : List SourceKind}
    {spec : ParamSpec} {f : Fault} :
    Stops (queryValue parser order s spec) f ↔ queryFault? parser order s spec = some f := by
  rw [queryValue_eq h, queryFault?]
  cases s.given? order spec.name with
  | some raw => exact stops_settle_iff
  | none =>
      cases spec.required with
      | true => simp [stops_throw_iff, eq_comm]
      | false => simp [not_stops_pure]

theorem gives_queryValue_iff
    {s : Sources} (h : s.IsHashed) {parser : ParamParser} {order : List SourceKind}
    {spec : ParamSpec} {v : ParamValue} :
    Gives (queryValue parser order s spec) v ↔ HasValue parser order s spec v := by
  rw [queryValue_eq h, HasValue]
  cases s.given? order spec.name with
  | some raw => exact gives_settle_iff
  | none =>
      cases spec.required with
      | true => simp [not_gives_throw]
      | false => simp [gives_pure_iff, eq_comm]

/-- A parameter of the query has a value exactly when it has no fault. -/
theorem queryFault?_eq_none_iff
    {parser : ParamParser} {order : List SourceKind} {s : Sources} {spec : ParamSpec} :
    queryFault? parser order s spec = none ↔ ∃ v, HasValue parser order s spec v := by
  unfold queryFault? HasValue
  cases s.given? order spec.name with
  | some raw => exact faultOf_eq_none_iff
  | none => simp

/-! ## Captures -/

theorem findSome?_cons_eq_or {γ δ : Type} (f : γ → Option δ) (a : γ) (l : List γ) :
    (a :: l).findSome? f = (f a).or (l.findSome? f) := by
  rw [List.findSome?_cons]
  cases f a with
  | some b => rfl
  | none => rfl

/-- A capture takes the slot of the parameter that it denotes. -/
theorem bindCapture_eq
    {e : Endpoint} {c : Capture} {param : Nat} {spec : ParamSpec}
    (h : e.denoted? c = some (param, spec)) (parser : ParamParser) (before : List ParamValue) :
    bindCapture parser e before c =
      settle (invalidCapture spec c.text) (parser spec.type c.text) >>= fun v =>
        pure (before.set param v) := by
  obtain ⟨hparam, hspec⟩ := Endpoint.denoted?_eq_some_iff.mp h
  unfold bindCapture
  simp only [hparam, hspec, parse_eq]

theorem stops_bindCapture_iff
    {parser : ParamParser} {e : Endpoint} {c : Capture} {param : Nat} {spec : ParamSpec}
    (h : e.denoted? c = some (param, spec)) {before : List ParamValue} {f : Fault} :
    Stops (bindCapture parser e before c) f ↔ captureFault? parser e c = some f := by
  rw [bindCapture_eq h, captureFault?, h, Option.bind_some, stops_bind_iff, stops_settle_iff]
  simp [not_stops_pure]

/-- The captures stop at the first one with a fault. -/
theorem stops_foldlM_bindCapture_iff
    {parser : ParamParser} {e : Endpoint} {captures : List Capture}
    (h : ∀ c ∈ captures, ∃ param spec, e.denoted? c = some (param, spec))
    {before : List ParamValue} {f : Fault} :
    Stops (captures.foldlM (bindCapture parser e) before) f ↔
      captures.findSome? (captureFault? parser e) = some f := by
  induction captures generalizing before f with
  | nil => simp [not_stops_pure]
  | cons c captures ih =>
      obtain ⟨⟨param, spec, hdenoted⟩, hrest⟩ := List.forall_mem_cons.mp h
      rw [List.foldlM_cons, findSome?_cons_eq_or]
      exact stops_bind_iff_or (fun g => stops_bindCapture_iff hdenoted)
        (fun next _ g => ih hrest) f

/-- Each captured slot holds what the parser reads from the text of its own capture. -/
theorem getElem?_of_gives_bindCaptures
    {parser : ParamParser} {e : Endpoint} {captures : List Capture}
    (hdistinct : (captures.map e.denoted?).Nodup) {before after : List ParamValue}
    (hlength : before.length = e.params.length)
    (h : Gives (captures.foldlM (bindCapture parser e) before) after) :
    ∀ c ∈ captures, ∀ param spec, e.denoted? c = some (param, spec) →
      ∃ v, parser spec.type c.text = .ok (some v) ∧ after[param]? = some v := by
  induction captures generalizing before with
  | nil => simp
  | cons c captures ih =>
      obtain ⟨hfresh, hdistinct⟩ := List.nodup_cons.mp hdistinct
      rw [List.foldlM_cons] at h
      obtain ⟨next, hnext, hrest⟩ := gives_bind_iff.mp h
      have hstep := gives_bindCapture_iff.mp hnext
      obtain ⟨param', spec', v, hparam', hspec', hparser, rfl⟩ := hstep
      refine List.forall_mem_cons.mpr ⟨?_, ih hdistinct (by simpa using hlength) hrest⟩
      intro param spec hdenoted
      obtain ⟨hparam, hspec⟩ := Endpoint.denoted?_eq_some_iff.mp hdenoted
      obtain rfl : param' = param := Option.some.inj (hparam'.symm.trans hparam)
      obtain rfl : spec' = spec := Option.some.inj (hspec'.symm.trans hspec)
      refine ⟨v, hparser, ?_⟩
      -- the captures behind denote other parameters, so the slot stays as it was written
      rw [getElem?_of_gives_foldlM_bindCapture ?_ hrest]
      · obtain ⟨hlt, -⟩ := List.getElem?_eq_some_iff.mp hspec
        exact List.getElem?_set_self (by omega)
      · intro c' hc' hsame
        have hdenoted' := Endpoint.denoted?_eq_some_iff.mpr ⟨hsame, hspec⟩
        exact hfresh (List.mem_map.mpr ⟨c', hc', hdenoted'.trans hdenoted.symm⟩)

/-! ## Parameters of the query -/

/-- The parameters of the query stop at the first one with a fault. -/
theorem stops_bindQueries_iff
    {s : Sources} (h : s.IsHashed) {parser : ParamParser} {order : List SourceKind}
    {specs : List ParamSpec} {before : List ParamValue} (hlength : before.length = specs.length)
    {f : Fault} :
    Stops (bindQueries parser order s specs before) f ↔
      (specs.filter fun spec => spec.source = .query).findSome? (queryFault? parser order s) =
        some f := by
  have hwritten : ∀ (first : ParamValue) (rest : Binder (List ParamValue)),
      ∀ g, Stops (rest >>= fun rest => pure (first :: rest)) g ↔ Stops rest g := by
    intro first rest g
    simp only [stops_bind_iff, not_stops_pure, and_false, exists_false, or_false]
  induction specs generalizing before f with
  | nil =>
      obtain rfl := List.eq_nil_of_length_eq_zero hlength
      exact ⟨fun hstops => absurd hstops not_stops_pure, nofun⟩
  | cons spec specs ih =>
      cases before with
      | nil => simp at hlength
      | cons value before =>
          have hrest : ∀ (first : ParamValue) (g : Fault),
              Stops (bindQueries parser order s specs before >>= fun rest => pure (first :: rest)) g ↔
                (specs.filter fun spec => spec.source = .query).findSome?
                  (queryFault? parser order s) = some g := by
            intro first g
            rw [hwritten]
            exact ih (by simpa using hlength)
          rw [bindQueries]
          by_cases hquery : spec.source = .query
          · rw [if_pos hquery, List.filter_cons_of_pos (by simpa using hquery), findSome?_cons_eq_or]
            exact stops_bind_iff_or (fun g => stops_queryValue_iff h) (fun first _ => hrest first) f
          · rw [if_neg hquery, List.filter_cons_of_neg (by simpa using hquery), pure_bind]
            exact hrest value f

/-- Each slot of a parameter of the query holds the value that the parameter has. -/
theorem hasValue_of_gives_bindQueries
    {s : Sources} (h : s.IsHashed) {parser : ParamParser} {order : List SourceKind}
    {specs : List ParamSpec} {before values : List ParamValue}
    (hlength : before.length = specs.length)
    (hgives : Gives (bindQueries parser order s specs before) values) {i : Nat} {spec : ParamSpec}
    (hspec : specs[i]? = some spec) (hquery : spec.source = .query) :
    ∃ v, HasValue parser order s spec v ∧ values[i]? = some v := by
  induction specs generalizing before values i with
  | nil => simp at hspec
  | cons first specs ih =>
      cases before with
      | nil => simp at hlength
      | cons value before =>
          obtain ⟨head, rest, rfl, hhead, hrest⟩ := gives_bindQueries_cons_iff.mp hgives
          cases i with
          | zero =>
              obtain rfl : first = spec := by simpa using hspec
              rw [if_pos hquery] at hhead
              exact ⟨head, (gives_queryValue_iff h).mp hhead, rfl⟩
          | succ i => exact ih (by simpa using hlength) hrest (by simpa using hspec)

/-! ## The whole -/

/-- The first fault: captures come before parameters of the query, the captures in the order of the
path and the parameters in that of their declaration. -/
def firstFault? (parser : ParamParser) (order : List SourceKind) (s : Sources) (e : Endpoint)
    (captures : List Capture) : Option Fault :=
  (captures.findSome? (captureFault? parser e)).or
    ((e.params.filter fun spec => spec.source = .query).findSome? (queryFault? parser order s))

/-- The values fill the slots of the endpoint: each captured slot holds what the parser reads from
its own text, each slot of the query the value from the sources or the default, and every other slot
null. -/
structure Fills (parser : ParamParser) (order : List SourceKind) (s : Sources) (e : Endpoint)
    (captures : List Capture) (values : List ParamValue) : Prop where
  length : values.length = e.params.length
  captured : ∀ c ∈ captures, ∀ (i : Nat) (spec : ParamSpec), e.denoted? c = some (i, spec) →
    ∃ v, parser spec.type c.text = .ok (some v) ∧ values[i]? = some v
  query : ∀ (i : Nat) (spec : ParamSpec), e.params[i]? = some spec → spec.source = .query →
    ∃ v, HasValue parser order s spec v ∧ values[i]? = some v
  others : ∀ (i : Nat) (spec : ParamSpec), e.params[i]? = some spec → spec.source ≠ .query →
    (∀ c ∈ captures, e.denoted? c ≠ some (i, spec)) → values[i]? = some .null

theorem stops_bind_iff_firstFault?
    {parser : ParamParser} {order : List SourceKind} {s : Sources} (hs : s.IsHashed) {e : Endpoint}
    {captures : List Capture} (h : e.Takes captures) {f : Fault} :
    Stops (bind parser order s e captures) f ↔ firstFault? parser order s e captures = some f := by
  have hdenotes : ∀ c ∈ captures, ∃ param spec, e.denoted? c = some (param, spec) := by
    intro c hc
    obtain ⟨param, spec, hdenoted, -⟩ := h.denotes c hc
    exact ⟨param, spec, hdenoted⟩
  exact stops_bind_iff_or (fun g => stops_foldlM_bindCapture_iff hdenotes)
    (fun values hvalues g => stops_bindQueries_iff hs (length_of_gives_bindCaptures hvalues)) f

theorem firstFault?_eq_none_iff
    {parser : ParamParser} {order : List SourceKind} {s : Sources} {e : Endpoint}
    {captures : List Capture} :
    firstFault? parser order s e captures = none ↔
      (∀ c ∈ captures, ∀ i spec, e.denoted? c = some (i, spec) →
        ∃ v, parser spec.type c.text = .ok (some v)) ∧
      ∀ spec ∈ e.params, spec.source = .query → ∃ v, HasValue parser order s spec v := by
  have hcapture : ∀ c, captureFault? parser e c = none ↔
      ∀ i spec, e.denoted? c = some (i, spec) → ∃ v, parser spec.type c.text = .ok (some v) := by
    intro c
    unfold captureFault?
    cases e.denoted? c with
    | none => simp
    | some denoted =>
        obtain ⟨i, spec⟩ := denoted
        simp [faultOf_eq_none_iff]
  rw [firstFault?, Option.or_eq_none_iff, List.findSome?_eq_none_iff, List.findSome?_eq_none_iff]
  simp only [hcapture, queryFault?_eq_none_iff, List.mem_filter, decide_eq_true_eq, and_imp]

theorem fills_of_gives_bind
    {parser : ParamParser} {order : List SourceKind} {s : Sources} (hs : s.IsHashed) {e : Endpoint}
    {captures : List Capture} (h : e.Takes captures) {values : List ParamValue}
    (hgives : Gives (bind parser order s e captures) values) :
    Fills parser order s e captures values := by
  obtain ⟨before, hcaptures, hqueries⟩ := gives_bind_iff.mp hgives
  have hlength := length_of_gives_bindCaptures hcaptures
  refine ⟨length_of_gives_bindQueries hlength hqueries, ?_, ?_, ?_⟩
  · intro c hc i spec hdenoted
    obtain ⟨v, hparser, hslot⟩ := getElem?_of_gives_bindCaptures h.distinct
      List.length_replicate hcaptures c hc i spec hdenoted
    obtain ⟨param, spec', hdenoted', hpath⟩ := h.denotes c hc
    obtain ⟨rfl, rfl⟩ := Prod.mk.inj (Option.some.inj (hdenoted.symm.trans hdenoted'))
    refine ⟨v, hparser, ?_⟩
    rw [getElem?_of_gives_bindQueries hqueries (Endpoint.denoted?_eq_some_iff.mp hdenoted).2
      (by simp [hpath]), hslot]
  · intro i spec hspec hquery
    exact hasValue_of_gives_bindQueries hs hlength hqueries hspec hquery
  · intro i spec hspec hsource hfree
    obtain ⟨hi, -⟩ := List.getElem?_eq_some_iff.mp hspec
    rw [getElem?_of_gives_bindQueries hqueries hspec hsource,
      getElem?_of_gives_foldlM_bindCapture ?_ hcaptures, List.getElem?_replicate_of_lt hi]
    intro c hc hparam
    exact hfree c hc (Endpoint.denoted?_eq_some_iff.mpr ⟨hparam, hspec⟩)

end Binder

namespace RouteTable

/-- For every match of a compiled table, all sources, parsers and orders: the captures have places
in the route; the binder gives values exactly when all their texts parse and every parameter of the
query has a value; the values then fill the slots; and otherwise the binder stops with the first
fault. -/
theorem bind_fills_of_find
    {plugins : List Plugin} {definitions : List Definition} {table : RouteTable}
    (h : (build plugins definitions).2 = .ok table) {method path : String} {version : Nat}
    {m : RouteMatch} (hfind : table.router.find method path version = some m)
    {s : Sources} (hs : s.Built) (parser : ParamParser) (order : List SourceKind) :
    let bound := Binder.bind parser order s m.route.toEndpoint m.captures
    m.route.toEndpoint.Takes m.captures ∧
    ((∃ values, bound.Gives values) ↔
      (∀ c ∈ m.captures, ∀ i spec, m.route.denoted? c = some (i, spec) →
        ∃ v, parser spec.type c.text = .ok (some v)) ∧
      ∀ spec ∈ m.route.params, spec.source = .query →
        ∃ v, Binder.HasValue parser order s spec v) ∧
    (∀ values, bound.Gives values →
      Binder.Fills parser order s m.route.toEndpoint m.captures values) ∧
    ∀ fault, bound.Stops fault ↔
      Binder.firstFault? parser order s m.route.toEndpoint m.captures = some fault := by
  intro bound
  obtain ⟨-, htakes⟩ := takes_of_find h hfind
  have hstops : ∀ fault, bound.Stops fault ↔
      Binder.firstFault? parser order s m.route.toEndpoint m.captures = some fault := fun fault =>
    Binder.stops_bind_iff_firstFault? hs.isHashed htakes
  refine ⟨htakes, ?_, fun values => Binder.fills_of_gives_bind hs.isHashed htakes, hstops⟩
  rw [Binder.exists_gives_iff, ← Binder.firstFault?_eq_none_iff, Option.eq_none_iff_forall_ne_some]
  exact forall_congr' fun fault => not_congr (hstops fault)

/-- A limit that is no number in the query string, and one that is in the form body. -/
def quarrel : Sources :=
  (({} : Sources).withQuery "limit=x&limit=9").withForm (Text.utf8Bytes "limit=5")

/-- The first source of the order decides: a limit that does not convert is not made good by another
source, and is of no account where another source comes first. -/
theorem bind_fills_quarrel :
    ∃ table m, (build [] [visitDefinition]).2 = .ok table ∧
      table.router.find "GET" "/rooms/7" 0 = some m ∧ quarrel.Built ∧
      (Binder.bind .standard [.query, .form, .query] quarrel m.route.toEndpoint m.captures).Stops
        (.failure (.invalidState "parameter 'limit' has invalid int value 'x'")) ∧
      ∃ values,
        (Binder.bind .standard [.form, .query] quarrel m.route.toEndpoint m.captures).Gives values ∧
        Binder.Fills .standard [.form, .query] quarrel m.route.toEndpoint m.captures values := by
  have hfound : ((build [] [visitDefinition]).2.toOption.bind fun table =>
      (table.router.find "GET" "/rooms/7" 0).map fun m => (m.route.toEndpoint, m.captures)) =
        some (visitEndpoint, [⟨1, "7"⟩]) := by
    decide +kernel
  have hfault : Binder.firstFault? .standard [.query, .form, .query] quarrel visitEndpoint
      [⟨1, "7"⟩] =
        some (.failure (.invalidState "parameter 'limit' has invalid int value 'x'")) := by
    decide +kernel
  have hnone : Binder.firstFault? .standard [.form, .query] quarrel visitEndpoint
      [⟨1, "7"⟩] = none := by
    decide +kernel
  have hbuilt : quarrel.Built := .form (.query .none _) _
  cases htable : (build [] [visitDefinition]).2 with
  | error e => simp [htable, Except.toOption] at hfound
  | ok table =>
      rw [htable] at hfound
      obtain ⟨m, hfind, hm⟩ := Option.map_eq_some_iff.mp hfound
      obtain ⟨hendpoint, hcaptures⟩ := Prod.mk.inj hm
      rw [← hendpoint, ← hcaptures] at hfault hnone
      obtain ⟨-, -, -, hstops⟩ :=
        bind_fills_of_find htable hfind hbuilt .standard [.query, .form, .query]
      obtain ⟨-, -, hfills, hfree⟩ :=
        bind_fills_of_find htable hfind hbuilt .standard [.form, .query]
      obtain ⟨values, hvalues⟩ := Binder.exists_gives_iff.mpr fun fault hfault =>
        absurd ((hfree fault).mp hfault) (by simp [hnone])
      exact ⟨table, m, rfl, hfind, hbuilt, (hstops _).mpr hfault, values, hvalues,
        hfills values hvalues⟩

end RouteTable
end RouteDispatch
