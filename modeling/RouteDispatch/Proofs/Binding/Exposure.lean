import RouteDispatch.Proofs.Binding.TypedCalls
import RouteDispatch.Proofs.Route.Linkage
import RouteDispatch.Session.Dispatch
import Mathlib.Data.List.Find
import Mathlib.Data.List.Nodup

/-!
# What a request can reach

A request may carry any names, also those of captured and of injected parameters.  The binder looks
at the query sources through the names of query parameters only, and a compiled route gives no name
to two parameters.  So of all entries of the sources just those are exposed that bear the name of a
query parameter and are found when this name is looked up; requests that agree on them are bound
alike.
-/

namespace RouteDispatch

/-- A JSON `null`, which is as good as absent. -/
def RawValue.isNull : RawValue → Bool
  | .text _ => false
  | .json j => j.isNull

namespace Sources

/-! ## Entries -/

/-- The entries of a source in their order; a source that is missing has none. -/
def entries (s : Sources) : SourceKind → List (String × RawValue)
  | .query => (s.query.getD []).map fun p => (p.name, .text p.value)
  | .form => (s.form.getD []).map fun p => (p.name, .text p.value)
  | .json => (s.json.getD []).map fun m => (m.1, .json m.2)

/-- The first entry of each name. -/
def firsts : List (String × RawValue) → List (String × RawValue)
  | [] => []
  | e :: rest => e :: (firsts rest).filter fun x => x.1 != e.1

/-- The entries of a source that stand neither behind another one of their name nor for nothing. -/
def supplied (s : Sources) (kind : SourceKind) : List (String × RawValue) :=
  (firsts (s.entries kind)).filter fun e => !e.2.isNull

/-- Whether looking a name up in the source finds something. -/
def supplies (s : Sources) (name : String) (kind : SourceKind) : Bool :=
  ((s.supplied kind).find? fun e => e.1 == name).isSome

/-- The entries of a source that bear one of some names and are found by it: the source is in the
order, and none in front of it supplies the name. -/
def exposed (s : Sources) (order : List SourceKind) (isOwn : String → Bool) (kind : SourceKind) :
    List (String × RawValue) :=
  if kind ∈ order then
    (s.supplied kind).filter fun e =>
      isOwn e.1 && !(order.takeWhile (· != kind)).any (s.supplies e.1)
  else []

/-- The hashes of the pairs are those of their names. -/
structure IsHashed (s : Sources) : Prop where
  query : ∀ p ∈ s.query.getD [], p.hash = Text.segmentHash p.name
  form : ∀ p ∈ s.form.getD [], p.hash = Text.segmentHash p.name

/-! ## Looking a name up among entries -/

theorem findSome?_congr
    {α β : Type} {l : List α} {f g : α → Option β} (h : ∀ a ∈ l, f a = g a) :
    l.findSome? f = l.findSome? g := by
  induction l with
  | nil => rfl
  | cons a l ih =>
      obtain ⟨hhead, htail⟩ := List.forall_mem_cons.mp h
      rw [List.findSome?_cons, List.findSome?_cons, hhead, ih htail]

theorem pairwise_firsts (es : List (String × RawValue)) :
    (firsts es).Pairwise fun a b => a.1 ≠ b.1 := by
  induction es with
  | nil => exact List.Pairwise.nil
  | cons e rest ih =>
      refine List.pairwise_cons.mpr ⟨fun x hx => ?_, ih.filter _⟩
      have hother := (List.mem_filter.mp hx).2
      exact fun hsame => by simp [hsame] at hother

theorem find?_firsts (es : List (String × RawValue)) (name : String) :
    (firsts es).find? (fun e => e.1 == name) = es.find? fun e => e.1 == name := by
  induction es with
  | nil => rfl
  | cons e rest ih =>
      rw [firsts, List.find?_cons, List.find?_cons]
      cases hname : e.1 == name with
      | true => rfl
      | false =>
          rw [← ih, List.find?_filter]
          refine List.find?_congr fun x _ => ?_
          have hother : e.1 ≠ name := by simpa using hname
          by_cases hx : x.1 = name
          · simp [hx, Ne.symm hother]
          · simp [hx]

/-- Where no name occurs twice, what is left out can be tested when it has been found. -/
theorem find?_filter_of_pairwise
    {es : List (String × RawValue)} (h : es.Pairwise fun a b => a.1 ≠ b.1)
    (keep : String × RawValue → Bool) (name : String) :
    (es.filter keep).find? (fun e => e.1 == name) =
      (es.find? fun e => e.1 == name).filter keep := by
  induction es with
  | nil => rfl
  | cons e rest ih =>
      obtain ⟨hothers, hrest⟩ := List.pairwise_cons.mp h
      rw [List.find?_cons]
      cases hname : e.1 == name with
      | false =>
          rw [← ih hrest, List.filter_cons]
          split
          · rw [List.find?_cons, hname]
          · rfl
      | true =>
          have hsame : e.1 = name := by simpa using hname
          cases hkeep : keep e with
          | true => simp [hkeep, hsame, Option.filter]
          | false =>
              have hnone : (rest.filter keep).find? (fun x => x.1 == name) = none := by
                refine List.find?_eq_none.mpr fun x hx => ?_
                have hx' := hothers x (List.mem_filter.mp hx).1
                simpa [← hsame] using Ne.symm hx'
              simp [hkeep, hnone, Option.filter]

theorem find?_supplied (s : Sources) (kind : SourceKind) (name : String) :
    (s.supplied kind).find? (fun e => e.1 == name) =
      ((s.entries kind).find? fun e => e.1 == name).filter fun e => !e.2.isNull := by
  rw [supplied, find?_filter_of_pairwise (pairwise_firsts _), find?_firsts]

theorem textOf?_eq
    {pairs : List SourcePair} (h : ∀ p ∈ pairs, p.hash = Text.segmentHash p.name) (name : String) :
    textOf? (Text.segmentHash name) name pairs =
      (((pairs.map fun p => (p.name, RawValue.text p.value)).find? fun e => e.1 == name).filter
        fun e => !e.2.isNull).map Prod.snd := by
  have hsame : pairs.find? (fun p => p.hash == Text.segmentHash name && p.name == name) =
      pairs.find? fun p => p.name == name := by
    refine List.find?_congr fun p hp => ?_
    by_cases hname : p.name = name
    · simp [h p hp, hname]
    · simp [hname]
  rw [textOf?, hsame, List.find?_map]
  cases hfound : pairs.find? fun p => p.name == name with
  | none => simp [hfound]
  | some p => simp [hfound, Option.filter, RawValue.isNull]

theorem memberOf?_eq (members : List (String × Json)) (name : String) :
    memberOf? name members =
      (((members.map fun m => (m.1, RawValue.json m.2)).find? fun e => e.1 == name).filter
        fun e => !e.2.isNull).map Prod.snd := by
  rw [memberOf?, List.find?_map]
  cases hfound : members.find? fun m => m.1 == name with
  | none => simp [hfound]
  | some m =>
      cases hnull : m.2.isNull <;>
        simp [hfound, Option.filter, RawValue.isNull, hnull]

/-- Looking a name up in one source finds the entry that the source supplies. -/
theorem get?_eq
    {s : Sources} (h : s.IsHashed) (kind : SourceKind) (name : String) :
    s.get? kind (Text.segmentHash name) name =
      ((s.supplied kind).find? fun e => e.1 == name).map Prod.snd := by
  rw [find?_supplied]
  cases kind with
  | query =>
      have htext := textOf?_eq h.query name
      cases hquery : s.query with
      | none => simp [get?, entries, hquery]
      | some pairs =>
          rw [hquery] at htext
          simpa [get?, entries, hquery] using htext
  | form =>
      have htext := textOf?_eq h.form name
      cases hform : s.form with
      | none => simp [get?, entries, hform]
      | some pairs =>
          rw [hform] at htext
          simpa [get?, entries, hform] using htext
  | json =>
      cases hjson : s.json with
      | none => simp [get?, entries, hjson]
      | some members => simpa [get?, entries, hjson] using memberOf?_eq members name

/-- In a search through a list what stands behind the first find may be left out. -/
theorem findSome?_masked
    {κ β : Type} [BEq κ] [LawfulBEq κ] (order : List κ) (f : κ → Option β) :
    (order.findSome? fun k =>
        if (order.takeWhile (· != k)).any fun k' => (f k').isSome then none else f k) =
      order.findSome? f := by
  cases hfound : order.findSome? f with
  | none =>
      rw [List.findSome?_eq_none_iff] at hfound ⊢
      intro k hk
      rw [hfound k hk]
      simp
  | some b =>
      obtain ⟨front, k, back, rfl, hk, hfront⟩ := List.findSome?_eq_some_iff.mp hfound
      refine List.findSome?_eq_some_iff.mpr ⟨front, k, back, rfl, ?_, fun x hx => ?_⟩
      · have hwhile : (front ++ k :: back).takeWhile (· != k) = front := by
          rw [List.takeWhile_append_of_pos]
          · simp
          · intro x hx
            have hne : x ≠ k := by
              rintro rfl
              simp [hfront x hx] at hk
            simpa using hne
        rw [hwhile, if_neg ?_, hk]
        simpa using hfront
      · rw [hfront x hx]
        simp

/-- Looking up a name that is one of the exposed finds the exposed entry. -/
theorem lookup?_eq_of_isOwn
    {s : Sources} (h : s.IsHashed) (order : List SourceKind) {isOwn : String → Bool} {name : String}
    (hown : isOwn name = true) :
    s.lookup? order (Text.segmentHash name) name =
      order.findSome? fun kind =>
        ((s.exposed order isOwn kind).find? fun e => e.1 == name).map fun e => (kind, e.2) := by
  rw [lookup?, ← findSome?_masked]
  refine findSome?_congr fun kind hkind => ?_
  have hsupplies : ∀ k, s.supplies name k =
      ((s.get? k (Text.segmentHash name) name).map fun raw => (k, raw)).isSome := by
    intro k
    rw [supplies, get?_eq h, Option.isSome_map, Option.isSome_map]
  have hpairwise : (s.supplied kind).Pairwise fun a b => a.1 ≠ b.1 :=
    (pairwise_firsts _).filter _
  rw [exposed, if_pos hkind, find?_filter_of_pairwise hpairwise, get?_eq h]
  simp only [← hsupplies]
  cases hfound : (s.supplied kind).find? fun e => e.1 == name with
  | none => simp
  | some e =>
      have hname : e.1 = name := by simpa using List.find?_some hfound
      subst hname
      rw [Option.filter_some, hown]
      split
      next hshadowed => simp [hshadowed]
      next hfree => simp [Bool.eq_false_iff.mpr hfree]

/-- Names that are exposed are found alike in sources with the same exposed entries. -/
theorem lookup?_eq_of_exposed_eq
    {s s' : Sources} (h : s.IsHashed) (h' : s'.IsHashed) {order : List SourceKind}
    {isOwn : String → Bool}
    (hexposed : ∀ kind, s.exposed order isOwn kind = s'.exposed order isOwn kind)
    {name : String} (hown : isOwn name = true) :
    s.lookup? order (Text.segmentHash name) name =
      s'.lookup? order (Text.segmentHash name) name := by
  rw [lookup?_eq_of_isOwn h order hown, lookup?_eq_of_isOwn h' order hown]
  exact findSome?_congr fun kind _ => by rw [hexposed kind]

/-! ## The sources of a request -/

theorem hash_of_mem_decode {input : List UInt8} {p : SourcePair} (h : p ∈ decode input) :
    p.hash = Text.segmentHash p.name := by
  obtain ⟨pair, -, rfl⟩ := List.mem_map.mp h
  rfl

theorem isHashed_withQuery {s : Sources} (h : s.IsHashed) (query : String) :
    (s.withQuery query).IsHashed where
  query _ hp := hash_of_mem_decode hp
  form := h.form

theorem isHashed_withForm {s : Sources} (h : s.IsHashed) (body : List UInt8) :
    (s.withForm body).IsHashed where
  query := h.query
  form _ hp := hash_of_mem_decode hp

theorem isHashed_withJson
    {s s' : Sources} (h : s.IsHashed) {body : Json} (hbody : s.withJson body = .ok s') :
    s'.IsHashed := by
  unfold withJson at hbody
  split at hbody
  · obtain rfl := Except.ok.inj hbody
    exact ⟨h.query, h.form⟩
  · cases hbody

end Sources

/-- A JSON body is added to the sources that the request has without it. -/
theorem Request.sources_cases {q : Request} {s : Sources} (h : q.sources = .ok s) :
    ∃ base, { q with json := none }.sources = .ok base ∧
      (base = s ∨ ∃ body, base.withJson body = .ok s) := by
  unfold Request.sources at h ⊢
  dsimp only at h ⊢
  refine ⟨_, rfl, ?_⟩
  split at h
  · exact .inr ⟨_, h⟩
  · exact .inl (Except.ok.inj h)

theorem Request.isHashed_of_sources {q : Request} {s : Sources} (h : q.sources = .ok s) :
    s.IsHashed := by
  obtain ⟨base, hbase, hs⟩ := Request.sources_cases h
  have hhashed : base.IsHashed := by
    have hnone : ({} : Sources).IsHashed := ⟨by simp, by simp⟩
    obtain rfl := Except.ok.inj hbase
    split
    · refine Sources.isHashed_withForm ?_ _
      split
      · exact Sources.isHashed_withQuery hnone _
      · exact hnone
    · split
      · exact Sources.isHashed_withQuery hnone _
      · exact hnone
  rcases hs with rfl | ⟨body, hbody⟩
  · exact hhashed
  · exact Sources.isHashed_withJson hhashed hbody

namespace Endpoint

/-- Whether a client may give the value of a parameter of the name: there is such a parameter of the
query, and none that is captured or injected. -/
def isReachable (e : Endpoint) (name : String) : Bool :=
  (e.params.any fun spec => spec.name == name && spec.source == .query) &&
    !e.params.any fun spec => spec.name == name && spec.source != .query

/-- Where no two parameters have one name, all parameters of the query are reachable. -/
theorem isReachable_of_mem
    {e : Endpoint} (hnames : (e.params.map ParamSpec.name).Nodup) {spec : ParamSpec}
    (hspec : spec ∈ e.params) (hquery : spec.source = .query) : e.isReachable spec.name = true := by
  have hsame : ∀ other ∈ e.params, other.name = spec.name → other = spec := fun other hother =>
    List.inj_on_of_nodup_map hnames hother hspec
  simp only [isReachable, Bool.and_eq_true, List.any_eq_true, Bool.not_eq_true', List.any_eq_false]
  refine ⟨⟨spec, hspec, by simp [hquery]⟩, fun other hother hshared => ?_⟩
  obtain ⟨hname, hsource⟩ := by simpa using hshared
  exact hsource ((hsame other hother hname) ▸ hquery)

end Endpoint

namespace Binder

/-! ## What the binder reads -/

/-- The sources give the same value for each parameter of the query. -/
def Agree (order : List SourceKind) (specs : List ParamSpec) (s s' : Sources) : Prop :=
  ∀ spec ∈ specs, spec.source = .query →
    (s.lookup? order spec.nameHash spec.name).map Prod.snd =
      (s'.lookup? order spec.nameHash spec.name).map Prod.snd

theorem queryValue_congr
    (parser : ParamParser) {order : List SourceKind} {s s' : Sources} {spec : ParamSpec}
    (h : (s.lookup? order spec.nameHash spec.name).map Prod.snd =
      (s'.lookup? order spec.nameHash spec.name).map Prod.snd) :
    queryValue parser order s spec = queryValue parser order s' spec := by
  unfold queryValue
  cases hs : s.lookup? order spec.nameHash spec.name with
  | none =>
      rw [hs, Option.map_none, eq_comm, Option.map_eq_none_iff] at h
      rw [h]
  | some found =>
      obtain ⟨kind, raw⟩ := found
      rw [hs, Option.map_some, eq_comm, Option.map_eq_some_iff] at h
      obtain ⟨⟨kind', raw'⟩, hs', rfl⟩ := h
      rw [hs']
      cases raw' <;> rfl

theorem bindQueries_congr
    {parser : ParamParser} {order : List SourceKind} {s s' : Sources} {specs : List ParamSpec}
    (h : ∀ spec ∈ specs, spec.source = .query →
      queryValue parser order s spec = queryValue parser order s' spec)
    (values : List ParamValue) :
    bindQueries parser order s specs values = bindQueries parser order s' specs values := by
  induction specs generalizing values with
  | nil => cases values <;> rfl
  | cons spec specs ih =>
      obtain ⟨hspec, hspecs⟩ := List.forall_mem_cons.mp h
      cases values with
      | nil => rfl
      | cons value values =>
          rw [bindQueries, bindQueries, ih hspecs]
          split
          next hquery => rw [hspec hquery]
          · rfl

/-- What is bound depends on the sources through the values of the query parameters only. -/
theorem bind_eq_of_queryValue_eq
    {parser : ParamParser} {order : List SourceKind} {s s' : Sources} {e : Endpoint}
    (h : ∀ spec ∈ e.params, spec.source = .query →
      queryValue parser order s spec = queryValue parser order s' spec)
    (captures : List Capture) :
    bind parser order s e captures = bind parser order s' e captures := by
  unfold bind
  simp only [bindQueries_congr h]

theorem bind_congr
    (parser : ParamParser) {order : List SourceKind} {s s' : Sources} {e : Endpoint}
    (h : Agree order e.params s s') (captures : List Capture) :
    bind parser order s e captures = bind parser order s' e captures :=
  bind_eq_of_queryValue_eq (fun spec hspec hquery => queryValue_congr parser (h spec hspec hquery))
    captures

/-! ## What the binder leaves alone -/

/-- A capture that is bound has a parameter with a slot for the value of its text. -/
theorem gives_bindCapture_iff
    {parser : ParamParser} {e : Endpoint} {c : Capture} {before after : List ParamValue} :
    Gives (bindCapture parser e before c) after ↔
      ∃ param spec v, e.segments[c.depth]?.bind Segment.param? = some param ∧
        e.params[param]? = some spec ∧ parser spec.type c.text = .ok (some v) ∧
        after = before.set param v := by
  unfold bindCapture
  cases hparam : e.segments[c.depth]?.bind Segment.param? with
  | none => simp [not_gives_throw]
  | some param =>
      cases hspec : e.params[param]? with
      | none => simp [hspec, not_gives_raise]
      | some spec =>
          simp only [hspec]
          constructor
          · intro h
            obtain ⟨v, hvalue, hset⟩ := gives_bind_iff.mp h
            exact ⟨param, spec, v, rfl, hspec, gives_parse_iff.mp hvalue,
              (gives_pure_iff.mp hset).symm⟩
          · rintro ⟨_, _, v, ⟨⟩, hspec', hparser, rfl⟩
            obtain rfl := Option.some.inj (hspec.symm.trans hspec')
            exact gives_bind_iff.mpr ⟨v, gives_parse_iff.mpr hparser, gives_pure_iff.mpr rfl⟩

/-- A slot stays as it is while captures of other parameters are bound. -/
theorem getElem?_of_gives_foldlM_bindCapture
    {parser : ParamParser} {e : Endpoint} {captures : List Capture} {i : Nat}
    (hother : ∀ c ∈ captures, e.segments[c.depth]?.bind Segment.param? ≠ some i)
    {before after : List ParamValue}
    (h : Gives (captures.foldlM (bindCapture parser e) before) after) : after[i]? = before[i]? := by
  refine of_gives_foldlM (P := fun values => values[i]? = before[i]?) ?_ rfl h
  intro c hc values values' hvalues hstep
  obtain ⟨param, spec, v, hparam, -, -, rfl⟩ := gives_bindCapture_iff.mp hstep
  have hne : param ≠ i := by
    rintro rfl
    exact hother c hc hparam
  rw [List.getElem?_set_ne hne, hvalues]

theorem length_of_gives_bindCaptures
    {parser : ParamParser} {e : Endpoint} {captures : List Capture} {values : List ParamValue}
    (h : Gives (bindCaptures parser e captures) values) : values.length = e.params.length := by
  refine of_gives_foldlM (P := fun values => values.length = e.params.length) ?_
    List.length_replicate h
  intro c _ before after hbefore hstep
  obtain ⟨param, spec, v, -, -, -, rfl⟩ := gives_bindCapture_iff.mp hstep
  rw [List.length_set, hbefore]

/-- The binder of the captures leaves every slot null that belongs to no path parameter. -/
theorem null_of_gives_bindCaptures
    {parser : ParamParser} {e : Endpoint} (hlinked : Template.IsLinked e.params e.segments)
    {captures : List Capture} {values : List ParamValue}
    (h : Gives (bindCaptures parser e captures) values) {i : Nat} {spec : ParamSpec}
    (hspec : e.params[i]? = some spec) (hsource : spec.source ≠ .path) :
    values[i]? = some .null := by
  obtain ⟨hi, -⟩ := List.getElem?_eq_some_iff.mp hspec
  rw [getElem?_of_gives_foldlM_bindCapture ?_ h, List.getElem?_replicate_of_lt hi]
  intro c hc hparam
  obtain ⟨segment, hsegment, hcapture⟩ := Option.bind_eq_some_iff.mp hparam
  obtain ⟨name, hmem⟩ := Template.mem_captured.mp
    (List.mem_filterMap.mpr ⟨segment, List.mem_of_getElem? hsegment, hcapture⟩)
  obtain ⟨found, hfound, hpath, -⟩ := hlinked.denotes name i hmem
  rw [hspec] at hfound
  exact hsource (Option.some.inj hfound ▸ hpath)

theorem length_of_gives_bindQueries
    {parser : ParamParser} {order : List SourceKind} {sources : Sources} {specs : List ParamSpec}
    {before values : List ParamValue} (hlength : before.length = specs.length)
    (h : Gives (bindQueries parser order sources specs before) values) :
    values.length = specs.length := by
  induction specs generalizing before values with
  | nil =>
      obtain rfl := List.eq_nil_of_length_eq_zero hlength
      obtain rfl := gives_pure_iff.mp h
      rfl
  | cons first specs ih =>
      cases before with
      | nil => simp at hlength
      | cons value before =>
          obtain ⟨head, rest, rfl, -, hrest⟩ := gives_bindQueries_cons_iff.mp h
          simpa using ih (by simpa using hlength) hrest

/-- The binder of the query leaves every slot alone that belongs to no parameter of the query. -/
theorem getElem?_of_gives_bindQueries
    {parser : ParamParser} {order : List SourceKind} {sources : Sources} {specs : List ParamSpec}
    {before values : List ParamValue}
    (h : Gives (bindQueries parser order sources specs before) values) {i : Nat} {spec : ParamSpec}
    (hspec : specs[i]? = some spec) (hsource : spec.source ≠ .query) : values[i]? = before[i]? := by
  induction specs generalizing before values i with
  | nil => simp at hspec
  | cons first specs ih =>
      cases before with
      | nil =>
          obtain rfl := gives_pure_iff.mp h
          rfl
      | cons value before =>
          obtain ⟨head, rest, rfl, hhead, hrest⟩ := gives_bindQueries_cons_iff.mp h
          cases i with
          | zero =>
              obtain rfl : first = spec := by simpa using hspec
              rw [if_neg hsource] at hhead
              obtain rfl := hhead
              rfl
          | succ i => simpa using ih hrest (by simpa using hspec)

end Binder

namespace RouteTable

/-- For a route of a compiled table, parser, order and captures, what is bound depends on the
sources through the values found for the parameters of the query only.  So requests are bound alike
that agree on the exposed entries, and injected parameters stay null. -/
theorem bind_determined_of_build
    {plugins : List Plugin} {definitions : List Definition} {table : RouteTable}
    (h : (build plugins definitions).2 = .ok table) {r : Route} (hr : r ∈ table.routes)
    (parser : ParamParser) (order : List SourceKind) (captures : List Capture) :
    (∀ s s' : Sources, Binder.Agree order r.params s s' →
      Binder.bind parser order s r.toEndpoint captures =
        Binder.bind parser order s' r.toEndpoint captures) ∧
    (∀ (q q' : Request) (s s' : Sources), q.sources = .ok s → q'.sources = .ok s' →
      (∀ kind, s.exposed order r.isReachable kind = s'.exposed order r.isReachable kind) →
      Binder.bind parser order s r.toEndpoint captures =
        Binder.bind parser order s' r.toEndpoint captures) ∧
    ∀ (s : Sources) (values : List ParamValue),
      Binder.Gives (Binder.bind parser order s r.toEndpoint captures) values →
      ∀ (i : Nat) (spec : ParamSpec), r.params[i]? = some spec → spec.source = .injected →
        values[i]? = some .null := by
  refine ⟨fun s s' hagree => Binder.bind_congr parser hagree captures, ?_, ?_⟩
  · intro q q' s s' hs hs' hexposed
    refine Binder.bind_congr parser (fun spec hspec hquery => ?_) captures
    have hreachable := Endpoint.isReachable_of_mem (nodup_names_of_build h hr) hspec hquery
    rw [ParamSpec.nameHash, Sources.lookup?_eq_of_exposed_eq (Request.isHashed_of_sources hs)
      (Request.isHashed_of_sources hs') hexposed hreachable]
  · intro s values hvalues i spec hspec hinjected
    obtain ⟨captured, hcaptures, hqueries⟩ := Binder.gives_bind_iff.mp hvalues
    rw [Binder.getElem?_of_gives_bindQueries hqueries hspec (by simp [hinjected])]
    exact Binder.null_of_gives_bindCaptures (linked_of_build h hr).1 hcaptures hspec
      (by simp [hinjected])

/-- Captures a room, and takes a limit from the query and a user from a plugin. -/
def visitDefinition : Definition :=
  ⟨"visit", "GET", "/rooms/:room",
    [ParamSpec.path "room" .int, ParamSpec.query "limit" .int, ParamSpec.injected "user" .string],
    .raw fun _ => .create fun t => .done t⟩

/-- Asks for a room with a limit. -/
def visit : Request :=
  { method := "GET", path := "/rooms/7?limit=5" }

/-- Asks for the same, and tries other ways to a limit, a room and a user. -/
def visitInDisguise : Request :=
  { method := "GET", path := "/rooms/7?user=eve&room=8&limit=5&limit=6"
    form := some (Text.utf8Bytes "limit=9")
    json := some (.obj [("limit", .null), ("user", .str "root")]) }

/-- The sources of both requests, as far as they matter. -/
theorem sources_visits :
    visit.sources = .ok { query := some [⟨Text.segmentHash "limit", "limit", "5"⟩] } ∧
    ∃ form, visitInDisguise.sources = .ok
      { query := some
          [⟨Text.segmentHash "user", "user", "eve"⟩, ⟨Text.segmentHash "room", "room", "8"⟩,
            ⟨Text.segmentHash "limit", "limit", "5"⟩, ⟨Text.segmentHash "limit", "limit", "6"⟩]
        form := some form
        json := some [("limit", .null), ("user", .str "root")] } := by
  have hquery : Request.queryOf? visit.path = some "limit=5" := by decide +kernel
  have hpairs : Text.formPairs (Text.utf8Bytes "limit=5") = [("limit", "5")] := by decide +kernel
  have hquery' : Request.queryOf? visitInDisguise.path =
      some "user=eve&room=8&limit=5&limit=6" := by decide +kernel
  have hpairs' : Text.formPairs (Text.utf8Bytes "user=eve&room=8&limit=5&limit=6") =
      [("user", "eve"), ("room", "8"), ("limit", "5"), ("limit", "6")] := by decide +kernel
  unfold Request.sources
  rw [hquery, hquery']
  simp only [Sources.withQuery, Sources.decode, hpairs, hpairs']
  exact ⟨rfl, _, rfl⟩

def visitEndpoint : Endpoint :=
  ⟨"visit", "GET", 0, "/rooms/:room", "/rooms/*", [.literal "rooms", .capture "room" 0],
    visitDefinition.params⟩

theorem gives_visit :
    Binder.Gives (Binder.bind .standard [.query, .json]
      { query := some [⟨Text.segmentHash "limit", "limit", "5"⟩] } visitEndpoint [⟨1, "7"⟩])
      [.int 7, .int 5, .null] := by
  have hlookup : Sources.lookup? { query := some [⟨Text.segmentHash "limit", "limit", "5"⟩] }
      [.query, .json] (Text.segmentHash "limit") "limit" = some (.query, .text "5") := by
    simp [Sources.lookup?, Sources.get?, Sources.textOf?]
  refine Binder.gives_bind_iff.mpr ⟨[.int 7, .null, .null], rfl, ?_⟩
  refine Binder.gives_bindQueries_cons_iff.mpr ⟨_, _, rfl, rfl, ?_⟩
  refine Binder.gives_bindQueries_cons_iff.mpr ⟨_, _, rfl, ?_, rfl⟩
  simp only [ParamSpec.query, if_true, Binder.queryValue, ParamSpec.nameHash, hlookup]
  rfl

theorem bind_visit :
    ∃ table, (build [] [visitDefinition]).2 = .ok table ∧ ∃ r ∈ table.routes,
      ∃ s s', visit.sources = .ok s ∧ visitInDisguise.sources = .ok s' ∧
      Binder.bind .standard [.query, .json] s r.toEndpoint [⟨1, "7"⟩] =
        Binder.bind .standard [.query, .json] s' r.toEndpoint [⟨1, "7"⟩] ∧
      ∃ values,
        Binder.Gives (Binder.bind .standard [.query, .json] s r.toEndpoint [⟨1, "7"⟩]) values ∧
        values[1]? = some (.int 5) ∧ values[2]? = some .null := by
  have hcompiled : ((build [] [visitDefinition]).2.toOption.map fun table =>
      table.routes.map Route.toEndpoint) = some [visitEndpoint] := by
    decide +kernel
  cases htable : (build [] [visitDefinition]).2 with
  | error e => simp [htable, Except.toOption] at hcompiled
  | ok table =>
      rw [htable] at hcompiled
      obtain ⟨r, hroutes, hr⟩ := List.map_eq_singleton_iff.mp (Option.some.inj hcompiled)
      have hmem : r ∈ table.routes := by simp [hroutes]
      obtain ⟨hvisit, form, hdisguise⟩ := sources_visits
      obtain ⟨-, hrequests, hinjected⟩ :=
        bind_determined_of_build htable hmem .standard [.query, .json] [⟨1, "7"⟩]
      have hgives := gives_visit
      rw [← hr] at hgives
      refine ⟨table, rfl, r, hmem, _, _, hvisit, hdisguise,
        hrequests visit visitInDisguise _ _ hvisit hdisguise fun kind => ?_,
        _, hgives, rfl, hinjected _ _ hgives 2 (ParamSpec.injected "user" .string) ?_ rfl⟩
      · rw [hr]
        cases kind <;> rfl
      · rw [hr]
        rfl

end RouteTable
end RouteDispatch
