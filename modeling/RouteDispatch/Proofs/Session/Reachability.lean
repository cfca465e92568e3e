import RouteDispatch.Proofs.Binding.Exposure
import RouteDispatch.Proofs.Route.Spelling
import RouteDispatch.Proofs.Router.Captures
import RouteDispatch.Proofs.Session.Triple

/-!
# Every route can be reached

A path for the template of a route is matched to the route, if the texts in the place of its
captures are literals of no route: then no template with a literal where the route has a capture
accepts the path.  The captures come out of the search in the order of the path, by depth; both the
view of the call and the binder find their way from a depth to the parameter of the capture.
-/

namespace RouteDispatch

open Template

namespace Template

/-! ## Competing templates -/

/-- A template that comes before another one and accepts a path of it has one of the texts as a
literal. -/
theorem exists_literal_of_precedes
    {a b : List Segment} {texts : List String} (h : Precedes a b)
    (hlength : texts.length = captureCount b) (hfits : fits a (fill b texts) = true) :
    ∃ text ∈ texts, .literal text ∈ a := by
  induction b generalizing a texts with
  | nil =>
      obtain ⟨shared, _, _, -, hb⟩ := h
      simp [pattern] at hb
  | cons t b ih =>
      cases a with
      | nil =>
          obtain ⟨shared, _, _, ha, -⟩ := h
          simp [pattern] at ha
      | cons s a =>
          have hcases : (s.isCapture = false ∧ t.isCapture = true) ∨ Precedes a b := by
            obtain ⟨shared, restA, restB, ha, hb⟩ := h
            cases shared with
            | nil => exact .inl ⟨(List.cons.inj ha).1, (List.cons.inj hb).1⟩
            | cons _ shared =>
                exact .inr ⟨shared, restA, restB, (List.cons.inj ha).2, (List.cons.inj hb).2⟩
          cases t with
          | literal y =>
              obtain ⟨-, hrest⟩ := Bool.and_eq_true_iff.mp hfits
              rcases hcases with ⟨-, hcapture⟩ | hbehind
              · cases hcapture
              · obtain ⟨text, htext, hmem⟩ := ih hbehind (by simpa using hlength) hrest
                exact ⟨text, htext, List.mem_cons_of_mem _ hmem⟩
          | capture name param =>
              cases texts with
              | nil => simp at hlength
              | cons text texts =>
                  obtain ⟨hhead, hrest⟩ := Bool.and_eq_true_iff.mp hfits
                  rcases hcases with ⟨hliteral, -⟩ | hbehind
                  · cases s with
                    | literal x =>
                        obtain rfl : x = text := by simpa [Segment.fits] using hhead
                        exact ⟨x, List.mem_cons_self, List.mem_cons_self⟩
                    | capture _ _ => cases hliteral
                  · obtain ⟨other, hother, hmem⟩ := ih hbehind (by simpa using hlength) hrest
                    exact ⟨other, List.mem_cons_of_mem _ hother, List.mem_cons_of_mem _ hmem⟩

/-! ## Captures by depth -/

theorem captured_fill_literal (depth : Nat) (text : String) (segments : List Segment)
    (texts : List String) :
    captured depth (.literal text :: segments) (fill (.literal text :: segments) texts) =
      captured (depth + 1) segments (fill segments texts) := by
  rw [fill, captured_cons]
  rfl

theorem captured_fill_capture (depth : Nat) (name : String) (param : Nat)
    (segments : List Segment) (text : String) (texts : List String) :
    captured depth (.capture name param :: segments)
        (fill (.capture name param :: segments) (text :: texts)) =
      ⟨depth, text⟩ :: captured (depth + 1) segments (fill segments texts) := by
  rw [fill, captured_cons]
  rfl

theorem namedCaptures_captured
    {whole segments : List Segment} {depth : Nat} (h : StandsAt whole depth segments)
    {texts : List String} (hlength : texts.length = captureCount segments) :
    namedCaptures whole (captured depth segments (fill segments texts)) =
      (captureNames segments).zip texts := by
  induction segments generalizing depth texts with
  | nil => simp [captured, namedCaptures, captureNames]
  | cons s segments ih =>
      cases s with
      | literal text =>
          rw [captured_fill_literal]
          exact ih h.tail (by simpa using hlength)
      | capture name param =>
          cases texts with
          | nil => simp at hlength
          | cons text texts =>
              rw [captured_fill_capture]
              have hlength' : texts.length = captureCount segments := by simpa using hlength
              have hrest := ih h.tail hlength'
              simp only [namedCaptures, List.filterMap_cons, h.head] at hrest ⊢
              rw [hrest]
              rfl

/-- The texts of the names are the texts of the parameters that the captures denote. -/
theorem mem_zip_params
    {params : List ParamSpec} {segments : List Segment}
    (hdenotes : ∀ name param, .capture name param ∈ segments →
      ∃ spec, params[param]? = some spec ∧ spec.source = .path ∧ spec.name = name)
    {texts : List String} {name text : String}
    (hmem : (name, text) ∈ (captureNames segments).zip texts) :
    ∃ param spec, (param, text) ∈ (segments.filterMap Segment.param?).zip texts ∧
      params[param]? = some spec ∧ spec.source = .path ∧ spec.name = name := by
  induction segments generalizing texts with
  | nil => simp [captureNames] at hmem
  | cons s segments ih =>
      have hrest := fun n p hn => hdenotes n p (List.mem_cons_of_mem s hn)
      cases s with
      | literal _ => exact ih hrest hmem
      | capture first param =>
          cases texts with
          | nil => simp at hmem
          | cons text' texts =>
              have hnames : captureNames (.capture first param :: segments) =
                  first :: captureNames segments := rfl
              have hparams : (Segment.capture first param :: segments).filterMap Segment.param? =
                  param :: segments.filterMap Segment.param? := rfl
              rw [hnames, List.zip_cons_cons] at hmem
              rw [hparams, List.zip_cons_cons]
              rcases List.mem_cons.mp hmem with heq | hbehind
              · obtain ⟨rfl, rfl⟩ := Prod.mk.inj heq
                obtain ⟨spec, hspec⟩ := hdenotes name param List.mem_cons_self
                exact ⟨param, spec, List.mem_cons_self, hspec⟩
              · obtain ⟨other, spec, hother, hspec⟩ := ih hrest hbehind
                exact ⟨other, spec, List.mem_cons_of_mem _ hother, hspec⟩

end Template

namespace Binder

/-! ## Slots of captures -/

theorem slots_of_gives_bindCaptures
    {parser : ParamParser} {e : Endpoint} {segments : List Segment} {depth : Nat}
    (h : StandsAt e.segments depth segments) (hdistinct : (segments.filterMap Segment.param?).Nodup)
    {texts : List String} (hlength : texts.length = captureCount segments)
    {start values : List ParamValue} (hstart : start.length = e.params.length)
    (hgives : Gives ((captured depth segments (fill segments texts)).foldlM
      (bindCapture parser e) start) values) :
    ∀ param text, (param, text) ∈ (segments.filterMap Segment.param?).zip texts →
      ∃ spec v, e.params[param]? = some spec ∧ values[param]? = some v ∧
        parser spec.type text = .ok (some v) := by
  induction segments generalizing depth texts start with
  | nil => simp
  | cons s segments ih =>
      cases s with
      | literal text =>
          rw [captured_fill_literal] at hgives
          exact ih h.tail hdistinct (by simpa using hlength) hstart hgives
      | capture name param =>
          cases texts with
          | nil => simp at hlength
          | cons text texts =>
              rw [captured_fill_capture, List.foldlM_cons] at hgives
              obtain ⟨next, hnext, hrest⟩ := gives_bind_iff.mp hgives
              obtain ⟨param', spec, v, hparam, hspec, hparser, rfl⟩ :=
                gives_bindCapture_iff.mp hnext
              rw [h.head] at hparam
              obtain rfl : param = param' := Option.some.inj hparam
              have hcaptures : (Segment.capture name param :: segments).filterMap Segment.param? =
                  param :: segments.filterMap Segment.param? := rfl
              rw [hcaptures] at hdistinct ⊢
              obtain ⟨hfresh, hdistinct⟩ := List.nodup_cons.mp hdistinct
              have htail := ih h.tail hdistinct (by simpa using hlength)
                (by simpa using hstart) hrest
              rw [List.zip_cons_cons]
              intro other text' hmem
              rcases List.mem_cons.mp hmem with heq | hmem
              · obtain ⟨rfl, rfl⟩ := Prod.mk.inj heq
                refine ⟨spec, v, hspec, ?_, hparser⟩
                rw [getElem?_of_gives_foldlM_bindCapture ?_ hrest]
                · obtain ⟨hlt, -⟩ := List.getElem?_eq_some_iff.mp hspec
                  exact List.getElem?_set_self (by omega)
                · intro c hc hsame
                  obtain ⟨segment, hmem, hsegment, -⟩ := mem_of_mem_captured h.tail hc
                  rw [hsegment, Option.bind_some] at hsame
                  exact hfresh (List.mem_filterMap.mpr ⟨segment, hmem, hsame⟩)
              · exact htail other text' hmem

end Binder

/-! ## Parameters by name -/

/-- Where the names of the parameters are distinct, each is found by its name, and so is its
argument. -/
theorem Endpoint.param?_eq_some_and_byName?_eq
    {e : Endpoint} (hnames : (e.params.map ParamSpec.name).Nodup) {values : List ParamValue}
    (hlength : values.length = e.params.length) (transport : Option Datum) {i : Nat}
    {spec : ParamSpec} (hspec : e.params[i]? = some spec) :
    e.param? spec.name = some spec ∧
      (Args.of e.params values transport).byName? spec.name = values[i]? := by
  obtain ⟨hi, rfl⟩ := List.getElem?_eq_some_iff.mp hspec
  have hfirst : ∀ j (hj : j < e.params.length), j < i → e.params[j].name ≠ e.params[i].name := by
    intro j hj hlt hsame
    have hpairwise := List.pairwise_iff_getElem.mp (List.pairwise_map.mp hnames)
    exact hpairwise j i hj hi hlt hsame
  have hindex : e.params.findIdx? (fun spec => spec.name == e.params[i].name) = some i := by
    refine List.findIdx?_eq_some_iff_getElem.mpr ⟨hi, by simp, fun j hj => ?_⟩
    simpa using hfirst j (by omega) hj
  constructor
  · refine List.find?_eq_some_iff_getElem.mpr ⟨by simp, i, hi, rfl, fun j hj => ?_⟩
    simpa using hfirst j (by omega) hj
  · have hindexOf : (Args.of e.params values transport).indexOf? e.params[i].name = some i := hindex
    rw [Args.byName?, hindexOf, Option.bind_some, Args.get?]
    exact congrArg (·[i]?) (Args.fit_of_length hlength)

namespace RouteTable

/-! ## Routing -/

/-- The text can stand in the place of a capture, and is not mistaken for a literal. -/
def IsFree (table : RouteTable) (text : String) : Prop :=
  Text.IsPiece text ∧ ∀ r ∈ table.routes, .literal text ∉ r.segments

/-- A path for a route, whose captures take free texts, is matched to the route. -/
theorem find_of_isPathOf
    {plugins : List Plugin} {definitions : List Definition} {table : RouteTable}
    (h : (build plugins definitions).2 = .ok table) {r : Route} (hr : r ∈ table.routes)
    {texts : List String} (hlength : texts.length = captureCount r.segments)
    (hfree : ∀ text ∈ texts, table.IsFree text) {path : String}
    (hpath : IsPathOf (fill r.segments texts) path) :
    table.router.find r.method path r.version =
      some ⟨r, captured 0 r.segments (fill r.segments texts)⟩ := by
  have hpieces : pathPieces path = fill r.segments texts := by
    refine pathPieces_of_isPathOf hpath fun piece hpiece => ?_
    rcases mem_fill hpiece with hliteral | htext
    · exact isPiece_of_parse (isChecked_of_build h hr).parsed hliteral
    · exact (hfree piece htext).1
  have hanswers : r.answers r.method path r.version = true := by
    refine Router.answers_iff.mpr ⟨rfl, ?_, Nat.le_refl _⟩
    rw [hpieces]
    exact fits_fill hlength
  have hresolution := Router.resolution_of_build h r.method path r.version
  cases hfind : table.router.find r.method path r.version with
  | none =>
      rw [hfind] at hresolution
      simp [hresolution r hr] at hanswers
  | some m =>
      rw [hfind] at hresolution
      obtain ⟨-, hfits, hversion⟩ := Router.answers_iff.mp hresolution.answers
      have hroute : m.route = r := by
        by_contra hne
        rcases hresolution.first r hr hanswers (Ne.symm hne) with hprecedes | ⟨-, hnewer⟩
        · rw [hpieces] at hfits
          obtain ⟨text, htext, hliteral⟩ := exists_literal_of_precedes hprecedes hlength hfits
          exact (hfree text htext).2 m.route hresolution.registered hliteral
        · omega
      have hcaptures := hresolution.captures
      rw [hroute, hpieces] at hcaptures
      exact congrArg some (congrArg₂ RouteMatch.mk hroute hcaptures)

end RouteTable

namespace Act

/-! ## Preparing a call -/

/-- The view of the call has the endpoint and the named captures. -/
def Shows (c : CallId) (e : Endpoint) (named : List (String × String)) (w : World) : Prop :=
  ∃ call, w.calls[c]? = some call ∧ call.view.endpoint = some e ∧ call.view.pathParams = named

section Shows

variable {c : CallId} {e : Endpoint} {named : List (String × String)}
  {stopped : Stop → World → Prop}

theorem shows_enter (stage : Stage) :
    Triple (Shows c e named) (enter c stage) (fun _ => Shows c e named) stopped := by
  unfold enter
  refine Triple.get fun w hw => ?_
  split
  · exact Triple.done hw
  · split
    · exact Triple.done hw
    · refine Triple.write (Triple.editCall_last ?_)
      obtain ⟨call, hcall, hendpoint, hnamed⟩ := hw
      exact ⟨{ call with view := { call.view with stage } }, by simp [hcall], hendpoint, hnamed⟩

theorem shows_noteMatch (c : CallId) (m : RouteMatch) :
    Triple (fun w => c < w.calls.length) (noteMatch c m)
      (fun _ => Shows c m.route.toEndpoint (namedCaptures m.route.segments m.captures))
      stopped := by
  unfold noteMatch
  refine Triple.of_world fun w hw => Triple.editCall ?_
  refine Triple.bind (m := fun _ => Shows c m.route.toEndpoint
    (namedCaptures m.route.segments m.captures)) (Triple.apply (shows_enter .matched) ?_)
    fun _ => ?_
  · exact ⟨_, by simp [List.getElem?_eq_getElem hw]; rfl, rfl, rfl⟩
  · exact Triple.get fun w hw => Triple.write_last hw

theorem shows_liftBinder {α : Type} (bound : Binder α) :
    Triple (Shows c e named) (liftBinder bound)
      (fun result w => Shows c e named w ∧ ∀ v, result = .ok v → bound.Gives v)
      fun _ => Shows c e named := by
  unfold liftBinder
  cases hrun : bound.run with
  | error p => exact Triple.raise fun w hw => hw
  | ok result =>
      refine Triple.pure fun w hw => ⟨hw, ?_⟩
      rintro v rfl
      exact hrun

end Shows

/-- What can be said when the preparation of a call is over: the view shows the route and the named
captures, and what is bound are the parameters of the route, with a value for each capture. -/
theorem prepare_spec
    {d : Dispatcher} {c : CallId} {q : Request} {version : Nat} {table : RouteTable}
    {m : RouteMatch} (hfind : table.router.find q.method q.path version = some m) :
    Triple (fun w => w.table = table ∧ c < w.calls.length) (prepare d c q version)
      (fun result w =>
        Shows c m.route.toEndpoint (namedCaptures m.route.segments m.captures) w ∧
          ∀ route args, result = .ok (route, args) →
            route = m.route ∧ ∃ sources values,
              Binder.Gives (Binder.bind d.config.parser d.config.sourceOrder sources
                m.route.toEndpoint m.captures) values ∧
              args = .of m.route.params values q.transport)
      fun _ => Shows c m.route.toEndpoint (namedCaptures m.route.segments m.captures) := by
  unfold prepare
  refine Triple.get fun w hw => ?_
  obtain ⟨rfl, hc⟩ := hw
  refine Triple.step rfl ?_
  simp only [hfind]
  refine Triple.bind ((shows_noteMatch c m).apply hc) fun _ => ?_
  cases q.sources with
  | error e => exact Triple.pure fun w hw => ⟨hw, by simp⟩
  | ok sources =>
      refine Triple.bind (((shows_liftBinder _).calling c .binder).stops ?_) fun result => ?_
      · rintro (p | _) w hw
        · obtain ⟨w₀, hw₀, rfl⟩ := hw
          exact hw₀
        · exact hw
      · cases result with
        | error e => exact Triple.pure fun w hw => ⟨hw.1, by simp⟩
        | ok values =>
            refine Triple.of_world fun w hw => ?_
            refine Triple.bind (Triple.apply (shows_enter .bound) hw.1) fun _ => ?_
            refine Triple.pure fun w hshows => ⟨hshows, ?_⟩
            rintro route args hresult
            obtain ⟨rfl, rfl⟩ := Prod.mk.inj (Except.ok.inj hresult)
            exact ⟨rfl, sources, values, hw.2 values rfl, rfl⟩

end Act

namespace RouteTable

/-- Each route of a compiled table is reached by every path for its template whose captures take
free texts: at the version of the route, the path is matched to just this route, the view of the
call names each capture with its text, and whatever is bound holds for each of them the value that
the parser gives for the type of the parameter and the text. -/
theorem reachable_of_build
    {plugins : List Plugin} {definitions : List Definition} {table : RouteTable}
    (h : (build plugins definitions).2 = .ok table) {r : Route} (hr : r ∈ table.routes)
    {texts : List String} (hlength : texts.length = captureCount r.segments)
    (hfree : ∀ text ∈ texts, table.IsFree text) {path : String}
    (hpath : IsPathOf (fill r.segments texts) path) :
    (∃ captures, table.find r.method path r.version = .ok ⟨r, captures⟩) ∧
    ∀ (d : Dispatcher) (q : Request) (c : CallId) (w : World),
      w.table = table → q.method = r.method → q.path = path → c < w.calls.length →
      let run := (Act.prepare d c q r.version).exec w
      Act.Shows c r.toEndpoint ((captureNames r.segments).zip texts) run.2 ∧
      ∀ route args, run.1 = .ok (.ok (route, args)) →
        route = r ∧ args.specs = r.params ∧
        ∀ name text, (name, text) ∈ (captureNames r.segments).zip texts →
          ∃ spec v, r.param? name = some spec ∧ spec.source = .path ∧
            args.byName? name = some v ∧ d.config.parser spec.type text = .ok (some v) := by
  have hfind := find_of_isPathOf h hr hlength hfree hpath
  have hnamed := namedCaptures_captured (standsAt_zero r.segments) hlength
  refine ⟨⟨_, by rw [find, hfind]⟩, ?_⟩
  intro d q c w htable hmethod hqpath hc
  dsimp only
  rw [← hmethod, ← hqpath] at hfind
  have hspec := Act.prepare_spec (d := d) (c := c) hfind w ⟨htable, hc⟩
  dsimp only at hspec
  rw [hnamed] at hspec
  cases hexec : (Act.prepare d c q r.version).exec w with
  | mk result w' =>
      rw [hexec] at hspec
      cases result with
      | error s => exact ⟨hspec, by simp⟩
      | ok prepared =>
          refine ⟨hspec.1, fun route args hresult => ?_⟩
          obtain ⟨hroute, sources, values, hgives, rfl⟩ :=
            hspec.2 route args (Except.ok.inj hresult)
          refine ⟨hroute, rfl, fun name text hmem => ?_⟩
          obtain ⟨captured, hcaptures, hqueries⟩ := Binder.gives_bind_iff.mp hgives
          have hlinked := (linked_of_build h hr).1
          obtain ⟨param, spec, hzip, hparam, hsource, rfl⟩ := mem_zip_params hlinked.denotes hmem
          obtain ⟨spec', v, hparam', hv, hparser⟩ := Binder.slots_of_gives_bindCaptures
            (standsAt_zero r.segments) hlinked.distinct hlength List.length_replicate hcaptures
            param text hzip
          obtain rfl := Option.some.inj (hparam.symm.trans hparam')
          have hcapturedLength := Binder.length_of_gives_bindCaptures hcaptures
          obtain ⟨hfound, hargument⟩ := Endpoint.param?_eq_some_and_byName?_eq
            (nodup_names_of_build h hr)
            (Binder.length_of_gives_bindQueries hcapturedLength hqueries) q.transport hparam
          refine ⟨spec, v, hfound, hsource, ?_, hparser⟩
          have hkept := Binder.getElem?_of_gives_bindQueries hqueries hparam (by simp [hsource])
          rw [hargument, hkept, hv]

/-- Asks for a member of a team, with more slashes than needed. -/
def memberRequest : Request :=
  { method := "GET", path := "//teams/red//members/7/?limit=5" }

theorem isPathOf_memberRequest :
    IsPathOf ["teams", "red", "members", "7"] memberRequest.path := by
  refine ⟨"//teams/red//members/7/".toList, "?limit=5".toList, by decide, ?_, .inr (by decide)⟩
  exact .slash (.slash (.piece "teams" (.piece "red" (.slash (.piece "members"
    (.piece "7" .nil))))))

/-- The world in which the request has just been made a call. -/
def memberWorld (table : RouteTable) : World :=
  let view : CallView := { method := "GET", path := memberRequest.path, version := 0 }
  { calls := [{ view }], table }

/-- The one route of the table, whose captures are texts and numbers. -/
theorem exists_routes_member :
    ∃ table r, (build [] [memberDefinition]).2 = .ok table ∧ table.routes = [r] ∧
      r.method = "GET" ∧ r.version = 0 ∧
      r.segments =
        [.literal "teams", .capture "team" 2, .literal "members", .capture "id" 0] ∧
      (r.param? "team").map ParamSpec.type = some .string ∧
      (r.param? "id").map ParamSpec.type = some .int := by
  have hcompiled : ((build [] [memberDefinition]).2.toOption.map fun table =>
      table.routes.map fun r => (r.method, r.version, r.segments)) =
        some [("GET", 0,
          [.literal "teams", .capture "team" 2, .literal "members", .capture "id" 0])] := by
    decide +kernel
  have htypes : ((build [] [memberDefinition]).2.toOption.map fun table =>
      table.routes.map fun r =>
        ((r.param? "team").map ParamSpec.type, (r.param? "id").map ParamSpec.type)) =
          some [(some .string, some .int)] := by
    decide +kernel
  cases htable : (build [] [memberDefinition]).2 with
  | error e => simp [htable, Except.toOption] at hcompiled
  | ok table =>
      rw [htable] at hcompiled htypes
      obtain ⟨r, hroutes, hr⟩ := List.map_eq_singleton_iff.mp (Option.some.inj hcompiled)
      simp only [Except.toOption, Option.map_some, hroutes, List.map_cons, List.map_nil,
        Option.some.injEq, List.cons.injEq, Prod.mk.injEq, and_true] at htypes
      simp only [Prod.mk.injEq] at hr
      exact ⟨table, r, rfl, hroutes, hr.1, hr.2.1, hr.2.2, htypes⟩

/-- The preparation of the call comes to an end with a route and its arguments. -/
theorem exists_prepare_member {table : RouteTable}
    (htable : (build [] [memberDefinition]).2 = .ok table) :
    ∃ route args, ((Act.prepare {} 0 memberRequest 0).exec (memberWorld table)).1 =
      .ok (.ok (route, args)) := by
  have hbound : ((build [] [memberDefinition]).2.toOption.map fun table =>
      (((Act.prepare {} 0 memberRequest 0).exec (memberWorld table)).1.toOption.bind
        Except.toOption).isSome) = some true := by
    decide +kernel
  rw [htable] at hbound
  cases hrun : ((Act.prepare {} 0 memberRequest 0).exec (memberWorld table)).1 with
  | error s => simp [hrun, Except.toOption] at hbound
  | ok prepared =>
      cases prepared with
      | error e => simp [hrun, Except.toOption] at hbound
      | ok bound => exact ⟨bound.1, bound.2, rfl⟩

/-- The call is matched and bound: the two captures hold the team and the number of the member. -/
theorem reachable_member :
    ∃ table, (build [] [memberDefinition]).2 = .ok table ∧ ∃ r ∈ table.routes,
      (∃ captures, table.find "GET" memberRequest.path 0 = .ok ⟨r, captures⟩) ∧
      Act.Shows 0 r.toEndpoint [("team", "red"), ("id", "7")]
        ((Act.prepare {} 0 memberRequest 0).exec (memberWorld table)).2 ∧
      ∃ args, ((Act.prepare {} 0 memberRequest 0).exec (memberWorld table)).1 =
          .ok (.ok (r, args)) ∧
        args.specs = r.params ∧ args.byName? "team" = some (.string "red") ∧
        args.byName? "id" = some (.int 7) := by
  obtain ⟨table, r, htable, hroutes, hmethod, hversion, hsegments, hteam, hid⟩ :=
    exists_routes_member
  have hmem : r ∈ table.routes := by simp [hroutes]
  have hfree : ∀ text ∈ ["red", "7"], table.IsFree text := by
    simp only [IsFree, hroutes, List.forall_mem_singleton, hsegments]
    decide
  have hlength : ["red", "7"].length = captureCount r.segments := by
    rw [hsegments]
    decide
  have hpath : IsPathOf (fill r.segments ["red", "7"]) memberRequest.path := by
    rw [hsegments]
    exact isPathOf_memberRequest
  have hreachable := reachable_of_build htable hmem hlength hfree hpath
  rw [hmethod, hversion, hsegments] at hreachable
  obtain ⟨hfound, hprepared⟩ := hreachable
  obtain ⟨hshows, hvalues⟩ := hprepared {} memberRequest 0 (memberWorld table)
    rfl rfl rfl Nat.one_pos
  obtain ⟨route, args, hresult⟩ := exists_prepare_member htable
  obtain ⟨rfl, hspecs, hgiven⟩ := hvalues route args hresult
  obtain ⟨spec, v, hspec, -, hv, hparsed⟩ := hgiven "team" "red" (by decide)
  obtain ⟨spec', v', hspec', -, hv', hparsed'⟩ := hgiven "id" "7" (by decide)
  rw [hspec, Option.map_some, Option.some.injEq] at hteam
  rw [hspec', Option.map_some, Option.some.injEq] at hid
  have hred : ParamParser.standard .string "red" = .ok (some (.string "red")) := rfl
  have hseven : ParamParser.standard .int "7" = .ok (some (.int 7)) := by
    decide +kernel
  rw [hteam] at hparsed
  rw [hid] at hparsed'
  obtain rfl := Option.some.inj (Except.ok.inj (hred.symm.trans hparsed))
  obtain rfl := Option.some.inj (Except.ok.inj (hseven.symm.trans hparsed'))
  exact ⟨table, htable, route, hmem, hfound, hshows, args, hresult, hspecs, hv, hv'⟩

end RouteTable
end RouteDispatch
