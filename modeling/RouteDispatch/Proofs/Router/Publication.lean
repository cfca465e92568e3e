import RouteDispatch.Proofs.Route.Compilation
import RouteDispatch.Proofs.Router.Resolution

/-!
# Publishing newer routes

Definitions may be added to a table anywhere in its list.  As long as they are compiled to routes
newer than some version, requests for that version or an older one get what they got before: the
added routes may not answer them, and a resolution of a request is determined by the routes that
may.
-/

namespace RouteDispatch

namespace Template

theorem Precedes.pattern_ne {a b : List Segment} (h : Precedes a b) : pattern a ≠ pattern b := by
  obtain ⟨shared, restA, restB, ha, hb⟩ := h
  rw [ha, hb]
  simp

theorem Precedes.asymm {a b : List Segment} (h : Precedes a b) : ¬ Precedes b a := by
  -- The two first differences stand at one place, or one lies in what the other shares.
  have hcrossed : ∀ shared shared' restA restB restA' restB' : List Bool,
      shared ++ false :: restA = shared' ++ true :: restA' →
      shared ++ true :: restB ≠ shared' ++ false :: restB' := by
    intro shared
    induction shared with
    | nil =>
        intro shared'
        cases shared' <;> simp_all
    | cons x shared ih =>
        intro shared'
        cases shared' with
        | nil => simp_all
        | cons y shared' =>
            intro restA restB restA' restB' hA hB
            simp only [List.cons_append, List.cons.injEq] at hA hB
            exact ih shared' restA restB restA' restB' hA.2 hB.2
  obtain ⟨shared, restA, restB, ha, hb⟩ := h
  rintro ⟨shared', restB', restA', hb', ha'⟩
  exact hcrossed shared shared' restA restB restA' restB' (ha.symm.trans ha') (hb.symm.trans hb')

end Template

namespace Router

/-- A resolution by some routes is one by all routes among which the same ones may answer. -/
theorem IsResolution.of_answering
    {routes others : List Route} {method path : String} {version : Nat} {m : RouteMatch}
    (h : IsResolution others method path version m)
    (hsame : ∀ r, r.answers method path version = true → (r ∈ routes ↔ r ∈ others)) :
    IsResolution routes method path version m where
  registered := (hsame m.route h.answers).mpr h.registered
  answers := h.answers
  first := fun r hr hanswers => h.first r ((hsame r hanswers).mp hr) hanswers
  captures := h.captures

/-- Requests for two versions resolve to one route as soon as either route may answer both. -/
theorem IsResolution.route_eq_of_answers
    {routes : List Route} {method path : String} {version version' : Nat} {m m' : RouteMatch}
    (h : IsResolution routes method path version m)
    (h' : IsResolution routes method path version' m')
    (hanswers : m.route.answers method path version' = true)
    (hanswers' : m'.route.answers method path version = true) : m.route = m'.route := by
  by_contra hne
  have hfirst := h.first m'.route h'.registered hanswers' (Ne.symm hne)
  have hfirst' := h'.first m.route h.registered hanswers hne
  rcases hfirst with hprecedes | ⟨hpattern, hversion⟩
  · rcases hfirst' with hprecedes' | ⟨hpattern', -⟩
    · exact hprecedes.asymm hprecedes'
    · exact hprecedes.pattern_ne hpattern'.symm
  · rcases hfirst' with hprecedes' | ⟨-, hversion'⟩
    · exact hprecedes'.pattern_ne hpattern.symm
    · omega

/-- Routes resolve a request in one way at most. -/
theorem IsResolution.unique
    {routes : List Route} {method path : String} {version : Nat} {m m' : RouteMatch}
    (h : IsResolution routes method path version m)
    (h' : IsResolution routes method path version m') : m = m' := by
  have hroute : m.route = m'.route := h.route_eq_of_answers h' h.answers h'.answers
  have hcaptures : m.captures = m'.captures := by
    rw [h.captures, h'.captures, hroute]
  obtain ⟨route, captures⟩ := m
  obtain ⟨route', captures'⟩ := m'
  simp_all

/-- What is found for a request depends on the routes that may answer it and on nothing else. -/
theorem eq_of_answering
    {routes others : List Route} {method path : String} {version : Nat}
    {found found' : Option RouteMatch}
    (h : match found with
      | none => ∀ r ∈ routes, r.answers method path version = false
      | some m => IsResolution routes method path version m)
    (h' : match found' with
      | none => ∀ r ∈ others, r.answers method path version = false
      | some m => IsResolution others method path version m)
    (hsame : ∀ r, r.answers method path version = true → (r ∈ routes ↔ r ∈ others)) :
    found = found' := by
  cases found with
  | none =>
      cases found' with
      | none => rfl
      | some m =>
          have hsilent := h m.route ((hsame m.route h'.answers).mpr h'.registered)
          simp [h'.answers] at hsilent
  | some m =>
      cases found' with
      | none =>
          have hsilent := h' m.route ((hsame m.route h.answers).mp h.registered)
          simp [h.answers] at hsilent
      | some m' => rw [h.unique (h'.of_answering hsame)]

end Router

namespace RouteTable

/-- The newer definitions are the older ones in their order, with others in between that are
compiled to routes newer than the version. -/
inductive Publishes (plugins : List Plugin) (version : Nat) :
    List Definition → List Definition → Prop
  | nil : Publishes plugins version [] []
  | keep (d : Definition) {older newer : List Definition} :
      Publishes plugins version older newer → Publishes plugins version (d :: older) (d :: newer)
  | add (d : Definition) {older newer : List Definition} :
      (∀ r, d.route plugins = .ok r → version < r.version) →
      Publishes plugins version older newer → Publishes plugins version older (d :: newer)

/-- The routes of the older definitions stay, and all others are newer than the version. -/
theorem Publishes.routes
    {plugins : List Plugin} {version : Nat} {older newer : List Definition}
    (h : Publishes plugins version older newer) {routes more : List Route}
    (hroutes : List.Forall₂ (Compiles plugins) older routes)
    (hmore : List.Forall₂ (Compiles plugins) newer more) :
    routes ⊆ more ∧ ∀ r ∈ more, r ∈ routes ∨ version < r.version := by
  induction h generalizing routes more with
  | nil =>
      obtain rfl := List.forall₂_nil_left_iff.mp hroutes
      obtain rfl := List.forall₂_nil_left_iff.mp hmore
      simp
  | keep d _ ih =>
      obtain ⟨r, routes, hr, hrest, rfl⟩ := List.forall₂_cons_left_iff.mp hroutes
      obtain ⟨r', more, hr', hrest', rfl⟩ := List.forall₂_cons_left_iff.mp hmore
      obtain rfl : r = r' := Except.ok.inj (hr.symm.trans hr')
      obtain ⟨hsubset, hothers⟩ := ih hrest hrest'
      constructor
      · exact List.cons_subset_cons r hsubset
      · intro x hx
        rcases List.mem_cons.mp hx with rfl | hx
        · exact .inl List.mem_cons_self
        · exact (hothers x hx).imp_left (List.mem_cons_of_mem _)
  | add d hnewer _ ih =>
      obtain ⟨r, more, hr, hrest, rfl⟩ := List.forall₂_cons_left_iff.mp hmore
      obtain ⟨hsubset, hothers⟩ := ih hroutes hrest
      constructor
      · exact List.subset_cons_of_subset r hsubset
      · intro x hx
        rcases List.mem_cons.mp hx with rfl | hx
        · exact .inr (hnewer x hr)
        · exact hothers x hx

/-- Publishing routes newer than a version changes no answer to a request for that version or an
older one: the tables find the same route with the same captures, or nothing. -/
theorem find_eq_of_publishes
    {plugins : List Plugin} {version : Nat} {older newer : List Definition}
    (h : Publishes plugins version older newer) {before after : RouteTable}
    (hbefore : (build plugins older).2 = .ok before) (hafter : (build plugins newer).2 = .ok after)
    (method path : String) {requested : Nat} (hrequested : requested ≤ version) :
    after.find method path requested = before.find method path requested := by
  obtain ⟨hsubset, hothers⟩ := h.routes (compiles_of_build hbefore) (compiles_of_build hafter)
  have hold := Router.resolution_of_build hbefore method path requested
  have hnew := Router.resolution_of_build hafter method path requested
  have hsame : after.router.find method path requested =
      before.router.find method path requested := by
    refine Router.eq_of_answering hnew hold fun r hanswers => ?_
    constructor
    · intro hr
      have hversion := (Router.answers_iff.mp hanswers).2.2
      exact (hothers r hr).resolve_right (by omega)
    · intro hr
      exact hsubset hr
  unfold find
  rw [hsame]

def userDefinition : Definition :=
  ⟨"user", "GET", "/users/:id", [ParamSpec.path "id" .string],
    .raw fun _ => .create fun t => .done t⟩

/-- Has a literal where the older route has a capture. -/
def selfDefinition : Definition :=
  ⟨"self_2024_01_01", "GET", "/users/me", [], .raw fun _ => .create fun t => .done t⟩

/-- The literal is published in front of the capture and answers new requests only. -/
theorem find_published_self :
    Publishes [] 20231231 [userDefinition] [selfDefinition, userDefinition] ∧
      ∃ before after, (build [] [userDefinition]).2 = .ok before ∧
        (build [] [selfDefinition, userDefinition]).2 = .ok after ∧
        ((after.find "GET" "/users/me" 20240101).toOption.map fun m => m.route.name) =
          some "self_2024_01_01" ∧
        ((before.find "GET" "/users/me" 20231231).toOption.map fun m =>
          (m.route.name, m.captures.map Capture.text)) = some ("user", ["me"]) ∧
        after.find "GET" "/users/me" 20231231 = before.find "GET" "/users/me" 20231231 := by
  have hversion : ((selfDefinition.route []).toOption.map fun r => r.version) = some 20240101 := by
    decide +kernel
  have hpublishes : Publishes [] 20231231 [userDefinition] [selfDefinition, userDefinition] := by
    refine .add selfDefinition (fun r hr => ?_) (.keep userDefinition .nil)
    rw [hr] at hversion
    have hdated : r.version = 20240101 := Option.some.inj hversion
    omega
  have hold : ((build [] [userDefinition]).2.toOption.bind fun table =>
      (table.find "GET" "/users/me" 20231231).toOption.map fun m =>
        (m.route.name, m.captures.map Capture.text)) = some ("user", ["me"]) := by
    decide +kernel
  have hnew : ((build [] [selfDefinition, userDefinition]).2.toOption.bind fun table =>
      (table.find "GET" "/users/me" 20240101).toOption.map fun m => m.route.name) =
        some "self_2024_01_01" := by
    decide +kernel
  cases hbefore : (build [] [userDefinition]).2 with
  | error e => simp [hbefore, Except.toOption] at hold
  | ok before =>
      cases hafter : (build [] [selfDefinition, userDefinition]).2 with
      | error e => simp [hafter, Except.toOption] at hnew
      | ok after =>
          rw [hbefore] at hold
          rw [hafter] at hnew
          exact ⟨hpublishes, before, after, rfl, rfl, hnew, hold,
            find_eq_of_publishes hpublishes hbefore hafter "GET" "/users/me" (by decide)⟩

end RouteTable
end RouteDispatch
