import RouteDispatch.Proofs.Router.Publication

/-!
# Requests for newer versions

A client that raises the version of its requests keeps every answer it had, or gets a route that is
too new for the version it asked for before.  Literals come before captures whatever their versions
are, so this is not read off one list that is sorted by version: two resolutions of one path are
compared, and a route that may answer both requests cannot lose the first and win the second.
-/

namespace RouteDispatch

theorem Endpoint.answers_mono
    {r : Endpoint} {method path : String} {version raised : Nat} (hle : version ≤ raised)
    (h : r.answers method path version = true) : r.answers method path raised = true := by
  simp only [Endpoint.answers, Bool.and_eq_true, beq_iff_eq, decide_eq_true_eq] at h ⊢
  obtain ⟨⟨hmethod, hversion⟩, haccepts⟩ := h
  exact ⟨⟨hmethod, hversion.trans hle⟩, haccepts⟩

namespace Router

theorem IsResolution.version_le
    {routes : List Route} {method path : String} {version : Nat} {m : RouteMatch}
    (h : IsResolution routes method path version m) : m.route.version ≤ version :=
  (answers_iff.mp h.answers).2.2

/-- The route that wins for a raised version is the old one or too new for the old version. -/
theorem IsResolution.version_lt_of_ne
    {routes : List Route} {method path : String} {version raised : Nat} {m m' : RouteMatch}
    (hle : version ≤ raised) (h : IsResolution routes method path version m)
    (h' : IsResolution routes method path raised m') (hne : m'.route ≠ m.route) :
    version < m'.route.version := by
  by_contra hold
  have hsuits := (answers_iff.mp h'.answers).2
  have hanswers : m'.route.answers method path version = true :=
    answers_iff.mpr ⟨(answers_iff.mp h'.answers).1, hsuits.1, by omega⟩
  have hkept : m.route.answers method path raised = true := Endpoint.answers_mono hle h.answers
  exact hne (h.route_eq_of_answers h' hkept hanswers).symm

/-- Raising the version of a request never loses the match and never finds an older route: the
router finds the same route, or one that is newer than the version was. -/
theorem find_of_version_le
    {plugins : List Plugin} {definitions : List Definition} {table : RouteTable}
    (h : (RouteTable.build plugins definitions).2 = .ok table)
    (method path : String) {version raised : Nat} (hle : version ≤ raised) {m : RouteMatch}
    (hfound : table.router.find method path version = some m) :
    ∃ m', table.router.find method path raised = some m' ∧
      m.route.version ≤ m'.route.version ∧
      (m'.route ≠ m.route → version < m'.route.version) := by
  have hresolves := (find_resolves h method path version).2 m hfound
  obtain ⟨hnone, hsome⟩ := find_resolves h method path raised
  cases hfound' : table.router.find method path raised with
  | none =>
      have hsilent := hnone.mp hfound' m.route hresolves.registered
      simp [Endpoint.answers_mono hle hresolves.answers] at hsilent
  | some m' =>
      have hresolves' := hsome m' hfound'
      have hnewer := hresolves.version_lt_of_ne hle hresolves'
      have hbound := hresolves.version_le
      refine ⟨m', rfl, ?_, hnewer⟩
      by_cases hsame : m'.route = m.route
      · rw [hsame]
      · have hversion := hnewer hsame
        omega

/-- The answer moves from a capture to a literal that the older request may not see. -/
theorem find_of_version_le_competing :
    ∃ table, (RouteTable.build [] competingDefinitions).2 = .ok table ∧
      ∃ m, table.router.find "GET" "/users/me" 20231231 = some m ∧
        m.route.name = "user_2023_05_01" ∧
        ∃ m', table.router.find "GET" "/users/me" 20240101 = some m' ∧
          m.route.version ≤ m'.route.version ∧
          (m'.route ≠ m.route → 20231231 < m'.route.version) := by
  have hname : ((RouteTable.build [] competingDefinitions).2.toOption.bind fun table =>
      (table.router.find "GET" "/users/me" 20231231).map fun m => m.route.name) =
        some "user_2023_05_01" := by
    decide +kernel
  cases htable : (RouteTable.build [] competingDefinitions).2 with
  | error e => simp [htable, Except.toOption] at hname
  | ok table =>
      rw [htable] at hname
      obtain ⟨m, hfound, hroute⟩ := Option.map_eq_some_iff.mp hname
      exact ⟨table, rfl, m, hfound, hroute,
        find_of_version_le htable "GET" "/users/me" (by decide) hfound⟩

end Router
end RouteDispatch
