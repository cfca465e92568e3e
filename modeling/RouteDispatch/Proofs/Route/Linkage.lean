import RouteDispatch.Proofs.Route.Compilation
import Mathlib.Data.List.Perm.Subperm

/-!
# Captures and path parameters

The compiler links each capture of a template to the path parameter of its name, refuses a second
capture of one parameter, and counts.  The captures are distinct and the counts agree, so no path
parameter is left over.  Templates without any segment are not counted: their path parameters have
no capture.
-/

namespace RouteDispatch

namespace Template

/-- Each capture denotes a path parameter of its own name, and no two denote the same one. -/
structure IsLinked (params : List ParamSpec) (segments : List Segment) : Prop where
  denotes : ∀ name param, .capture name param ∈ segments →
    ∃ spec, params[param]? = some spec ∧ spec.source = .path ∧ spec.name = name
  distinct : (segments.filterMap Segment.param?).Nodup

/-- Every path parameter is denoted by a capture. -/
def IsCovered (params : List ParamSpec) (segments : List Segment) : Prop :=
  ∀ param spec, params[param]? = some spec → spec.source = .path →
    ∃ name, .capture name param ∈ segments

def captureCount (segments : List Segment) : Nat :=
  segments.countP Segment.isCapture

/-! ## Reading a template -/

theorem isLinked_nil (params : List ParamSpec) : IsLinked params [] where
  denotes := by simp
  distinct := by simp

theorem mem_captured {segments : List Segment} {param : Nat} :
    param ∈ segments.filterMap Segment.param? ↔ ∃ name, .capture name param ∈ segments := by
  rw [List.mem_filterMap]
  constructor
  · rintro ⟨s, hs, hparam⟩
    cases s with
    | literal text => simp [Segment.param?] at hparam
    | capture name other =>
        obtain rfl : other = param := by simpa [Segment.param?] using hparam
        exact ⟨name, hs⟩
  · rintro ⟨name, hs⟩
    exact ⟨_, hs, rfl⟩

theorem length_captured (segments : List Segment) :
    (segments.filterMap Segment.param?).length = captureCount segments := by
  rw [List.length_filterMap_eq_countP, captureCount]
  refine List.countP_congr fun s _ => ?_
  cases s <;> simp [Segment.param?, Segment.isCapture]

/-- The parameter found for a capture is a path parameter of its name. -/
theorem spec_of_pathParam?
    {params : List ParamSpec} {name : String} {param : Nat}
    (h : pathParam? params name = some param) :
    ∃ spec, params[param]? = some spec ∧ spec.source = .path ∧ spec.name = name := by
  obtain ⟨hlt, hspec, -⟩ := List.findIdx?_eq_some_iff_getElem.mp h
  simp only [Bool.and_eq_true, beq_iff_eq] at hspec
  exact ⟨params[param], List.getElem?_eq_getElem hlt, hspec⟩

theorem IsLinked.literal
    {params : List ParamSpec} {before : List Segment} (h : IsLinked params before)
    (text : String) : IsLinked params (before ++ [.literal text]) where
  denotes := by
    intro name param hmem
    exact h.denotes name param (by simpa using hmem)
  distinct := by
    have hnone : [Segment.literal text].filterMap Segment.param? = [] := rfl
    rw [List.filterMap_append, hnone, List.append_nil]
    exact h.distinct

theorem IsLinked.capture
    {params : List ParamSpec} {before : List Segment} (h : IsLinked params before)
    {name : String} {param : Nat} (hparam : pathParam? params name = some param)
    (hfresh : param ∉ before.filterMap Segment.param?) :
    IsLinked params (before ++ [.capture name param]) where
  denotes := by
    intro other otherParam hmem
    rcases List.mem_append.mp hmem with hold | hnew
    · exact h.denotes other otherParam hold
    · obtain ⟨rfl, rfl⟩ := by simpa using hnew
      exact spec_of_pathParam? hparam
  distinct := by
    have hone : [Segment.capture name param].filterMap Segment.param? = [param] := rfl
    rw [List.filterMap_append, hone]
    refine List.nodup_append.mpr ⟨h.distinct, by simp, ?_⟩
    rintro other hother _ hparam rfl
    exact hfresh (List.mem_singleton.mp hparam ▸ hother)

/-- What a token that is read is like: it is a literal without a colon in front, or behind the colon
stands the name of a path parameter that no segment before it has. -/
theorem parseToken_cases
    {route path : String} {params : List ParamSpec} {before : List Segment} {token : String}
    {s : Segment} (h : parseToken route path params before token = .ok s) :
    token ≠ "" ∧ token.toList.any isReserved = false ∧
      (token.toList.head? ≠ some ':' ∧ s = .literal token ∨
        ∃ name param, token = ":" ++ name ∧ name ≠ "" ∧ pathParam? params name = some param ∧
          (∀ earlier ∈ before, earlier.param? ≠ some param) ∧ s = .capture name param) := by
  unfold parseToken at h
  split at h
  · cases h
  next hne =>
    split at h
    · cases h
    next hreserved =>
      refine ⟨by simpa using hne, Bool.eq_false_iff.mpr hreserved, ?_⟩
      split at h
      next name hname =>
        unfold parseCapture at h
        split at h
        · cases h
        next hnamed =>
          split at h
          · cases h
          next param hparam =>
            split at h
            · cases h
            next hfresh =>
              have htoken : token = ":" ++ String.ofList name :=
                String.toList_injective (by simp [hname])
              refine .inr ⟨_, param, htoken, by simpa using hnamed, hparam, ?_,
                (Except.ok.inj h).symm⟩
              simpa using hfresh
      next hplain =>
        refine .inl ⟨fun hcolon => ?_, (Except.ok.inj h).symm⟩
        obtain ⟨name, hname⟩ := List.head?_eq_some_iff.mp hcolon
        exact hplain name hname

theorem parseTokens_cons_eq_ok_iff
    {route path : String} {params : List ParamSpec} {before segments : List Segment}
    {token : String} {toks : List String} :
    parseTokens route path params before (token :: toks) = .ok segments ↔
      ∃ s, parseToken route path params before token = .ok s ∧
        parseTokens route path params (before ++ [s]) toks = .ok segments := by
  rw [parseTokens]
  cases parseToken route path params before token with
  | error e => simp [bind, Except.bind]
  | ok s => simp [bind, Except.bind]

/-- A template is read as its tokens are, with as many captures as there are path parameters unless
there is no token. -/
theorem parse_eq_ok_iff_parseTokens
    {route path : String} {params : List ParamSpec} {segments : List Segment} :
    parse route path params = .ok segments ↔
      parseTokens route path params [] (tokens path) = .ok segments ∧
        (tokens path ≠ [] → captureCount segments = pathParamCount params) := by
  unfold parse
  split
  next hroot => simp [hroot, parseTokens]
  next hroot =>
    cases parseTokens route path params [] (tokens path) with
    | error e => simp [bind, Except.bind]
    | ok read =>
        simp only [bind, Except.bind, Except.ok.injEq]
        split
        next hcount =>
          rw [Except.ok.injEq]
          refine ⟨?_, And.left⟩
          rintro rfl
          exact ⟨rfl, fun _ => hcount⟩
        next hcount =>
          refine ⟨nofun, ?_⟩
          rintro ⟨rfl, hsame⟩
          exact absurd (hsame hroot) hcount

/-- A token that is read leaves the segments linked. -/
theorem IsLinked.parseToken
    {route path : String} {params : List ParamSpec} {before : List Segment}
    (h : IsLinked params before) {token : String} {s : Segment}
    (htoken : parseToken route path params before token = .ok s) :
    IsLinked params (before ++ [s]) := by
  obtain ⟨-, -, ⟨-, rfl⟩ | ⟨name, param, -, -, hparam, hfresh, rfl⟩⟩ := parseToken_cases htoken
  · exact h.literal token
  · refine h.capture hparam fun hold => ?_
    obtain ⟨earlier, hearlier, hsame⟩ := List.mem_filterMap.mp hold
    exact hfresh earlier hearlier hsame

theorem IsLinked.parseTokens
    {route path : String} {params : List ParamSpec} {before : List Segment}
    (h : IsLinked params before) {toks : List String} {segments : List Segment}
    (htokens : parseTokens route path params before toks = .ok segments) :
    IsLinked params segments := by
  induction toks generalizing before with
  | nil =>
      obtain rfl := Except.ok.inj htokens
      exact h
  | cons token toks ih =>
      obtain ⟨s, htoken, hrest⟩ := parseTokens_cons_eq_ok_iff.mp htokens
      exact ih (h.parseToken htoken) hrest

/-- A template that is read is linked, and its captures are as many as the path parameters unless
it has no segment. -/
theorem parse_spec
    {route path : String} {params : List ParamSpec} {segments : List Segment}
    (h : parse route path params = .ok segments) :
    IsLinked params segments ∧
      (if tokens path = [] then segments = []
        else captureCount segments = pathParamCount params) := by
  obtain ⟨hread, hcount⟩ := parse_eq_ok_iff_parseTokens.mp h
  refine ⟨(isLinked_nil params).parseTokens hread, ?_⟩
  split
  next hroot =>
    rw [hroot] at hread
    exact (Except.ok.inj hread).symm
  next hroot => exact hcount hroot

/-! ## Counting -/

/-- The positions of the path parameters. -/
def pathPositions (params : List ParamSpec) : List Nat :=
  params.findIdxs fun spec => spec.source == .path

theorem mem_pathPositions {params : List ParamSpec} {param : Nat} :
    param ∈ pathPositions params ↔
      ∃ spec, params[param]? = some spec ∧ spec.source = .path := by
  rw [pathPositions, List.mem_findIdxs_iff_exists_getElem_pos]
  simp only [beq_iff_eq, List.getElem?_eq_some_iff]
  constructor
  · rintro ⟨hlt, hsource⟩
    exact ⟨params[param], ⟨hlt, rfl⟩, hsource⟩
  · rintro ⟨spec, ⟨hlt, rfl⟩, hsource⟩
    exact ⟨hlt, hsource⟩

/-- Captures that are linked cover the path parameters exactly when there are as many. -/
theorem IsLinked.isCovered_iff
    {params : List ParamSpec} {segments : List Segment} (h : IsLinked params segments) :
    IsCovered params segments ↔ captureCount segments = pathParamCount params := by
  have hwithin : segments.filterMap Segment.param? ⊆ pathPositions params := by
    intro param hparam
    obtain ⟨name, hmem⟩ := mem_captured.mp hparam
    obtain ⟨spec, hspec, hsource, -⟩ := h.denotes name param hmem
    exact mem_pathPositions.mpr ⟨spec, hspec, hsource⟩
  have hsubperm := h.distinct.subperm hwithin
  have hlength : (pathPositions params).length = pathParamCount params := List.length_findIdxs
  rw [← length_captured, ← hlength]
  constructor
  · intro hcovered
    have hall : pathPositions params ⊆ segments.filterMap Segment.param? := by
      intro param hparam
      obtain ⟨spec, hspec, hsource⟩ := mem_pathPositions.mp hparam
      exact mem_captured.mpr (hcovered param spec hspec hsource)
    exact Nat.le_antisymm hsubperm.length_le (List.nodup_findIdxs.subperm hall).length_le
  · intro hcount param spec hspec hsource
    have hperm := hsubperm.perm_of_length_le (Nat.le_of_eq hcount.symm)
    exact mem_captured.mp (hperm.mem_iff.mpr (mem_pathPositions.mpr ⟨spec, hspec, hsource⟩))

end Template

namespace RouteTable

/-! ## The routes of a table -/

/-- The captures of a compiled route are linked to its path parameters, and every path parameter is
captured, so that the counts agree, exactly unless the template has no segment and there is a path
parameter all the same. -/
theorem linked_of_build
    {plugins : List Plugin} {definitions : List Definition} {table : RouteTable}
    (h : (build plugins definitions).2 = .ok table) {r : Route} (hr : r ∈ table.routes) :
    Template.IsLinked r.params r.segments ∧
      (Template.IsCovered r.params r.segments ↔
        Template.captureCount r.segments = Template.pathParamCount r.params) ∧
      (Template.IsCovered r.params r.segments ↔
        (Template.tokens r.template = [] → Template.pathParamCount r.params = 0)) := by
  obtain ⟨hlinked, hcount⟩ := Template.parse_spec (isChecked_of_build h hr).parsed
  refine ⟨hlinked, hlinked.isCovered_iff, ?_⟩
  rw [hlinked.isCovered_iff]
  by_cases hroot : Template.tokens r.template = []
  · rw [if_pos hroot] at hcount
    simp [hcount, hroot, Template.captureCount, eq_comm]
  · rw [if_neg hroot] at hcount
    simp [hcount, hroot]

/-- Captures two parameters in the other order, with one of the query between them. -/
def memberDefinition : Definition :=
  ⟨"member", "GET", "/teams/:team/members/:id",
    [ParamSpec.path "id" .int, ParamSpec.query "limit" .int, ParamSpec.path "team" .string],
    .raw fun _ => .create fun t => .done t⟩

theorem linked_member :
    ∃ table, (build [] [memberDefinition]).2 = .ok table ∧ ∃ r ∈ table.routes,
      r.segments = [.literal "teams", .capture "team" 2, .literal "members", .capture "id" 0] ∧
      Template.IsLinked r.params r.segments ∧
      (Template.IsCovered r.params r.segments ↔
        Template.captureCount r.segments = Template.pathParamCount r.params) ∧
      (Template.IsCovered r.params r.segments ↔
        (Template.tokens r.template = [] → Template.pathParamCount r.params = 0)) := by
  have hsegments : ((build [] [memberDefinition]).2.toOption.map fun table =>
      table.routes.map fun r => r.segments) =
        some [[.literal "teams", .capture "team" 2, .literal "members", .capture "id" 0]] := by
    decide +kernel
  cases htable : (build [] [memberDefinition]).2 with
  | error e => simp [htable, Except.toOption] at hsegments
  | ok table =>
      rw [htable] at hsegments
      obtain ⟨r, hroutes, hr⟩ := List.map_eq_singleton_iff.mp (Option.some.inj hsegments)
      have hmem : r ∈ table.routes := by simp [hroutes]
      exact ⟨table, rfl, r, hmem, hr, linked_of_build htable hmem⟩

/-- Declares a path parameter and has nowhere to capture it. -/
def homeDefinition : Definition :=
  ⟨"home", "GET", "/", [ParamSpec.path "id" .int], .raw fun _ => .create fun t => .done t⟩

/-- The compiler accepts a path parameter that no capture denotes. -/
theorem not_isCovered_home :
    ∃ table, (build [] [homeDefinition]).2 = .ok table ∧ ∃ r ∈ table.routes,
      Template.captureCount r.segments = 0 ∧ Template.pathParamCount r.params = 1 ∧
      ¬ Template.IsCovered r.params r.segments := by
  have hcompiled : ((build [] [homeDefinition]).2.toOption.map fun table =>
      table.routes.map fun r => (r.segments, r.params)) =
        some [([], [ParamSpec.path "id" .int])] := by
    decide +kernel
  cases htable : (build [] [homeDefinition]).2 with
  | error e => simp [htable, Except.toOption] at hcompiled
  | ok table =>
      rw [htable] at hcompiled
      obtain ⟨r, hroutes, hr⟩ := List.map_eq_singleton_iff.mp (Option.some.inj hcompiled)
      obtain ⟨hsegments, hparams⟩ := Prod.mk.inj hr
      refine ⟨table, rfl, r, by simp [hroutes], ?_, ?_, ?_⟩
      · rw [hsegments]
        rfl
      · rw [hparams]
        rfl
      · intro hcovered
        rw [hsegments, hparams] at hcovered
        obtain ⟨name, hname⟩ := hcovered 0 _ rfl rfl
        simp at hname

end RouteTable
end RouteDispatch
