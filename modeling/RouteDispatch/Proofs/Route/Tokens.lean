import RouteDispatch.Proofs.Route.Rendering

/-!
# Reading a template token by token

A token denotes a segment: a literal that can be told from everything else, or the path parameter
whose name stands behind a colon.  A template is read exactly when each of its tokens denotes a
segment, no two of them capture one parameter, and no path parameter is left over unless there is no
token at all.  Nothing but the tokens decides, also when a template is refused: a refusal differs
from that of another path with the same tokens at most in the path that it quotes.
-/

namespace RouteDispatch

/-- The error with another path in the place of the one that it quotes, if it quotes one. -/
def BuildError.quoting (path : String) : BuildError → BuildError
  | .invalidPath route _ reason => .invalidPath route path reason
  | e => e

namespace Template

variable {route path : String} {params : List ParamSpec} {before segments : List Segment}

/-! ## One token -/

/-- The segment that a token stands for among the parameters. -/
inductive Denotes (params : List ParamSpec) : String → Segment → Prop
  | literal {text : String} (hne : text ≠ "") (hplain : text.toList.head? ≠ some ':')
      (hfree : IsFree text) : Denotes params text (.literal text)
  | capture {name : String} {param : Nat} (hne : name ≠ "") (hfree : IsFree name)
      (hparam : pathParam? params name = some param) :
      Denotes params (":" ++ name) (.capture name param)

theorem IsLinked.of_append {behind : List Segment} (h : IsLinked params (before ++ behind)) :
    IsLinked params before where
  denotes name param hmem := h.denotes name param (List.mem_append_left behind hmem)
  distinct := by
    have hdistinct := h.distinct
    rw [List.filterMap_append] at hdistinct
    exact (List.nodup_append.mp hdistinct).1

/-- No segment in front of a capture among linked segments has its parameter. -/
theorem IsLinked.param?_ne
    {name : String} {param : Nat} (h : IsLinked params (before ++ [.capture name param])) :
    ∀ s ∈ before, s.param? ≠ some param := by
  intro s hs hparam
  have hdistinct := h.distinct
  rw [List.filterMap_append] at hdistinct
  have hbefore : param ∈ before.filterMap Segment.param? := List.mem_filterMap.mpr ⟨s, hs, hparam⟩
  exact (List.nodup_append.mp hdistinct).2.2 param hbefore param List.mem_cons_self rfl

theorem denotes_of_parseToken
    {token : String} (hpiece : ∀ c ∈ token.toList, Text.isSolidus c = false) {s : Segment}
    (h : parseToken route path params before token = .ok s) : Denotes params token s := by
  obtain ⟨hne, hreserved, hcases⟩ := parseToken_cases h
  have hfree : IsFree token := fun c hc =>
    ⟨hpiece c hc, Bool.eq_false_iff.mpr (List.any_eq_false.mp hreserved c hc)⟩
  obtain ⟨hplain, rfl⟩ | ⟨name, param, rfl, hnamed, hparam, -, rfl⟩ := hcases
  · exact .literal hne hplain hfree
  · refine .capture hnamed (fun c hc => hfree c ?_) hparam
    rw [String.toList_append]
    exact List.mem_append_right _ hc

/-- A token is read exactly as what it denotes, unless a segment before it has its parameter. -/
theorem parseToken_eq_ok_iff
    (hlinked : IsLinked params before) {token : String}
    (hpiece : ∀ c ∈ token.toList, Text.isSolidus c = false) {s : Segment} :
    parseToken route path params before token = .ok s ↔
      Denotes params token s ∧ IsLinked params (before ++ [s]) := by
  constructor
  · exact fun h => ⟨denotes_of_parseToken hpiece h, hlinked.parseToken h⟩
  · rintro ⟨hdenotes, hnext⟩
    cases hdenotes with
    | literal hne hplain hfree => exact parseToken_literal hne hplain hfree route path params before
    | capture hne hfree hparam =>
        exact parseToken_capture hne hfree hparam hnext.param?_ne route path

/-! ## All tokens -/

theorem parseTokens_eq_ok_iff
    (hlinked : IsLinked params before) {toks : List String}
    (hpieces : ∀ token ∈ toks, ∀ c ∈ token.toList, Text.isSolidus c = false) :
    parseTokens route path params before toks = .ok segments ↔
      ∃ read, segments = before ++ read ∧ List.Forall₂ (Denotes params) toks read ∧
        IsLinked params segments := by
  -- The segments in front grow with each token; a token needs to know of them only that they are
  -- linked and stay so.
  induction toks generalizing before with
  | nil =>
      rw [parseTokens, Except.ok.injEq]
      constructor
      · rintro rfl
        exact ⟨[], (List.append_nil before).symm, .nil, hlinked⟩
      · rintro ⟨read, rfl, hread, -⟩
        cases hread
        exact (List.append_nil before).symm
  | cons token toks ih =>
      obtain ⟨hpiece, hrest⟩ := List.forall_mem_cons.mp hpieces
      rw [parseTokens_cons_eq_ok_iff]
      constructor
      · rintro ⟨s, htoken, hread⟩
        obtain ⟨hdenotes, hnext⟩ := (parseToken_eq_ok_iff hlinked hpiece).mp htoken
        obtain ⟨read, rfl, hall, hsegments⟩ := (ih hnext hrest).mp hread
        exact ⟨s :: read, by simp, .cons hdenotes hall, hsegments⟩
      · rintro ⟨read, rfl, hread, hsegments⟩
        cases hread with
        | @cons _ s _ read hdenotes hall =>
            have hnext : IsLinked params (before ++ [s]) := by
              rw [List.append_cons] at hsegments
              exact hsegments.of_append
            refine ⟨s, (parseToken_eq_ok_iff hlinked hpiece).mpr ⟨hdenotes, hnext⟩, ?_⟩
            exact (ih hnext hrest).mpr ⟨read, List.append_cons .., hall, hsegments⟩

/-- The tokens are read as the segments: each token denotes its segment, no two captures denote one
parameter, and every path parameter is captured unless there is no token. -/
structure Reads (params : List ParamSpec) (toks : List String) (segments : List Segment) :
    Prop where
  denotes : List.Forall₂ (Denotes params) toks segments
  linked : IsLinked params segments
  covered : toks ≠ [] → IsCovered params segments

/-- A template is read exactly as its tokens are. -/
theorem parse_eq_ok_iff :
    parse route path params = .ok segments ↔ Reads params (tokens path) segments := by
  have hread : parseTokens route path params [] (tokens path) = .ok segments ↔
      List.Forall₂ (Denotes params) (tokens path) segments ∧ IsLinked params segments := by
    rw [parseTokens_eq_ok_iff (isLinked_nil params) fun token => isSolidus_of_mem_tokens]
    simp
  rw [parse_eq_ok_iff_parseTokens, hread]
  constructor
  · rintro ⟨⟨hdenotes, hlinked⟩, hcount⟩
    exact ⟨hdenotes, hlinked, fun hne => hlinked.isCovered_iff.mpr (hcount hne)⟩
  · intro h
    exact ⟨⟨h.denotes, h.linked⟩, fun hne => h.linked.isCovered_iff.mp (h.covered hne)⟩

/-! ## Refusals -/

variable (route path params before)

theorem parseCapture_quoting (name other : String) :
    parseCapture route other params before name =
      (parseCapture route path params before name).mapError (BuildError.quoting other) := by
  unfold parseCapture
  split
  · rfl
  · split
    · rfl
    · split <;> rfl

theorem parseToken_quoting (token other : String) :
    parseToken route other params before token =
      (parseToken route path params before token).mapError (BuildError.quoting other) := by
  unfold parseToken
  split
  · rfl
  · split
    · rfl
    · split
      · exact parseCapture_quoting route path params before _ other
      · rfl

theorem parseTokens_quoting (toks : List String) (other : String) :
    parseTokens route other params before toks =
      (parseTokens route path params before toks).mapError (BuildError.quoting other) := by
  induction toks generalizing before with
  | nil => rfl
  | cons token toks ih =>
      simp only [parseTokens, parseToken_quoting route path params before token other, bind,
        Except.bind]
      cases parseToken route path params before token with
      | error e => rfl
      | ok s => exact ih (before ++ [s])

/-- Two paths with the same tokens are read alike, but for the path that a refusal quotes. -/
theorem parse_eq_of_tokens_eq {other : String} (h : tokens other = tokens path) :
    parse route other params =
      (parse route path params).mapError (BuildError.quoting other) := by
  unfold parse
  rw [h]
  split
  · rfl
  · simp only [parseTokens_quoting route path params [] _ other, bind, Except.bind]
    cases parseTokens route path params [] (tokens path) with
    | error e => rfl
    | ok found =>
        dsimp only [Except.mapError]
        split <;> rfl

end Template
end RouteDispatch
