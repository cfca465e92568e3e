import RouteDispatch.Proofs.Route.Spelling

/-!
# Templates written and read

A template that is read is written back as it stands between its outer slashes.  Segments are read
back from what is written if their texts hold nothing that has a meaning in a template: with any
slashes around them, and against any parameters that declare just their captures, each of which then
denotes the parameter of its name.
-/

namespace RouteDispatch

namespace Text

variable {p : Char → Bool} {cs : List Char}

/-! ## Trimming -/

theorem exists_eq_dropEnd_append (p : Char → Bool) (cs : List Char) :
    ∃ back, cs = dropEnd p cs ++ back ∧ ∀ c ∈ back, p c = true := by
  induction cs with
  | nil => exact ⟨[], rfl, by simp⟩
  | cons c cs ih =>
      obtain ⟨back, hcs, hback⟩ := ih
      rw [dropEnd]
      split
      next hnone =>
        obtain rfl : cs = back := by rw [hcs, hnone, List.nil_append]
        by_cases hc : p c = true
        · rw [if_pos hc]
          exact ⟨c :: cs, rfl, List.forall_mem_cons.mpr ⟨hc, hback⟩⟩
        · rw [if_neg hc]
          exact ⟨cs, rfl, hback⟩
      · exact ⟨back, congrArg (c :: ·) hcs, hback⟩

theorem dropEnd_append {back : List Char} (hback : ∀ c ∈ back, p c = true) :
    dropEnd p (cs ++ back) = dropEnd p cs := by
  induction cs with
  | nil => exact dropEnd_eq_nil_iff.mpr hback
  | cons c cs ih => rw [List.cons_append, dropEnd, ih, dropEnd]

theorem dropEnd_eq_self (h : ∀ c, cs.getLast? = some c → p c = false) : dropEnd p cs = cs := by
  induction cs with
  | nil => rfl
  | cons c cs ih =>
      cases cs with
      | nil => simp [dropEnd, h c rfl]
      | cons next rest =>
          rw [dropEnd, ih fun last hlast => h last (by simpa using hlast)]

theorem exists_eq_trimBoth (p : Char → Bool) (cs : List Char) :
    ∃ front back, cs = front ++ trimBoth p cs ++ back ∧ ∀ c ∈ front ++ back, p c = true := by
  obtain ⟨back, hback, hall⟩ := exists_eq_dropEnd_append p (cs.dropWhile p)
  refine ⟨cs.takeWhile p, back, ?_, ?_⟩
  · rw [List.append_assoc, trimBoth, ← hback, List.takeWhile_append_dropWhile]
  · exact List.forall_mem_append.mpr ⟨fun c hc => List.mem_takeWhile_imp hc, hall⟩

/-- Trimming leaves a text that has none of the characters at its ends. -/
theorem trimBoth_eq
    (hhead : ∀ c, cs.head? = some c → p c = false) (hlast : ∀ c, cs.getLast? = some c → p c = false)
    {front back : List Char} (hall : ∀ c ∈ front ++ back, p c = true) :
    trimBoth p (front ++ cs ++ back) = cs := by
  obtain ⟨hfront, hback⟩ := List.forall_mem_append.mp hall
  have hskip : (front ++ cs ++ back).dropWhile p = (cs ++ back).dropWhile p := by
    rw [List.append_assoc, List.dropWhile_append_of_pos hfront]
  rw [trimBoth, hskip]
  cases cs with
  | nil =>
      rw [List.nil_append, List.dropWhile_eq_nil_iff.mpr hback]
      rfl
  | cons c rest =>
      rw [List.cons_append, List.dropWhile_cons_of_neg (by simp [hhead c rfl]), ← List.cons_append,
        dropEnd_append hback, dropEnd_eq_self hlast]

/-! ## Fields without an empty one -/

theorem head?_of_nil_not_mem_split (h : [] ∉ split p cs) {c : Char} (hc : cs.head? = some c) :
    p c = false := by
  obtain ⟨rest, rfl⟩ := List.head?_eq_some_iff.mp hc
  by_contra hsep
  rw [Bool.not_eq_false] at hsep
  rw [split, if_pos hsep] at h
  exact h List.mem_cons_self

theorem getLast?_of_nil_not_mem_split (h : [] ∉ split p cs) {c : Char}
    (hc : cs.getLast? = some c) : p c = false := by
  obtain ⟨front, rfl⟩ := List.getLast?_eq_some_iff.mp hc
  by_contra hsep
  rw [Bool.not_eq_false] at hsep
  rw [split_append_cons hsep] at h
  exact h (List.mem_append_right _ List.mem_cons_self)

theorem split_join {sep : Char} (hsep : p sep = true) {fields : List (List Char)}
    (hne : fields ≠ []) (hfields : ∀ field ∈ fields, ∀ c ∈ field, p c = false) :
    split p (join sep fields) = fields := by
  induction fields with
  | nil => exact absurd rfl hne
  | cons field fields ih =>
      obtain ⟨hfield, hrest⟩ := List.forall_mem_cons.mp hfields
      cases fields with
      | nil => exact split_eq_singleton hfield
      | cons next fields =>
          rw [join, split_append_of_forall hfield hsep, ih (List.cons_ne_nil next fields) hrest]
          exact List.cons_ne_nil next fields

theorem joinTexts_map_ofList (fields : List (List Char)) :
    joinTexts "/" (fields.map String.ofList) = String.ofList (join '/' fields) := by
  induction fields with
  | nil => rfl
  | cons field fields ih =>
      cases fields with
      | nil => rfl
      | cons next fields =>
          refine String.toList_injective ?_
          simp only [List.map_cons, joinTexts, join] at ih ⊢
          simp [ih]

end Text

namespace Template

/-- The path is the text with slashes in front of it and behind it. -/
def IsSurrounded (inner path : String) : Prop :=
  ∃ front back, path.toList = front ++ inner.toList ++ back ∧ ∀ c ∈ front ++ back, c = '/'

/-! ## Writing what was read -/

theorem render_of_parseToken
    {route path : String} {params : List ParamSpec} {before : List Segment} {token : String}
    {s : Segment} (h : parseToken route path params before token = .ok s) :
    s.render = token ∧ token ≠ "" := by
  obtain ⟨hne, -, ⟨-, rfl⟩ | ⟨_, _, rfl, -, -, -, rfl⟩⟩ := parseToken_cases h
  · exact ⟨rfl, hne⟩
  · exact ⟨rfl, hne⟩

theorem render_of_parseTokens
    {route path : String} {params : List ParamSpec} {before segments : List Segment}
    {toks : List String} (h : parseTokens route path params before toks = .ok segments) :
    segments.map Segment.render = before.map Segment.render ++ toks ∧ "" ∉ toks := by
  induction toks generalizing before with
  | nil =>
      obtain rfl := Except.ok.inj h
      simp
  | cons token toks ih =>
      obtain ⟨s, htoken, hread⟩ := parseTokens_cons_eq_ok_iff.mp h
      obtain ⟨hrest, hsome⟩ := ih hread
      obtain ⟨rfl, hne⟩ := render_of_parseToken htoken
      refine ⟨by simpa using hrest, ?_⟩
      rw [List.mem_cons, not_or]
      exact ⟨hne.symm, hsome⟩

theorem tokens_of_inner_eq_nil {path : String} (h : inner path = []) : tokens path = [] := by
  rw [tokens, h]

/-- The tokens of a path are the fields between its outer slashes. -/
theorem tokens_eq {path : String} (h : inner path ≠ []) :
    tokens path = (Text.split Text.isSolidus (inner path)).map String.ofList := by
  unfold tokens
  split
  next hnil => exact absurd hnil h
  · rfl

/-- A template that is read is written back without its outer slashes, and none of its tokens is
empty. -/
theorem render_of_parse
    {route path : String} {params : List ParamSpec} {segments : List Segment}
    (h : parse route path params = .ok segments) :
    render segments = String.ofList (inner path) ∧ "" ∉ tokens path := by
  obtain ⟨hread, -⟩ := parse_eq_ok_iff_parseTokens.mp h
  obtain ⟨htexts, hsome⟩ := render_of_parseTokens hread
  refine ⟨?_, hsome⟩
  rw [render, htexts, List.map_nil, List.nil_append]
  by_cases hroot : inner path = []
  · rw [tokens_of_inner_eq_nil hroot, hroot]
    rfl
  · rw [tokens_eq hroot, Text.joinTexts_map_ofList]
    exact congrArg String.ofList (Text.join_split '/' (inner path))

theorem isSurrounded_inner (path : String) : IsSurrounded (String.ofList (inner path)) path := by
  obtain ⟨front, back, hpath, hall⟩ := Text.exists_eq_trimBoth Text.isSolidus path.toList
  refine ⟨front, back, ?_, fun c hc => by simpa [Text.isSolidus] using hall c hc⟩
  rw [String.toList_ofList]
  exact hpath

/-- Where no token is empty, there is no slash at the ends of what the outer slashes surround. -/
theorem isSolidus_ends_inner
    {path : String} (h : "" ∉ tokens path) :
    (∀ c, (inner path).head? = some c → Text.isSolidus c = false) ∧
      ∀ c, (inner path).getLast? = some c → Text.isSolidus c = false := by
  by_cases hroot : inner path = []
  · simp [hroot]
  · have hfields : [] ∉ Text.split Text.isSolidus (inner path) := by
      intro hnil
      rw [tokens_eq hroot] at h
      exact h (List.mem_map.mpr ⟨[], hnil, rfl⟩)
    exact ⟨fun c => Text.head?_of_nil_not_mem_split hfields,
      fun c => Text.getLast?_of_nil_not_mem_split hfields⟩

/-! ## Reading what was written -/

/-- The text holds no character that has a meaning in a template. -/
def IsFree (text : String) : Prop :=
  ∀ c ∈ text.toList, Text.isSolidus c = false ∧ isReserved c = false

instance (text : String) : Decidable (IsFree text) :=
  List.decidableBAll _ text.toList

/-- The texts of the segments can be told from the rest of a template, and no two captures have one
name. -/
structure IsWritable (segments : List Segment) : Prop where
  literals : ∀ text, .literal text ∈ segments →
    text ≠ "" ∧ text.toList.head? ≠ some ':' ∧ IsFree text
  captures : ∀ name param, .capture name param ∈ segments → name ≠ "" ∧ IsFree name
  distinct : (captureNames segments).Nodup

/-- The parameters have different names, and those of the path are just the captured ones. -/
structure Declares (params : List ParamSpec) (segments : List Segment) : Prop where
  distinct : (params.map ParamSpec.name).Nodup
  captured : ∀ name, name ∈ captureNames segments ↔
    ∃ spec ∈ params, spec.source = .path ∧ spec.name = name

/-- The position of the parameter of a name. -/
def position (params : List ParamSpec) (name : String) : Nat :=
  params.findIdx fun spec => spec.name == name

end Template

/-- The segment as it is read against the parameters: a capture denotes the parameter of its
name. -/
def Segment.link (params : List ParamSpec) : Segment → Segment
  | .literal text => .literal text
  | .capture name _ => .capture name (Template.position params name)

namespace Template

variable {params : List ParamSpec} {segments : List Segment}

theorem mem_captureNames {name : String} :
    name ∈ captureNames segments ↔ ∃ param, .capture name param ∈ segments := by
  unfold captureNames
  rw [List.mem_filterMap]
  constructor
  · rintro ⟨s, hs, hname⟩
    cases s with
    | literal text => cases hname
    | capture other param =>
        obtain rfl := Option.some.inj hname
        exact ⟨param, hs⟩
  · rintro ⟨param, hs⟩
    exact ⟨_, hs, rfl⟩

theorem Declares.index_eq
    (h : Declares params segments) {i j : Nat} {spec spec' : ParamSpec}
    (hi : params[i]? = some spec) (hj : params[j]? = some spec') (hname : spec.name = spec'.name) :
    i = j := by
  have hlt : i < (params.map ParamSpec.name).length := by
    simpa using (List.getElem?_eq_some_iff.mp hi).1
  refine (List.getElem?_inj hlt h.distinct).mp ?_
  rw [List.getElem?_map, List.getElem?_map, hi, hj]
  exact congrArg some hname

/-- A captured name is that of the path parameter at its position. -/
theorem Declares.getElem?_position
    (h : Declares params segments) {name : String} (hname : name ∈ captureNames segments) :
    ∃ spec, params[position params name]? = some spec ∧ spec.source = .path ∧
      spec.name = name := by
  obtain ⟨spec, hspec, hsource, rfl⟩ := (h.captured name).mp hname
  obtain ⟨i, hi⟩ := List.getElem?_of_mem hspec
  have hlt : position params spec.name < params.length :=
    List.findIdx_lt_length_of_exists ⟨spec, hspec, by simp⟩
  have hfound : params[position params spec.name].name = spec.name :=
    beq_iff_eq.mp (List.findIdx_getElem (w := hlt))
  have hsame := h.index_eq (List.getElem?_eq_getElem hlt) hi hfound
  exact ⟨spec, hsame ▸ hi, hsource, rfl⟩

theorem Declares.pathParam?_eq
    (h : Declares params segments) {name : String} (hname : name ∈ captureNames segments) :
    pathParam? params name = some (position params name) := by
  obtain ⟨spec, hspec, hsource, hsame⟩ := h.getElem?_position hname
  obtain ⟨hlt, rfl⟩ := List.getElem?_eq_some_iff.mp hspec
  rw [pathParam?, List.findIdx?_eq_some_iff_getElem]
  refine ⟨hlt, by simp [hsource, hsame], fun j hj => ?_⟩
  have hbefore := List.not_of_lt_findIdx hj
  rw [Bool.not_eq_true, Bool.and_eq_false_iff]
  exact .inr (by simpa using hbefore)

theorem Declares.position_inj
    (h : Declares params segments) {name other : String} (hname : name ∈ captureNames segments)
    (hother : other ∈ captureNames segments)
    (hsame : position params name = position params other) : name = other := by
  obtain ⟨spec, hspec, -, rfl⟩ := h.getElem?_position hname
  obtain ⟨spec', hspec', -, rfl⟩ := h.getElem?_position hother
  rw [hsame, hspec'] at hspec
  exact congrArg ParamSpec.name (Option.some.inj hspec).symm

/-! ### One token after the other -/

theorem parseToken_literal
    {text : String} (hne : text ≠ "") (hplain : text.toList.head? ≠ some ':') (hfree : IsFree text)
    (route path : String) (params : List ParamSpec) (before : List Segment) :
    parseToken route path params before text = .ok (.literal text) := by
  have hreserved : text.toList.any isReserved = false :=
    List.any_eq_false.mpr fun c hc => by simp [(hfree c hc).2]
  unfold parseToken
  rw [if_neg (by simpa using hne), hreserved, if_neg Bool.false_ne_true]
  split
  next rest hcolon => simp [hcolon] at hplain
  · rfl

theorem parseToken_capture
    {name : String} (hne : name ≠ "") (hfree : IsFree name) {before : List Segment} {param : Nat}
    (hparam : pathParam? params name = some param)
    (hfresh : ∀ s ∈ before, s.param? ≠ some param) (route path : String) :
    parseToken route path params before (":" ++ name) = .ok (.capture name param) := by
  have hchars : (":" ++ name).toList = ':' :: name.toList := by simp
  have hreserved : (":" ++ name).toList.any isReserved = false := by
    rw [hchars, List.any_cons]
    exact List.any_eq_false.mpr fun c hc => by simp [(hfree c hc).2]
  have hbefore : (before.any fun s => s.param? == some param) = false :=
    List.any_eq_false.mpr fun s hs => by simpa using hfresh s hs
  have hsome : (":" ++ name).isEmpty = false := by
    rw [← Bool.not_eq_true, String.isEmpty_iff]
    intro hnil
    simp [hnil] at hchars
  unfold parseToken
  rw [hsome, if_neg Bool.false_ne_true, hreserved, if_neg Bool.false_ne_true, hchars]
  simp only [String.ofList_toList]
  unfold parseCapture
  rw [if_neg (by simpa using hne), hparam]
  simp only [hbefore, if_neg Bool.false_ne_true]

/-- A written token is read behind the ones in front of it: no capture denotes a parameter that one
in front of it denotes. -/
theorem parseToken_render
    (hwritable : IsWritable segments) (hdeclares : Declares params segments)
    (route path : String) {front rest : List Segment} {s : Segment}
    (hsegments : segments = front ++ s :: rest) :
    parseToken route path params (front.map (Segment.link params)) s.render =
      .ok (s.link params) := by
  have hmem : s ∈ segments := by simp [hsegments]
  cases s with
  | literal text =>
      obtain ⟨hne, hplain, hfree⟩ := hwritable.literals text hmem
      exact parseToken_literal hne hplain hfree route path params _
  | capture name param =>
      obtain ⟨hne, hfree⟩ := hwritable.captures name param hmem
      have hname : name ∈ captureNames segments := mem_captureNames.mpr ⟨param, hmem⟩
      refine parseToken_capture hne hfree (hdeclares.pathParam?_eq hname) ?_ route path
      intro s hs hparam
      obtain ⟨s₀, hs₀, rfl⟩ := List.mem_map.mp hs
      cases s₀ with
      | literal text => cases hparam
      | capture other otherParam =>
          have hother : other ∈ captureNames front := mem_captureNames.mpr ⟨_, hs₀⟩
          have hdistinct := hwritable.distinct
          rw [hsegments, captureNames, List.filterMap_append] at hdistinct
          have hbefore : other ∈ captureNames segments :=
            mem_captureNames.mpr ⟨otherParam, by simp [hsegments, hs₀]⟩
          obtain rfl := hdeclares.position_inj hbefore hname (Option.some.inj hparam)
          exact (List.nodup_append.mp hdistinct).2.2 other hother other List.mem_cons_self rfl

theorem parseTokens_render
    (hwritable : IsWritable segments) (hdeclares : Declares params segments)
    (route path : String) {front rest : List Segment} (hsegments : segments = front ++ rest) :
    parseTokens route path params (front.map (Segment.link params)) (rest.map Segment.render) =
      .ok (segments.map (Segment.link params)) := by
  induction rest generalizing front with
  | nil =>
      rw [hsegments, List.append_nil]
      rfl
  | cons s rest ih =>
      have htoken := parseToken_render hwritable hdeclares route path hsegments
      have hnext := @ih (front ++ [s]) (by simp [hsegments])
      rw [List.map_append, List.map_singleton] at hnext
      rw [List.map_cons, parseTokens, htoken]
      exact hnext

/-! ### The whole template -/

theorem IsWritable.render_ne_empty
    (h : IsWritable segments) {s : Segment} (hs : s ∈ segments) : s.render ≠ "" := by
  cases s with
  | literal text => exact (h.literals text hs).1
  | capture name param =>
      intro hempty
      have hchars := congrArg String.toList hempty
      simp [Segment.render] at hchars

theorem IsWritable.isSolidus_render
    (h : IsWritable segments) {s : Segment} (hs : s ∈ segments) :
    ∀ c ∈ s.render.toList, Text.isSolidus c = false := by
  cases s with
  | literal text => exact fun c hc => ((h.literals text hs).2.2 c hc).1
  | capture name param =>
      obtain ⟨-, hfree⟩ := h.captures name param hs
      have hchars : (Segment.capture name param).render.toList = ':' :: name.toList := by
        simp [Segment.render]
      rw [hchars]
      exact List.forall_mem_cons.mpr ⟨by decide, fun c hc => (hfree c hc).1⟩

theorem toList_render (segments : List Segment) :
    (render segments).toList = Text.join '/' (segments.map fun s => s.render.toList) := by
  have htexts : segments.map Segment.render =
      (segments.map fun s => s.render.toList).map String.ofList := by simp
  rw [render, htexts, Text.joinTexts_map_ofList, String.toList_ofList]

/-- The texts of the segments are the fields of what is written, and none is empty. -/
theorem IsWritable.split_render
    (h : IsWritable segments) (hne : segments ≠ []) :
    Text.split Text.isSolidus (render segments).toList =
        segments.map (fun s => s.render.toList) ∧
      [] ∉ Text.split Text.isSolidus (render segments).toList := by
  have hsplit : Text.split Text.isSolidus (render segments).toList =
      segments.map fun s => s.render.toList := by
    rw [toList_render]
    refine Text.split_join rfl (by simpa using hne) ?_
    exact List.forall_mem_map.mpr fun s hs => h.isSolidus_render hs
  refine ⟨hsplit, ?_⟩
  rw [hsplit, List.mem_map]
  rintro ⟨s, hs, hempty⟩
  exact toList_ne_nil (h.render_ne_empty hs) hempty

/-- The tokens of a path on which segments are written are the texts of the segments. -/
theorem tokens_of_isSurrounded
    (hwritable : IsWritable segments) {path : String} (h : IsSurrounded (render segments) path) :
    tokens path = segments.map Segment.render := by
  obtain ⟨front, back, hpath, hall⟩ := h
  have houter : ∀ c ∈ front ++ back, Text.isSolidus c = true := by
    simpa [Text.isSolidus] using hall
  by_cases hnil : segments = []
  · subst hnil
    have hinner : inner path = [] := by
      have hempty : Text.trimBoth Text.isSolidus (front ++ [] ++ back) = [] :=
        Text.trimBoth_eq (by simp) (by simp) houter
      rw [inner, hpath]
      exact hempty
    exact tokens_of_inner_eq_nil hinner
  · obtain ⟨hsplit, hsome⟩ := hwritable.split_render hnil
    have hinner : inner path = (render segments).toList := by
      rw [inner, hpath]
      exact Text.trimBoth_eq (fun c => Text.head?_of_nil_not_mem_split hsome)
        (fun c => Text.getLast?_of_nil_not_mem_split hsome) houter
    have hfull : inner path ≠ [] := by
      intro hempty
      rw [← hinner, hempty] at hsome
      exact hsome List.mem_cons_self
    rw [tokens_eq hfull, hinner, hsplit]
    simp

/-- Every path parameter has a capture among the segments that were read. -/
theorem Declares.isCovered (h : Declares params segments) :
    IsCovered params (segments.map (Segment.link params)) := by
  intro param spec hspec hsource
  have hname := (h.captured spec.name).mpr ⟨spec, List.mem_of_getElem? hspec, hsource, rfl⟩
  obtain ⟨spec', hspec', -, hsame⟩ := h.getElem?_position hname
  obtain rfl := h.index_eq hspec hspec' hsame.symm
  obtain ⟨old, hmem⟩ := mem_captureNames.mp hname
  exact ⟨spec.name, List.mem_map.mpr ⟨_, hmem, rfl⟩⟩

/-- What is written is read back, each capture at the position of the parameter of its name. -/
theorem parse_render
    (hwritable : IsWritable segments) (hdeclares : Declares params segments)
    (route : String) {path : String} (h : IsSurrounded (render segments) path) :
    parse route path params = .ok (segments.map (Segment.link params)) ∧
      IsLinked params (segments.map (Segment.link params)) := by
  have hread : parseTokens route path params ([].map (Segment.link params))
      (segments.map Segment.render) = .ok (segments.map (Segment.link params)) :=
    parseTokens_render hwritable hdeclares route path rfl
  have hlinked := (isLinked_nil params).parseTokens hread
  refine ⟨parse_eq_ok_iff_parseTokens.mpr ⟨?_, fun _ => ?_⟩, hlinked⟩
  · rw [tokens_of_isSurrounded hwritable h]
    exact hread
  · exact hlinked.isCovered_iff.mp hdeclares.isCovered

/-- Reading and writing templates undo each other: what is read from a template is written as the
template without its outer slashes, and what is written is read back with any slashes around it,
each capture denoting the parameter of its name. -/
theorem parse_render_inverse (route : String) :
    (∀ path params segments, parse route path params = .ok segments →
      IsSurrounded (render segments) path ∧
        (render segments).toList.head? ≠ some '/' ∧
        (render segments).toList.getLast? ≠ some '/') ∧
    ∀ path params segments, IsWritable segments → Declares params segments →
      IsSurrounded (render segments) path →
        parse route path params = .ok (segments.map (Segment.link params)) ∧
          IsLinked params (segments.map (Segment.link params)) := by
  refine ⟨fun path params segments h => ?_, fun path params segments hwritable hdeclares h =>
    parse_render hwritable hdeclares route h⟩
  obtain ⟨hrender, hsome⟩ := render_of_parse h
  obtain ⟨hhead, hlast⟩ := isSolidus_ends_inner hsome
  rw [hrender, String.toList_ofList]
  refine ⟨isSurrounded_inner path, fun hslash => ?_, fun hslash => ?_⟩
  · exact absurd (hhead '/' hslash) (by decide)
  · exact absurd (hlast '/' hslash) (by decide)

/-- The captures stand in another order than their parameters, and slashes stand on both sides. -/
theorem parse_render_inverse_member :
    let params := [ParamSpec.path "id" .int, .query "limit" .int, .path "team" .string]
    let segments := [Segment.capture "team" 0, .literal "members", .capture "id" 0]
    let read := [Segment.capture "team" 2, .literal "members", .capture "id" 0]
    parse "member" "//:team/members/:id/" params = .ok read ∧ IsLinked params read ∧
      IsSurrounded (render segments) "//:team/members/:id/" ∧
      render read = ":team/members/:id" := by
  intro params segments read
  have hwritable : IsWritable segments :=
    { literals := by
        intro text hmem
        obtain rfl : text = "members" := by simpa [segments] using hmem
        decide
      captures := by
        intro name param hmem
        obtain ⟨rfl, -⟩ | ⟨rfl, -⟩ : name = "team" ∧ param = 0 ∨ name = "id" ∧ param = 0 := by
          simpa [segments] using hmem
        · decide
        · decide
      distinct := by decide }
  have hdeclares : Declares params segments :=
    { distinct := by decide
      captured := by simp [params, segments, captureNames, ParamSpec.path, ParamSpec.query, or_comm,
        eq_comm] }
  have hpath : IsSurrounded (render segments) "//:team/members/:id/" :=
    ⟨['/', '/'], ['/'], by decide, by simp⟩
  obtain ⟨hread, hlinked⟩ := (parse_render_inverse "member").2 _ _ _ hwritable hdeclares hpath
  obtain ⟨hback, -, -⟩ := (parse_render_inverse "member").1 _ _ _ hread
  exact ⟨hread, hlinked, hback, by decide⟩

end Template
end RouteDispatch
