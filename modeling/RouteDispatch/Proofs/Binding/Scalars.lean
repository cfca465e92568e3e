import RouteDispatch.Proofs.Binding.Filling
import RouteDispatch.Proofs.Decimal.Integers
import RouteDispatch.Proofs.Route.Rendering

/-!
# Scalars in a JSON body and as text

A scalar may stand in a JSON body, where integers and truth values are converted, or in a query
string or a form body, where all there is of it is a text for the parser.  Under the standard parser
both come to the same value or to the same failure, whatever type the parameter has.  So nothing
changes when a scalar is moved from one source to another, and a bound value is got back from its
text and from its JSON.
-/

namespace RouteDispatch

/-- The text of a scalar outside of JSON: a string stands for itself, a truth value and an integer of
one word are written as in JSON. -/
def Json.scalarText? : Json → Option String
  | .bool b => some (Json.text (.bool b))
  | .int n => if fitsWord n then some (Json.text (.int n)) else none
  | .str s => some s
  | _ => none

/-- A given value with its scalar as text. -/
def RawValue.asText : RawValue → RawValue
  | .text raw => .text raw
  | .json j =>
    match j.scalarText? with
    | some raw => .text raw
    | none => .json j

theorem Json.cases_of_scalarText? {j : Json} {raw : String} (h : j.scalarText? = some raw) :
    j = .str raw ∨
      j.text = raw ∧ ((∃ b, j = .bool b) ∨ ∃ n, j = .int n ∧ fitsWord n = true) := by
  unfold scalarText? at h
  split at h
  next b => exact .inr ⟨Option.some.inj h, .inl ⟨b, rfl⟩⟩
  next n =>
    by_cases hfits : fitsWord n = true
    · rw [if_pos hfits] at h
      exact .inr ⟨Option.some.inj h, .inr ⟨n, rfl, hfits⟩⟩
    · rw [if_neg hfits] at h
      cases h
  next s => exact .inl (congrArg Json.str (Option.some.inj h))
  · cases h

theorem Json.fitsWord_of_le
    {n : Int} (hleast : Int64.minValue.toInt ≤ n) (hmost : n ≤ Int64.maxValue.toInt) :
    fitsWord n = true := by
  have hsize : Int64.maxValue.toInt < UInt64.size := by decide
  rw [fitsWord, Bool.and_eq_true, decide_eq_true_eq, decide_eq_true_eq]
  exact ⟨hleast, Int.lt_of_le_of_lt hmost hsize⟩

theorem Json.natAbs_lt_of_fitsWord {n : Int} (h : fitsWord n = true) : n.natAbs < UInt64.size := by
  have hleast : Int64.minValue.toInt = -9223372036854775808 := rfl
  rw [fitsWord, Bool.and_eq_true, decide_eq_true_eq, decide_eq_true_eq, hleast] at h
  unfold UInt64.size at h ⊢
  omega

/-! ## Texts without blanks -/

namespace ParamParser

theorem isBlank_of_isSignOrDigit {c : Char} (h : Decimal.IsSignOrDigit c) :
    Text.isBlank c = false := by
  have hcode := h.toNat
  simp only [Text.isBlank, Text.blankRanges, List.any_cons, List.any_nil, Bool.or_false,
    Bool.or_eq_false_iff, Bool.and_eq_false_iff, decide_eq_false_iff_not]
  omega

/-- There is nothing to trim from the text of an integer. -/
theorem trimBoth_integerText (n : Int) :
    Text.trimBoth Text.isBlank (Json.integerText n).toList = (Json.integerText n).toList := by
  have hblank : ∀ c ∈ (Json.integerText n).toList, Text.isBlank c = false := fun c hc =>
    isBlank_of_isSignOrDigit (Decimal.isSignOrDigit_of_mem_integerText hc)
  have htrim : Text.trimBoth Text.isBlank ([] ++ (Json.integerText n).toList ++ []) = _ :=
    Text.trimBoth_eq (fun c hc => hblank c (List.mem_of_mem_head? hc))
      (fun c hc => hblank c (List.mem_of_mem_getLast? hc)) (by simp)
  rwa [List.nil_append, List.append_nil] at htrim

theorem sameWord_integerText
    {word : List Char} (letter : Char) (hletter : letter ∈ word.map Char.toLower)
    (hother : ¬ Decimal.IsSignOrDigit letter) (n : Int) :
    sameWord (Json.integerText n).toList word = false :=
  beq_eq_false_iff_ne.mpr (Decimal.lowerAscii_ne_of_isSignOrDigit
    (fun _ hc => Decimal.isSignOrDigit_of_mem_integerText hc) letter hletter hother)

/-- The text of an integer spells no truth value. -/
theorem bool?_integerText (n : Int) : bool? (Json.integerText n).toList = none := by
  rw [bool?, sameWord_integerText 'e' (by decide) (by decide),
    sameWord_integerText 'e' (by decide) (by decide)]
  rfl

end ParamParser

/-! ## Conversion and parsing -/

namespace Binder

/-- Integers of one word are converted as their texts are parsed. -/
theorem jsonValue?_int {n : Int} (h : Json.fitsWord n = true) (type : ParamType) :
    jsonValue? type (.int n) = ParamParser.standardValue? type (Json.text (.int n)) := by
  have htext : Json.text (.int n) = Json.integerText n := by rw [Json.text]
  unfold ParamParser.standardValue?
  rw [htext, ParamParser.trimBoth_integerText]
  cases type with
  | int =>
      dsimp only [jsonValue?, Json.int64?]
      rw [Decimal.integerIn?_integerText]
      by_cases hint : Int32.minValue.toInt ≤ n ∧ n ≤ Int32.maxValue.toInt
      · have hlong : Int64.minValue.toInt ≤ n ∧ n ≤ Int64.maxValue.toInt :=
          ⟨Int.le_trans (by decide) hint.1, Int.le_trans hint.2 (by decide)⟩
        rw [if_pos hlong, if_pos hint]
        exact if_pos hint
      · rw [if_neg hint]
        by_cases hlong : Int64.minValue.toInt ≤ n ∧ n ≤ Int64.maxValue.toInt
        · rw [if_pos hlong]
          exact if_neg hint
        · rw [if_neg hlong]
          rfl
  | long =>
      dsimp only [jsonValue?, Json.int64?]
      rw [Decimal.integerIn?_integerText]
  | float =>
      have hsize : n.natAbs < UInt64.size := Json.natAbs_lt_of_fitsWord h
      dsimp only [jsonValue?, Json.double?]
      rw [Decimal.double?_integerText hsize]
  | bool =>
      dsimp only [jsonValue?, Json.bool?]
      rw [ParamParser.bool?_integerText]
  | string =>
      dsimp only [jsonValue?]
      rw [htext]

theorem jsonValue?_bool (b : Bool) (type : ParamType) :
    jsonValue? type (.bool b) = ParamParser.standardValue? type (Json.text (.bool b)) := by
  cases b <;> cases type <;> rfl

/-- What a scalar is under a declared type is what the standard parser makes of its text. -/
theorem convert_json_of_scalarText?
    {j : Json} {raw : String} (h : j.scalarText? = some raw) (type : ParamType) :
    (RawValue.json j).convert .standard type = (RawValue.text raw).convert .standard type := by
  rcases Json.cases_of_scalarText? h with rfl | ⟨rfl, ⟨b, rfl⟩ | ⟨n, rfl, hfits⟩⟩
  · rfl
  · exact congrArg Except.ok (jsonValue?_bool b type)
  · exact congrArg Except.ok (jsonValue?_int hfits type)

/-- A failure shows a scalar by its text. -/
theorem shown_json_of_scalarText?
    {j : Json} {raw : String} (h : j.scalarText? = some raw) : (RawValue.json j).shown = raw := by
  rcases Json.cases_of_scalarText? h with rfl | ⟨rfl, ⟨b, rfl⟩ | ⟨n, rfl, -⟩⟩
  · rfl
  · rfl
  · rfl

theorem convertJson_eq_parseText
    {j : Json} {raw : String} (h : j.scalarText? = some raw) (spec : ParamSpec) :
    convertJson .standard spec j = parseText .standard spec raw := by
  rw [convertJson_eq, convert_json_of_scalarText? h, shown_json_of_scalarText? h, parseText,
    parse_eq]
  rfl

/-! ## Moving a scalar -/

theorem convert_asText (raw : RawValue) (type : ParamType) :
    raw.asText.convert .standard type = raw.convert .standard type := by
  unfold RawValue.asText
  split
  · rfl
  · split
    next htext => exact (convert_json_of_scalarText? htext type).symm
    · rfl

theorem shown_asText (raw : RawValue) : raw.asText.shown = raw.shown := by
  unfold RawValue.asText
  split
  · rfl
  · split
    next htext => exact (shown_json_of_scalarText? htext).symm
    · rfl

/-- The value of a parameter of the query depends on what is given as a text. -/
theorem queryValue_asText
    {s : Sources} (h : s.IsHashed) (order : List SourceKind) (spec : ParamSpec) :
    queryValue .standard order s spec =
      match (s.given? order spec.name).map RawValue.asText with
      | some raw => settle (invalid spec raw.shown) (raw.convert .standard spec.type)
      | none => if spec.required then throw (missing spec) else pure spec.default := by
  rw [queryValue_eq h]
  cases s.given? order spec.name with
  | none => rfl
  | some raw =>
      dsimp only [Option.map_some]
      rw [convert_asText, shown_asText]

/-- A scalar of a JSON body is bound as its text is, with the same value or the same failure, whatever
the parameter is.  So all arguments are bound alike from sources that differ in nothing but in where
and how their scalars stand. -/
theorem scalars_bind_alike :
    (∀ (spec : ParamSpec) (j : Json) (raw : String), j.scalarText? = some raw →
      convertJson .standard spec j = parseText .standard spec raw) ∧
    ∀ (order : List SourceKind) (s s' : Sources), s.Built → s'.Built →
      (∀ name, (s.given? order name).map RawValue.asText =
        (s'.given? order name).map RawValue.asText) →
      ∀ (e : Endpoint) (captures : List Capture),
        bind .standard order s e captures = bind .standard order s' e captures := by
  refine ⟨fun spec j raw h => convertJson_eq_parseText h spec, ?_⟩
  intro order s s' hs hs' hgiven e captures
  refine bind_eq_of_queryValue_eq (fun spec _ _ => ?_) captures
  rw [queryValue_asText hs.isHashed, queryValue_asText hs'.isHashed, hgiven spec.name]

/-- A number beyond the longs is refused as its text is; and a limit is bound from a JSON body as from
a query string. -/
theorem scalars_bind_alike_limit :
    (Json.int 9223372036854775808).scalarText? = some "9223372036854775808" ∧
    convertJson .standard (ParamSpec.query "limit" .long) (.int 9223372036854775808) =
      parseText .standard (ParamSpec.query "limit" .long) "9223372036854775808" ∧
    Stops (convertJson .standard (ParamSpec.query "limit" .long) (.int 9223372036854775808))
      (.failure (.invalidState
        "parameter 'limit' has invalid long value '9223372036854775808'")) ∧
    ∃ s', ({} : Sources).withJson (.obj [("limit", .int 5)]) = .ok s' ∧
      bind .standard [.query, .json] (({} : Sources).withQuery "limit=5") RouteTable.visitEndpoint
        [⟨1, "7"⟩] =
        bind .standard [.query, .json] s' RouteTable.visitEndpoint [⟨1, "7"⟩] ∧
      Gives (bind .standard [.query, .json] s' RouteTable.visitEndpoint [⟨1, "7"⟩])
        [.int 7, .int 5, .null] := by
  have htext : (Json.int 9223372036854775808).scalarText? = some "9223372036854775808" := by
    decide +kernel
  have hconvert := scalars_bind_alike.1 (ParamSpec.query "limit" .long) _ _ htext
  have hpairs : ({} : Sources).withQuery "limit=5" =
      { query := some [⟨Text.segmentHash "limit", "limit", "5"⟩] } := by
    have hdecoded : Text.formPairs (Text.utf8Bytes "limit=5") = [("limit", "5")] := by
      decide +kernel
    simp only [Sources.withQuery, Sources.decode, hdecoded, List.map_cons, List.map_nil]
  have hbody : ({} : Sources).withJson (.obj [("limit", .int 5)]) =
      .ok { json := some [("limit", .int 5)] } := rfl
  have hgives := RouteTable.gives_visit
  have hmoved := scalars_bind_alike.2 [.query, .json] (({} : Sources).withQuery "limit=5")
    _ (.query .none _) (.json .none hbody) (fun name => ?_)
    RouteTable.visitEndpoint [⟨1, "7"⟩]
  · rw [← hpairs, hmoved] at hgives
    refine ⟨htext, hconvert, ?_, _, hbody, hmoved, hgives⟩
    rw [hconvert, parseText, parse_eq, stops_settle_iff]
    decide +kernel
  · rw [hpairs]
    by_cases hname : "limit" = name
    · subst hname
      rfl
    · simp [Sources.given?, Sources.entries, List.findSome?_cons, hname]

end Binder

/-! ## Values written and bound again -/

namespace ParamValue

variable {v : ParamValue} {t : ParamType}

/-- Values that are no doubles are got back from their texts. -/
theorem standardValue?_text (htype : v.type? = some t) (hexact : t ≠ .float) :
    ParamParser.standardValue? t v.text = some v := by
  cases v with
  | null => cases htype
  | int n =>
      obtain rfl := Option.some.inj htype
      have hrange := And.intro n.minValue_le_toInt n.toInt_le
      unfold ParamParser.standardValue?
      dsimp only [text]
      rw [ParamParser.trimBoth_integerText, Decimal.integerIn?_integerText, if_pos hrange,
        Option.map_some, Int32.ofInt_toInt]
  | long n =>
      obtain rfl := Option.some.inj htype
      have hrange := And.intro n.minValue_le_toInt n.toInt_le
      unfold ParamParser.standardValue?
      dsimp only [text]
      rw [ParamParser.trimBoth_integerText, Decimal.integerIn?_integerText, if_pos hrange,
        Option.map_some, Int64.ofInt_toInt]
  | float d =>
      obtain rfl := Option.some.inj htype
      exact absurd rfl hexact
  | bool b =>
      obtain rfl := Option.some.inj htype
      cases b <;> rfl
  | string s =>
      obtain rfl := Option.some.inj htype
      rfl

/-- As JSON, a value that is no double is a scalar with the text of the value. -/
theorem scalarText?_toJson (htype : v.type? = some t) (hexact : t ≠ .float) :
    v.toJson.scalarText? = some v.text := by
  cases v with
  | null => cases htype
  | int n =>
      exact if_pos (Json.fitsWord_of_le (Int.le_trans (by decide) n.minValue_le_toInt)
        (Int.le_trans n.toInt_le (by decide)))
  | long n => exact if_pos (Json.fitsWord_of_le n.minValue_le_toInt n.toInt_le)
  | float d =>
      obtain rfl := Option.some.inj htype
      exact absurd rfl hexact
  | bool b => cases b <;> rfl
  | string s => rfl

/-- A value that is no double is got back from its text and from its JSON by a parameter of its
type. -/
theorem reads_back (htype : v.type? = some t) (hexact : t ≠ .float) :
    ParamParser.standard t v.text = .ok (some v) ∧
      ∀ spec : ParamSpec, spec.type = t → Binder.convertJson .standard spec v.toJson = pure v := by
  have hread := standardValue?_text htype hexact
  refine ⟨congrArg Except.ok hread, ?_⟩
  rintro spec rfl
  rw [Binder.convertJson_eq_parseText (scalarText?_toJson htype hexact), Binder.parseText,
    Binder.parse_eq, ParamParser.standard, hread]
  rfl

/-- The least of the short integers is got back, and so is a string with blanks around a digit. -/
theorem reads_back_leastInt :
    ((ParamValue.int Int32.minValue).type? = some .int ∧
      ParamParser.standard .int "-2147483648" = .ok (some (.int Int32.minValue)) ∧
      Binder.convertJson .standard (ParamSpec.query "limit" .int) (.int (-2147483648)) =
        pure (.int Int32.minValue)) ∧
    (ParamValue.string " 7\t").type? = some .string ∧
      ParamParser.standard .string " 7\t" = .ok (some (.string " 7\t")) ∧
      Binder.convertJson .standard (ParamSpec.query "q" .string) (.str " 7\t") =
        pure (.string " 7\t") := by
  have htext : (ParamValue.int Int32.minValue).text = "-2147483648" := by decide +kernel
  obtain ⟨hparsed, hconverted⟩ :=
    reads_back (v := .int Int32.minValue) (t := .int) rfl (by decide)
  rw [htext] at hparsed
  obtain ⟨hkept, htaken⟩ := reads_back (v := .string " 7\t") (t := .string) rfl (by decide)
  exact ⟨⟨rfl, hparsed, hconverted (ParamSpec.query "limit" .int) rfl⟩, rfl, hkept,
    htaken (ParamSpec.query "q" .string) rfl⟩

end ParamValue
end RouteDispatch
