import RouteDispatch.Args
import RouteDispatch.Proofs.Param.Reading

/-!
# The check of a handler and its readings

A handler is checked against the declared parameters before any call, and reads the arguments of
each call.  On arguments of the declared types both come to the same: what the check refuses cannot
be read, and what passes it is read, every argument by the reading at its position.
-/

namespace RouteDispatch

namespace ParamValue

/-- There are values of every type. -/
theorem exists_type?_eq (t : ParamType) : ∃ v : ParamValue, v.type? = some t := by
  cases t with
  | int => exact ⟨.int 0, rfl⟩
  | long => exact ⟨.long 0, rfl⟩
  | float => exact ⟨.float (.ofInt 0), rfl⟩
  | bool => exact ⟨.bool false, rfl⟩
  | string => exact ⟨.string "", rfl⟩

end ParamValue

/-- No argument is null, and each has the type of its parameter. -/
def Args.IsTyped (a : Args) : Prop :=
  ∀ (i : Nat) (spec : ParamSpec) (v : ParamValue),
    a.specs[i]? = some spec → a.values[i]? = some v → v.type? = some spec.type

namespace Reading

variable {reading : Reading} {spec : ParamSpec} {v : ParamValue} {readings : List Reading}
  {specs : List ParamSpec} {values : List ParamValue}

/-! ## One argument -/

/-- What a reading cannot read is reported with the parameter and the value as they are, however
deep the reading that refuses it lies. -/
theorem read_eq_error {e : CallError} (h : reading.read spec v = .error e) :
    ∃ expected, e = mismatch spec expected v := by
  induction reading with
  | optional inner ih =>
      by_cases hv : v = .null
      · subst hv
        cases h
      · rw [read_optional inner spec hv] at h
        cases hinner : inner.read spec v with
        | error inside =>
            rw [hinner] at h
            obtain rfl := Except.error.inj h
            exact ih hinner
        | ok result =>
            rw [hinner] at h
            cases h
  | _ =>
      cases v <;> cases h <;> exact ⟨_, rfl⟩

theorem mismatch_of_not_accepts
    {t : ParamType} (htype : v.type? = some t) (haccepts : reading.accepts t = false) :
    ∃ expected, reading.read spec v = .error (mismatch spec expected v) := by
  cases hread : reading.read spec v with
  | error e =>
      obtain ⟨expected, rfl⟩ := read_eq_error hread
      exact ⟨expected, rfl⟩
  | ok result =>
      rw [(reads_iff_accepts reading spec htype).mp ⟨result, hread⟩] at haccepts
      cases haccepts

/-- A type is accepted exactly when all its values are read. -/
theorem accepts_iff_reads {t : ParamType} (spec : ParamSpec) :
    reading.accepts t = true ↔ ∀ v : ParamValue, v.type? = some t → reading.Reads spec v := by
  constructor
  · intro haccepts v htype
    exact (reads_iff_accepts reading spec htype).mpr haccepts
  · intro hreads
    obtain ⟨v, htype⟩ := ParamValue.exists_type?_eq t
    exact (reads_iff_accepts reading spec htype).mp (hreads v htype)

/-! ## All arguments -/

theorem checkFrom_of_accepts {index : Nat}
    (h : ∀ (i : Nat) (reading : Reading) (spec : ParamSpec),
      readings[i]? = some reading → specs[i]? = some spec → reading.accepts spec.type = true) :
    checkFrom index readings specs = .ok () := by
  induction readings generalizing specs index with
  | nil => rfl
  | cons reading readings ih =>
      cases specs with
      | nil => rfl
      | cons spec specs =>
          rw [checkFrom, if_pos (h 0 reading spec rfl rfl)]
          exact ih fun i other otherSpec hreading hspec =>
            h (i + 1) other otherSpec (by simpa using hreading) (by simpa using hspec)

/-- The check is the test of acceptance at every position, after that of the number. -/
theorem check_eq_ok_iff :
    check readings specs = .ok () ↔
      readings.length ≤ specs.length ∧
        ∀ (i : Nat) (reading : Reading) (spec : ParamSpec),
          readings[i]? = some reading → specs[i]? = some spec →
            reading.accepts spec.type = true := by
  refine ⟨accepts_of_check, fun ⟨harity, haccepts⟩ => ?_⟩
  rw [check, if_neg (Nat.not_lt.mpr harity)]
  exact checkFrom_of_accepts haccepts

/-- What is read stands at the position of the argument that it is read from. -/
theorem getElem?_readFrom
    {results : List Result} (h : readFrom readings specs values = .ok results)
    (hspecs : readings.length ≤ specs.length) (hvalues : readings.length ≤ values.length) :
    results.length = readings.length ∧
      ∀ (i : Nat) (reading : Reading) (spec : ParamSpec) (v : ParamValue),
        readings[i]? = some reading → specs[i]? = some spec → values[i]? = some v →
          ∃ result, results[i]? = some result ∧ reading.read spec v = .ok result := by
  induction readings generalizing specs values results with
  | nil =>
      obtain rfl := Except.ok.inj h
      simp
  | cons reading readings ih =>
      cases specs with
      | nil => simp at hspecs
      | cons spec specs =>
          cases values with
          | nil => simp at hvalues
          | cons v values =>
              obtain ⟨first, rest, hfirst, hrest, rfl⟩ := readFrom_cons_eq_ok_iff.mp h
              obtain ⟨hlength, hread⟩ := ih hrest (Nat.le_of_succ_le_succ hspecs)
                (Nat.le_of_succ_le_succ hvalues)
              refine ⟨congrArg (· + 1) hlength, ?_⟩
              intro i other otherSpec w hreading hspec hvalue
              cases i with
              | zero =>
                  obtain rfl : reading = other := by simpa using hreading
                  obtain rfl : spec = otherSpec := by simpa using hspec
                  obtain rfl : v = w := by simpa using hvalue
                  exact ⟨first, rfl, hfirst⟩
              | succ i =>
                  exact hread i other otherSpec w (by simpa using hreading)
                    (by simpa using hspec) (by simpa using hvalue)

/-- Arguments of the declared types are read exactly when the check passes. -/
theorem readAll_iff_check {a : Args} (htyped : a.IsTyped) :
    (∃ results, readAll readings a.specs a.values = .ok results) ↔
      check readings a.specs = .ok () := by
  rw [check_eq_ok_iff, ← a.aligned]
  by_cases harity : readings.length ≤ a.values.length
  · rw [readAll, if_neg (Nat.not_lt.mpr harity), reads_all_iff]
    constructor
    · intro hreads
      refine ⟨harity, fun i reading spec hreading hspec => ?_⟩
      obtain ⟨hlt, -⟩ := List.getElem?_eq_some_iff.mp hspec
      have hvalue := List.getElem?_eq_getElem (a.aligned ▸ hlt)
      exact (reads_iff_accepts reading spec (htyped i spec _ hspec hvalue)).mp
        (hreads i reading spec _ hreading hspec hvalue)
    · rintro ⟨-, haccepts⟩ i reading spec v hreading hspec hvalue
      exact (reads_iff_accepts reading spec (htyped i spec v hspec hvalue)).mpr
        (haccepts i reading spec hreading hspec)
  · rw [readAll, if_pos (Nat.lt_of_not_le harity)]
    simp [harity]

/-- Acceptance decides on a type as reading does on each of its values, and the check of a handler
on the parameters as the reading of all arguments does, whichever arguments of the declared types
there are; the readings then stand at the positions of their arguments. -/
theorem acceptance_agrees :
    (∀ (reading : Reading) (t : ParamType) (spec : ParamSpec),
      (reading.accepts t = true ↔
        ∀ v : ParamValue, v.type? = some t → ∃ result, reading.read spec v = .ok result) ∧
      (reading.accepts t = false →
        ∀ v : ParamValue, v.type? = some t →
          ∃ expected, reading.read spec v = .error (mismatch spec expected v))) ∧
    ∀ (readings : List Reading) (a : Args), a.IsTyped →
      ((∃ results, readAll readings a.specs a.values = .ok results) ↔
        check readings a.specs = .ok ()) ∧
      ∀ results, readAll readings a.specs a.values = .ok results →
        results.length = readings.length ∧
          ∀ (i : Nat) (reading : Reading), readings[i]? = some reading →
            ∃ spec v result, a.specs[i]? = some spec ∧ a.values[i]? = some v ∧
              results[i]? = some result ∧ reading.read spec v = .ok result := by
  refine ⟨fun reading t spec => ⟨accepts_iff_reads spec, fun haccepts v htype =>
    mismatch_of_not_accepts htype haccepts⟩, fun readings a htyped =>
    ⟨readAll_iff_check htyped, fun results hresults => ?_⟩⟩
  obtain ⟨harity, -⟩ := accepts_of_check ((readAll_iff_check htyped).mp ⟨results, hresults⟩)
  have hvalues : readings.length ≤ a.values.length := a.aligned ▸ harity
  rw [readAll, if_neg (Nat.not_lt.mpr hvalues)] at hresults
  obtain ⟨hlength, hread⟩ := getElem?_readFrom hresults harity hvalues
  refine ⟨hlength, fun i reading hreading => ?_⟩
  obtain ⟨hlt, -⟩ := List.getElem?_eq_some_iff.mp hreading
  have hspec := List.getElem?_eq_getElem (Nat.lt_of_lt_of_le hlt harity)
  have hvalue := List.getElem?_eq_getElem (Nat.lt_of_lt_of_le hlt hvalues)
  obtain ⟨result, hresult, hok⟩ := hread i reading _ _ hreading hspec hvalue
  exact ⟨_, _, result, hspec, hvalue, hresult, hok⟩

/-- A long is read from an integer and an optional text from a text; read as a flag, the text is
refused by the check and by the reading. -/
theorem acceptance_agrees_nameOfId :
    let specs := [ParamSpec.path "id" .int, .query "name" .string]
    let a := Args.of specs [.int 7, .string "x"] none
    a.IsTyped ∧
      (∃ results, readAll [.long, .optional .string] a.specs a.values = .ok results ∧
        results[0]? = some (.long 7)) ∧
      ¬ ∃ results, readAll [.long, .bool] a.specs a.values = .ok results := by
  intro specs a
  have htyped : a.IsTyped := by
    intro i spec v hspec hvalue
    match i with
    | 0 =>
        obtain rfl := Option.some.inj hspec
        obtain rfl := Option.some.inj hvalue
        rfl
    | 1 =>
        obtain rfl := Option.some.inj hspec
        obtain rfl := Option.some.inj hvalue
        rfl
    | i + 2 => cases hspec
  obtain ⟨hagrees, hpositions⟩ := acceptance_agrees.2 [.long, .optional .string] a htyped
  obtain ⟨results, hresults⟩ := hagrees.mpr rfl
  obtain ⟨-, hread⟩ := hpositions results hresults
  obtain ⟨spec, v, result, hspec, hvalue, hresult, hok⟩ := hread 0 .long rfl
  obtain rfl := Option.some.inj hspec
  obtain rfl := Option.some.inj hvalue
  obtain rfl : Result.long 7 = result := Except.ok.inj hok
  refine ⟨htyped, ⟨results, hresults, hresult⟩, fun hreads => ?_⟩
  have hcheck := (acceptance_agrees.2 [.long, .bool] a htyped).1.mp hreads
  cases hcheck

end Reading
end RouteDispatch
