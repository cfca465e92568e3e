import RouteDispatch.Param.Reading

/-!
# What readings read

Whether a reading accepts a declared type decides whether it reads the values of that type, all of
them alike.  The arguments of a handler are read one by one, so they are read together exactly when
each of them is; and the check of a handler against the declared parameters is the test of
acceptance, position by position.
-/

namespace RouteDispatch
namespace Reading

/-- The reading gets something out of the value. -/
def Reads (reading : Reading) (spec : ParamSpec) (v : ParamValue) : Prop :=
  ∃ result, reading.read spec v = .ok result

theorem read_optional
    (inner : Reading) (spec : ParamSpec) {v : ParamValue} (hv : v ≠ .null) :
    (optional inner).read spec v = (inner.read spec v).map .present := by
  cases v with
  | null => exact absurd rfl hv
  | _ => rfl

/-- On values of a type, a reading reads exactly when it accepts the type. -/
theorem reads_iff_accepts
    (reading : Reading) (spec : ParamSpec) {v : ParamValue} {t : ParamType}
    (htype : v.type? = some t) : reading.Reads spec v ↔ reading.accepts t = true := by
  induction reading with
  | optional inner ih =>
      have hv : v ≠ .null := by
        rintro rfl
        cases htype
      rw [accepts, ← ih]
      unfold Reads
      rw [read_optional inner spec hv]
      cases inner.read spec v with
      | error e => simp [Except.map]
      | ok result => simp [Except.map]
  | _ =>
      cases v <;> cases htype <;> simp [Reads, read, accepts]

/-! ## Positions -/

theorem readFrom_cons_eq_ok_iff
    {reading : Reading} {readings : List Reading} {spec : ParamSpec} {specs : List ParamSpec}
    {v : ParamValue} {values : List ParamValue} {results : List Result} :
    readFrom (reading :: readings) (spec :: specs) (v :: values) = .ok results ↔
      ∃ first rest, reading.read spec v = .ok first ∧
        readFrom readings specs values = .ok rest ∧ first :: rest = results := by
  rw [readFrom]
  cases reading.read spec v with
  | error e => simp [bind, Except.bind]
  | ok first =>
      cases readFrom readings specs values with
      | error e => simp [bind, Except.bind]
      | ok rest => simp [bind, Except.bind, pure, Except.pure]

theorem reads_all_iff
    {readings : List Reading} {specs : List ParamSpec} {values : List ParamValue} :
    (∃ results, readFrom readings specs values = .ok results) ↔
      ∀ (i : Nat) (reading : Reading) (spec : ParamSpec) (v : ParamValue),
        readings[i]? = some reading → specs[i]? = some spec → values[i]? = some v →
          reading.Reads spec v := by
  induction readings generalizing specs values with
  | nil => simp [readFrom]
  | cons reading readings ih =>
      cases specs with
      | nil => simp [readFrom]
      | cons spec specs =>
          cases values with
          | nil => simp [readFrom]
          | cons v values =>
              have hcons : (∃ results,
                  readFrom (reading :: readings) (spec :: specs) (v :: values) = .ok results) ↔
                  reading.Reads spec v ∧
                    ∃ results, readFrom readings specs values = .ok results := by
                simp only [readFrom_cons_eq_ok_iff, Reads]
                constructor
                · rintro ⟨_, first, rest, hfirst, hrest, -⟩
                  exact ⟨⟨first, hfirst⟩, rest, hrest⟩
                · rintro ⟨⟨first, hfirst⟩, rest, hrest⟩
                  exact ⟨_, first, rest, hfirst, hrest, rfl⟩
              rw [hcons, ih]
              constructor
              · rintro ⟨hfirst, hrest⟩ i other otherSpec w hreading hspec hvalue
                cases i with
                | zero =>
                    obtain rfl : reading = other := by simpa using hreading
                    obtain rfl : spec = otherSpec := by simpa using hspec
                    obtain rfl : v = w := by simpa using hvalue
                    exact hfirst
                | succ i =>
                    exact hrest i other otherSpec w (by simpa using hreading)
                      (by simpa using hspec) (by simpa using hvalue)
              · intro hall
                constructor
                · exact hall 0 reading spec v rfl rfl rfl
                · intro i other otherSpec w hreading hspec hvalue
                  exact hall (i + 1) other otherSpec w (by simpa using hreading)
                    (by simpa using hspec) (by simpa using hvalue)

theorem accepts_of_checkFrom
    {readings : List Reading} {specs : List ParamSpec} {index : Nat}
    (h : checkFrom index readings specs = .ok ()) {i : Nat} {reading : Reading} {spec : ParamSpec}
    (hreading : readings[i]? = some reading) (hspec : specs[i]? = some spec) :
    reading.accepts spec.type = true := by
  induction readings generalizing specs index i with
  | nil => simp at hreading
  | cons first readings ih =>
      cases specs with
      | nil => simp at hspec
      | cons firstSpec specs =>
          rw [checkFrom] at h
          split at h
          next haccepts =>
            cases i with
            | zero =>
                obtain rfl : first = reading := by simpa using hreading
                obtain rfl : firstSpec = spec := by simpa using hspec
                exact haccepts
            | succ i => exact ih h (by simpa using hreading) (by simpa using hspec)
          · simp at h

/-- Readings that pass the check find a parameter at each position, of a type they accept. -/
theorem accepts_of_check
    {readings : List Reading} {specs : List ParamSpec} (h : check readings specs = .ok ()) :
    readings.length ≤ specs.length ∧
      ∀ (i : Nat) (reading : Reading) (spec : ParamSpec),
        readings[i]? = some reading → specs[i]? = some spec →
          reading.accepts spec.type = true := by
  unfold check at h
  split at h
  · simp at h
  next harity =>
    exact ⟨by omega, fun i reading spec => accepts_of_checkFrom h⟩

end Reading
end RouteDispatch
