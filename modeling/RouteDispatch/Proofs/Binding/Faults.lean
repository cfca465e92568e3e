import RouteDispatch.Proofs.Binding.TypedCalls

/-!
# How the binder stops

A computation of the binder gives a value or stops with a fault: it fails the call, or it panics.
What stops a composed computation is a fault of its first part, or one of the rest with the value
that the first part gave.
-/

namespace RouteDispatch
namespace Binder

/-- How a computation ends without a value. -/
inductive Fault where
  | failure (e : CallError)
  | panic (p : Panic)
  deriving DecidableEq

variable {α β : Type}

def Fault.result : Fault → Except Panic (Except CallError α)
  | .failure e => .ok (.error e)
  | .panic p => .error p

/-- The computation ends with the fault. -/
def Stops (c : Binder α) (f : Fault) : Prop :=
  c.run = f.result

theorem not_stops_pure {a : α} {f : Fault} : ¬ Stops (pure a) f := by
  cases f with
  | failure e => exact nofun
  | panic p => exact nofun

theorem stops_throw_iff {e : CallError} {f : Fault} :
    Stops (throw e : Binder α) f ↔ f = .failure e := by
  have hrun : (throw e : Binder α).run = .ok (.error e) := rfl
  rw [Stops, hrun]
  cases f with
  | failure e' => simp [Fault.result, eq_comm]
  | panic p => simp [Fault.result]

theorem stops_raise_iff {p : Panic} {f : Fault} :
    Stops (raise p : Binder α) f ↔ f = .panic p := by
  have hrun : (raise p : Binder α).run = .error p := rfl
  rw [Stops, hrun]
  cases f with
  | failure e => simp [Fault.result]
  | panic p' => simp [Fault.result, eq_comm]

/-- A computation gives a value exactly when no fault ends it. -/
theorem exists_gives_iff {c : Binder α} : (∃ a, Gives c a) ↔ ∀ f, ¬ Stops c f := by
  unfold Gives Stops
  constructor
  · rintro ⟨a, ha⟩ f hf
    rw [ha] at hf
    cases f with
    | failure e => cases Except.ok.inj hf
    | panic p => cases hf
  · intro h
    rcases hrun : c.run with p | e | a
    · exact absurd hrun (h (.panic p))
    · exact absurd hrun (h (.failure e))
    · exact ⟨a, rfl⟩

theorem stops_bind_iff {c : Binder α} {k : α → Binder β} {f : Fault} :
    Stops (c >>= k) f ↔ Stops c f ∨ ∃ a, Gives c a ∧ Stops (k a) f := by
  unfold Gives Stops
  rw [run_bind]
  rcases c.run with p | e | a
  · cases f with
    | failure e' => simp [Fault.result]
    | panic p' => simp [Fault.result]
  · cases f with
    | failure e' => simp [Fault.result]
    | panic p' => simp [Fault.result]
  · cases f with
    | failure e' => simp [Fault.result]
    | panic p' => simp [Fault.result]

/-- Where one part may have a fault and the rest another one, the fault of the first part counts. -/
theorem stops_bind_iff_or
    {c : Binder α} {k : α → Binder β} {first rest : Option Fault}
    (hfirst : ∀ f, Stops c f ↔ first = some f)
    (hrest : ∀ a, Gives c a → ∀ f, Stops (k a) f ↔ rest = some f) (f : Fault) :
    Stops (c >>= k) f ↔ first.or rest = some f := by
  rw [stops_bind_iff, hfirst]
  cases first with
  | some g =>
      have hnone : ∀ a, ¬ Gives c a := fun a ha =>
        exists_gives_iff.mp ⟨a, ha⟩ g ((hfirst g).mpr rfl)
      simp [hnone]
  | none =>
      obtain ⟨a, ha⟩ : ∃ a, Gives c a := exists_gives_iff.mpr fun g hg => by
        simpa using (hfirst g).mp hg
      rw [Option.none_or]
      constructor
      · rintro (hnone | ⟨b, hb, hstops⟩)
        · cases hnone
        · exact (hrest b hb f).mp hstops
      · intro hf
        exact .inr ⟨a, ha, (hrest a ha f).mpr hf⟩

/-- The fault of a reading that came to no value. -/
def faultOf (e : CallError) : Except Panic (Option ParamValue) → Option Fault
  | .error p => some (.panic p)
  | .ok none => some (.failure e)
  | .ok (some _) => none

theorem faultOf_eq_none_iff {e : CallError} {reading : Except Panic (Option ParamValue)} :
    faultOf e reading = none ↔ ∃ v, reading = .ok (some v) := by
  rcases reading with p | _ | v
  · simp [faultOf]
  · simp [faultOf]
  · simp [faultOf]

theorem stops_settle_iff
    {e : CallError} {reading : Except Panic (Option ParamValue)} {f : Fault} :
    Stops (settle e reading) f ↔ faultOf e reading = some f := by
  rcases reading with p | _ | v
  · simp [settle, faultOf, stops_raise_iff, eq_comm]
  · simp [settle, faultOf, stops_throw_iff, eq_comm]
  · simp [settle, faultOf, not_stops_pure]

end Binder
end RouteDispatch
