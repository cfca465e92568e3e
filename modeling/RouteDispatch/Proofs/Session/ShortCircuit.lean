import RouteDispatch.Proofs.Session.Runs

/-!
# Failure short-circuits a call

Once a call has entered its last stage, no plugin and no handler of it is started any more,
whatever the plugins and the handler do and in whatever order tasks are resolved.  There is one way
around this: a plugin that has handed its continuation on and then panics fails the call, but the
continuation stays where it is, and the call goes on when it is used.
-/

namespace RouteDispatch
namespace Dispatcher

/-- A stage is started after its call has entered the last stage exactly if a panic of a plugin cut
the call off before, after the plugin had handed its continuation on. -/
theorem closed_iff_cutOff_of_startsStage
    (d : Dispatcher) (depth : Nat) (table : RouteTable) (steps : List Step) (c : CallId)
    {before behind : List Entry} {e : Entry}
    (hlog : (d.after depth table steps).world.log = before ++ e :: behind)
    (hstart : e.startsStage c = true) : Closed c before ↔ CutOff c before := by
  obtain ⟨standing, φ, -, hinv, -⟩ := d.exists_rests_after depth table steps c
  constructor
  · intro hclosed
    by_contra hcut
    exact hinv.facts.timely ⟨before, e, behind, hlog, hstart, hclosed, hcut⟩
  · rintro ⟨front, x, back, rfl, hcut⟩
    exact ⟨x, by simp, hcut.closes⟩

/-- Lets the call go on and then panics. -/
def hastyPlugin : Plugin :=
  { name := "p"
    bind := Plugin.bindAlways
    modifyCall := fun _ _ args => .proceed (.args args) (.panic (.text "boom"))
    modifyResult := Plugin.passResult }

/-- The handler's task is resolved after the panic has failed the call. -/
def hastyPast : Past :=
  after {} nesting (echoTable [hastyPlugin])
    [.dispatch { method := "GET", path := "/echo" }, .code (.settle 0 (.ok .null) fun _ => .skip)]

theorem hastyPast_startsStage :
    ∃ before e behind, hastyPast.world.log = before ++ e :: behind ∧ e.startsStage 0 = true ∧
      Closed 0 before := by
  have hstart : (hastyPast.world.log.drop 19).head?.any (Entry.startsStage 0) = true := by
    decide +kernel
  have hclosed : (hastyPast.world.log.take 19).any (Entry.closes 0) = true := by
    decide +kernel
  cases hbehind : hastyPast.world.log.drop 19 with
  | nil => simp [hbehind] at hstart
  | cons e behind =>
      refine ⟨hastyPast.world.log.take 19, e, behind, ?_, ?_, ?_⟩
      · rw [← hbehind, List.take_append_drop]
      · simpa [hbehind] using hstart
      · simpa [Closed] using hclosed

/-- The plugin is started on the way back although the call has failed. -/
theorem not_shortCircuit_hastyPast :
    ¬ ∀ before e behind, hastyPast.world.log = before ++ e :: behind → e.startsStage 0 = true →
      ¬ Closed 0 before := by
  obtain ⟨before, e, behind, hlog, hstart, hclosed⟩ := hastyPast_startsStage
  exact fun h => h before e behind hlog hstart hclosed

theorem cutOff_hastyPast :
    ∃ before e behind, hastyPast.world.log = before ++ e :: behind ∧ e.startsStage 0 = true ∧
      Closed 0 before ∧ CutOff 0 before := by
  obtain ⟨before, e, behind, hlog, hstart, hclosed⟩ := hastyPast_startsStage
  exact ⟨before, e, behind, hlog, hstart, hclosed,
    (closed_iff_cutOff_of_startsStage {} nesting _ _ 0 hlog hstart).mp hclosed⟩

end Dispatcher
end RouteDispatch
