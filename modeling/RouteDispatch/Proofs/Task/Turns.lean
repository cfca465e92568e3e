import Mathlib.Data.List.Induction
import RouteDispatch.Task.Cell

/-!
# The history of a task

The turns of a task, one after the other, are its history.  A history tells who waits for the
outcome (`awaited`), what the task was resolved with (`resolutions`), and what its consumers got
(`deliveries`).  It determines the cell: a task that is not resolved waits for the consumer that
came last, and an outcome is there to be had until it is delivered, once (`Leads.standing`).
-/

namespace RouteDispatch

/-- A resolution that finds the consumer caches the outcome, perhaps for the owner of a waker. -/
def Consumer.Caches {η : Type} (awaited : Bool) : Consumer η → Prop
  | .none => awaited = false
  | .handler _ => False
  | .waker _ => awaited = true

/-- What follows a resolution that finds the consumer. -/
def Consumer.follow {η : Type} : Consumer η → Cell.Settling η
  | .none => .quiet
  | .handler h => .run h
  | .waker label => .wake label

namespace Cell

variable {η : Type}

/-! ## Turns -/

namespace Turn

/-- What the task is resolved with. -/
def resolution? : Turn η → Option Outcome
  | .settled o _ => some o
  | _ => none

/-- The outcome that a consumer gets. -/
def delivery? : Turn η → Option Outcome
  | .settled o (.run _) => some o
  | .attached _ o => o
  | .polled _ o => o
  | _ => none

/-- Who waits for the outcome behind the turn, if `before` waited in front of it. -/
def awaited (before : Consumer η) : Turn η → Consumer η
  | .attached h none => .handler h
  | .polled waker none => .waker waker
  | .abandoned (some _) => .none
  | _ => before

/-- The handler that the turn is about. -/
def handler? : Turn η → Option η
  | .settled _ (.run h) => some h
  | .attached h _ => some h
  | .abandoned h => h
  | _ => none

/-- The handler that the turn hands an outcome to, and the outcome. -/
def handed? : Turn η → Option (η × Outcome)
  | .settled o (.run h) => some (h, o)
  | .attached h (some o) => some (h, o)
  | _ => none

/-- The waker that the turn wakes. -/
def woken? : Turn η → Option String
  | .settled _ (.wake waker) => some waker
  | _ => none

end Turn

/-- The cell takes the turn and becomes another. -/
inductive Takes : Cell η → Turn η → Cell η → Prop where
  | settled {c c' : Cell η} {o : Outcome} {follow : Settling η}
      (h : c.settle o = some (c', follow)) : Takes c (.settled o follow) c'
  | attached {c c' : Cell η} {k : η} {o : Option Outcome}
      (h : c.attach k = some (c', o)) : Takes c (.attached k o) c'
  | polled {c c' : Cell η} {waker : String} {o : Option Outcome}
      (h : c.poll waker = .ok (c', o)) : Takes c (.polled waker o) c'
  | abandoned {c c' : Cell η} {k : Option η}
      (h : c.abandon = (c', k)) : Takes c (.abandoned k) c'

/-- An outcome is handed to the handler that waits for it, or to one that comes after it. -/
theorem Takes.handed_cases {c c' : Cell η} {turn : Turn η} {h : η} {o : Outcome}
    (hturn : c.Takes turn c') (hhanded : turn.handed? = some (h, o)) :
    (turn = .settled o (.run h) ∧ c.settle o = some (c', .run h)) ∨
      (turn = .attached h (some o) ∧ c.attach h = some (c', some o)) := by
  unfold Turn.handed? at hhanded
  split at hhanded
  next o' h' =>
    obtain ⟨rfl, rfl⟩ := Prod.mk.inj (Option.some.inj hhanded)
    cases hturn with
    | settled hsettle => exact .inl ⟨rfl, hsettle⟩
  next h' o' =>
    obtain ⟨rfl, rfl⟩ := Prod.mk.inj (Option.some.inj hhanded)
    cases hturn with
    | attached hattach => exact .inr ⟨rfl, hattach⟩
  · cases hhanded

theorem Takes.outcome?_of_some
    {c c' : Cell η} {turn : Turn η} {o : Outcome} (hturn : c.Takes turn c')
    (ho : c.outcome? = some o) : c'.outcome? = some o := by
  cases hturn with
  | settled hsettle => simp [(outcome?_of_settle hsettle).1] at ho
  | attached hattach => rw [(outcome?_of_attach hattach).2, ho]
  | polled hpoll => rw [(outcome?_of_poll hpoll).2, ho]
  | abandoned habandon =>
      cases c with
      | waiting consumer => cases ho
      | cached => exact (Prod.mk.inj habandon).1 ▸ ho
      | taken => exact (Prod.mk.inj habandon).1 ▸ ho

/-- A handler that waits is handed the outcome or given up. -/
theorem Takes.of_handler
    {c' : Cell η} {turn : Turn η} {k : η} (hturn : Takes (.waiting (.handler k)) turn c') :
    (∃ o, turn = .settled o (.run k) ∧ c'.outcome? = some o) ∨ turn = .abandoned (some k) := by
  cases hturn with
  | @settled _ o follow hsettle =>
      obtain ⟨rfl, rfl⟩ := Prod.mk.inj (Option.some.inj hsettle)
      exact .inl ⟨o, rfl, rfl⟩
  | attached hattach => cases hattach
  | polled hpoll => cases hpoll
  | abandoned habandon =>
      obtain ⟨rfl, rfl⟩ := Prod.mk.inj habandon
      exact .inr rfl

theorem Takes.of_attached
    {c c' : Cell η} {k : η} {a : Option Outcome} (hturn : c.Takes (.attached k a) c') :
    c' = .waiting (.handler k) ∨ ∃ o, a = some o ∧ c'.outcome? = some o := by
  cases hturn with
  | attached hattach =>
      rcases c with (_ | _ | _) | ⟨o, _ | _⟩ | _
      all_goals cases hattach
      · exact .inl rfl
      · exact .inr ⟨o, rfl, rfl⟩

/-- A task that was fresh comes to the cell by the turns. -/
inductive Leads : List (Turn η) → Cell η → Prop where
  | fresh : Leads [] .fresh
  | next {turns : List (Turn η)} {turn : Turn η} {c c' : Cell η} (h : Leads turns c)
      (hturn : c.Takes turn c') : Leads (turns ++ [turn]) c'

/-! ## Histories -/

def resolutions (turns : List (Turn η)) : List Outcome :=
  turns.filterMap Turn.resolution?

def deliveries (turns : List (Turn η)) : List Outcome :=
  turns.filterMap Turn.delivery?

/-- Who waits for the outcome after the turns. -/
def awaited (turns : List (Turn η)) : Consumer η :=
  turns.foldl Turn.awaited .none

section Append

variable (turns : List (Turn η)) (turn : Turn η)

@[simp]
theorem resolutions_append_singleton :
    resolutions (turns ++ [turn]) = resolutions turns ++ turn.resolution?.toList := by
  cases h : turn.resolution? <;> simp [resolutions, h]

@[simp]
theorem deliveries_append_singleton :
    deliveries (turns ++ [turn]) = deliveries turns ++ turn.delivery?.toList := by
  cases h : turn.delivery? <;> simp [deliveries, h]

@[simp]
theorem awaited_append_singleton :
    awaited (turns ++ [turn]) = turn.awaited (awaited turns) :=
  List.foldl_append

end Append

/-- A task waits for its resolution and nobody has an outcome, or it was resolved once and its
outcome is still there, or it was resolved once and one consumer got what it was resolved with. -/
inductive Standing (turns : List (Turn η)) : Cell η → Prop where
  | waiting (hresolved : resolutions turns = []) (hdelivered : deliveries turns = []) :
      Standing turns (.waiting (awaited turns))
  | cached {o : Outcome} {awaited : Bool} (hresolved : resolutions turns = [o])
      (hdelivered : deliveries turns = []) (hconsumer : (Cell.awaited turns).Caches awaited) :
      Standing turns (.cached o awaited)
  | taken {o : Outcome} (hresolved : resolutions turns = [o])
      (hdelivered : deliveries turns = [o]) :
      Standing turns (.taken o)

theorem Standing.outcome? {turns : List (Turn η)} {c : Cell η} (h : Standing turns c) :
    resolutions turns = c.outcome?.toList := by
  cases h with
  | waiting hresolved => exact hresolved
  | cached hresolved => exact hresolved
  | taken hresolved => exact hresolved

/-- A task takes a completion handler if nobody waits for the outcome or has got it. -/
theorem Standing.attach_isSome_iff {turns : List (Turn η)} {c : Cell η} (h : Standing turns c)
    (k : η) :
    (c.attach k).isSome = true ↔ awaited turns = .none ∧ deliveries turns = [] := by
  cases h with
  | waiting _ hdelivered => cases hconsumer : awaited turns <;> simp [attach, hdelivered]
  | @cached o awaited _ hdelivered hconsumer =>
      cases hcase : Cell.awaited turns <;> cases awaited <;>
        simp_all [attach, Consumer.Caches]
  | taken _ hdelivered => simp [attach, hdelivered]

/-- A task may be polled if it has no completion handler and nobody has got the outcome. -/
theorem Standing.poll_isOk_iff
    {turns : List (Turn η)} {c : Cell η} (h : Standing turns c) (waker : String) :
    (c.poll waker).isOk = true ↔ (∀ k, awaited turns ≠ .handler k) ∧ deliveries turns = [] := by
  cases h with
  | waiting _ hdelivered =>
      cases hconsumer : awaited turns <;> simp [poll, hdelivered, Except.isOk, Except.toBool]
  | @cached o awaited _ hdelivered hconsumer =>
      cases hcase : Cell.awaited turns <;>
        simp_all [poll, Consumer.Caches, Except.isOk, Except.toBool]
  | taken _ hdelivered => simp [poll, hdelivered, Except.isOk, Except.toBool]

/-- A resolution finds the consumer that waits. -/
theorem Standing.settle_eq
    {turns : List (Turn η)} {c : Cell η} (h : Standing turns c) (hopen : c.outcome? = none)
    (o : Outcome) :
    ∃ c', c.settle o = some (c', (awaited turns).follow) ∧ c'.outcome? = some o := by
  cases h with
  | waiting => cases hconsumer : awaited turns <;> simp [settle, Consumer.follow, Cell.outcome?]
  | cached => simp [Cell.outcome?] at hopen
  | taken => simp [Cell.outcome?] at hopen

/-- A waiting task takes its next turn. -/
theorem Standing.next_of_waiting
    {turns : List (Turn η)} {turn : Turn η} {c' : Cell η} (hresolved : resolutions turns = [])
    (hdelivered : deliveries turns = []) (h : Takes (.waiting (awaited turns)) turn c') :
    Standing (turns ++ [turn]) c' := by
  have hawaited := awaited_append_singleton turns turn
  -- The turn sets the consumer that the next one finds.
  have hwaiting : ∀ consumer, turn.resolution? = none → turn.delivery? = none →
      turn.awaited (awaited turns) = consumer →
      Standing (turns ++ [turn]) (.waiting consumer) := by
    rintro consumer hr hd rfl
    rw [← hawaited]
    exact .waiting (by simp [hresolved, hr]) (by simp [hdelivered, hd])
  cases h with
  | settled h =>
      cases hconsumer : awaited turns with
      | none =>
          obtain ⟨rfl, rfl⟩ : _ ∧ _ := by simpa [hconsumer, settle] using h
          exact .cached (by simp [hresolved, Turn.resolution?])
            (by simp [hdelivered, Turn.delivery?])
            (by simp [hconsumer, Turn.awaited, Consumer.Caches])
      | waker label =>
          obtain ⟨rfl, rfl⟩ : _ ∧ _ := by simpa [hconsumer, settle] using h
          exact .cached (by simp [hresolved, Turn.resolution?])
            (by simp [hdelivered, Turn.delivery?])
            (by simp [hconsumer, Turn.awaited, Consumer.Caches])
      | handler k =>
          obtain ⟨rfl, rfl⟩ : _ ∧ _ := by simpa [hconsumer, settle] using h
          exact .taken (by simp [hresolved, Turn.resolution?])
            (by simp [hdelivered, Turn.delivery?])
  | attached h =>
      cases hconsumer : awaited turns with
      | none =>
          obtain ⟨rfl, rfl⟩ : _ ∧ _ := by simpa [hconsumer, attach] using h
          exact hwaiting _ rfl rfl rfl
      | waker label => simp [hconsumer, attach] at h
      | handler k => simp [hconsumer, attach] at h
  | polled h =>
      cases hconsumer : awaited turns with
      | none =>
          obtain ⟨rfl, rfl⟩ : _ ∧ _ := by simpa [hconsumer, poll] using h
          exact hwaiting _ rfl rfl rfl
      | waker label =>
          obtain ⟨rfl, rfl⟩ : _ ∧ _ := by simpa [hconsumer, poll] using h
          exact hwaiting _ rfl rfl rfl
      | handler k => simp [hconsumer, poll] at h
  | abandoned h =>
      cases hconsumer : awaited turns with
      | none =>
          obtain ⟨rfl, rfl⟩ : _ ∧ _ := by simpa [hconsumer, abandon] using h
          exact hwaiting _ rfl rfl hconsumer
      | waker label =>
          obtain ⟨rfl, rfl⟩ : _ ∧ _ := by simpa [hconsumer, abandon] using h
          exact hwaiting _ rfl rfl hconsumer
      | handler k =>
          obtain ⟨rfl, rfl⟩ : _ ∧ _ := by simpa [hconsumer, abandon] using h
          exact hwaiting _ rfl rfl rfl

/-- A resolved task takes its next turn, which leaves its outcome alone or delivers it. -/
theorem Standing.next_of_cached
    {turns : List (Turn η)} {turn : Turn η} {o : Outcome} {awaited : Bool} {c' : Cell η}
    (hresolved : resolutions turns = [o]) (hdelivered : deliveries turns = [])
    (hconsumer : (Cell.awaited turns).Caches awaited) (h : Takes (.cached o awaited) turn c') :
    Standing (turns ++ [turn]) c' := by
  cases h with
  | settled h => simp [settle] at h
  | attached h =>
      cases awaited with
      | false =>
          obtain ⟨rfl, rfl⟩ : _ ∧ _ := by simpa [attach] using h
          exact .taken (by simp [hresolved, Turn.resolution?])
            (by simp [hdelivered, Turn.delivery?])
      | true => simp [attach] at h
  | polled h =>
      obtain ⟨rfl, rfl⟩ : _ ∧ _ := by simpa [poll] using h
      exact .taken (by simp [hresolved, Turn.resolution?]) (by simp [hdelivered, Turn.delivery?])
  | abandoned h =>
      obtain ⟨rfl, rfl⟩ : _ ∧ _ := by simpa [abandon] using h
      exact .cached (by simp [hresolved, Turn.resolution?])
        (by simp [hdelivered, Turn.delivery?]) (by simpa [Turn.awaited] using hconsumer)

/-- A task whose outcome is gone can only be given up. -/
theorem Standing.next_of_taken
    {turns : List (Turn η)} {turn : Turn η} {o : Outcome} {c' : Cell η}
    (hresolved : resolutions turns = [o]) (hdelivered : deliveries turns = [o])
    (h : Takes (.taken o) turn c') : Standing (turns ++ [turn]) c' := by
  cases h with
  | settled h => simp [settle] at h
  | attached h => simp [attach] at h
  | polled h => simp [poll] at h
  | abandoned h =>
      obtain ⟨rfl, rfl⟩ : _ ∧ _ := by simpa [abandon] using h
      exact .taken (by simp [hresolved, Turn.resolution?]) (by simp [hdelivered, Turn.delivery?])

namespace Leads

variable {turns before later : List (Turn η)} {turn : Turn η} {c : Cell η}

theorem standing (h : Leads turns c) : Standing turns c := by
  induction h with
  | fresh => exact .waiting rfl rfl
  | next h hturn ih =>
      cases ih with
      | waiting hresolved hdelivered => exact .next_of_waiting hresolved hdelivered hturn
      | cached hresolved hdelivered hconsumer =>
          exact .next_of_cached hresolved hdelivered hconsumer hturn
      | taken hresolved hdelivered => exact .next_of_taken hresolved hdelivered hturn

/-- A handler that was left with a task waits there, or was given up, or was handed the outcome. -/
theorem attached_cases
    (h : Leads turns c) {k : η} {a : Option Outcome} (hmem : .attached k a ∈ turns) :
    c = .waiting (.handler k) ∨ .abandoned (some k) ∈ turns ∨
      ∃ turn o, turn ∈ turns ∧ turn.handed? = some (k, o) ∧ c.outcome? = some o := by
  induction h with
  | fresh => simp at hmem
  | @next turns turn c c' h hturn ih =>
      have hlast : turn ∈ turns ++ [turn] := List.mem_append_right _ List.mem_cons_self
      rcases List.mem_append.mp hmem with hold | hnew
      · rcases ih hold with rfl | hgivenUp | ⟨earlier, o, hearlier, hhanded, ho⟩
        · rcases hturn.of_handler with ⟨o, rfl, ho⟩ | rfl
          · exact .inr (.inr ⟨_, o, hlast, rfl, ho⟩)
          · exact .inr (.inl hlast)
        · exact .inr (.inl (List.mem_append_left _ hgivenUp))
        · exact .inr (.inr ⟨earlier, o, List.mem_append_left _ hearlier, hhanded,
            hturn.outcome?_of_some ho⟩)
      · obtain rfl := List.mem_singleton.mp hnew
        rcases hturn.of_attached with hwaits | ⟨o, rfl, ho⟩
        · exact .inl hwaits
        · exact .inr (.inr ⟨_, o, hlast, rfl, ho⟩)

theorem of_concat (h : Leads (turns ++ [turn]) c) : ∃ c₀, Leads turns c₀ ∧ c₀.Takes turn c := by
  generalize hall : turns ++ [turn] = all at h
  cases h with
  | fresh => simp at hall
  | next h hturn =>
      obtain ⟨rfl, hsame⟩ := List.append_inj' hall rfl
      obtain rfl : turn = _ := by simpa using hsame
      exact ⟨_, h, hturn⟩

/-- What came first in a history is a history. -/
theorem of_append (h : Leads (before ++ later) c) : ∃ c₀, Leads before c₀ := by
  induction later using List.reverseRecOn generalizing c with
  | nil => exact ⟨c, by simpa using h⟩
  | append_singleton later turn ih =>
      rw [← List.append_assoc] at h
      obtain ⟨c₀, h₀, -⟩ := h.of_concat
      exact ih h₀

/-- The cell that a turn finds is the one that the turns in front of it lead to. -/
theorem takes_of_append (h : Leads (before ++ turn :: later) c) :
    ∃ c₀ c₁, Leads before c₀ ∧ c₀.Takes turn c₁ := by
  rw [List.append_cons] at h
  obtain ⟨c₁, h₁⟩ := h.of_append
  obtain ⟨c₀, h₀, hturn⟩ := h₁.of_concat
  exact ⟨c₀, c₁, h₀, hturn⟩

/-- A resolution finds the consumer that waits after the turns in front of it. -/
theorem follow_eq {o : Outcome} {follow : Settling η}
    (h : Leads (before ++ .settled o follow :: later) c) : follow = (awaited before).follow := by
  obtain ⟨c₀, c₁, h₀, hturn⟩ := h.takes_of_append
  cases hturn with
  | settled hsettle =>
      obtain ⟨c₂, hsettle', -⟩ := h₀.standing.settle_eq (outcome?_of_settle hsettle).1 o
      have hsame := Option.some.inj (hsettle.symm.trans hsettle')
      exact (Prod.ext_iff.mp hsame).2

end Leads
end Cell
end RouteDispatch
