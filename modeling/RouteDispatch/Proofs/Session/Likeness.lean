import Mathlib.Data.Option.Basic
import RouteDispatch.Proofs.Session.Course

/-!
# Code that keeps to its own call

One call may be followed through two runs.  Its tasks have other places there, and it has another
position and another number; what its code does must not depend on these.  Two pieces of code are
alike if they do the same step by step, each to its own tasks, whatever numbers a counter gives
them, and neither looks for tasks by name.  Code that is like itself touches no task but those that
it made, and keeps nothing between calls.
-/

namespace RouteDispatch

/-! ## Logs without numbers -/

def News.anonymous : News → News
  | .started _ method path version => .started 0 method path version
  | .succeeded _ route => .succeeded 0 route
  | .failed _ route error => .failed 0 route error

def Remark.anonymous : Remark → Remark
  | .note content => .note content
  | .news n => .news n.anonymous

/-- The report as it is for any call that it may be about. -/
def Trace.anonymous : Trace → Trace
  | .matched _ route version => .matched ⟨0, 0⟩ route version
  | .entered _ source target => .entered ⟨0, 0⟩ source target
  | .pluginStarted _ point route plugin => .pluginStarted ⟨0, 0⟩ point route plugin
  | .handlerStarted _ route => .handlerStarted ⟨0, 0⟩ route
  | .lateResult _ route => .lateResult ⟨0, 0⟩ route
  | .lateFailure _ route error => .lateFailure ⟨0, 0⟩ route error
  | t => t

def Mark.anonymous : Mark → Mark
  | .started _ => .started 0
  | .ended _ o => .ended 0 o
  | .invoked _ args => .invoked 0 args
  | .returned _ => .returned 0
  | .spent _ point fate => .spent 0 point fate
  | .escaped _ piece p => .escaped 0 piece p
  | .refused _ => .refused 0
  | .resolved _ => .resolved 0

/-- The entry without the position and the number of the call, and without the place of the task,
that it is about. -/
def Entry.anonymous : Entry → Entry
  | .remark r => .remark r.anonymous
  | .trace t => .trace t.anonymous
  | .woken label => .woken label
  | .mark m => .mark m.anonymous

/-! ## Code -/

/-- Tasks of one run, each with the task of another run that stands for it. -/
abbrev Pairing := List (TaskId × TaskId)

variable (ids : Nat → Nat → Prop)

/-- Views of a call that differ in the number of the call only, by related numbers. -/
def CallView.Alike (v v' : CallView) : Prop :=
  ids v.id v'.id ∧ v' = { v with id := v'.id }

def Held.Alike (h h' : Held) : Prop :=
  h.point = h'.point ∧ h.call.Alike ids h'.call

/-- Values that code ends with in two runs. -/
def Yield.Alike (ρ : Pairing) : (y : Yield) → y.Value → y.Value → Prop
  | .nothing, _, _ => True
  | .outcome, o, o' => o = o'
  | .task, t, t' => (t, t') ∈ ρ
  | .number, n, n' => ids n n'
  | .json, j, j' => j = j'

/-- Pieces of code that do the same in two runs with paired tasks. -/
inductive Code.Alike : Pairing → {y : Yield} → Code y → Code y → Prop
  | done {ρ : Pairing} {y : Yield} {v v' : y.Value} (h : y.Alike ids ρ v v') :
      Alike ρ (.done v) (.done v')
  | panic {ρ : Pairing} {y : Yield} (p : Panic) : Alike ρ (.panic (y := y) p) (.panic p)
  | log {ρ : Pairing} {y : Yield} {r r' : Remark} {next next' : Code y}
      (hr : r.anonymous = r'.anonymous) (hnext : Alike ρ next next') :
      Alike ρ (.log r next) (.log r' next')
  | create {ρ : Pairing} {y : Yield} {next next' : TaskId → Code y}
      (hnext : ∀ t t', Alike ((t, t') :: ρ) (next t) (next' t')) :
      Alike ρ (.create next) (.create next')
  | settle {ρ : Pairing} {y : Yield} {t t' : TaskId} (o : Outcome) {next next' : Bool → Code y}
      (ht : (t, t') ∈ ρ) (hnext : ∀ settled, Alike ρ (next settled) (next' settled)) :
      Alike ρ (.settle t o next) (.settle t' o next')
  | attach {ρ : Pairing} {y : Yield} {t t' : TaskId} {f f' : Outcome → Code .nothing}
      {next next' : Code y} (ht : (t, t') ∈ ρ) (hf : ∀ o, Alike ρ (f o) (f' o))
      (hnext : Alike ρ next next') : Alike ρ (.attach t f next) (.attach t' f' next')
  | entrust {ρ : Pairing} {y : Yield} {t t' : TaskId} {f f' : Outcome → Code .nothing}
      {next next' : Code y} (ht : (t, t') ∈ ρ) (hf : ∀ o, Alike ρ (f o) (f' o))
      (hnext : Alike ρ next next') : Alike ρ (.entrust t f next) (.entrust t' f' next')
  | transform {ρ : Pairing} {y : Yield} {t t' : TaskId} {f f' : Outcome → Code .outcome}
      {next next' : TaskId → Code y} (ht : (t, t') ∈ ρ) (hf : ∀ o, Alike ρ (f o) (f' o))
      (hnext : ∀ u u', Alike ((u, u') :: ρ) (next u) (next' u')) :
      Alike ρ (.transform t f next) (.transform t' f' next')
  | chain {ρ : Pairing} {y : Yield} {t t' : TaskId} {f f' : Outcome → Code .task}
      {next next' : TaskId → Code y} (ht : (t, t') ∈ ρ) (hf : ∀ o, Alike ρ (f o) (f' o))
      (hnext : ∀ u u', Alike ((u, u') :: ρ) (next u) (next' u')) :
      Alike ρ (.chain t f next) (.chain t' f' next')
  | poll {ρ : Pairing} {y : Yield} {t t' : TaskId} (waker : String)
      {next next' : Option Outcome → Code y} (ht : (t, t') ∈ ρ)
      (hnext : ∀ o, Alike ρ (next o) (next' o)) :
      Alike ρ (.poll t waker next) (.poll t' waker next')
  | state {ρ : Pairing} {y : Yield} {t t' : TaskId} {next next' : TaskState → Code y}
      (ht : (t, t') ∈ ρ) (hnext : ∀ s, Alike ρ (next s) (next' s)) :
      Alike ρ (.state t next) (.state t' next')
  | abandon {ρ : Pairing} {y : Yield} {t t' : TaskId} {next next' : Code y} (ht : (t, t') ∈ ρ)
      (hnext : Alike ρ next next') : Alike ρ (.abandon t next) (.abandon t' next')
  | proceed {ρ : Pairing} {y : Yield} (payload : Payload) {next next' : Code y}
      (hnext : Alike ρ next next') : Alike ρ (.proceed payload next) (.proceed payload next')
  | abort {ρ : Pairing} {y : Yield} (e : CallError) {next next' : Code y}
      (hnext : Alike ρ next next') : Alike ρ (.abort e next) (.abort e next')
  | release {ρ : Pairing} {y : Yield} {next next' : Code y} (hnext : Alike ρ next next') :
      Alike ρ (.release next) (.release next')
  | inspect {ρ : Pairing} {y : Yield} {next next' : Option Held → Code y}
      (hnext : ∀ h h', Option.Rel (Held.Alike ids) h h' → Alike ρ (next h) (next' h')) :
      Alike ρ (.inspect next) (.inspect next')
  | register {ρ : Pairing} {y : Yield} (name : String) {t t' : TaskId} {next next' : Code y}
      (hnext : Alike ρ next next') : Alike ρ (.register name t next) (.register name t' next')
  | unregister {ρ : Pairing} {y : Yield} (name : String) {next next' : Code y}
      (hnext : Alike ρ next next') : Alike ρ (.unregister name next) (.unregister name next')
  | tick {ρ : Pairing} {y : Yield} {next next' : Nat → Code y}
      (hnext : ∀ n n', Alike ρ (next n) (next' n')) : Alike ρ (.tick next) (.tick next')

variable {ids}

theorem CallView.Alike.stage {v v' : CallView} (h : v.Alike ids v') : v'.stage = v.stage := by
  rw [h.2]

theorem CallView.Alike.routeName {v v' : CallView} (h : v.Alike ids v') :
    v'.routeName = v.routeName := by
  rw [h.2]
  rfl

theorem Yield.Alike.mono {ρ ρ' : Pairing} (hsub : ρ ⊆ ρ') {y : Yield} {v v' : y.Value}
    (h : y.Alike ids ρ v v') : y.Alike ids ρ' v v' := by
  cases y with
  | task => exact hsub h
  | _ => exact h

/-- Alike pieces of code stay alike when more tasks are paired. -/
theorem Code.Alike.mono {ρ ρ' : Pairing} {y : Yield} {c c' : Code y} (h : c.Alike ids ρ c')
    (hsub : ρ ⊆ ρ') : c.Alike ids ρ' c' := by
  induction h generalizing ρ' with
  | done hv => exact .done (hv.mono hsub)
  | panic p => exact .panic p
  | log hr _ ih => exact .log hr (ih hsub)
  | create _ ih => exact .create fun t t' => ih t t' (List.cons_subset_cons _ hsub)
  | settle o ht _ ih => exact .settle o (hsub ht) fun settled => ih settled hsub
  | attach ht _ _ hf ih => exact .attach (hsub ht) (fun o => hf o hsub) (ih hsub)
  | entrust ht _ _ hf ih => exact .entrust (hsub ht) (fun o => hf o hsub) (ih hsub)
  | transform ht _ _ hf ih =>
      exact .transform (hsub ht) (fun o => hf o hsub) fun u u' =>
        ih u u' (List.cons_subset_cons _ hsub)
  | chain ht _ _ hf ih =>
      exact .chain (hsub ht) (fun o => hf o hsub) fun u u' =>
        ih u u' (List.cons_subset_cons _ hsub)
  | poll waker ht _ ih => exact .poll waker (hsub ht) fun o => ih o hsub
  | state ht _ ih => exact .state (hsub ht) fun s => ih s hsub
  | abandon ht _ ih => exact .abandon (hsub ht) (ih hsub)
  | proceed payload _ ih => exact .proceed payload (ih hsub)
  | abort e _ ih => exact .abort e (ih hsub)
  | release _ ih => exact .release (ih hsub)
  | inspect _ ih => exact .inspect fun h h' hh => ih h h' hh hsub
  | register name _ ih => exact .register name (ih hsub)
  | unregister name _ ih => exact .unregister name (ih hsub)
  | tick _ ih => exact .tick fun n n' => ih n n' hsub

/-! ## Local code -/

variable (ids)

/-- What the plugin does depends on what it is given alone. -/
structure Plugin.IsLocal (p : Plugin) : Prop where
  modifyCall : ∀ (b : Binding) {v v' : CallView} (args : Args), v.Alike ids v' →
    (p.modifyCall b v args).Alike ids [] (p.modifyCall b v' args)
  modifyResult : ∀ (b : Binding) {v v' : CallView} (result : Json), v.Alike ids v' →
    (p.modifyResult b v result).Alike ids [] (p.modifyResult b v' result)

def Handler.IsLocal (h : Handler) : Prop :=
  ∀ args, (h.invoke args).Alike ids [] (h.invoke args)

/-- The listener only records: it may number the calls as they come, but it does nothing else that
depends on other calls. -/
structure Listener.IsLocal (l : Listener) : Prop where
  onStart : ∀ v, (l.onStart v).Alike ids [] (l.onStart v)
  onSucceed : ∀ {v v' : CallView} (result : Json), v.Alike ids v' →
    (l.onSucceed v result).Alike ids [] (l.onSucceed v' result)
  onFail : ∀ {v v' : CallView} (e : CallError), v.Alike ids v' →
    (l.onFail v e).Alike ids [] (l.onFail v' e)

structure Route.IsLocal (r : Route) : Prop where
  plugins : ∀ a ∈ r.attachments, a.plugin.IsLocal ids
  handler : r.handler.IsLocal ids

/-- All routes that the table finds have local code. -/
def RouteTable.IsLocal (table : RouteTable) : Prop :=
  ∀ (method path : String) (version : Nat) (m : RouteMatch),
    table.router.find method path version = some m → m.route.IsLocal ids

variable {ids}

/-- The plugin that notes what it is given and then goes on as before. -/
def Plugin.noting (content : CallView → Payload → Json) (p : Plugin) : Plugin :=
  { p with
    modifyCall := fun b v args => .note (content v (.args args)) (p.modifyCall b v args)
    modifyResult := fun b v result =>
      .note (content v (.result result)) (p.modifyResult b v result) }

/-- A local plugin may note what it is given, as far as that does not depend on the number of the
call. -/
theorem Plugin.IsLocal.noting {p : Plugin} (h : p.IsLocal ids)
    {content : CallView → Payload → Json}
    (hcontent : ∀ {v v' : CallView} payload, v.Alike ids v' →
      content v payload = content v' payload) :
    (p.noting content).IsLocal ids where
  modifyCall b _ _ args hv :=
    .log (by rw [hcontent (.args args) hv]) (h.modifyCall b args hv)
  modifyResult b _ _ result hv :=
    .log (by rw [hcontent (.result result) hv]) (h.modifyResult b result hv)

/-- The reporting listener is local where numbers of calls are not told apart. -/
theorem Listener.isLocal_reporting (hids : ∀ n n', ids n n') :
    Listener.reporting.IsLocal ids where
  onStart _ := .tick fun n n' => .log rfl (.done (hids n n'))
  onSucceed _ hv := .log (by simp [Remark.anonymous, News.anonymous, hv.routeName]) (.done trivial)
  onFail _ hv := .log (by simp [Remark.anonymous, News.anonymous, hv.routeName]) (.done trivial)

variable (ids)

/-! ## Tasks and calls -/

/-- One call on its way in two runs. -/
structure Pipeline.Alike (c c' : CallId) (p p' : Pipeline) : Prop where
  call : p.call = c
  call' : p'.call = c'
  route : p'.route = p.route
  code : p.route.IsLocal ids

structure Continuation.Alike (c c' : CallId) (k k' : Continuation) : Prop where
  pipeline : k.pipeline.Alike ids c c' k'.pipeline
  point : k'.point = k.point

/-- Completion handlers of one call that do the same in two runs. -/
inductive Completion.Alike (c c' : CallId) (ρ : Pairing) : Completion → Completion → Prop
  | code {f f' : Outcome → Code .nothing} (hf : ∀ o, (f o).Alike ids ρ (f' o)) :
      Alike c c' ρ (.code f) (.code f')
  | resume {k k' : Continuation} {f f' : Outcome → Code .nothing} (hk : k.Alike ids c c' k')
      (hf : ∀ o, (f o).Alike ids ρ (f' o)) : Alike c c' ρ (.resume k f) (.resume k' f')
  | transform {f f' : Outcome → Code .outcome} {into into' : TaskId}
      (hf : ∀ o, (f o).Alike ids ρ (f' o)) (hinto : (into, into') ∈ ρ) :
      Alike c c' ρ (.transform f into) (.transform f' into')
  | chain {f f' : Outcome → Code .task} {into into' : TaskId}
      (hf : ∀ o, (f o).Alike ids ρ (f' o)) (hinto : (into, into') ∈ ρ) :
      Alike c c' ρ (.chain f into) (.chain f' into')
  | relay {into into' : TaskId} (hinto : (into, into') ∈ ρ) :
      Alike c c' ρ (.relay into) (.relay into')
  | handled {p p' : Pipeline} (hp : p.Alike ids c c' p') : Alike c c' ρ (.handled p) (.handled p')

variable {ids}

theorem Completion.Alike.mono {c c' : CallId} {ρ ρ' : Pairing} {h h' : Completion}
    (hh : h.Alike ids c c' ρ h') (hsub : ρ ⊆ ρ') : h.Alike ids c c' ρ' h' := by
  cases hh with
  | code hf => exact .code fun o => (hf o).mono hsub
  | resume hk hf => exact .resume hk fun o => (hf o).mono hsub
  | transform hf hinto => exact .transform (fun o => (hf o).mono hsub) (hsub hinto)
  | chain hf hinto => exact .chain (fun o => (hf o).mono hsub) (hsub hinto)
  | relay hinto => exact .relay (hsub hinto)
  | handled hp => exact .handled hp

namespace Cell

/-- Cells that differ in their completion handlers at most. -/
inductive Alike {η : Type} (r : η → η → Prop) : Cell η → Cell η → Prop
  | idle : Alike r (.waiting .none) (.waiting .none)
  | handler {h h' : η} (hh : r h h') : Alike r (.waiting (.handler h)) (.waiting (.handler h'))
  | waker (label : String) : Alike r (.waiting (.waker label)) (.waiting (.waker label))
  | cached (o : Outcome) (awaited : Bool) : Alike r (.cached o awaited) (.cached o awaited)
  | taken (o : Outcome) : Alike r (.taken o) (.taken o)

/-- What follows a resolution in two runs. -/
inductive Settling.Alike {η : Type} (r : η → η → Prop) : Settling η → Settling η → Prop
  | quiet : Alike r .quiet .quiet
  | wake (label : String) : Alike r (.wake label) (.wake label)
  | run {h h' : η} (hh : r h h') : Alike r (.run h) (.run h')

variable {η : Type} {r : η → η → Prop} {cell cell' : Cell η}

theorem Alike.mono {s : η → η → Prop} (h : cell.Alike r cell') (hrs : ∀ x x', r x x' → s x x') :
    cell.Alike s cell' := by
  cases h with
  | idle => exact .idle
  | handler hh => exact .handler (hrs _ _ hh)
  | waker label => exact .waker label
  | cached o awaited => exact .cached o awaited
  | taken o => exact .taken o

theorem Alike.outcome? (h : cell.Alike r cell') : cell.outcome? = cell'.outcome? := by
  cases h <;> rfl

theorem Alike.state (h : cell.Alike r cell') : cell.state = cell'.state := by
  unfold Cell.state
  rw [h.outcome?]

theorem Alike.settle (h : cell.Alike r cell') (o : Outcome) :
    Option.Rel (fun a b => Alike r a.1 b.1 ∧ a.2.Alike r b.2) (cell.settle o) (cell'.settle o) := by
  cases h with
  | idle => exact .some ⟨.cached o false, .quiet⟩
  | handler hh => exact .some ⟨.taken o, .run hh⟩
  | waker label => exact .some ⟨.cached o true, .wake label⟩
  | cached => exact .none
  | taken => exact .none

theorem Alike.attach (h : cell.Alike r cell') {k k' : η} (hk : r k k') :
    Option.Rel (fun a b => Alike r a.1 b.1 ∧ a.2 = b.2) (cell.attach k) (cell'.attach k') := by
  cases h with
  | idle => exact .some ⟨.handler hk, rfl⟩
  | handler => exact .none
  | waker => exact .none
  | cached o awaited =>
      cases awaited with
      | true => exact .none
      | false => exact .some ⟨.taken o, rfl⟩
  | taken => exact .none

/-- Two polls are refused for the same reason, or give the same. -/
theorem Alike.poll (h : cell.Alike r cell') (label : String) :
    (∃ refusal, cell.poll label = .error refusal ∧ cell'.poll label = .error refusal) ∨
      ∃ a a' o, cell.poll label = .ok (a, o) ∧ cell'.poll label = .ok (a', o) ∧ a.Alike r a' := by
  cases h with
  | idle => exact .inr ⟨_, _, _, rfl, rfl, .waker label⟩
  | handler => exact .inl ⟨_, rfl, rfl⟩
  | waker => exact .inr ⟨_, _, _, rfl, rfl, .waker label⟩
  | cached o => exact .inr ⟨_, _, _, rfl, rfl, .taken o⟩
  | taken => exact .inl ⟨_, rfl, rfl⟩

theorem Alike.abandon (h : cell.Alike r cell') :
    cell.abandon.1.Alike r cell'.abandon.1 ∧ Option.Rel r cell.abandon.2 cell'.abandon.2 := by
  cases h with
  | idle => exact ⟨.idle, .none⟩
  | handler hh => exact ⟨.idle, .some hh⟩
  | waker label => exact ⟨.waker label, .none⟩
  | cached o awaited => exact ⟨.cached o awaited, .none⟩
  | taken o => exact ⟨.taken o, .none⟩

end Cell

/-- A call as it stands in two runs. -/
structure Call.Alike (ids : Nat → Nat → Prop) (ρ : Pairing) (x x' : Call) : Prop where
  view : x.view.Alike ids x'.view
  held : x.held = x'.held
  ending : x.ending.Alike (fun t t' => (t, t') ∈ ρ) x'.ending
  answer : Option.Rel (fun t t' => (t, t') ∈ ρ) x.answer x'.answer

theorem Call.Alike.mono {ρ ρ' : Pairing} {x x' : Call} (h : x.Alike ids ρ x') (hsub : ρ ⊆ ρ') :
    x.Alike ids ρ' x' where
  view := h.view
  held := h.held
  ending := h.ending.mono fun _ _ hmem => hsub hmem
  answer := by
    have hanswer := h.answer
    generalize x.answer = t, x'.answer = t' at hanswer ⊢
    cases hanswer with
    | some ht => exact .some (hsub ht)
    | none => exact .none

end RouteDispatch
