import RouteDispatch.Scenario.HandlerScript

/-!
# Scripted plugins

The plugins of scenarios.  A plugin edits signatures by a fixed list of edits, and at call time runs
a list of actions.  An action that defers the call ends the list; the actions behind it run when the
task that it made resolves.
-/

namespace RouteDispatch
namespace Scenario

/-- What a scripted plugin does with a signature. -/
structure BindScript where
  skip : Option String := none
  reject : Option String := none
  truncate : Option Nat := none
  front : Option String := none
  add : List ParamSpec := []
  rename : Option String := none
  version : Option Nat := none
  method : Option String := none
  path : Option String := none
  decline : Bool := false
  context : PluginContext := none

inductive Action where
  | proceed
  | abort (e : CallError)
  | drop
  | panic (p : Panic)
  | twice
  | mark (text : Json)
  | describe
  | resolve (gate : String) (o : Outcome)
  | defer (gate : String)
  | set (index : Nat) (v : ParamValue)
  | setSlot (slot : Nat) (v : ParamValue)
  | setName (name : String) (v : ParamValue)
  | replaceArgs (values : List ParamValue) (specs : Option (List ParamSpec))
  | wrap (tag : Json)
  | replace (v : Json)

structure PluginScript where
  name : String
  bind : Option BindScript := none
  call : Option (List Action) := none
  result : Option (List Action) := none
  verbose : Bool := false
  ask : List String := []

namespace BindScript

/-- The note of an offer: the state of the signature before any edit. -/
def note (plugin : String) (s : Signature) : Json :=
  .ofMembers
    [("bind", .str plugin), ("route", .str s.name), ("version", .nat s.version),
      ("path", .str s.path), ("method", .str s.method),
      ("params", .arr (s.params.map fun p => .str p.name))]

def edit (b : BindScript) (s : Signature) : Signature :=
  let s := match b.truncate with
    | some n => { s with params := s.params.take n }
    | none => s
  let s := match b.front with
    | some front => s.prependPath front
    | none => s
  let s := b.add.foldl Signature.addParam s
  { s with
    name := b.rename.getD "" ++ s.name
    version := b.version.getD s.version
    method := b.method.getD s.method
    path := b.path.getD s.path }

/-- The positions that the added parameters get. -/
def slots (b : BindScript) (s : Signature) : List Nat :=
  let before := match b.truncate with
    | some n => (s.params.take n).length
    | none => s.params.length
  (List.range b.add.length).map (· + before)

def offer (b : BindScript) (plugin : String) (s : Signature) : Offer :=
  let noted := note plugin s
  match b.skip.any fun start => start.toList.isPrefixOf s.name.toList, b.reject with
  | true, _ => ⟨[noted], .ok (s, none)⟩
  | false, some reason => ⟨[noted], .error (.plugin plugin s.name reason)⟩
  | false, none =>
    ⟨noted :: (b.slots s).map fun i => .single "slot" (.nat i),
      .ok (b.edit s, if b.decline then none else some b.context)⟩

end BindScript

namespace Action

/-- Panics because of a position outside a list. -/
def outside {y : Yield} (length index : Nat) : Code y :=
  .panic (.text (Args.outOfBounds length index))

def oldNote (old : ParamValue) : Json :=
  .single "old" (valueForm old)

def nextNote (held : Option Held) : Json :=
  .single "next" (.ofOption (held.map fun h => .arr [.str h.point.inspect, callForm h.call]))

/-- Moves the continuation into a new task; `rest` runs when the task finishes. -/
def deferTo (gate : String) (rest : Code .nothing) : Code .nothing :=
  newGate gate fun t => .entrust t (fun o =>
    match o with
    | .ok _ => rest
    | .error e => .abort e .skip) .skip

/-- The actions that do not depend on what is handed on. -/
def common (next : Code .nothing) : Action → Code .nothing
  | .abort e => .abort e next
  | .drop => .release next
  | .panic p => .panic p
  | .twice => .panic .alreadyResolved
  | .mark text => .note (.single "mark" text) next
  | .describe => .inspect fun held => .note (nextNote held) next
  | .resolve gate o => resolveGate gate o next
  | .defer gate => deferTo gate next
  | _ => next

/-- Actions on the way to the handler, with the arguments as they are so far. -/
def callCode (slots : List Nat) (args : Args) : List Action → Code .nothing
  | [] => .skip
  | .proceed :: rest => .proceed (.args args) (callCode slots args rest)
  | .set index v :: rest =>
    match args.set? index v with
    | some (old, args) => .note (oldNote old) (callCode slots args rest)
    | none => outside args.size index
  | .setSlot slot v :: rest =>
    match slots[slot]? with
    | some index =>
      match args.set? index v with
      | some (_, args) => callCode slots args rest
      | none => outside args.size index
    | none => outside slots.length slot
  | .setName name v :: rest =>
    match args.setByName name v with
    | .ok (old, args) => .note (oldNote old) (callCode slots args rest)
    | .error e => .abort e .skip
  | .replaceArgs values specs :: rest =>
    callCode slots (.of (specs.getD args.specs) values none) rest
  | a :: rest => common (callCode slots args rest) a

/-- Actions on the way back, with the result as it is so far. -/
def resultCode (v : Json) : List Action → Code .nothing
  | [] => .skip
  | .proceed :: rest => .proceed (.result v) (resultCode v rest)
  | .wrap tag :: rest => resultCode (.arr [tag, v]) rest
  | .replace w :: rest => resultCode w rest
  | a :: rest => common (resultCode v rest) a

end Action

namespace PluginScript

/-- The further fields of a note when everything is to be seen. -/
def details (p : PluginScript) (b : Binding) (call : CallView) : List (String × Json) :=
  if p.verbose then
    [("call", callForm call), ("call_debug", .str call.inspect), ("binding", .str b.inspect),
      ("context", datumForm b.context),
      ("asked", .arr (p.ask.map fun name => textForm (call.pathParam? name)))]
  else []

/-- The note of a plugin whose turn it is. -/
def turnNote (p : PluginScript) (at_ : String) (payload : Json) (b : Binding) (call : CallView) :
    Json :=
  .ofMembers ([("plugin", .str p.name), ("at", .str at_), ("payload", payload),
    ("stage", .str call.stage.inspect)] ++ p.details b call)

def plugin (p : PluginScript) : Plugin :=
  { name := p.name
    bind := match p.bind with
      | some script => script.offer p.name
      | none => Plugin.bindAlways
    modifyCall := match p.call with
      | some actions => fun b call args =>
        .note (p.turnNote "call" (.arr (args.values.map valueForm)) b call)
          (Action.callCode b.slots args actions)
      | none => Plugin.passCall
    modifyResult := match p.result with
      | some actions => fun b call v =>
        .note (p.turnNote "result" (resultForm v) b call) (Action.resultCode v actions)
      | none => Plugin.passResult }

end PluginScript
end Scenario
end RouteDispatch
