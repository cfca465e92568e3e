import RouteDispatch.Reply
import RouteDispatch.Scenario.Transform

/-!
# Scripted handlers

The handlers of scenarios.  Each leaves a note when its own code runs; a typed handler whose
arguments cannot be read leaves none.
-/

namespace RouteDispatch
namespace Scenario

/-- A scripted reply: one that is there at once, one that is serialised from a resolved task, one
that is serialised from a task resolved afterwards, or one that never comes. -/
inductive ReplyScript where
  | now (r : Reply)
  | resolved (o : Outcome) (view : Json → Serial)
  | afterwards (o : Outcome)
  | never

/-- The reply as foreign code that gives the task of the call. -/
def ReplyScript.code : ReplyScript → Code .task
  | .now r => r.toTask
  | .resolved o view => .resolved o fun t => (Reply.later t view).toTask
  | .afterwards o =>
    .create fun t => ((Reply.later t .json).toTask).andThen fun u => .state u fun s =>
      .note (.single "reply_state" (.str s.name))
        (.complete t (o.map fun v => .arr [v, .bool true]) (.done u))
  | .never => .create fun t => (Reply.later t .json).toTask

/-- What a handler does that takes its arguments as they are. -/
inductive RawScript where
  | args
  | finish (v : Json)
  | fail (e : CallError)
  | panic (p : Panic)
  | gate (name : String)
  | gateMap (name : String) (f : Transform)
  | gateThen (name next : String)
  | consumed (v : Json)
  | twice
  | resolve (gate : String) (o : Outcome)
  | value (name : String) (reading : Reading)
  | toJson
  | transport
  | inspect

/-- A scripted handler with the note that it leaves. -/
inductive HandlerScript where
  | typed (signature : String) (readings : List Reading)
  | reply (kind : String) (script : ReplyScript)
  | raw (kind : Json) (script : RawScript)

/-- Ends with a task that is resolved already. -/
def endWith (o : Outcome) : Code .task :=
  .resolved o fun t => .done t

def newGate {y : Yield} (name : String) (next : TaskId → Code y) : Code y :=
  .create fun t => .register name t (next t)

/-- Resolves the task of a name, if there is one. -/
def resolveGate {y : Yield} (name : String) (o : Outcome) (next : Code y) : Code y :=
  .find name fun found =>
    match found with
    | some t => .complete t o next
    | none => next

def RawScript.code (args : Args) : RawScript → Code .task
  | .args =>
    endWith (.ok (.arr (args.entries.map fun (name, v) => .arr [.str name, valueForm v])))
  | .finish v => endWith (.ok v)
  | .fail e => endWith (.error e)
  | .panic p => .panic p
  | .gate name => newGate name fun t => .done t
  | .gateMap name f =>
    newGate name fun t => .transformValue t (fun v => f.code (.ok v)) fun u => .done u
  | .gateThen name next =>
    newGate name fun t => .chainValue t (fun _ => newGate next fun u => .done u) fun u => .done u
  | .consumed v => .resolved (.ok v) fun t => .attach t (fun _ => .skip) (.done t)
  | .twice => .resolved (.ok .null) fun t => .complete t (.ok .null) (.done t)
  | .resolve g o => resolveGate g o (endWith (.ok (.str "resolved")))
  | .value name reading => endWith ((args.read name reading).map readingForm)
  | .toJson => endWith (.ok (.arr (args.values.map ParamValue.toJson)))
  | .transport => endWith (.ok (datumForm args.transport))
  | .inspect => endWith (.ok (.str args.inspect))

def handlerNote (kind : Json) : Json :=
  .single "handler" kind

def HandlerScript.handler : HandlerScript → Handler
  | .typed signature readings =>
    .typed readings fun results =>
      .note (handlerNote (.str signature)) (endWith (.ok (.arr (results.map readingForm))))
  | .reply kind script => .typed [] fun _ => .note (handlerNote (.str kind)) script.code
  | .raw kind script => .raw fun args => .note (handlerNote kind) (script.code args)

end Scenario
end RouteDispatch
