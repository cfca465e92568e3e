import RouteDispatch.Scenario.PluginScript

/-!
# Scripted listeners and parsers

The listener of a scenario writes down all that it is told, panics if it is to, and passes the news
on to the reporting listener.  The parsers of scenarios are simple functions that show which raw
text they were given.
-/

namespace RouteDispatch
namespace Scenario

/-- A scripted listener: the number that it gives to calls, if it gives one itself, and the panics
in which it ends. -/
structure ListenerScript where
  id : Option Nat := none
  onStart : Option Panic := none
  onSucceed : Option Panic := none
  onFail : Option Panic := none

namespace ListenerScript

def panicOr {y : Yield} (p : Option Panic) (next : Code y) : Code y :=
  match p with
  | some p => .panic p
  | none => next

def listener (l : ListenerScript) : Listener :=
  { onStart := fun call =>
      .note (.ofMembers [("on", .str "start"), ("call", callForm call)])
        (panicOr l.onStart ((Listener.reporting.onStart call).andThen fun id =>
          .done (l.id.getD id)))
    onSucceed := fun call v =>
      .note (.ofMembers [("on", .str "succeed"), ("call", callForm call),
          ("result", resultForm v)])
        (panicOr l.onSucceed (Listener.reporting.onSucceed call v))
    onFail := fun call e =>
      .note (.ofMembers [("on", .str "fail"), ("call", callForm call), ("error", errorForm e),
          ("expected", .bool e.isExpected)])
        (panicOr l.onFail (Listener.reporting.onFail call e)) }

end ListenerScript

/-- The parser of a name; any unknown name stands for the parser that finds no value. -/
def parserNamed (name : String) : ParamParser :=
  match name with
  | "default" => .standard
  | "upper" => .ofFunction fun _ raw =>
    some (.string (String.ofList (raw.toList.map Char.toUpper)))
  | "null" => .ofFunction fun _ _ => some .null
  | "len" => .ofFunction fun _ raw => some (.int (Int32.ofInt raw.utf8ByteSize))
  | "tag" => .ofFunction fun type raw => some (.string (type.name ++ "<" ++ raw ++ ">"))
  | _ => .ofFunction fun _ _ => none

end Scenario
end RouteDispatch
