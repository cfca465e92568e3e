import RouteDispatch.Session.Dispatch

/-!
# JSON forms

How values of the library stand in the notes and answers of scenarios.  A double is written by its
bits, since JSON text has no numbers for all of them; a long is written as a text.
-/

namespace RouteDispatch
namespace Scenario

/-- The bits of a double as sixteen hexadecimal digits; all that is no number is `nan`. -/
def bitsText (d : Double) : String :=
  if d.isNaN then "nan" else String.ofList (Text.hexFixed 16 d.bits.toNat)

mutual

/-- A result with its doubles written by their bits. -/
def resultForm : Json → Json
  | .float d => .single "$f64" (.str (bitsText d))
  | .arr items => .arr (resultForms items)
  | .obj members => .obj (memberForms members)
  | j => j

def resultForms : List Json → List Json
  | [] => []
  | item :: rest => resultForm item :: resultForms rest

def memberForms : List (String × Json) → List (String × Json)
  | [] => []
  | (name, value) :: rest => (name, resultForm value) :: memberForms rest

end

def valueForm : ParamValue → Json
  | .null => .null
  | .int n => .single "int" (.int n.toInt)
  | .long n => .single "long" (.str (Json.integerText n.toInt))
  | .float d => .single "float" (.str (bitsText d))
  | .bool b => .single "bool" (.bool b)
  | .string s => .single "string" (.str s)

def readingForm : Reading.Result → Json
  | .int n => .single "i32" (.int n.toInt)
  | .long n => .single "i64" (.str (Json.integerText n.toInt))
  | .double d => .single "f64" (.str (bitsText d))
  | .bool b => .single "bool" (.bool b)
  | .string s => .single "String" (.str s)
  | .any v => .single "ParamValue" (valueForm v)
  | .absent => .str "none"
  | .present inner => .single "some" (readingForm inner)

def errorForm (e : CallError) : Json :=
  .ofMembers [("error", .str e.cause.name), ("message", .str e.message)]

def buildErrorForm (e : BuildError) : Json :=
  .ofMembers [("error", .str e.name), ("message", .str e.message)]

def outcomeForm : Outcome → Json
  | .ok v => .single "ok" (resultForm v)
  | .error e => errorForm e

/-- An answer or the failure in its place. -/
def readForm : Except CallError Json → Json
  | .ok j => .single "ok" j
  | .error e => errorForm e

def alreadyResolvedForm : Json :=
  .ofMembers [("error", .str "AlreadyResolved"), ("message", .str Cell.alreadyResolved)]

def panicForm (p : Panic) : Json :=
  .single "panic" (.str (match p with
    | .alreadyResolved => "AlreadyResolved"
    | .text message => "message: " ++ message
    | .other => "other"))

def stopForm : Stop → Json
  | .panic p => panicForm p
  | .tooDeep => .single "panic" (.str "nested too deep")

def textForm : Option String → Json
  | none => .null
  | some s => .str s

/-- An object of unknown type, asked for as a text and as a word. -/
def datumForm (d : Option Datum) : Json :=
  .arr [textForm (d.bind Datum.text?), .ofOption ((d.bind Datum.word?).map .nat)]

def pairForms (pairs : List (String × String)) : Json :=
  .arr (pairs.map fun (name, text) => .arr [.str name, .str text])

def callForm (v : CallView) : Json :=
  .ofMembers
    [("call_id", .nat v.id), ("method", .str v.method), ("path", .str v.path),
      ("version", .nat v.version), ("route", textForm v.routeName),
      ("route_version", .ofOption (v.endpoint.map fun e => .nat e.version)),
      ("path_params", pairForms v.pathParams), ("stage", .str v.stage.inspect),
      ("terminal", .bool v.stage.isTerminal), ("transport", datumForm v.transport)]

/-- Which entries of a log are shown besides the notes. -/
structure LogFilter where
  reports : Bool := false
  wakes : Bool := false

/-- The entries of a log that a filter lets through. -/
def logForm (filter : LogFilter) (log : List Entry) : Json :=
  .arr (log.filterMap fun entry =>
    match entry with
    | .remark (.note content) => some content
    | .remark (.news n) => if filter.reports then some n.report.toJson else none
    | .trace t => if filter.reports then some t.report.toJson else none
    | .woken label => if filter.wakes then some (.single "wake" (.str label)) else none
    | .mark _ => none)

end Scenario
end RouteDispatch
