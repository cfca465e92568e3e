import RouteDispatch.Error
import RouteDispatch.Param.Spec

/-!
# Typed readings of arguments

A handler reads each argument as a type of its own.  Integers may be read as longs or as doubles,
null only as an optional value, and a reading as it stands accepts every value.  `Reading.accepts`
decides on the declared type, `Reading.read` on the value; they agree on values of the declared
type.
-/

namespace RouteDispatch

inductive Reading where
  | int
  | long
  | double
  | bool
  | string
  | any
  | optional (inner : Reading)
  deriving DecidableEq, Repr

inductive Reading.Result where
  | int (n : Int32)
  | long (n : Int64)
  | double (d : Double)
  | bool (b : Bool)
  | string (s : String)
  | any (v : ParamValue)
  | absent
  | present (inner : Reading.Result)
  deriving DecidableEq

namespace Reading

def accepts : Reading → ParamType → Bool
  | .int, t => t == .int
  | .long, t => t == .long || t == .int
  | .double, t => t == .float || t == .int
  | .bool, t => t == .bool
  | .string, t => t == .string
  | .any, _ => true
  | .optional inner, t => inner.accepts t

/-- The failure of a reading that got a value it cannot read. -/
def mismatch (spec : ParamSpec) (expected : String) (value : ParamValue) : CallError :=
  .internal ("parameter '" ++ spec.name ++ "' expected " ++ expected ++ ", got " ++ value.inspect)

def read (spec : ParamSpec) : Reading → ParamValue → Except CallError Result
  | .int, .int n => .ok (.int n)
  | .int, v => .error (mismatch spec "int" v)
  | .long, .long n => .ok (.long n)
  | .long, .int n => .ok (.long n.toInt64)
  | .long, v => .error (mismatch spec "long" v)
  | .double, .float d => .ok (.double d)
  | .double, .int n => .ok (.double (.ofInt n.toInt))
  | .double, v => .error (mismatch spec "float" v)
  | .bool, .bool b => .ok (.bool b)
  | .bool, v => .error (mismatch spec "boolean" v)
  | .string, .string s => .ok (.string s)
  | .string, v => .error (mismatch spec "string" v)
  | .any, v => .ok (.any v)
  | .optional _, .null => .ok .absent
  | .optional inner, v => (inner.read spec v).map .present

/-- The full name of a type in the messages about handler signatures. -/
def typeName : Reading → String
  | .int => "i32"
  | .long => "i64"
  | .double => "f64"
  | .bool => "bool"
  | .string => "alloc::string::String"
  | .any => "micro_rpc::value::ParamValue"
  | .optional inner => "core::option::Option<" ++ inner.typeName ++ ">"

/-- The failure of a handler with more arguments than its route has parameters. -/
def arityText (arity params : Nat) : String :=
  "handler takes " ++ toString arity ++ " arguments but the route declares " ++ toString params
    ++ " parameters"

/-- Checks the readings from position `index` on against the parameters declared there. -/
def checkFrom (index : Nat) : List Reading → List ParamSpec → Except String Unit
  | [], _ => .ok ()
  | _, [] => .ok ()
  | r :: readings, spec :: specs =>
    if r.accepts spec.type then checkFrom (index + 1) readings specs
    else
      .error ("argument " ++ toString index ++ " is a " ++ r.typeName
        ++ " and cannot read parameter '" ++ spec.name ++ "' of type " ++ spec.type.name)

/-- Whether every argument of a handler can read the parameter declared at its position. -/
def check (readings : List Reading) (specs : List ParamSpec) : Except String Unit :=
  if specs.length < readings.length then .error (arityText readings.length specs.length)
  else checkFrom 0 readings specs

/-- Reads the arguments one after the other; the first failure counts. -/
def readFrom : List Reading → List ParamSpec → List ParamValue → Except CallError (List Result)
  | r :: readings, spec :: specs, v :: values => do
    let first ← r.read spec v
    let rest ← readFrom readings specs values
    pure (first :: rest)
  | _, _, _ => .ok []

def readAll (readings : List Reading) (specs : List ParamSpec) (values : List ParamValue) :
    Except CallError (List Result) :=
  if values.length < readings.length then
    .error (.internal (arityText readings.length values.length))
  else readFrom readings specs values

end Reading
end RouteDispatch
