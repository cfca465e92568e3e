import RouteDispatch.Decimal.Layout
import RouteDispatch.Json.Text
import RouteDispatch.Text.Quoted
import RouteDispatch.Text.Record

/-!
# Parameter types and values

A parameter is declared with one of five scalar types.  A bound argument is a value of one of them,
or null: the value of an optional parameter that was not given and of a slot that no plugin has
written yet.
-/

namespace RouteDispatch

/-- The scalar type of a declared parameter. -/
inductive ParamType where
  | int
  | long
  | float
  | bool
  | string
  deriving DecidableEq, Repr

namespace ParamType

def name : ParamType → String
  | .int => "int"
  | .long => "long"
  | .float => "float"
  | .bool => "boolean"
  | .string => "string"

def keyword : ParamType → String
  | .bool => "bool"
  | t => t.name

def all : List ParamType := [.int, .long, .float, .bool, .string]

def ofKeyword? (s : String) : Option ParamType :=
  all.find? fun t => t.keyword == s

def inspect : ParamType → String
  | .int => "Int"
  | .long => "Long"
  | .float => "Float"
  | .bool => "Bool"
  | .string => "String"

end ParamType

inductive ParamValue where
  | null
  | int (n : Int32)
  | long (n : Int64)
  | float (d : Double)
  | bool (b : Bool)
  | string (s : String)
  deriving DecidableEq, Inhabited

namespace ParamValue

def isNull : ParamValue → Bool
  | .null => true
  | _ => false

/-- The type of a value; null has none. -/
def type? : ParamValue → Option ParamType
  | .null => none
  | .int _ => some .int
  | .long _ => some .long
  | .float _ => some .float
  | .bool _ => some .bool
  | .string _ => some .string

def string? : ParamValue → Option String
  | .string s => some s
  | _ => none

/-- A value as JSON; a double that is no number is `null`. -/
def toJson : ParamValue → Json
  | .null => .null
  | .int n => .int n.toInt
  | .long n => .int n.toInt
  | .float d => .ofDouble d
  | .bool b => .bool b
  | .string s => .str s

def text : ParamValue → String
  | .null => "null"
  | .int n => Json.integerText n.toInt
  | .long n => Json.integerText n.toInt
  | .float d => Decimal.Layout.plain.text d
  | .bool b => Text.boolText b
  | .string s => s

def inspect : ParamValue → String
  | .null => "Null"
  | .int n => Text.wrapped "Int" (Json.integerText n.toInt)
  | .long n => Text.wrapped "Long" (Json.integerText n.toInt)
  | .float d => Text.wrapped "Float" (Decimal.Layout.diagnostic.text d)
  | .bool b => Text.wrapped "Bool" (Text.boolText b)
  | .string s => Text.wrapped "String" (Text.quoted s)

end ParamValue
end RouteDispatch
