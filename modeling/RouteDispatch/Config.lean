import RouteDispatch.Binding.Basic
import RouteDispatch.Json.Reader

/-!
# Settings

The settings of a dispatcher: the order of the query sources, the version that a request without one
asks for, and the parser of parameter text.  The first two can be read from JSON text, as an object
with any of the settings or as an array with the first ones.
-/

namespace RouteDispatch

structure Config where
  sourceOrder : List SourceKind := SourceKind.all
  defaultVersion : Nat := 4294967295
  parser : ParamParser := ParamParser.standard

namespace Config

def inspect (c : Config) : String :=
  Text.openRecord "DispatchConfig"
    [("source_order", Text.listText (c.sourceOrder.map SourceKind.inspect)),
      ("default_version", toString c.defaultVersion)]

/-- The name of an alternative, given as a string or as an object whose one member is `null`. -/
def variantName? : Json → Option String
  | .str s => some s
  | .obj [(name, .null)] => some name
  | _ => none

def readOrder? (j : Json) : Option (List SourceKind) := do
  let items ← j.items?
  items.mapM fun item => (variantName? item).bind SourceKind.ofKeyword?

/-- A version, which fits in a word of thirty-two bits. -/
def readVersion? : Json → Option Nat
  | .int n => if 0 ≤ n ∧ n < UInt32.size then some n.toNat else none
  | _ => none

def occurrences (name : String) (members : List (String × Json)) : Nat :=
  members.countP fun m => m.1 == name

/-- A setting that may be missing, in which case it keeps its value. -/
def readMember? {α : Type} (name : String) (members : List (String × Json)) (standard : α)
    (read : Json → Option α) : Option α :=
  match members.find? fun m => m.1 == name with
  | some (_, j) => if occurrences name members = 1 then read j else none
  | none => some standard

/-- The settings in a JSON value.  Members of other names are passed over; a setting given twice is
refused. -/
def ofJson? : Json → Option Config
  | .obj members => do
    let order ← readMember? "source_order" members SourceKind.all readOrder?
    let version ← readMember? "default_version" members 4294967295 readVersion?
    pure { sourceOrder := order, defaultVersion := version }
  | .arr [] => some {}
  | .arr [order] => do pure { sourceOrder := ← readOrder? order }
  | .arr [order, version] => do
    pure { sourceOrder := ← readOrder? order, defaultVersion := ← readVersion? version }
  | _ => none

def ofText? (s : String) : Option Config :=
  (Json.read? s).bind ofJson?

end Config

def ParamType.ofJson? (j : Json) : Option ParamType :=
  (Config.variantName? j).bind ParamType.ofKeyword?

end RouteDispatch
