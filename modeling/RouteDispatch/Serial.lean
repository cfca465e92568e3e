import RouteDispatch.Json.Text

/-!
# Serialised data

Results of handlers that are turned into JSON.  Not all data has a JSON form: a number must fit in
sixty-four bits, signed or unsigned, and the key of a map must be a text, a number or a truth value.
Doubles that are no numbers become `null`.
-/

namespace RouteDispatch

inductive Serial where
  | unit
  | bool (b : Bool)
  | integer (n : Int)
  | double (d : Double)
  | text (s : String)
  | list (items : List Serial)
  | record (fields : List (String × Serial))
  | map (entries : List (Serial × Serial))
  | optional (inner : Option Serial)
  | json (j : Json)
  deriving Inhabited

namespace Serial

inductive Fault where
  | keyNotText
  | numberOutOfRange
  deriving DecidableEq, Repr

def Fault.message : Fault → String
  | .keyNotText => "key must be a string"
  | .numberOutOfRange => "number out of range"

/-- The text that data has as the key of a map. -/
def keyText : Serial → Except Fault String
  | .text s => .ok s
  | .integer n => .ok (Json.integerText n)
  | .bool b => .ok (if b then "true" else "false")
  | _ => .error .keyNotText

mutual

def toJson : Serial → Except Fault Json
  | .unit => .ok .null
  | .bool b => .ok (.bool b)
  | .integer n => if Json.fitsWord n then .ok (.int n) else .error .numberOutOfRange
  | .double d => .ok (.ofDouble d)
  | .text s => .ok (.str s)
  | .list items => do pure (.arr (← itemsToJson items))
  | .record fields => do pure (.ofMembers (← fieldsToJson fields))
  | .map entries => do pure (.ofMembers (← entriesToJson entries))
  | .optional none => .ok .null
  | .optional (some inner) => toJson inner
  | .json j => .ok j

def itemsToJson : List Serial → Except Fault (List Json)
  | [] => .ok []
  | item :: rest => do
    let first ← toJson item
    pure (first :: (← itemsToJson rest))

def fieldsToJson : List (String × Serial) → Except Fault (List (String × Json))
  | [] => .ok []
  | (name, value) :: rest => do
    let first ← toJson value
    pure ((name, first) :: (← fieldsToJson rest))

def entriesToJson : List (Serial × Serial) → Except Fault (List (String × Json))
  | [] => .ok []
  | (key, value) :: rest => do
    let name ← keyText key
    let first ← toJson value
    pure ((name, first) :: (← entriesToJson rest))

end

end Serial
end RouteDispatch
