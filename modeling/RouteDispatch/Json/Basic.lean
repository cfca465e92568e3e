import RouteDispatch.Decimal.Double

/-!
# JSON values

A number is either an integer or a double, and the two are kept apart: `1` and `1.0` are different
values.  The members of an object are kept sorted by name, each name once.
-/

namespace RouteDispatch

inductive Json where
  | null
  | bool (b : Bool)
  | int (n : Int)
  | float (d : Double)
  | str (s : String)
  | arr (items : List Json)
  | obj (members : List (String × Json))
  deriving Inhabited, BEq

namespace Json

/-- Puts a member into a sorted list of members, in the place of one of the same name. -/
def insertMember (name : String) (value : Json) : List (String × Json) → List (String × Json)
  | [] => [(name, value)]
  | (other, old) :: rest =>
    if name < other then (name, value) :: (other, old) :: rest
    else if name = other then (name, value) :: rest
    else (other, old) :: insertMember name value rest

/-- The object with the given members; of two members of one name the later counts. -/
def ofMembers (members : List (String × Json)) : Json :=
  .obj (members.foldl (fun sorted m => insertMember m.1 m.2 sorted) [])

def nat (n : Nat) : Json :=
  .int n

def ofOption : Option Json → Json
  | none => .null
  | some j => j

def single (name : String) (value : Json) : Json :=
  .obj [(name, value)]

/-- The value of a member, if the value is an object that has it. -/
def member? (name : String) : Json → Option Json
  | .obj members => (members.find? fun m => m.1 == name).map Prod.snd
  | _ => none

def isNull : Json → Bool
  | .null => true
  | _ => false

def str? : Json → Option String
  | .str s => some s
  | _ => none

def bool? : Json → Option Bool
  | .bool b => some b
  | _ => none

def items? : Json → Option (List Json)
  | .arr items => some items
  | _ => none

/-- Whether an integer fits in a word of sixty-four bits, signed or unsigned. -/
def fitsWord (n : Int) : Bool :=
  Int64.minValue.toInt ≤ n && n < UInt64.size

/-- An integer that fits in a signed word of sixty-four bits. -/
def int64? : Json → Option Int
  | .int n => if Int64.minValue.toInt ≤ n ∧ n ≤ Int64.maxValue.toInt then some n else none
  | _ => none

def double? : Json → Option Double
  | .int n => some (Double.ofInt n)
  | .float d => some d
  | _ => none

/-- A double as a JSON number; only finite doubles are numbers, any other is `null`. -/
def ofDouble (d : Double) : Json :=
  if d.isFinite then .float d else .null

end Json
end RouteDispatch
