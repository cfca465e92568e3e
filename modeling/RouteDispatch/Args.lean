import RouteDispatch.Param.Reading

/-!
# Argument arrays

The arguments of one call: a value for every declared parameter, in their order, and the object that
the transport passed along.  Plugins may replace the values before the handler gets them.
-/

namespace RouteDispatch

/-- An object whose type only its owner knows; asked for as another type, it is not there. -/
inductive Datum where
  | text (s : String)
  | word (n : Nat)
  deriving DecidableEq, Repr

def Datum.text? : Datum → Option String
  | .text s => some s
  | .word _ => none

def Datum.word? : Datum → Option Nat
  | .word n => some n
  | .text _ => none

structure Args where
  specs : List ParamSpec
  values : List ParamValue
  transport : Option Datum
  /-- Every parameter has exactly one value. -/
  aligned : values.length = specs.length

namespace Args

/-- Cuts a list of values to a length, or fills it up with nulls. -/
def fit (length : Nat) (values : List ParamValue) : List ParamValue :=
  values.take length ++ List.replicate (length - values.length) .null

theorem length_fit (length : Nat) (values : List ParamValue) :
    (fit length values).length = length := by
  simp only [fit, List.length_append, List.length_take, List.length_replicate]
  omega

/-- The arguments for some parameters; missing values are null and surplus ones are dropped. -/
def of (specs : List ParamSpec) (values : List ParamValue) (transport : Option Datum) : Args :=
  { specs, values := fit specs.length values, transport, aligned := length_fit _ _ }

def size (a : Args) : Nat :=
  a.values.length

theorem size_eq (a : Args) : a.size = a.specs.length :=
  a.aligned

def get? (a : Args) (index : Nat) : Option ParamValue :=
  a.values[index]?

/-- The position of the first parameter of a name. -/
def indexOf? (a : Args) (name : String) : Option Nat :=
  a.specs.findIdx? fun spec => spec.name == name

def byName? (a : Args) (name : String) : Option ParamValue :=
  (a.indexOf? name).bind a.get?

def unknownName (name : String) : CallError :=
  .internal ("no parameter named '" ++ name ++ "'")

def read (a : Args) (name : String) (reading : Reading) : Except CallError Reading.Result :=
  match a.specs.find? fun spec => spec.name == name, a.byName? name with
  | some spec, some value => reading.read spec value
  | _, _ => .error (unknownName name)

/-- Overwrites the argument at a position; gives the old value, or nothing when there is none. -/
def set? (a : Args) (index : Nat) (value : ParamValue) : Option (ParamValue × Args) :=
  (a.get? index).map fun old =>
    (old, { a with
      values := a.values.set index value
      aligned := by rw [List.length_set, a.aligned] })

theorem specs_of_set? {a b : Args} {i : Nat} {v old : ParamValue} (h : a.set? i v = some (old, b)) :
    b.specs = a.specs := by
  obtain ⟨_, -, h⟩ := Option.map_eq_some_iff.1 h
  exact (Prod.mk.inj h).2 ▸ rfl

/-- After overwriting an argument it has the new value, and all others are as they were. -/
theorem get?_of_set? {a b : Args} {i : Nat} {v old : ParamValue} (h : a.set? i v = some (old, b))
    (j : Nat) : b.get? j = if i = j then some v else a.get? j := by
  obtain ⟨_, hg, h⟩ := Option.map_eq_some_iff.1 h
  obtain ⟨hi, -⟩ := List.getElem?_eq_some_iff.1 hg
  rw [← (Prod.mk.inj h).2]
  simp only [get?, List.getElem?_set]
  split
  next => simp
  next => rfl

def setByName (a : Args) (name : String) (value : ParamValue) :
    Except CallError (ParamValue × Args) :=
  match (a.indexOf? name).bind fun index => a.set? index value with
  | some result => .ok result
  | none => .error (unknownName name)

def outOfBounds (length index : Nat) : String :=
  "index out of bounds: the len is " ++ toString length ++ " but the index is " ++ toString index

def entries (a : Args) : List (String × ParamValue) :=
  (a.specs.zip a.values).map fun (spec, value) => (spec.name, value)

def inspect (a : Args) : String :=
  Text.mapText (a.entries.map fun (name, value) => (Text.quoted name, value.inspect))

end Args
end RouteDispatch
