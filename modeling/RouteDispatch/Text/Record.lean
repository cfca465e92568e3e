import RouteDispatch.Text.Split

/-!
# Diagnostic records

The one-line texts in which structures show themselves: a name with named fields between braces, a
name with one unnamed field between parentheses, a list, a map, and an optional value.
-/

namespace RouteDispatch
namespace Text

/-- A field of a record: its name and its text. -/
def fieldText (field : String × String) : String :=
  field.1 ++ ": " ++ field.2

/-- A record with all its fields, as in `Point \x7b x: 1, y: 2 \x7d`. -/
def record (name : String) (fields : List (String × String)) : String :=
  name ++ " \x7b " ++ joinTexts ", " (fields.map fieldText) ++ " \x7d"

/-- A record that shows some of its fields and says that there are more. -/
def openRecord (name : String) (fields : List (String × String)) : String :=
  name ++ " \x7b " ++ joinTexts ", " (fields.map fieldText ++ [".."]) ++ " \x7d"

/-- A name with one unnamed field. -/
def wrapped (name inner : String) : String :=
  name ++ "(" ++ inner ++ ")"

def listText (items : List String) : String :=
  "[" ++ joinTexts ", " items ++ "]"

/-- A map from texts to texts between braces. -/
def mapText (entries : List (String × String)) : String :=
  "\x7b" ++ joinTexts ", " (entries.map fieldText) ++ "\x7d"

def optionText : Option String → String
  | none => "None"
  | some s => wrapped "Some" s

def boolText (b : Bool) : String :=
  if b then "true" else "false"

end Text
end RouteDispatch
