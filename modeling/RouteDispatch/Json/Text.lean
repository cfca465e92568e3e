import RouteDispatch.Decimal.Layout
import RouteDispatch.Json.Basic
import RouteDispatch.Text.Hexadecimal

/-!
# Compact JSON text

The text of a JSON value without blanks.  Strings escape the quote, the backslash and the control
characters; every other character stands for itself.
-/

namespace RouteDispatch
namespace Json

/-- A character as it stands inside a JSON string. -/
def escapedChar (c : Char) : List Char :=
  if c = '"' then ['\\', '"']
  else if c = '\\' then ['\\', '\\']
  else if c.toNat = 8 then ['\\', 'b']
  else if c.toNat = 12 then ['\\', 'f']
  else if c = '\n' then ['\\', 'n']
  else if c = '\r' then ['\\', 'r']
  else if c = '\t' then ['\\', 't']
  else if c.toNat < 32 then ['\\', 'u'] ++ Text.hexFixed 4 c.toNat
  else [c]

def stringText (s : String) : String :=
  String.ofList ('"' :: s.toList.flatMap escapedChar ++ ['"'])

/-- The decimal digits of an integer, with a minus sign if it is negative. -/
def integerText (n : Int) : String :=
  String.ofList ((if n < 0 then ['-'] else []) ++ Nat.toDigits 10 n.natAbs)

mutual

def text : Json → String
  | .null => "null"
  | .bool true => "true"
  | .bool false => "false"
  | .int n => integerText n
  | .float d => Decimal.Layout.json.text d
  | .str s => stringText s
  | .arr [] => "[]"
  | .arr (item :: rest) => "[" ++ text item ++ itemsText rest ++ "]"
  | .obj [] => "\x7b\x7d"
  | .obj ((name, value) :: rest) =>
    "\x7b" ++ stringText name ++ ":" ++ text value ++ membersText rest ++ "\x7d"

/-- The items of an array after the first, each behind a comma. -/
def itemsText : List Json → String
  | [] => ""
  | item :: rest => "," ++ text item ++ itemsText rest

/-- The members of an object after the first, each behind a comma. -/
def membersText : List (String × Json) → String
  | [] => ""
  | (name, value) :: rest => "," ++ stringText name ++ ":" ++ text value ++ membersText rest

end

end Json
end RouteDispatch
