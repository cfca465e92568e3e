import RouteDispatch.Decimal.Reader
import RouteDispatch.Param.Value
import RouteDispatch.Task.Code
import RouteDispatch.Text.Trim

/-!
# Parsers of parameter text

A parser turns the raw text of a parameter into a value of the declared type, or finds that the text
has none.  The standard parser drops blanks around numbers and truth values and takes strings as
they are.  A parser is foreign code and may panic, but it does nothing else.
-/

namespace RouteDispatch

abbrev ParamParser := ParamType → String → Except Panic (Option ParamValue)

namespace ParamParser

/-- Whether two texts are equal but for the case of ASCII letters. -/
def sameWord (a b : List Char) : Bool :=
  a.map Char.toLower == b.map Char.toLower

/-- The truth value that a text spells in any case. -/
def bool? (cs : List Char) : Option Bool :=
  if sameWord cs "true".toList then some true
  else if sameWord cs "false".toList then some false
  else none

/-- The value of a text under the standard reading of the type. -/
def standardValue? (type : ParamType) (raw : String) : Option ParamValue :=
  let trimmed := Text.trimBoth Text.isBlank raw.toList
  match type with
  | .int =>
    (Decimal.integerIn? Int32.minValue.toInt Int32.maxValue.toInt trimmed).map fun n =>
      .int (Int32.ofInt n)
  | .long =>
    (Decimal.integerIn? Int64.minValue.toInt Int64.maxValue.toInt trimmed).map fun n =>
      .long (Int64.ofInt n)
  | .float => (Decimal.double? trimmed).map .float
  | .bool => (bool? trimmed).map .bool
  | .string => some (.string raw)

def standard : ParamParser :=
  fun type raw => .ok (standardValue? type raw)

/-- The parser that never panics and gives what a function gives. -/
def ofFunction (f : ParamType → String → Option ParamValue) : ParamParser :=
  fun type raw => .ok (f type raw)

end ParamParser
end RouteDispatch
