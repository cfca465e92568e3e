import RouteDispatch.Decimal.Scientific
import RouteDispatch.Json.Basic
import RouteDispatch.Text.Hexadecimal

/-!
# Reading JSON text

A reader for the grammar of JSON.  A number without point and exponent that fits in sixty-four bits,
signed or unsigned, is an integer; every other number, `-0` too, is the double that
`Scientific.toDouble` gives.  The members of an object are given as they are written, with
repetitions; `Json.normal` sorts them.

Each reader takes the rest of the text and gives back what it leaves.  Their numeric argument bounds
the depth of the recursion; the length of the text is always enough.

A surrogate that stands alone is refused in the names of the outermost object; everywhere else it is
replaced.
-/

namespace RouteDispatch
namespace Json

/-- The blanks that may stand between the tokens of JSON text. -/
def isGap (c : Char) : Bool :=
  c == ' ' || c == '\t' || c == '\n' || c == '\r'

def skipGap (cs : List Char) : List Char :=
  cs.dropWhile isGap

/-- The number that four hexadecimal digits spell, and the text after them. -/
def readUnit : List Char → Option (Nat × List Char)
  | a :: b :: c :: d :: rest => do
    let w ← Text.hexValue? a
    let x ← Text.hexValue? b
    let y ← Text.hexValue? c
    let z ← Text.hexValue? d
    pure (((w * 16 + x) * 16 + y) * 16 + z, rest)
  | _ => none

/-- The character of a simple escape. -/
def simpleEscape? (c : Char) : Option Char :=
  match c with
  | '"' => some '"'
  | '\\' => some '\\'
  | '/' => some '/'
  | 'b' => some (Char.ofNat 8)
  | 'f' => some (Char.ofNat 12)
  | 'n' => some '\n'
  | 'r' => some '\r'
  | 't' => some '\t'
  | _ => none

/-- A numbered escape after its `\u`.  A pair of surrogates is one character; a surrogate without
its partner is refused, or replaced when `lenient` holds. -/
def readEscape (lenient : Bool) (cs : List Char) : Option (Char × List Char) := do
  let (unit, rest) ← readUnit cs
  if unit < 0xD800 ∨ 0xE000 ≤ unit then pure (Char.ofNat unit, rest)
  else
    let pair : Option (Char × List Char) := do
      if 0xDC00 ≤ unit then none
      else
        match rest with
        | '\\' :: 'u' :: more =>
          let (second, after) ← readUnit more
          if 0xDC00 ≤ second ∧ second < 0xE000 then
            pure (Char.ofNat (0x10000 + (unit - 0xD800) * 0x400 + (second - 0xDC00)), after)
          else none
        | _ => none
    match pair with
    | some p => pure p
    | none => if lenient then pure ('\uFFFD', rest) else none

/-- The characters of a string up to its closing quote. -/
def readChars (lenient : Bool) : Nat → List Char → Option (List Char × List Char)
  | 0, _ => none
  | _ + 1, [] => none
  | depth + 1, c :: cs =>
    if c = '"' then some ([], cs)
    else if c = '\\' then
      match cs with
      | 'u' :: more => do
        let (d, rest) ← readEscape lenient more
        let (text, after) ← readChars lenient depth rest
        pure (d :: text, after)
      | e :: more => do
        let d ← simpleEscape? e
        let (text, after) ← readChars lenient depth more
        pure (d :: text, after)
      | [] => none
    else if c.toNat < 32 then none
    else do
      let (text, after) ← readChars lenient depth cs
      pure (c :: text, after)

def readString (lenient : Bool) (cs : List Char) : Option (String × List Char) :=
  (readChars lenient (cs.length + 1) cs).map fun (text, rest) => (String.ofList text, rest)

/-- Splits digits from what follows; there must be at least one. -/
def readDigits (cs : List Char) : Option (List Char × List Char) :=
  let digits := cs.takeWhile Decimal.isDigit
  if digits.isEmpty then none else some (digits, cs.dropWhile Decimal.isDigit)

/-- The digits behind the point of a number; there are none if the point is missing. -/
def readFraction : List Char → Option (List Char × List Char)
  | '.' :: cs => readDigits cs
  | cs => some ([], cs)

/-- The exponent of a number, which may be missing. -/
def readExponent : List Char → Option (Option Int × List Char)
  | [] => some (none, [])
  | c :: cs =>
    if c == 'e' || c == 'E' then do
      let (negative, more) := Decimal.takeSign cs
      let (digits, rest) ← readDigits more
      let size : Int := Decimal.ofDigits digits
      pure (some (if negative then -size else size), rest)
    else some (none, c :: cs)

/-- The value of a number, from its sign, its digits around the point, and its exponent. -/
def numberValue (negative : Bool) (whole fraction : List Char) (exponent : Option Int) : Json :=
  let n : Int := if negative then -(Decimal.ofDigits whole : Int) else Decimal.ofDigits whole
  if fraction.isEmpty && exponent.isNone && !(negative && n == 0) && fitsWord n then .int n
  else .float ((Scientific.ofDigits whole fraction (exponent.getD 0)).toDouble negative)

def readNumber (cs : List Char) : Option (Json × List Char) := do
  let (negative, cs) := match cs with
    | '-' :: rest => (true, rest)
    | rest => (false, rest)
  let (whole, rest) ← readDigits cs
  if whole.head? = some '0' ∧ 1 < whole.length then none
  else
    let (fraction, rest) ← readFraction rest
    let (exponent, rest) ← readExponent rest
    pure (numberValue negative whole fraction exponent, rest)

/-- Takes a fixed word off the front of the text. -/
def readWord (word : String) (value : Json) (cs : List Char) : Option (Json × List Char) :=
  let letters := word.toList
  if letters.isPrefixOf cs then some (value, cs.drop letters.length) else none

mutual

/-- A value at the front of the text, which has no blank in front; `lenient` is for the names of its
own members. -/
def readValue (lenient : Bool) : Nat → List Char → Option (Json × List Char)
  | 0, _ => none
  | depth + 1, cs =>
    match cs with
    | 'n' :: _ => readWord "null" .null cs
    | 't' :: _ => readWord "true" (.bool true) cs
    | 'f' :: _ => readWord "false" (.bool false) cs
    | '"' :: rest => (readString true rest).map fun (s, after) => (.str s, after)
    | '[' :: rest =>
      match skipGap rest with
      | ']' :: after => some (.arr [], after)
      | more => (readItems depth more).map fun (items, after) => (.arr items, after)
    | '\x7b' :: rest =>
      match skipGap rest with
      | '\x7d' :: after => some (.obj [], after)
      | more => (readMembers lenient depth more).map fun (members, after) => (.obj members, after)
    | _ => readNumber cs

/-- The items of an array up to its closing bracket; there is at least one. -/
def readItems : Nat → List Char → Option (List Json × List Char)
  | 0, _ => none
  | depth + 1, cs => do
    let (item, rest) ← readValue true depth cs
    match skipGap rest with
    | ']' :: after => pure ([item], after)
    | ',' :: more =>
      let (items, after) ← readItems depth (skipGap more)
      pure (item :: items, after)
    | _ => none

/-- The members of an object up to its closing brace; there is at least one. -/
def readMembers (lenient : Bool) : Nat → List Char → Option (List (String × Json) × List Char)
  | 0, _ => none
  | depth + 1, cs =>
    match cs with
    | '"' :: rest => do
      let (name, rest) ← readString lenient rest
      match skipGap rest with
      | ':' :: rest =>
        let (value, rest) ← readValue true depth (skipGap rest)
        match skipGap rest with
        | '\x7d' :: after => pure ([(name, value)], after)
        | ',' :: more =>
          let (members, after) ← readMembers lenient depth (skipGap more)
          pure ((name, value) :: members, after)
        | _ => none
      | _ => none
    | _ => none

end

/-- The value that a text spells, with the members of objects as written. -/
def read? (s : String) : Option Json :=
  let cs := skipGap s.toList
  match readValue false (cs.length + 1) cs with
  | some (value, rest) => if (skipGap rest).isEmpty then some value else none
  | none => none

mutual

/-- The same value with the members of every object sorted, the last of one name counting. -/
def normal : Json → Json
  | .arr items => .arr (normalItems items)
  | .obj members => ofMembers (normalMembers members)
  | j => j

def normalItems : List Json → List Json
  | [] => []
  | item :: rest => normal item :: normalItems rest

def normalMembers : List (String × Json) → List (String × Json)
  | [] => []
  | (name, value) :: rest => (name, normal value) :: normalMembers rest

end

end Json
end RouteDispatch
