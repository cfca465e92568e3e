import RouteDispatch.Decimal.Double

/-!
# Reading decimals

Readers of whole numbers and of doubles.  A whole number is an optional sign and one or more ASCII
digits.  A double is an optional sign, and either the name of a special value in any case, or digits
with an optional point and an optional exponent, with at least one digit before the exponent.
-/

namespace RouteDispatch
namespace Decimal

def isDigit (c : Char) : Bool :=
  '0' ≤ c && c ≤ '9'

def digitValue (c : Char) : Nat :=
  c.toNat - 48

def ofDigits (cs : List Char) : Nat :=
  cs.foldl (fun n c => 10 * n + digitValue c) 0

/-- The number that a non-empty list of ASCII digits spells; `none` for any other text. -/
def natural? (cs : List Char) : Option Nat :=
  if !cs.isEmpty && cs.all isDigit then some (ofDigits cs) else none

/-- Splits off an optional sign; `true` is a minus sign. -/
def takeSign : List Char → Bool × List Char
  | '-' :: rest => (true, rest)
  | '+' :: rest => (false, rest)
  | cs => (false, cs)

/-- The integer that an optional sign and digits spell. -/
def integer? (cs : List Char) : Option Int :=
  let (negative, digits) := takeSign cs
  (natural? digits).map fun n => if negative then -(n : Int) else n

/-- An integer that a text spells, if it lies between two bounds. -/
def integerIn? (low high : Int) (cs : List Char) : Option Int :=
  match integer? cs with
  | some n => if low ≤ n ∧ n ≤ high then some n else none
  | none => none

/-- The double nearest to `digits * 10 ^ exponent`.  A number far outside the range of doubles is
settled by its size, so that no huge power is built. -/
def scaled (negative : Bool) (digits : Nat) (exponent : Int) : Double :=
  let size : Int := (Nat.log2 digits : Int) / 4 + exponent
  let upper : Int := (Nat.log2 digits : Int) / 3 + 1 + exponent
  if digits = 0 then Double.zero negative
  else if size > 400 then Double.infinity negative
  else if upper < -400 then Double.zero negative
  else Double.ofRatio negative (digits * Nat.pow 10 exponent.toNat) (Nat.pow 10 (-exponent).toNat)

/-- The exponent part of a decimal: nothing, or `e`, an optional sign and digits. -/
def exponentPart? : List Char → Option Int
  | [] => some 0
  | c :: cs => if c == 'e' || c == 'E' then integer? cs else none

def unsigned? (negative : Bool) (cs : List Char) : Option Double :=
  let whole := cs.takeWhile isDigit
  let afterWhole := cs.dropWhile isDigit
  let (fraction, rest) :=
    match afterWhole with
    | '.' :: more => (more.takeWhile isDigit, more.dropWhile isDigit)
    | more => ([], more)
  if whole.isEmpty && fraction.isEmpty then none
  else
    (exponentPart? rest).map fun e =>
      scaled negative (ofDigits (whole ++ fraction)) (e - fraction.length)

def lowerAscii (cs : List Char) : List Char :=
  cs.map Char.toLower

/-- The double that a text spells, rounded to nearest. -/
def double? (cs : List Char) : Option Double :=
  let (negative, rest) := takeSign cs
  let word := lowerAscii rest
  if word = "nan".toList then some Double.nan
  else if word = "inf".toList ∨ word = "infinity".toList then some (Double.infinity negative)
  else unsigned? negative rest

end Decimal
end RouteDispatch
