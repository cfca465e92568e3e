import RouteDispatch.Decimal.Shortest

/-!
# Layouts of decimal text

How a double is written once its digits are chosen: in positional notation, or with a power of ten.
A layout fixes the range of positional notation, whether an integral number keeps a point and a
zero, and whether the sign of a positive exponent is written.
-/

namespace RouteDispatch
namespace Decimal

/-- The choices of one way to write doubles. -/
structure Layout where
  /-- Where an exact tie between two numerals goes. -/
  tie : Tie
  /-- The powers of ten of the leading digit that are written positionally: at least the first and
  below the second.  Without bounds every number is. -/
  positional : Option (Int × Int)
  /-- Whether an integral number in positional notation ends in a point and a zero. -/
  pointZero : Bool
  plusSign : Bool

/-- The plain form never uses an exponent and writes integral numbers without a point. -/
def Layout.plain : Layout := ⟨.away, none, false, false⟩

/-- The diagnostic form shows that a number is a double: it has a point or an exponent. -/
def Layout.diagnostic : Layout := ⟨.away, some (-4, 16), true, false⟩

def Layout.json : Layout := ⟨.even, some (-5, 16), true, true⟩

def positionalText (pointZero : Bool) (n : Numeral) : String :=
  let digits := Nat.toDigits 10 n.digits
  if 0 ≤ n.exponent then
    String.ofList (digits ++ List.replicate n.exponent.toNat '0') ++
      (if pointZero then ".0" else "")
  else
    let places := (-n.exponent).toNat
    let padded := List.replicate (places + 1 - digits.length) '0' ++ digits
    let whole := padded.take (padded.length - places)
    let fraction := padded.drop (padded.length - places)
    String.ofList (whole ++ '.' :: fraction)

/-- A numeral with one digit before the point and a power of ten. -/
def scientificText (plusSign : Bool) (n : Numeral) : String :=
  let digits := Nat.toDigits 10 n.digits
  let power : Int := n.exponent + (digits.length - 1 : Nat)
  let fraction := digits.drop 1
  let sign := if power < 0 then "-" else if plusSign then "+" else ""
  String.ofList (digits.take 1 ++ (if fraction.isEmpty then [] else '.' :: fraction)) ++ "e" ++ sign
    ++ toString power.natAbs

/-- The power of ten of a numeral's leading digit. -/
def Numeral.lead (n : Numeral) : Int :=
  n.exponent + (digitCount n.digits - 1 : Nat)

def Layout.numeralText (l : Layout) (n : Numeral) : String :=
  match l.positional with
  | none => positionalText l.pointZero n
  | some (least, limit) =>
    if n.digits = 0 ∨ (least ≤ n.lead ∧ n.lead < limit) then positionalText l.pointZero n
    else scientificText l.plusSign n

def Layout.text (l : Layout) (d : Double) : String :=
  match d.meaning with
  | .nan => "NaN"
  | .infinite negative => if negative then "-inf" else "inf"
  | .finite negative m q =>
    (if negative then "-" else "") ++ l.numeralText (shortest l.tie m q)

end Decimal
end RouteDispatch
