import RouteDispatch.Decimal.Reader

/-!
# Scientific decimals

A decimal as a significand of sixty-four bits and a power of ten.  Only as many digits count as fit
in the significand: a digit before the point that does not fit raises the power of ten, and one
behind the point is dropped.

The double that such a decimal gives is found in double arithmetic: the significand is rounded, and
its product with the rounded power of ten, or the quotient, is rounded again.  So it can miss the
nearest double by a few units in the last place, unlike the reading of `Decimal.double?`.
-/

namespace RouteDispatch

/-- The number `significand * 10 ^ exponent`. -/
structure Scientific where
  significand : UInt64
  exponent : Int
  deriving DecidableEq, Repr

namespace Scientific

/-- Adds digits to the end of a significand while they fit; the second part counts those left. -/
def fill (significand : UInt64) : List Char → UInt64 × Nat
  | [] => (significand, 0)
  | c :: cs =>
    let next := 10 * significand.toNat + Decimal.digitValue c
    if next < UInt64.size then fill (UInt64.ofNat next) cs else (significand, cs.length + 1)

/-- The decimal with the given digits before the point, digits behind it, and power of ten. -/
def ofDigits (whole fraction : List Char) (exponent : Int) : Scientific :=
  let (head, raised) := fill 0 whole
  let (significand, dropped) := fill head fraction
  ⟨significand, exponent + raised - (fraction.length - dropped : Nat)⟩

/-- The double nearest to a power of ten, which is exact up to the twenty-second. -/
def powerOfTen (n : Nat) : Double :=
  Double.ofRatio false (Nat.pow 10 n) 1

/-- The double that a decimal gives, with a sign.  The largest power of ten among the doubles is
`10 ^ 308`; a division by a larger one is done in two steps, and after those nothing is left of a
word.  A number that is too large gives infinity. -/
def toDouble (negative : Bool) (d : Scientific) : Double :=
  let start := Double.ofRatio negative d.significand.toNat 1
  if 308 < d.exponent then
    if d.significand = 0 then start else Double.infinity negative
  else if 0 ≤ d.exponent then start.times (powerOfTen d.exponent.toNat)
  else if -308 ≤ d.exponent then start.dividedBy (powerOfTen (-d.exponent).toNat)
  else if -616 ≤ d.exponent then
    (start.dividedBy (powerOfTen 308)).dividedBy (powerOfTen (-d.exponent - 308).toNat)
  else Double.zero negative

end Scientific
end RouteDispatch
