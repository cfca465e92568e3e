/-!
# Double-precision numbers

A double is its sixty-four bits: a sign, eleven bits of exponent and fifty-two bits of fraction.  A
finite double denotes `m * 2 ^ q` for a natural number `m` and an integer `q`; the arithmetic on it
is done on `m` and `q`, with exact natural numbers.  Powers are written `Nat.pow`, which means the
same whatever is imported.
-/

namespace RouteDispatch

/-- A number in the binary interchange format of sixty-four bits. -/
structure Double where
  bits : UInt64
  deriving DecidableEq, Inhabited

namespace Double

/-- What a double denotes: not a number, an infinity, or `m * 2 ^ q` with a sign. -/
inductive Meaning where
  | nan
  | infinite (negative : Bool)
  | finite (negative : Bool) (m : Nat) (q : Int)
  deriving DecidableEq

def isNegative (d : Double) : Bool :=
  d.bits.toNat / Nat.pow 2 63 == 1

/-- The eleven bits of the exponent field. -/
def exponentField (d : Double) : Nat :=
  d.bits.toNat / Nat.pow 2 52 % Nat.pow 2 11

/-- The fifty-two bits of the fraction field. -/
def fractionField (d : Double) : Nat :=
  d.bits.toNat % Nat.pow 2 52

/-- The number that the bits stand for. -/
def meaning (d : Double) : Meaning :=
  if d.exponentField = 2047 then
    if d.fractionField = 0 then .infinite d.isNegative else .nan
  else if d.exponentField = 0 then .finite d.isNegative d.fractionField (-1074)
  else .finite d.isNegative (Nat.pow 2 52 + d.fractionField) (d.exponentField - 1075)

def isNaN (d : Double) : Bool :=
  d.meaning = .nan

def isFinite (d : Double) : Bool :=
  d.exponentField != 2047

/-- A double from its sign and the number that its other bits spell. -/
def ofMagnitude (negative : Bool) (magnitude : Nat) : Double :=
  ⟨UInt64.ofNat ((if negative then Nat.pow 2 63 else 0) + magnitude)⟩

def nan : Double := ofMagnitude false (0xFFF * Nat.pow 2 51)

def infinity (negative : Bool) : Double := ofMagnitude negative (0x7FF * Nat.pow 2 52)

def zero (negative : Bool) : Double := ofMagnitude negative 0

/-- The quotient `num / den` rounded to the nearest natural number, a half to the even one. -/
def divNearest (num den : Nat) : Nat :=
  let quotient := num / den
  let rest := num % den
  if 2 * rest > den ∨ (2 * rest = den ∧ quotient % 2 = 1) then quotient + 1 else quotient

/-- The integer `e` with `2 ^ e ≤ num / den < 2 ^ (e + 1)`, for positive `num` and `den`. -/
def binaryExponent (num den : Nat) : Int :=
  let guess : Int := (Nat.log2 num : Int) - Nat.log2 den
  if num * Nat.pow 2 (-guess).toNat < den * Nat.pow 2 guess.toNat then guess - 1 else guess

/-- The double nearest to `num / den`, a tie going to the even significand; a quotient beyond the
largest double gives infinity. -/
def ofRatio (negative : Bool) (num den : Nat) : Double :=
  if num = 0 then zero negative
  else
    let step := (binaryExponent num den - 52 + 1074).toNat
    let q : Int := (step : Int) - 1074
    let significand := divNearest (num * Nat.pow 2 (-q).toNat) (den * Nat.pow 2 q.toNat)
    let magnitude := step * Nat.pow 2 52 + significand
    if magnitude < 0x7FF * Nat.pow 2 52 then ofMagnitude negative magnitude else infinity negative

/-- The size of a finite double, as a numerator and a denominator. -/
def ratio (d : Double) : Nat × Nat :=
  match d.meaning with
  | .finite _ m q => (m * Nat.pow 2 q.toNat, Nat.pow 2 (-q).toNat)
  | _ => (0, 1)

def times (a b : Double) : Double :=
  ofRatio (a.isNegative != b.isNegative) (a.ratio.1 * b.ratio.1) (a.ratio.2 * b.ratio.2)

/-- The rounded quotient of two finite doubles, the second of which is not zero. -/
def dividedBy (a b : Double) : Double :=
  ofRatio (a.isNegative != b.isNegative) (a.ratio.1 * b.ratio.2) (a.ratio.2 * b.ratio.1)

def ofInt (n : Int) : Double :=
  ofRatio (n < 0) n.natAbs 1

end Double
end RouteDispatch
