import RouteDispatch.Decimal.Double

/-!
# Shortest decimals

The decimal numeral with the fewest digits among those that read back as a given double, and of
these the one nearest to it.  For one to seventeen digits the two neighbours of the number on the
decimal grid are tested against the interval of reals that round to it, with exact natural
arithmetic; the interval has its ends exactly when the significand is even.
-/

namespace RouteDispatch
namespace Decimal

/-- Where an exact tie between two neighbouring numerals goes. -/
inductive Tie where
  | even
  | away
  deriving DecidableEq

/-- A decimal numeral: `digits * 10 ^ exponent`. -/
structure Numeral where
  digits : Nat
  exponent : Int
  deriving DecidableEq

/-- The number of decimal digits of a natural number; zero has one. -/
def digitCount (n : Nat) : Nat :=
  (Nat.toDigits 10 n).length

/-- The interval of reals around `m * 2 ^ q` that round to it, in units of `2 ^ (q - 2)`. -/
structure Interval where
  low : Nat
  value : Nat
  high : Nat
  closed : Bool

/-- The interval of `m * 2 ^ q`.  Below a power of two the gap to the next double is half as
wide, unless the exponent is the least one. -/
def Interval.of (m : Nat) (q : Int) : Interval :=
  { low := if m = Nat.pow 2 52 ∧ q ≠ -1074 then 4 * m - 1 else 4 * m - 2
    value := 4 * m
    high := 4 * m + 2
    closed := m % 2 = 0 }

/-- Whether the point `p` of a grid lies in the interval, where `unit / grid` is the size of the
interval's unit on that grid. -/
def Interval.holds (i : Interval) (unit grid p : Nat) : Bool :=
  let x := p * grid
  if i.closed then i.low * unit ≤ x ∧ x ≤ i.high * unit
  else i.low * unit < x ∧ x < i.high * unit

/-- The better of the two neighbours of the interval's value on the grid `10 ^ exponent`, if one of
them lies in the interval. -/
def nearestOnGrid (tie : Tie) (i : Interval) (q exponent : Int) : Option Nat :=
  let unit := Nat.pow 2 (q - 2).toNat * Nat.pow 10 (-exponent).toNat
  let grid := Nat.pow 2 (2 - q).toNat * Nat.pow 10 exponent.toNat
  let below := i.value * unit / grid
  let above := below + 1
  let gapBelow := i.value * unit - below * grid
  let gapAbove := above * grid - i.value * unit
  match i.holds unit grid below, i.holds unit grid above with
  | true, true =>
    if gapBelow < gapAbove then some below
    else if gapAbove < gapBelow then some above
    else match tie with
      | .away => some above
      | .even => if below % 2 = 0 then some below else some above
  | true, false => some below
  | false, true => some above
  | false, false => none

/-- The exponent `e` with `10 ^ e ≤ num / den < 10 ^ (e + 1)`, for positive `num` and `den`. -/
def decimalExponent (num den : Nat) : Int :=
  let guess : Int := (digitCount num : Int) - digitCount den
  if num * Nat.pow 10 (-guess).toNat < den * Nat.pow 10 guess.toNat then guess - 1 else guess

/-- Moves the zeros at the end of the digits into the exponent, at most `limit` of them. -/
def dropZeros : Nat → Numeral → Numeral
  | 0, n => n
  | limit + 1, n =>
    if n.digits ≠ 0 ∧ n.digits % 10 = 0 then dropZeros limit ⟨n.digits / 10, n.exponent + 1⟩
    else n

/-- Tries grids with `count` digits, then with one digit more, up to `left` grids. -/
def searchGrids (tie : Tie) (i : Interval) (q lead : Int) : Nat → Nat → Numeral
  | 0, count => ⟨0, lead - count⟩
  | left + 1, count =>
    let exponent := lead - count
    match nearestOnGrid tie i q exponent with
    | some p => dropZeros 20 ⟨p, exponent⟩
    | none => searchGrids tie i q lead left (count + 1)

/-- The shortest numeral that reads back as `m * 2 ^ q`, for a double's `m` and `q`. -/
def shortest (tie : Tie) (m : Nat) (q : Int) : Numeral :=
  if m = 0 then ⟨0, 0⟩
  else
    let lead := decimalExponent (m * Nat.pow 2 q.toNat) (Nat.pow 2 (-q).toNat)
    searchGrids tie (Interval.of m q) q lead 18 0

end Decimal
end RouteDispatch
