import RouteDispatch.Decimal.Reader
import RouteDispatch.Error
import RouteDispatch.Text.Split

/-!
# Version suffixes

A route whose name ends in an underscore and a date, as in `users_2023_05_01`, has that date as its
version, written as the number `20230501`.  Any other name has version zero.  A group of digits that
looks like a date but is none is an error and not an unversioned name.
-/

namespace RouteDispatch

structure Date where
  year : Nat
  month : Nat
  day : Nat
  deriving DecidableEq, Repr

namespace Date

def isLeapYear (year : Nat) : Bool :=
  (year % 4 == 0 && year % 100 != 0) || year % 400 == 0

def daysInMonth (year month : Nat) : Nat :=
  if month = 2 then if isLeapYear year then 29 else 28
  else if month = 4 ∨ month = 6 ∨ month = 9 ∨ month = 11 then 30
  else 31

/-- Whether the date is in the calendar, in a year from 1970 to 9999. -/
def isReal (d : Date) : Bool :=
  1970 ≤ d.year && d.year ≤ 9999 && 1 ≤ d.month && d.month ≤ 12
    && 1 ≤ d.day && d.day ≤ daysInMonth d.year d.month

/-- The version of a date: its year, month and day side by side. -/
def version (d : Date) : Nat :=
  d.year * 10000 + d.month * 100 + d.day

end Date

/-- The number that exactly `width` ASCII digits spell. -/
def digitGroup? (width : Nat) (cs : List Char) : Option Nat :=
  if cs.length = width then Decimal.natural? cs else none

/-- A name whose last four fields between underscores are a base and three groups of digits. -/
structure DatedName where
  base : List Char
  date : Date
  suffix : List Char

/-- Reads a name as a base and a date; `none` if it has not that form. -/
def DatedName.ofName? (name : List Char) : Option DatedName :=
  match (Text.split (· == '_') name).reverse with
  | day :: month :: year :: base => do
    let base := Text.join '_' base.reverse
    if base.isEmpty then none
    else
      let y ← digitGroup? 4 year
      let m ← digitGroup? 2 month
      let d ← digitGroup? 2 day
      pure ⟨base, ⟨y, m, d⟩, Text.join '_' [year, month, day]⟩
  | _ => none

/-- The version that a route's name gives. -/
def versionOf (name : String) : Except BuildError Nat :=
  match DatedName.ofName? name.toList with
  | none => .ok 0
  | some dated =>
    if dated.date.isReal then .ok dated.date.version
    else .error (.invalidVersion name (String.ofList dated.suffix))

end RouteDispatch
