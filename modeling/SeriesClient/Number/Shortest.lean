import SeriesClient.Number.Binary

/-! The shortest decimal that reads back as a given float, found in exact arithmetic. On ever finer
decimal grids the two neighbours of the value are tested against the interval of numbers that
round to it; if any point of a grid lies in the interval, so does one of these two. -/
namespace SeriesClient.Number

/-- Which of two equally near decimals is taken. -/
inductive Tie where
  | up
  | even
deriving DecidableEq, Repr

/-- The number `coefficient * 10 ^ exponent`. -/
structure Decimal where
  coefficient : Nat
  exponent : Int
deriving DecidableEq, Repr

namespace Decimal

/-- Drops trailing zeros of the coefficient. -/
def strip (coefficient : Nat) (exponent : Int) : Decimal :=
  if h : coefficient ≠ 0 ∧ coefficient % 10 = 0 then strip (coefficient / 10) (exponent + 1)
  else ⟨coefficient, exponent⟩
termination_by coefficient
decreasing_by exact Nat.div_lt_self (Nat.pos_of_ne_zero h.1) (by decide)

end Decimal

def digitCount (n : Nat) : Nat := (Nat.toDigits 10 n).length

/-- A positive number `quarters * 2 ^ exponent` within the interval of numbers that round to it;
the ends, a unit of four quarters apart or less, belong to it iff `closed`. -/
structure Interval where
  low : Nat
  quarters : Nat
  high : Nat
  exponent : Int
  closed : Bool
deriving DecidableEq, Repr

namespace Interval

def ofFinite (significand : Nat) (exponent : Int) (edge : Bool) : Interval where
  low := 4 * significand - (if edge then 1 else 2)
  quarters := 4 * significand
  high := 4 * significand + 2
  exponent := exponent - 2
  closed := significand % 2 = 0

/-- Factor that takes `quarters` to the common scale with grid points of `10 ^ place`. -/
def scale (range : Interval) (place : Int) : Nat :=
  (1 <<< range.exponent.toNat) * Nat.pow 10 (-place).toNat

/-- The step of the grid of `10 ^ place` on that common scale. -/
def step (range : Interval) (place : Int) : Nat :=
  (1 <<< (-range.exponent).toNat) * Nat.pow 10 place.toNat

def contains (range : Interval) (place : Int) (point : Nat) : Bool :=
  let low := range.low * range.scale place
  let high := range.high * range.scale place
  let x := point * range.step place
  if range.closed then low ≤ x && x ≤ high else low < x && x < high

/-- The nearest point in the interval on the grid of `10 ^ place`, if there is one. -/
def gridPoint? (tie : Tie) (range : Interval) (place : Int) : Option Nat :=
  let value := range.quarters * range.scale place
  let step := range.step place
  let below := value / step
  match range.contains place below, range.contains place (below + 1) with
  | false, false => none
  | true, false => some below
  | false, true => some (below + 1)
  | true, true =>
    let gap := 2 * (value % step)
    if gap < step then some below
    else if step < gap then some (below + 1)
    else match tie with
      | .up => some (below + 1)
      | .even => some (if below % 2 = 0 then below else below + 1)

/-- The place of the leading digit: `10 ^ place ≤ value < 10 ^ (place + 1)`. -/
def leadingPlace (range : Interval) : Int :=
  let value := range.quarters * range.scale 0
  let one := range.step 0
  if one ≤ value then (digitCount (value / one) : Int) - 1
  else -(digitCount ((one + value - 1) / value - 1) : Int)

/-- Tries one grid after the other, each ten times finer, at most `more` of them. -/
def search (tie : Tie) (range : Interval) (place : Int) : (more : Nat) → Decimal
  | 0 => ⟨range.quarters * range.scale place / range.step place, place⟩
  | more + 1 => match range.gridPoint? tie place with
    | some point => Decimal.strip point place
    | none => search tie range (place - 1) more

end Interval

/-- Shortest decimal of a finite number; no binary64 needs more than 17 digits. -/
def shortest (tie : Tie) (significand : Nat) (exponent : Int) (edge : Bool) : Decimal :=
  if significand = 0 then ⟨0, 0⟩
  else
    let range := Interval.ofFinite significand exponent edge
    range.search tie range.leadingPlace 17

end SeriesClient.Number
