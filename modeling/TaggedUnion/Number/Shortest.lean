import TaggedUnion.Number.Binary64
import TaggedUnion.Number.Decimal

/-!
# Shortest decimals

The decimal with the fewest digits that is still nearer to a given floating-point number than to
any other, and its written forms.

The reals that round to a number form an interval, closed exactly if the significand is even.
`Binary64.shortest` looks for the coarsest grid of multiples of a power of ten that has a point in
the interval and takes the point nearest to the number.  How the digits are laid out is a
`FloatFormat`.
-/

namespace TaggedUnion

/-- Which of two equally near decimals is taken. -/
inductive Tie where
  | up
  | even
deriving DecidableEq

namespace Binary64

/-- The interval of the reals that round to a number, in units of `2 ^ -1076`, around the number
itself. -/
structure Interval where
  low : Nat
  value : Nat
  high : Nat
  closed : Bool

/-- The interval of a finite number other than zero.  Below a power of two the numbers lie twice as
dense. -/
def interval (x : Binary64) : Interval :=
  let m := x.significand
  let unit := Nat.pow 2 x.scale
  { low := (if m = Nat.pow 2 52 ∧ 0 < x.scale then 4 * m - 1 else 4 * m - 2) * unit
    value := 4 * m * unit
    high := (4 * m + 2) * unit
    closed := m % 2 = 0 }

/-- The point of the interval on the grid of the multiples of `10 ^ power` that is nearest to the
value, as its multiple. -/
def Interval.point? (i : Interval) (tie : Tie) (power : Int) : Option Nat :=
  let up := Nat.pow 10 (-power).toNat
  let grid := Nat.pow 2 1076 * Nat.pow 10 power.toNat
  let inside (n : Nat) : Bool :=
    if i.closed then i.low * up ≤ n * grid ∧ n * grid ≤ i.high * up
    else i.low * up < n * grid ∧ n * grid < i.high * up
  let n := i.value * up / grid
  let rest := i.value * up % grid
  match inside n, inside (n + 1) with
  | true, false => some n
  | false, true => some (n + 1)
  | false, false => none
  | true, true =>
    if 2 * rest < grid then some n
    else if grid < 2 * rest then some (n + 1)
    else match tie with
      | .up => some (n + 1)
      | .even => some (if n % 2 = 0 then n else n + 1)

/-- The digits, as a number without trailing zeros, and the power of ten of the last digit.  The
search starts above the first digit and needs at most seventeen digits. -/
def shortest (tie : Tie) (x : Binary64) : Nat × Int :=
  let i := x.interval
  let top : Int := (Int.ofNat i.value.log2 - 1076) * 30103 / 100000 + 2
  let found := (List.range 22).findSome? fun k =>
    let power := top - Int.ofNat k
    (i.point? tie power).map fun n => (n, power)
  found.getD (0, 0)

end Binary64

/-! ### Written forms -/

/-- How floating-point numbers are written. -/
structure FloatFormat where
  /-- The choice between two equally near decimals. -/
  tie : Tie
  /-- Whether a number whose first digit has this power of ten is written without an exponent. -/
  positional : Int → Bool
  /-- Whether a whole number written without an exponent ends in `.0`. -/
  pointZero : Bool
  /-- What stands before an exponent that is not negative. -/
  exponentPlus : String
  /-- The texts of NaN and of infinity. -/
  nan : String
  infinity : String

namespace FloatFormat

/-- Digits and the power of ten of the last one, without an exponent. -/
def layPositional (f : FloatFormat) (digits : List Char) (power : Int) : List Char :=
  if 0 ≤ power then
    digits ++ List.replicate power.toNat '0' ++ (if f.pointZero then ['.', '0'] else [])
  else
    let places := (-power).toNat
    if places < digits.length then
      digits.take (digits.length - places) ++ '.' :: digits.drop (digits.length - places)
    else
      '0' :: '.' :: List.replicate (places - digits.length) '0' ++ digits

/-- Digits and the power of ten of the first one, with an exponent. -/
def layScientific (f : FloatFormat) (digits : List Char) (exponent : Int) : List Char :=
  let mantissa := match digits with
    | [] => []
    | [d] => [d]
    | d :: ds => d :: '.' :: ds
  let plus := if 0 ≤ exponent then f.exponentPlus.toList else []
  mantissa ++ 'e' :: plus ++ Decimal.ofInt exponent

/-- The text of a finite number without its sign. -/
def writeAbs (f : FloatFormat) (x : Binary64) : List Char :=
  if x.isZero then f.layPositional ['0'] 0
  else
    let (n, power) := x.shortest f.tie
    let digits := Decimal.ofNat n
    let exponent := power + Int.ofNat digits.length - 1
    if f.positional exponent then f.layPositional digits power
    else f.layScientific digits exponent

/-- The text of a number. -/
def write (f : FloatFormat) (x : Binary64) : String :=
  if x.isNaN then f.nan
  else
    let body := if x.isInfinite then f.infinity else String.ofList (f.writeAbs x)
    if x.negative then "-" ++ body else body

end FloatFormat

end TaggedUnion
