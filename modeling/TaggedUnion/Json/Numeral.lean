import TaggedUnion.Json.Basic

/-!
# Numerals

The written form of a number in JSON text and the number it stands for.

A numeral without fraction and exponent stands for itself as long as it fits into 64 bits.  Any
other numeral stands for a floating-point number that is near, not always nearest: its digits are
gathered into a whole number of at most 64 bits, further digits only move the decimal point, and the
whole number is then multiplied or divided by a power of ten, each step rounding.  A numeral that is
too large stands for nothing.
-/

namespace TaggedUnion.Json

/-- The exponent of a numeral. -/
structure Exponent where
  negative : Bool
  digits : List Char
deriving DecidableEq

/-- A numeral, by its digits. -/
structure Numeral where
  negative : Bool := false
  whole : List Char
  fraction : Option (List Char) := none
  exponent : Option Exponent := none
deriving DecidableEq

namespace Numeral

/-! ### Reading digits -/

/-- Appends a digit to a number unless the result has more than 64 bits. -/
def appendDigit? (n : Nat) (digit : Char) : Option Nat :=
  let m := 10 * n + Decimal.digitValue digit
  if m < Nat.pow 2 64 then some m else none

/-- Gathers digits before the decimal point.  Gives the number gathered and how many digits were
left over. -/
def gatherWhole (n : Nat) : List Char → Nat × Nat
  | [] => (n, 0)
  | d :: rest =>
    match appendDigit? n d with
    | some m => gatherWhole m rest
    | none => (n, rest.length + 1)

/-- Gathers digits behind the decimal point.  Gives the number gathered and how many digits went
into it; the first digit that does not fit ends the gathering. -/
def gatherFraction (n : Nat) : List Char → Nat × Nat
  | [] => (n, 0)
  | d :: rest =>
    match appendDigit? n d with
    | some m =>
      let (result, used) := gatherFraction m rest
      (result, used + 1)
    | none => (n, 0)

/-! ### Scaling by powers of ten -/

/-- The floating-point number nearest to a power of ten. -/
def powerOfTen (n : Nat) : Binary64 :=
  Binary64.ofNat (Nat.pow 10 n)

/-- Multiplies by a power of ten.  Nothing if the result is infinite. -/
def scaleUp? (x : Binary64) (n : Nat) : Option Binary64 :=
  if n ≤ 308 then
    let y := x.mul (powerOfTen n)
    if y.isInfinite then none else some y
  else if x.isZero then some x
  else none

/-- Divides by a power of ten, by at most `10 ^ 308` at a time. -/
def scaleDown (x : Binary64) (n : Nat) : Binary64 :=
  if n ≤ 308 then x.div (powerOfTen n)
  else if x.isZero then x
  else scaleDown (x.div (powerOfTen 308)) (n - 308)
termination_by n
decreasing_by omega

/-- Multiplies by a power of ten whose exponent may be negative. -/
def scale? (x : Binary64) : Int → Option Binary64
  | .ofNat n => scaleUp? x n
  | .negSucc n => some (scaleDown x (n + 1))

/-! ### The number of a numeral -/

/-- The largest exponent that is reckoned with. -/
def exponentLimit : Nat :=
  Nat.pow 2 31 - 1

/-- The number gathered from the digits, and the power of ten that goes with it before the written
exponent is applied. -/
def gathered (n : Numeral) : Nat × Int :=
  let (whole, dropped) := gatherWhole 0 n.whole
  let (all, used) := gatherFraction whole (n.fraction.getD [])
  (all, Int.ofNat dropped - Int.ofNat used)

/-- The absolute value of a numeral as a floating-point number. -/
def absFloat? (n : Numeral) : Option Binary64 :=
  let (all, power) := n.gathered
  let x := Binary64.ofNat all
  match n.exponent with
  | none => scale? x power
  | some e =>
    let exponent := Decimal.toNat e.digits
    if exponentLimit < exponent then
      if all = 0 || e.negative then some (Binary64.ofNat 0) else none
    else scale? x (if e.negative then power - exponent else power + exponent)

/-- A numeral as a floating-point number. -/
def float? (n : Numeral) : Option Number :=
  n.absFloat?.bind fun x => Number.ofFloat? (if n.negative then x.neg else x)

/-- A numeral without fraction and exponent as an integer. -/
def integer? (n : Numeral) : Option Number :=
  let all := Decimal.toNat n.whole
  if n.negative then Number.ofNegNat? all else Number.ofNat? all

/-- The number that a numeral stands for.  Nothing if it is too large. -/
def number? (n : Numeral) : Option Number :=
  match n.fraction, n.exponent with
  | none, none => n.integer?.or n.float?
  | _, _ => n.float?

end Numeral

end TaggedUnion.Json
