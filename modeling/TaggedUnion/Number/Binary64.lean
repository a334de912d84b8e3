/-!
# Binary floating-point numbers of 64 bits

A `Binary64` is the word of 64 bits that stands for a number, so that two NaNs with different bits
stay apart.  A finite number is `significand · 2 ^ scale / 2 ^ 1074`, up to sign, and every
operation here is an exact computation with natural numbers followed by one rounding to the nearest
number, a tie going to the even significand.
-/

namespace TaggedUnion

/-- A floating-point number, held as its 64 bits. -/
structure Binary64 where
  bits : UInt64
deriving DecidableEq

namespace Binary64

/-! ### Parts of a number -/

/-- Whether the sign bit is set. -/
def negative (x : Binary64) : Bool :=
  Nat.pow 2 63 ≤ x.bits.toNat

/-- The bits below the sign bit.  They order the absolute values. -/
def magnitude (x : Binary64) : Nat :=
  x.bits.toNat % Nat.pow 2 63

/-- The magnitude of the infinities; a larger one is a NaN. -/
def infinite : Nat :=
  0x7ff * Nat.pow 2 52

def isNaN (x : Binary64) : Bool :=
  infinite < x.magnitude

def isInfinite (x : Binary64) : Bool :=
  x.magnitude = infinite

def isFinite (x : Binary64) : Bool :=
  x.magnitude < infinite

/-- Beside the finite numbers there are the NaNs and the infinities. -/
theorem isFinite_iff {x : Binary64} : x.isFinite ↔ ¬ x.isNaN ∧ ¬ x.isInfinite := by
  simp only [isFinite, isNaN, isInfinite, decide_eq_true_eq]
  omega

def isZero (x : Binary64) : Bool :=
  x.magnitude = 0

/-- The whole number that a finite value is a multiple of a power of two of. -/
def significand (x : Binary64) : Nat :=
  if x.magnitude < Nat.pow 2 52 then x.magnitude
  else Nat.pow 2 52 + x.magnitude % Nat.pow 2 52

/-- The power of two that goes with the significand, counted from `2 ^ -1074`. -/
def scale (x : Binary64) : Nat :=
  x.magnitude / Nat.pow 2 52 - 1

/-- The absolute value of a finite number in units of `2 ^ -1074`. -/
def units (x : Binary64) : Nat :=
  x.significand * Nat.pow 2 x.scale

/-! ### Construction -/

/-- The number with the given sign and magnitude. -/
def ofMagnitude (negative : Bool) (magnitude : Nat) : Binary64 :=
  ⟨((if negative then Nat.pow 2 63 else 0) + magnitude).toUInt64⟩

/-- The whole number nearest to a quotient, a tie going to the even one. -/
def nearest (num den : Nat) : Nat :=
  let q := num / den
  let r := num % den
  if 2 * r < den ∨ 2 * r = den ∧ q % 2 = 0 then q else q + 1

/-- The magnitude of the number nearest to a quotient; what is too large becomes infinite. -/
def magnitudeOf (num den : Nat) : Nat :=
  let n := num * Nat.pow 2 1074
  let scale := (n / den).log2 - 52
  min infinite (scale * Nat.pow 2 52 + nearest n (den * Nat.pow 2 scale))

/-- The number nearest to a quotient of natural numbers. -/
def ofQuotient (num den : Nat) : Binary64 :=
  ofMagnitude false (magnitudeOf num den)

/-- The number nearest to a natural number. -/
def ofNat (n : Nat) : Binary64 :=
  ofQuotient n 1

/-- The number nearest to an integer. -/
def ofInt (i : Int) : Binary64 :=
  ofMagnitude (i < 0) (magnitudeOf i.natAbs 1)

/-! ### Arithmetic -/

/-- The same number with the other sign. -/
def neg (x : Binary64) : Binary64 :=
  ofMagnitude (!x.negative) x.magnitude

/-- The product of two finite numbers that are not negative. -/
def mul (x y : Binary64) : Binary64 :=
  ofQuotient (x.units * y.units) (Nat.pow 2 2148)

/-- The quotient of two finite numbers that are not negative, the second not zero. -/
def div (x y : Binary64) : Binary64 :=
  ofQuotient x.units y.units

/-- Equality as numbers: a NaN differs from everything, and the two zeros are equal. -/
def equal (x y : Binary64) : Bool :=
  !x.isNaN && !y.isNaN && (x.bits == y.bits || (x.isZero && y.isZero))

end Binary64

end TaggedUnion
