/-!
# Hexadecimal digits
-/

namespace TaggedUnion.Text

/-- The number that a hexadecimal digit of either case stands for. -/
def hexValue? (c : Char) : Option Nat :=
  if '0' ≤ c ∧ c ≤ '9' then some (c.toNat - '0'.toNat)
  else if 'a' ≤ c ∧ c ≤ 'f' then some (c.toNat - 'a'.toNat + 10)
  else if 'A' ≤ c ∧ c ≤ 'F' then some (c.toNat - 'A'.toNat + 10)
  else none

/-- The hexadecimal digits of a number, in lower case and without leading zeros. -/
def hexDigits (n : Nat) : List Char :=
  Nat.toDigits 16 n

/-- The last hexadecimal digits of a number, in upper case. -/
def upperHex (width n : Nat) : List Char :=
  (List.range width).map fun i => (Nat.digitChar (n / Nat.pow 16 (width - 1 - i) % 16)).toUpper

end TaggedUnion.Text
