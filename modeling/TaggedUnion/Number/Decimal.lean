/-!
# Decimal numerals

Natural numbers and integers as lists of decimal digits, most significant first.  `ofNat` writes a
number without leading zeros and `toNat` reads any list of digits, so `toNat (ofNat n) = n`.
-/

namespace TaggedUnion.Decimal

/-- The number that a decimal digit stands for. -/
def digitValue (c : Char) : Nat :=
  c.toNat - '0'.toNat

/-- The digits of a number, without leading zeros. -/
def ofNat (n : Nat) : List Char :=
  if n < 10 then [Nat.digitChar n] else ofNat (n / 10) ++ [Nat.digitChar (n % 10)]
termination_by n
decreasing_by omega

/-- The number that a list of digits stands for. -/
def toNat (digits : List Char) : Nat :=
  digits.foldl (fun n c => 10 * n + digitValue c) 0

/-- The digits of an integer, behind a minus sign if it is negative. -/
def ofInt : Int → List Char
  | .ofNat n => ofNat n
  | .negSucc n => '-' :: ofNat (n + 1)

/-- A natural number as text. -/
def natText (n : Nat) : String :=
  String.ofList (ofNat n)

/-- An integer as text. -/
def intText (i : Int) : String :=
  String.ofList (ofInt i)

/-! ### Laws -/

theorem digitValue_digitChar {d : Nat} (h : d < 10) : digitValue (Nat.digitChar d) = d := by
  revert d
  decide

theorem toNat_concat (digits : List Char) (c : Char) :
    toNat (digits ++ [c]) = 10 * toNat digits + digitValue c := by
  simp [toNat]

theorem toNat_ofNat (n : Nat) : toNat (ofNat n) = n := by
  fun_induction ofNat n with
  | case1 n h => simp [toNat, digitValue_digitChar h]
  | case2 n h ih =>
    rw [toNat_concat, ih, digitValue_digitChar (Nat.mod_lt _ (by decide))]
    omega

end TaggedUnion.Decimal
