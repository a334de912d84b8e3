import TaggedUnion.Number.Decimal
import TaggedUnion.Text.Hex
import TaggedUnion.Yaml.Words

/-!
# Ambiguous texts

A text that would mean something else than itself if it were written as a plain scalar: nothing, a
truth value or a number.  A text of digits that starts with a zero counts as ambiguous although it
is no number.
-/

namespace TaggedUnion.Yaml

/-! ### Integers in other bases -/

/-- The number that digits in a base stand for, if there are any and they are all digits. -/
def valueIn? (base : Nat) (digits : List Char) : Option Nat :=
  if digits = [] then none
  else digits.foldlM (fun n c => do
    let d ← Text.hexValue? c
    if d < base then some (base * n + d) else none) 0

/-- Whether a text is a base mark with digits of at most `limit`. -/
def isBased (limit : Nat) : List Char → Bool
  | '0' :: 'x' :: digits => (valueIn? 16 digits).any (· ≤ limit)
  | '0' :: 'o' :: digits => (valueIn? 8 digits).any (· ≤ limit)
  | '0' :: 'b' :: digits => (valueIn? 2 digits).any (· ≤ limit)
  | _ => false

/-- Whether a text is an integer of 128 bits with a base mark. -/
def isBasedInteger : List Char → Bool
  | '-' :: rest => isBased (Nat.pow 2 127) rest
  | '+' :: rest => isBased (Nat.pow 2 128 - 1) rest
  | cs => isBased (Nat.pow 2 128 - 1) cs

/-! ### Decimal numbers -/

/-- A text without its sign. -/
def dropSign : List Char → List Char
  | '-' :: rest => rest
  | '+' :: rest => rest
  | cs => cs

/-- Whether a text is a zero and further digits, with or without a sign. -/
def isZeroPadded (cs : List Char) : Bool :=
  match dropSign cs with
  | '0' :: d :: rest => (d :: rest).all Char.isDigit
  | _ => false

/-- The exponent at the end of a number, if nothing else stands there. -/
def exponent? : List Char → Option Int
  | [] => some 0
  | e :: rest =>
    if e = 'e' || e = 'E' then
      let digits := dropSign rest
      if digits ≠ [] && digits.all Char.isDigit then
        let n := Int.ofNat (Decimal.toNat digits)
        some (if rest.head? = some '-' then -n else n)
      else none
    else none

/-- The digits of a decimal number without sign, and the power of ten of the last one. -/
def decimal? (cs : List Char) : Option (Nat × Int) :=
  let whole := cs.takeWhile Char.isDigit
  let rest := cs.dropWhile Char.isDigit
  let (fraction, rest) := match rest with
    | '.' :: rest => (rest.takeWhile Char.isDigit, rest.dropWhile Char.isDigit)
    | _ => ([], rest)
  if whole = [] && fraction = [] then none
  else (exponent? rest).map fun e =>
    (Decimal.toNat (whole ++ fraction), e - Int.ofNat fraction.length)

/-- The least number that is nearer to infinity than to any floating-point number. -/
def overflow : Nat :=
  Nat.pow 2 1024 - Nat.pow 2 970

/-- Whether `n * 10 ^ power` stays below the point of overflow. -/
def isFinite (n : Nat) (power : Int) : Bool :=
  let top := Int.ofNat (Decimal.ofNat n).length + power
  n = 0 || top < 309 ||
    (top = 309 && if 0 ≤ power then n * Nat.pow 10 power.toNat < overflow
      else n < overflow * Nat.pow 10 (-power).toNat)

/-- Whether a text is a decimal number of finite size. -/
def isFiniteDecimal (cs : List Char) : Bool :=
  (decimal? (dropSign cs)).any fun (n, power) => isFinite n power

/-! ### Ambiguity -/

/-- Whether a text stands for something else than itself. -/
def isAmbiguous (s : String) : Bool :=
  s = "" || nullWords.contains s || (boolWords.lookup s).isSome || floatWords.contains s ||
    isBasedInteger s.toList || isZeroPadded s.toList || isFiniteDecimal s.toList

end TaggedUnion.Yaml
