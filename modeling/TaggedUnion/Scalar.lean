import TaggedUnion.Number.Shortest
import TaggedUnion.Text.Quoted

/-!
# Scalars

The values that a field of a record can hold: null, truth values, integers of 64 bits,
floating-point numbers and texts.
-/

namespace TaggedUnion

/-- The kinds of scalars. -/
inductive Kind where
  | null
  | bool
  | int
  | float
  | string
deriving DecidableEq

/-- All kinds, in the order in which they are listed. -/
def Kind.all : List Kind :=
  [.null, .bool, .int, .float, .string]

/-- The name of a kind. -/
def Kind.label : Kind → String
  | .null => "null"
  | .bool => "bool"
  | .int => "int"
  | .float => "float"
  | .string => "string"

/-- The value of a field. -/
inductive Scalar where
  | null
  | bool (b : Bool)
  | int (i : Int64)
  | float (x : Binary64)
  | string (s : String)
deriving DecidableEq

namespace Scalar

def kind : Scalar → Kind
  | .null => .null
  | .bool _ => .bool
  | .int _ => .int
  | .float _ => .float
  | .string _ => .string

def isNull (s : Scalar) : Bool :=
  s = .null

/-! ### Typed access -/

def bool? : Scalar → Option Bool
  | .bool b => some b
  | _ => none

def int? : Scalar → Option Int64
  | .int i => some i
  | _ => none

/-- A number as a floating-point number: an integer is rounded to the nearest one. -/
def float? : Scalar → Option Binary64
  | .float x => some x
  | .int i => some (Binary64.ofInt i.toInt)
  | _ => none

def string? : Scalar → Option String
  | .string s => some s
  | _ => none

/-! ### Equality and text -/

/-- Equality of values.  Numbers of different kinds differ, a NaN differs from itself, and the two
zeros are equal. -/
def equal : Scalar → Scalar → Bool
  | .float x, .float y => x.equal y
  | s, t => s = t

/-- Floating-point numbers shown to a reader have no exponent and no forced fraction, and of two
equally near decimals the larger is taken. -/
def shownFloat : FloatFormat :=
  { tie := .up
    positional := fun _ => true
    pointZero := false
    exponentPlus := ""
    nan := "NaN"
    infinity := "inf" }

/-- A scalar as shown to a reader. -/
def display : Scalar → String
  | .null => "null"
  | .bool b => if b then "true" else "false"
  | .int i => Decimal.intText i.toInt
  | .float x => shownFloat.write x
  | .string s => Text.quoted s

end Scalar

end TaggedUnion
