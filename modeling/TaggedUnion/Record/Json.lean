import TaggedUnion.Json.Reading

/-!
# Records and JSON

A JSON object whose members are all scalars is a record.  Integers stay integers and floating-point
numbers stay floating-point numbers, so a record that comes from JSON goes back to the same value;
NaN and the infinities, which JSON lacks, become null.  On its own, a value is a scalar of the first
kind that takes it.
-/

namespace TaggedUnion

/-- Why a JSON value is not a record. -/
inductive RecordError where
  | notAnObject
  | nonScalar (field : String)
  | integerOutOfRange (field : String)
deriving DecidableEq

def RecordError.message : RecordError → String
  | .notAnObject => "record must be a JSON object"
  | .nonScalar field => "field '" ++ field ++ "' must hold a scalar value"
  | .integerOutOfRange field =>
    "field '" ++ field ++ "' holds an integer outside the 64-bit signed range"

namespace Json

/-- The integer of 64 bits that a natural number is, if it is one. -/
def natInt64? (n : UInt64) : Option Int64 :=
  if n.toNat < Nat.pow 2 63 then some n.toInt64 else none

end Json

open Json

/-- The scalar that a member of a record holds. -/
def Scalar.ofMember (field : String) : Json → Except RecordError Scalar
  | .null => .ok .null
  | .bool b => .ok (.bool b)
  | .number (.natural n) =>
    match natInt64? n with
    | some i => .ok (.int i)
    | none => .error (.integerOutOfRange field)
  | .number (.negative i _) => .ok (.int i)
  | .number (.float x _) => .ok (.float x)
  | .string s => .ok (.string s)
  | .array _ => .error (.nonScalar field)
  | .object _ => .error (.nonScalar field)

/-- The record of a JSON value.  The first member that is no scalar is reported. -/
def Record.ofJson : Json → Except RecordError Record
  | .object members => do
    let entries ← members.mapM fun (name, value) => do
      return (name, ← Scalar.ofMember name value)
    return .ofEntries entries
  | _ => .error .notAnObject

/-- A scalar as a JSON value. -/
def Scalar.toJson : Scalar → Json
  | .null => .null
  | .bool b => .bool b
  | .int i => .number (.ofInt64 i)
  | .float x =>
    match Number.ofFloat? x with
    | some n => .number n
    | none => .null
  | .string s => .string s

/-- A record as a JSON object, in field order. -/
def Record.toJson (r : Record) : Json :=
  .object (r.entries.map fun (name, value) => (name, value.toJson))

/-! ### Scalars on their own -/

namespace Json.Number

/-- The integer of 64 bits that a number is, if it is one.  A floating-point number is none, even if
it is whole. -/
def int64? : Number → Option Int64
  | .natural n => natInt64? n
  | .negative i _ => some i
  | .float _ _ => none

/-- A number as a floating-point number: an integer is rounded to the nearest one. -/
def toFloat : Number → Binary64
  | .natural n => Binary64.ofNat n.toNat
  | .negative i _ => Binary64.ofInt i.toInt
  | .float x _ => x

end Json.Number

/-- The scalar of a kind that a JSON value can be taken for.  Every number can be taken for a
floating-point number. -/
def Kind.scalar? : Kind → Json → Option Scalar
  | .null, .null => some .null
  | .bool, .bool b => some (.bool b)
  | .int, .number n => n.int64?.map .int
  | .float, .number n => some (.float n.toFloat)
  | .string, .string s => some (.string s)
  | _, _ => none

/-- The scalar that a JSON value is, if it is one.  The kinds are tried in order, so a number is a
floating-point number only if it is no integer of 64 bits. -/
def Scalar.ofJson? (value : Json) : Option Scalar :=
  Kind.all.findSome? fun kind => kind.scalar? value

/-- Reads a scalar: the whole value first, whatever it is. -/
def Scalar.ofOutline (o : Outline) : Except Error Scalar := do
  match Scalar.ofJson? (← o.json Outline.maxDepth) with
  | some s => return s
  | none => throw (.mismatch (.noAlternative "Value"))

end TaggedUnion
