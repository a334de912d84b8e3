import TaggedUnion.Instance
import TaggedUnion.Registry

/-!
# Decoding records

A record is decoded by the variant that its tag field names.  Either the record conforms and gives
an instance, or decoding lists every violation: those of the declared fields in declaration order,
then the fields that no declaration covers in record order.
-/

namespace TaggedUnion

/-- What to do with fields that the variant does not declare. -/
inductive UnknownFields where
  | reject
  | ignore
deriving DecidableEq

namespace UnknownFields

def label : UnknownFields → String
  | .reject => "reject"
  | .ignore => "ignore"

def names : List (String × UnknownFields) :=
  [("reject", .reject), ("ignore", .ignore)]

end UnknownFields

/-- The options of decoding. -/
structure DecodeOptions where
  unknownFields : UnknownFields := .reject
deriving DecidableEq

namespace DecodeOptions

/-- Undeclared fields are violations. -/
def strict : DecodeOptions :=
  { unknownFields := .reject }

/-- Undeclared fields are dropped. -/
def permissive : DecodeOptions :=
  { unknownFields := .ignore }

end DecodeOptions

/-- A way in which a record fails to conform, at a field. -/
inductive Violation where
  | missingTag (field : String)
  | unknownTag (field tag : String)
  | missingField (field : String)
  | typeMismatch (field : String) (expected : FieldType) (actual : Kind)
  | unexpectedField (field : String)
deriving DecidableEq

namespace Violation

/-- Where the violation is, from the record inwards. -/
def path : Violation → List String
  | .missingTag field => [field]
  | .unknownTag field _ => [field]
  | .missingField field => [field]
  | .typeMismatch field _ _ => [field]
  | .unexpectedField field => [field]

/-- The name of the kind of a violation. -/
def label : Violation → String
  | .missingTag _ => "missing_tag"
  | .unknownTag _ _ => "unknown_tag"
  | .missingField _ => "missing_field"
  | .typeMismatch _ _ _ => "type_mismatch"
  | .unexpectedField _ => "unexpected_field"

def message : Violation → String
  | .missingTag field => "missing tag field '" ++ field ++ "'"
  | .unknownTag _ tag => "unknown tag value '" ++ tag ++ "'"
  | .missingField field => "missing required field '" ++ field ++ "'"
  | .typeMismatch _ expected actual => "expected " ++ expected.label ++ ", got " ++ actual.label
  | .unexpectedField field => "unexpected field '" ++ field ++ "'"

/-- A violation with its place, in one line of words. -/
def display (e : Violation) : String :=
  ".".intercalate e.path ++ ": " ++ e.message

end Violation

/-- The variant that the tag field of a record names. -/
def Registry.resolve (R : Registry) (r : Record) : Except Violation Variant :=
  match r.get? R.tagField with
  | none => .error (.missingTag R.tagField)
  | some .null => .error (.missingTag R.tagField)
  | some (.string tag) =>
    match R.get? tag with
    | some v => .ok v
    | none => .error (.unknownTag R.tagField tag)
  | some value => .error (.typeMismatch R.tagField .string value.kind)

/-- How a value, or the lack of one, violates the declaration of a field. -/
def Field.violation? (f : Field) : Option Scalar → Option Violation
  | none => if f.required then some (.missingField f.name) else none
  | some .null => if f.required then some (.missingField f.name) else none
  | some value =>
    if f.type.accepts value then none else some (.typeMismatch f.name f.type value.kind)

namespace Variant

/-- The declared fields that a record has, in declaration order, with the record's values. -/
def select (v : Variant) (r : Record) : List (String × Scalar) :=
  v.fields.filterMap fun f => (r.get? f.name).map fun value => (f.name, value)

/-- The violations of the declared fields, in declaration order. -/
def fieldViolations (v : Variant) (r : Record) : List Violation :=
  v.fields.filterMap fun f => f.violation? (r.get? f.name)

/-- The fields of a record that are neither the tag field nor declared, in record order. -/
def undeclared (v : Variant) (tagField : String) (r : Record) : List String :=
  r.keys.filter fun name => name ≠ tagField && !v.declares name

/-- All violations of a record that carries the tag value of the variant. -/
def violations (v : Variant) (tagField : String) (options : DecodeOptions) (r : Record) :
    List Violation :=
  v.fieldViolations r ++
    match options.unknownFields with
    | .reject => (v.undeclared tagField r).map .unexpectedField
    | .ignore => []

end Variant

/-- Checks a record against its variant: the instance it gives, or all its violations. -/
def Registry.decode (R : Registry) (options : DecodeOptions) (r : Record) :
    Except (List Violation) Instance :=
  match R.resolve r with
  | .error e => .error [e]
  | .ok v =>
    match v.violations R.tagField options r with
    | [] => .ok { tag := v.tag, fields := Record.ofEntries (v.select r) }
    | errors => .error errors

end TaggedUnion
