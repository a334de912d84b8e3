import TaggedUnion.Scalar

/-!
# Schemas

A variant describes the records that carry one tag value: which fields they have, of which types,
and which of the fields may be left out.
-/

namespace TaggedUnion

/-- The types that a field can be declared with. -/
inductive FieldType where
  | int
  | bool
  | string
  | float
deriving DecidableEq

namespace FieldType

/-- The name under which a type is written. -/
def label : FieldType → String
  | .int => "int"
  | .bool => "bool"
  | .string => "string"
  | .float => "float"

/-- The names under which a type can be given, in the order in which they are listed. -/
def names : List (String × FieldType) :=
  [("int", .int), ("integer", .int), ("bool", .bool), ("boolean", .bool), ("str", .string),
    ("string", .string), ("float", .float), ("number", .float)]

/-- Whether a type takes a value.  Each type takes its own kind, the floating-point type takes
integers too, and no type takes null. -/
def accepts : FieldType → Scalar → Bool
  | .int, .int _ => true
  | .bool, .bool _ => true
  | .string, .string _ => true
  | .float, .float _ => true
  | .float, .int _ => true
  | _, _ => false

end FieldType

/-- The declaration of a field. -/
structure Field where
  name : String
  type : FieldType
  required : Bool := true
  description : Option String := none
deriving DecidableEq

/-- The declaration of a variant: the tag value it belongs to and its fields. -/
structure Variant where
  tag : String
  name : String := ""
  fields : List Field := []
  description : Option String := none
deriving DecidableEq

namespace Variant

/-- The name of a variant, or its tag value if it has none. -/
def displayName (v : Variant) : String :=
  if v.name = "" then v.tag else v.name

/-- The names of the declared fields, in declaration order. -/
def fieldNames (v : Variant) : List String :=
  v.fields.map Field.name

/-- The first declaration of a field. -/
def field? (v : Variant) (name : String) : Option Field :=
  v.fields.find? fun f => f.name = name

def declares (v : Variant) (name : String) : Bool :=
  (v.field? name).isSome

end Variant

end TaggedUnion
