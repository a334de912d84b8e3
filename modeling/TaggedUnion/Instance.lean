import TaggedUnion.Record

/-!
# Instances

An instance is a record that has been checked against a variant: the tag value of the variant and
the fields that it declares.
-/

namespace TaggedUnion

/-- A tag value with fields. -/
structure Instance where
  tag : String
  fields : Record
deriving DecidableEq

namespace Instance

def get? (i : Instance) (name : String) : Option Scalar :=
  i.fields.get? name

def contains (i : Instance) (name : String) : Bool :=
  i.fields.contains name

def bool? (i : Instance) (name : String) : Option Bool :=
  (i.get? name).bind Scalar.bool?

def int? (i : Instance) (name : String) : Option Int64 :=
  (i.get? name).bind Scalar.int?

def float? (i : Instance) (name : String) : Option Binary64 :=
  (i.get? name).bind Scalar.float?

def string? (i : Instance) (name : String) : Option String :=
  (i.get? name).bind Scalar.string?

/-- Equality of instances: same tag value and the same fields as a map. -/
def equal (i j : Instance) : Bool :=
  i.tag == j.tag && i.fields.equal j.fields

end Instance

end TaggedUnion
