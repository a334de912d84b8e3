import TaggedUnion.Definition

/-!
# Registries

A registry is a definition of a tagged union without problems.  Variants are found by tag value.
-/

namespace TaggedUnion

/-- The tag field used where none is given. -/
def defaultTagField : String :=
  "tag"

/-- A definition of a tagged union that has no problems. -/
structure Registry where
  tagField : String
  variants : List Variant
  sound : Definition.problems tagField variants = []
deriving DecidableEq

namespace Registry

/-- The registry of a definition, or its first problem. -/
def ofDefinition (tagField : String) (variants : List Variant) :
    Except Definition.Problem Registry :=
  match h : Definition.problems tagField variants with
  | [] => .ok ⟨tagField, variants, h⟩
  | problem :: _ => .error problem

/-- The number of variants. -/
def size (R : Registry) : Nat :=
  R.variants.length

def isEmpty (R : Registry) : Bool :=
  R.variants.isEmpty

/-- The tag values, in registration order. -/
def tags (R : Registry) : List String :=
  R.variants.map Variant.tag

/-- The variant with a tag value. -/
def get? (R : Registry) (tag : String) : Option Variant :=
  R.variants.find? fun v => v.tag = tag

def contains (R : Registry) (tag : String) : Bool :=
  (R.get? tag).isSome

/-- A tag value that no variant has. -/
structure UnknownTag where
  tag : String
deriving DecidableEq

def UnknownTag.message (e : UnknownTag) : String :=
  "unknown tag value: " ++ e.tag

/-- The variant with a tag value, or an error that carries the value. -/
def lookup (R : Registry) (tag : String) : Except UnknownTag Variant :=
  match R.get? tag with
  | some v => .ok v
  | none => .error ⟨tag⟩

/-! ### Building step by step -/

/-- A definition in the making. -/
structure Builder where
  tagField : String := defaultTagField
  variants : List Variant := []

namespace Builder

/-- Sets the tag field; the last setting counts. -/
def withTagField (b : Builder) (tagField : String) : Builder :=
  { b with tagField }

/-- Adds a variant behind those added before. -/
def withVariant (b : Builder) (v : Variant) : Builder :=
  { b with variants := b.variants ++ [v] }

/-- Adds variants behind those added before. -/
def withVariants (b : Builder) (vs : List Variant) : Builder :=
  { b with variants := b.variants ++ vs }

/-- The registry of what has been set and added. -/
def build (b : Builder) : Except Definition.Problem Registry :=
  ofDefinition b.tagField b.variants

end Builder

end Registry

end TaggedUnion
