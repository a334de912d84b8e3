import TaggedUnion.Decoding
import TaggedUnion.Shape

/-!
# Shapes of schemas

The written parts of field declarations, variants and decode options, and what each stands for when
it is left out.
-/

namespace TaggedUnion

/-- The parts of a field declaration. -/
inductive Field.Key where
  | name
  | type
  | required
  | description
deriving DecidableEq

/-- The types of the parts of a field declaration. -/
abbrev Field.Key.Value : Field.Key → Type
  | .name => String
  | .type => FieldType
  | .required => Bool
  | .description => Option String

/-- A field is required unless it says otherwise. -/
def Field.shape : Shape Field.Key Field where
  title := "FieldSchema"
  keys := [.name, .type, .required, .description]
  complete := by intro k; cases k <;> simp
  label
    | .name => "name"
    | .type => "type"
    | .required => "required"
    | .description => "description"
  Value := Field.Key.Value
  fallback
    | .name => none
    | .type => none
    | .required => some true
    | .description => some none
  build part :=
    { name := part .name
      type := part .type
      required := part .required
      description := part .description }

/-- The parts of a variant. -/
inductive Variant.Key where
  | tag
  | name
  | fields
  | description
deriving DecidableEq

/-- The types of the parts of a variant. -/
abbrev Variant.Key.Value : Variant.Key → Type
  | .tag => String
  | .name => String
  | .fields => List Field
  | .description => Option String

/-- Only the tag value of a variant must be given. -/
def Variant.shape : Shape Variant.Key Variant where
  title := "VariantSchema"
  keys := [.tag, .name, .fields, .description]
  complete := by intro k; cases k <;> simp
  label
    | .tag => "tagValue"
    | .name => "name"
    | .fields => "fields"
    | .description => "description"
  Value := Variant.Key.Value
  fallback
    | .tag => none
    | .name => some ""
    | .fields => some []
    | .description => some none
  build part :=
    { tag := part .tag
      name := part .name
      fields := part .fields
      description := part .description }

/-- The parts of decode options. -/
inductive DecodeOptions.Key where
  | unknownFields
deriving DecidableEq

/-- Decoding is strict unless the options say otherwise. -/
def DecodeOptions.shape : Shape DecodeOptions.Key DecodeOptions where
  title := "DecodeOptions"
  keys := [.unknownFields]
  complete := by intro k; cases k; simp
  label
    | .unknownFields => "unknown_fields"
  Value _ := UnknownFields
  fallback _ := some .reject
  build part := { unknownFields := part .unknownFields }

end TaggedUnion
