import TaggedUnion.Json.Shape
import TaggedUnion.Schema.Shape

/-!
# Schemas in JSON

Field declarations, variants, decode options and kinds, read from outlines.
-/

namespace TaggedUnion

open Json

/-- A text that is wanted for its own sake. -/
def Json.Outline.plainText (o : Outline) : Except Error String :=
  o.text "a string"

/-- Reads a text or null. -/
def Json.Outline.optionalText (o : Outline) : Except Error (Option String) :=
  o.option Outline.plainText

/-- Reads a field type under any of its names. -/
def FieldType.ofOutline (o : Outline) : Except Error FieldType :=
  o.name FieldType.names

def Field.part : (k : Field.Key) → Outline → Except Error (Field.shape.Value k)
  | .name => Outline.plainText
  | .type => FieldType.ofOutline
  | .required => Outline.boolean
  | .description => Outline.optionalText

def Field.ofOutline (o : Outline) : Except Error Field :=
  o.keyed Field.shape Field.part

def Variant.part : (k : Variant.Key) → Outline → Except Error (Variant.shape.Value k)
  | .tag => Outline.plainText
  | .name => Outline.plainText
  | .fields => Outline.list Field.ofOutline
  | .description => Outline.optionalText

def Variant.ofOutline (o : Outline) : Except Error Variant :=
  o.keyed Variant.shape Variant.part

def UnknownFields.ofOutline (o : Outline) : Except Error UnknownFields :=
  o.name UnknownFields.names

def DecodeOptions.ofOutline (o : Outline) : Except Error DecodeOptions :=
  o.keyed DecodeOptions.shape fun _ => UnknownFields.ofOutline

/-- The kinds by name. -/
def Kind.names : List (String × Kind) :=
  Kind.all.map fun k => (k.label, k)

def Kind.ofOutline (o : Outline) : Except Error Kind :=
  o.name Kind.names

/-! ### Trees -/

def Field.toTree (f : Field) : Tree :=
  .map <|
    [("name", .string f.name), ("type", .string f.type.label), ("required", .bool f.required)] ++
      Tree.optional "description" f.description

/-- An empty name and an absent description are left out. -/
def Variant.toTree (v : Variant) : Tree :=
  .map <|
    [("tagValue", .string v.tag)] ++ (if v.name = "" then [] else [("name", .string v.name)]) ++
      [("fields", .list (v.fields.map Field.toTree))] ++ Tree.optional "description" v.description

def DecodeOptions.toTree (o : DecodeOptions) : Tree :=
  .map [("unknown_fields", .string o.unknownFields.label)]

end TaggedUnion
