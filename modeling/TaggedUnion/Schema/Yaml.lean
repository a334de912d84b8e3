import TaggedUnion.Schema.Shape
import TaggedUnion.Yaml.Reading

/-!
# Schemas in YAML

Field declarations, variants and decode options, read from YAML nodes.
-/

namespace TaggedUnion

open Yaml

def FieldType.ofNode (n : Node Nat) : Reading FieldType :=
  n.name FieldType.names

def Field.yamlPart : (k : Field.Key) → Node Nat → Reading (Field.shape.Value k)
  | .name => Node.text
  | .type => FieldType.ofNode
  | .required => Node.boolean
  | .description => Node.optionalText

def Field.ofNode (n : Node Nat) : Reading Field :=
  n.keyed Field.shape Field.yamlPart

def Variant.yamlPart : (k : Variant.Key) → Node Nat → Reading (Variant.shape.Value k)
  | .tag => Node.text
  | .name => Node.text
  | .fields => Node.list Field.ofNode
  | .description => Node.optionalText

def Variant.ofNode (n : Node Nat) : Reading Variant :=
  n.keyed Variant.shape Variant.yamlPart

def UnknownFields.ofNode (n : Node Nat) : Reading UnknownFields :=
  n.name UnknownFields.names

end TaggedUnion
