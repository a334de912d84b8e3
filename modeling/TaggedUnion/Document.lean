import TaggedUnion.Digest.Sha256
import TaggedUnion.Registry
import TaggedUnion.Schema.Json
import TaggedUnion.Schema.Yaml

/-!
# Registry documents

A document is a definition of a tagged union as it is stored: a version, a tag field and variants,
which need not be sound.  Its fingerprint is the digest of its compact JSON text, so documents with
the same content have the same fingerprint however they were written.
-/

namespace TaggedUnion

/-- The version of the document form. -/
def contractVersion : String :=
  "1.0.0"

/-- A stored definition. -/
structure Document where
  schemaVersion : Option String
  tagField : String
  variants : List Variant
deriving DecidableEq

namespace Document

/-- The document of some variants, in the current version and with the default tag field. -/
def ofVariants (variants : List Variant) : Document :=
  { schemaVersion := some contractVersion, tagField := defaultTagField, variants }

/-- The document of a registry, in the current version. -/
def ofRegistry (R : Registry) : Document :=
  { schemaVersion := some contractVersion, tagField := R.tagField, variants := R.variants }

/-- The registry of a document, or the first problem of its definition. -/
def toRegistry (d : Document) : Except Definition.Problem Registry :=
  Registry.ofDefinition d.tagField d.variants

/-- All problems of the definition. -/
def problems (d : Document) : List Definition.Problem :=
  Definition.problems d.tagField d.variants

def toTree (d : Document) : Tree :=
  .map <|
    Tree.optional "schemaVersion" d.schemaVersion ++
      [("tagFieldName", .string d.tagField), ("variants", .list (d.variants.map Variant.toTree))]

/-- The bytes that stand for a document in its fingerprint. -/
def canonicalBytes (d : Document) : ByteArray :=
  d.toTree.compact.toUTF8

/-- The digest of a document in hexadecimal. -/
def fingerprint (d : Document) : String :=
  Sha256.hex (Sha256.digest d.canonicalBytes.toList)

/-! ### Shape -/

/-- The parts of a document. -/
inductive Key where
  | schemaVersion
  | tagField
  | variants
deriving DecidableEq

/-- The types of the parts of a document. -/
abbrev Key.Value : Key → Type
  | .schemaVersion => Option String
  | .tagField => String
  | .variants => List Variant

/-- Only the variants of a document must be given. -/
def shape : Shape Key Document where
  title := "RegistryDocument"
  keys := [.schemaVersion, .tagField, .variants]
  complete := by intro k; cases k <;> simp
  label
    | .schemaVersion => "schemaVersion"
    | .tagField => "tagFieldName"
    | .variants => "variants"
  Value := Key.Value
  fallback
    | .schemaVersion => some none
    | .tagField => some defaultTagField
    | .variants => none
  build part :=
    { schemaVersion := part .schemaVersion
      tagField := part .tagField
      variants := part .variants }

open Json in
def part : (k : Key) → Outline → Except Error (shape.Value k)
  | .schemaVersion => Outline.optionalText
  | .tagField => Outline.plainText
  | .variants => Outline.list Variant.ofOutline

open Json in
def ofOutline (o : Outline) : Except Error Document :=
  o.keyed shape part

open Yaml in
def yamlPart : (k : Key) → Node Nat → Reading (shape.Value k)
  | .schemaVersion => Node.optionalText
  | .tagField => Node.text
  | .variants => Node.list Variant.ofNode

open Yaml in
def ofNode (n : Node Nat) : Reading Document :=
  n.keyed shape yamlPart

end Document

end TaggedUnion
