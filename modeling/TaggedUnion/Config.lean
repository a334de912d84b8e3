import TaggedUnion.Storage

/-!
# Configurations

A configuration names the document of a registry and says what to do with fields that a variant does
not declare.  A relative path in a stored configuration is meant from the folder that holds it.
-/

namespace TaggedUnion

/-- Which registry to decode with, and how. -/
structure Config where
  registry : Path
  unknownFields : UnknownFields
deriving DecidableEq

namespace Config

/-- The parts of a configuration. -/
inductive Key where
  | registry
  | unknownFields
deriving DecidableEq

/-- The types of the parts of a configuration. -/
abbrev Key.Value : Key → Type
  | .registry => Path
  | .unknownFields => UnknownFields

/-- Unknown fields are rejected unless the configuration says otherwise. -/
def shape : Shape Key Config where
  title := "ValidatorConfig"
  keys := [.registry, .unknownFields]
  complete := by intro k; cases k <;> simp
  label
    | .registry => "registry"
    | .unknownFields => "unknown_fields"
  Value := Key.Value
  fallback
    | .registry => none
    | .unknownFields => some .reject
  build part := { registry := part .registry, unknownFields := part .unknownFields }

open Json in
def part : (k : Key) → Outline → Except Error (shape.Value k)
  | .registry => fun o => (o.text "path string").map Path.mk
  | .unknownFields => UnknownFields.ofOutline

open Yaml in
def yamlPart : (k : Key) → Node Nat → Reading (shape.Value k)
  | .registry => fun n => Path.mk <$> n.text
  | .unknownFields => UnknownFields.ofNode

def reader : Format.Reader Config where
  ofOutline o := o.keyed shape part
  ofNode n := n.keyed shape yamlPart

def toTree (c : Config) : Tree :=
  .map [("registry", .string c.registry.text), ("unknown_fields", .string c.unknownFields.label)]

/-- The configuration as it is meant when it is stored at a path. -/
def resolve (c : Config) (path : Path) : Config :=
  match path.parent? with
  | some folder => { c with registry := folder.join c.registry }
  | none => c

/-- The configuration stored at a path. -/
def load (files : Files) (path : Path) : Except LoadError Config := do
  return (← reader.load files path).resolve path

/-- Stores a configuration at a path, with the path of its registry as it is. -/
def save (c : Config) (files : FileTree) (path : Path) : Except LoadError FileTree :=
  Format.save c.toTree files path

def decodeOptions (c : Config) : DecodeOptions :=
  { unknownFields := c.unknownFields }

/-- The registry that a configuration names. -/
def loadRegistry (c : Config) (files : Files) : Except LoadError Registry :=
  Registry.load files c.registry

end Config

end TaggedUnion
