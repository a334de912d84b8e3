import TaggedUnion.Schema
import TaggedUnion.Text.Blank

/-!
# Definitions of a tagged union

A tag field and a list of variants define a tagged union.  `Definition.problems` lists everything
that is wrong with a definition, in the order in which it is written.
-/

namespace TaggedUnion.Definition

/-- What can be wrong with a definition. -/
inductive Problem where
  | emptyTagField
  | emptyRegistry
  | emptyTagValue
  | duplicateTag (tag : String)
  | emptyFieldName (tag : String)
  | duplicateField (tag field : String)
  | reservedField (tag field : String)
deriving DecidableEq

/-- A problem in words. -/
def Problem.message : Problem → String
  | .emptyTagField => "tag field name cannot be empty"
  | .emptyRegistry => "registry must contain at least one variant"
  | .emptyTagValue => "variant tag value cannot be empty"
  | .duplicateTag tag => "duplicate tag value: " ++ tag
  | .emptyFieldName tag => "variant '" ++ tag ++ "' declares a field with an empty name"
  | .duplicateField tag field =>
    "variant '" ++ tag ++ "' declares field '" ++ field ++ "' more than once"
  | .reservedField tag field =>
    "variant '" ++ tag ++ "' declares reserved tag field '" ++ field ++ "'"

/-- The problems of the fields of a variant with the given tag value.  `seen` holds the names
declared before. -/
def fieldProblems (tagField tag : String) (seen : List String) : List Field → List Problem
  | [] => []
  | f :: rest =>
    if f.name = "" then .emptyFieldName tag :: fieldProblems tagField tag seen rest
    else if f.name = tagField then
      .reservedField tag f.name :: fieldProblems tagField tag seen rest
    else if f.name ∈ seen then
      .duplicateField tag f.name :: fieldProblems tagField tag seen rest
    else fieldProblems tagField tag (f.name :: seen) rest

/-- The problem of a tag value, given those of the variants before. -/
def tagProblems (seen : List String) (tag : String) : List Problem :=
  if tag = "" then [.emptyTagValue] else if tag ∈ seen then [.duplicateTag tag] else []

/-- The problems of a list of variants.  `seen` holds the tag values of the variants before. -/
def variantProblems (tagField : String) (seen : List String) : List Variant → List Problem
  | [] => []
  | v :: rest =>
    tagProblems seen v.tag ++ fieldProblems tagField v.tag [] v.fields ++
      variantProblems tagField (v.tag :: seen) rest

/-- All problems of a definition.  A blank tag field or an empty list of variants is the only
problem reported. -/
def problems (tagField : String) (variants : List Variant) : List Problem :=
  if Text.isBlankText tagField then [.emptyTagField]
  else if variants = [] then [.emptyRegistry]
  else variantProblems tagField [] variants

end TaggedUnion.Definition
