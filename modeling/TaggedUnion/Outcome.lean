import TaggedUnion.Encoding
import TaggedUnion.Tree

/-!
# Outcomes as trees

How instances, violations and the outcome of decoding a record are written.
-/

namespace TaggedUnion

def Instance.toTree (i : Instance) : Tree :=
  .map [("tag", .string i.tag), ("fields", i.fields.toTree)]

/-- What a violation tells besides its place and kind. -/
def Violation.details : Violation → List (String × Tree)
  | .unknownTag _ tag => [("tag", .string tag)]
  | .typeMismatch _ expected actual =>
    [("expected", .string expected.label), ("actual", .string actual.label)]
  | _ => []

def Violation.toTree (e : Violation) : Tree :=
  .map <|
    [("path", .strings e.path), ("kind", .string e.label)] ++ e.details ++
      [("message", .string e.message)]

/-- The outcome of decoding a record: an instance, or all violations. -/
abbrev Outcome : Type :=
  Except (List Violation) Instance

/-- An outcome with the number of its record. -/
def Outcome.toTree (index : Nat) : Outcome → Tree
  | .ok i => .map [("index", .nat index), ("ok", i.toTree)]
  | .error errors => .map [("index", .nat index), ("errors", .list (errors.map Violation.toTree))]

end TaggedUnion
