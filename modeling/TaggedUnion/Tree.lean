import TaggedUnion.Record

/-!
# Trees

A tree is what the program writes, before a format is chosen: scalars, lists of trees, and maps from
names to trees that keep their order.
-/

namespace TaggedUnion

/-- A value to be written. -/
inductive Tree where
  | null
  | bool (b : Bool)
  | int (i : Int)
  | float (x : Binary64)
  | string (s : String)
  | list (items : List Tree)
  | map (entries : List (String × Tree))

namespace Tree

/-- A natural number as a tree. -/
def nat (n : Nat) : Tree :=
  .int n

/-- A list of texts as a tree. -/
def strings (texts : List String) : Tree :=
  .list (texts.map .string)

/-- The entry of an optional value: none if the value is absent. -/
def optional (name : String) : Option String → List (String × Tree)
  | none => []
  | some s => [(name, .string s)]

end Tree

/-- A scalar as a tree. -/
def Scalar.toTree : Scalar → Tree
  | .null => .null
  | .bool b => .bool b
  | .int i => .int i.toInt
  | .float x => .float x
  | .string s => .string s

/-- A record as a map in field order. -/
def Record.toTree (r : Record) : Tree :=
  .map (r.entries.map fun (name, value) => (name, value.toTree))

end TaggedUnion
