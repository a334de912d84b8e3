import TaggedUnion.Tree.Json
import TaggedUnion.Yaml.Quoting

/-!
# Trees as YAML text

`Tree.yaml` writes one item or entry a line.  Entries of an inner map stand two blanks deeper, items
of a list in a map no deeper than its key.
-/

namespace TaggedUnion.Tree

open Yaml

/-- Numbers are written as in JSON, but for the plus sign of an exponent and the words for what is
not a number and for infinity. -/
def yamlFloat : FloatFormat :=
  { jsonFloat with exponentPlus := "", nan := ".nan", infinity := ".inf" }

/-- Whether a key stands on one line with its value. -/
def isSimpleKey (key : String) : Bool :=
  !key.toList.any isBreak && key.utf8ByteSize ≤ 128

/-- A key on the line of its value, with the colon. -/
def simpleKey (key : String) : List Char :=
  (scalarLines 0 key).dropLast ++ [':']

/-- Where a tree starts: at a column of the present line, or behind the key of an entry that starts
at a column. -/
inductive Start where
  | here (column : Nat)
  | behindKey (column : Nat)

/-- A scalar with the blank that divides it from a key.  `lines` takes the indentation of further
lines. -/
def yamlScalar (lines : Nat → List Char) : Start → List Char
  | .here column => lines column
  | .behindKey column => ' ' :: lines (column + 2)

/-- A scalar on one line. -/
def yamlWord (text : List Char) : Start → List Char :=
  yamlScalar fun _ => text ++ ['\n']

mutual

/-- A tree up to the end of its last line. -/
def yamlFrom (start : Start) : Tree → List Char
  | .null => yamlWord "null".toList start
  | .bool b => yamlWord (if b then "true".toList else "false".toList) start
  | .int i => yamlWord (Decimal.ofInt i) start
  | .float x => yamlWord (yamlFloat.write x).toList start
  | .string s => yamlScalar (scalarLines · s) start
  | .list [] => yamlWord "[]".toList start
  | .list (item :: rest) =>
    match start with
    | .here column => (yamlItems column (item :: rest)).drop column
    | .behindKey column => '\n' :: yamlItems column (item :: rest)
  | .map [] => yamlWord "\x7b\x7d".toList start
  | .map (entry :: rest) =>
    match start with
    | .here column => (yamlEntries column (entry :: rest)).drop column
    | .behindKey column => '\n' :: yamlEntries (column + 2) (entry :: rest)

/-- Items on lines of their own. -/
def yamlItems (column : Nat) : List Tree → List Char
  | [] => []
  | item :: rest =>
    blanks column ++ '-' :: ' ' :: yamlFrom (.here (column + 2)) item ++ yamlItems column rest

/-- Entries on lines of their own.  A key that is long or has several lines stands behind a question
mark. -/
def yamlEntries (column : Nat) : List (String × Tree) → List Char
  | [] => []
  | (key, value) :: rest =>
    let entry :=
      if isSimpleKey key then simpleKey key ++ yamlFrom (.behindKey column) value
      else
        '?' :: ' ' :: scalarLines (column + 2) key ++ blanks column ++
          ':' :: ' ' :: yamlFrom (.here (column + 2)) value
    blanks column ++ entry ++ yamlEntries column rest

end

/-- A tree as YAML text, with a line break at the end. -/
def yaml (t : Tree) : String :=
  String.ofList (t.yamlFrom (.here 0))

end TaggedUnion.Tree
