import TaggedUnion.Tree

/-!
# Trees as JSON text

`Tree.compact` writes a tree on one line without blanks, and `Tree.pretty` writes one item or entry
a line, two blanks deeper at each level.  Neither puts a line break inside a text, so a compact tree
is one line whatever it holds.
-/

namespace TaggedUnion

namespace Tree

/-- Numbers have an exponent outside of `1e-5` to `1e15`, a whole number ends in `.0`, and of two
equally near decimals the even one is taken. -/
def jsonFloat : FloatFormat :=
  { tie := .even
    positional := fun e => -5 ≤ e && e ≤ 15
    pointZero := true
    exponentPlus := "+"
    nan := "null"
    infinity := "null" }

/-- A floating-point number in JSON text, which has no words for NaN and the infinities. -/
def jsonNumber (x : Binary64) : List Char :=
  if x.isFinite then (jsonFloat.write x).toList else "null".toList

/-- A character inside a JSON text: quotes, backslashes and the characters below the space are
written as escapes. -/
def jsonChar (c : Char) : List Char :=
  if c = '"' then ['\\', '"']
  else if c = '\\' then ['\\', '\\']
  else if c = '\x08' then ['\\', 'b']
  else if c = '\t' then ['\\', 't']
  else if c = '\n' then ['\\', 'n']
  else if c = '\x0c' then ['\\', 'f']
  else if c = '\r' then ['\\', 'r']
  else if c.toNat < 0x20 then
    ['\\', 'u', '0', '0', Nat.digitChar (c.toNat / 16), Nat.digitChar (c.toNat % 16)]
  else [c]

/-- A text in double quotes. -/
def jsonString (s : String) : List Char :=
  '"' :: s.toList.flatMap jsonChar ++ ['"']

mutual

/-- The characters of a tree on one line. -/
def compactChars : Tree → List Char
  | .null => "null".toList
  | .bool b => if b then "true".toList else "false".toList
  | .int i => Decimal.ofInt i
  | .float x => jsonNumber x
  | .string s => jsonString s
  | .list items => '[' :: compactItems items ++ [']']
  | .map entries => '\x7b' :: compactEntries entries ++ ['\x7d']

/-- Items with commas between them. -/
def compactItems : List Tree → List Char
  | [] => []
  | [item] => compactChars item
  | item :: rest => compactChars item ++ ',' :: compactItems rest

/-- Entries with commas between them. -/
def compactEntries : List (String × Tree) → List Char
  | [] => []
  | [(name, value)] => jsonString name ++ ':' :: compactChars value
  | (name, value) :: rest =>
    jsonString name ++ ':' :: compactChars value ++ ',' :: compactEntries rest

end

/-- A line break and the blanks of a nesting level. -/
def newLine (level : Nat) : List Char :=
  '\n' :: List.replicate (2 * level) ' '

mutual

/-- The characters of a tree over several lines, at a nesting level. -/
def prettyChars (level : Nat) : Tree → List Char
  | .null => "null".toList
  | .bool b => if b then "true".toList else "false".toList
  | .int i => Decimal.ofInt i
  | .float x => jsonNumber x
  | .string s => jsonString s
  | .list [] => ['[', ']']
  | .list (item :: rest) =>
    '[' :: prettyItems (level + 1) (item :: rest) ++ newLine level ++ [']']
  | .map [] => ['\x7b', '\x7d']
  | .map (entry :: rest) =>
    '\x7b' :: prettyEntries (level + 1) (entry :: rest) ++ newLine level ++ ['\x7d']

/-- Items on lines of their own, with commas at the ends of all lines but the last. -/
def prettyItems (level : Nat) : List Tree → List Char
  | [] => []
  | [item] => newLine level ++ prettyChars level item
  | item :: rest => newLine level ++ prettyChars level item ++ ',' :: prettyItems level rest

/-- Entries on lines of their own, with commas at the ends of all lines but the last. -/
def prettyEntries (level : Nat) : List (String × Tree) → List Char
  | [] => []
  | [(name, value)] =>
    newLine level ++ jsonString name ++ ':' :: ' ' :: prettyChars level value
  | (name, value) :: rest =>
    newLine level ++ jsonString name ++ ':' :: ' ' :: prettyChars level value ++
      ',' :: prettyEntries level rest

end

/-- A tree as one line of JSON text. -/
def compact (t : Tree) : String :=
  String.ofList t.compactChars

/-- A tree as JSON text over several lines, without a line break at the end. -/
def pretty (t : Tree) : String :=
  String.ofList (t.prettyChars 0)

end Tree

end TaggedUnion
