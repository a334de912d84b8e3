/-!
# Characters of YAML text

The classes of characters that the structure of a YAML text rests on, and places in a text.
-/

namespace TaggedUnion.Yaml

/-- Whether a character may stand in a YAML text at all. -/
def isAllowed (c : Char) : Bool :=
  let n := c.toNat
  n == 0x09 || n == 0x0a || n == 0x0d || (0x20 ≤ n && n ≤ 0x7e) || n == 0x85 ||
    (0xa0 ≤ n && n ≤ 0xfffd) || 0x10000 ≤ n

/-- Whether a character ends a line. -/
def isBreak (c : Char) : Bool :=
  c = '\r' || c = '\n' || c = '\x85' || c = '\u2028' || c = '\u2029'

/-- Whether a character is a blank inside a line. -/
def isBlank (c : Char) : Bool :=
  c = ' ' || c = '\t'

/-- Whether a text is at a blank, at a line break or at its end. -/
def atGap : List Char → Bool
  | [] => true
  | c :: _ => isBlank c || isBreak c

/-- Whether a text is at a line break or at its end. -/
def atLineEnd : List Char → Bool
  | [] => true
  | c :: _ => isBreak c

/-- Whether a character may stand in a name. -/
def isNameChar (c : Char) : Bool :=
  c.isAlphanum || c = '_' || c = '-'

/-- How a line break is kept in the text of a scalar. -/
def breakText (c : Char) : List Char :=
  if c = '\u2028' || c = '\u2029' then [c] else ['\n']

/-- A place in a text: the characters and lines before it, and the characters before it on its
line. -/
structure Place where
  index : Nat := 0
  line : Nat := 0
  column : Nat := 0

namespace Place

/-- The place behind some characters on the same line. -/
def right (p : Place) (n : Nat) : Place :=
  { p with index := p.index + n, column := p.column + n }

/-- The place behind a line break of some characters. -/
def down (p : Place) (n : Nat) : Place :=
  { index := p.index + n, line := p.line + 1, column := 0 }

end Place

/-- A place with the text that follows it. -/
structure Cursor where
  place : Place := {}
  rest : List Char

namespace Cursor

/-- Goes over some characters of the line. -/
def skip (c : Cursor) (n : Nat) : Cursor :=
  { place := c.place.right n, rest := c.rest.drop n }

/-- Goes over a line break, if there is one. -/
def skipBreak (c : Cursor) : Cursor :=
  match c.rest with
  | '\r' :: '\n' :: rest => { place := c.place.down 2, rest }
  | b :: rest => if isBreak b then { place := c.place.down 1, rest } else c
  | [] => c

/-- Goes over the characters of the line that satisfy a condition. -/
def skipWhile (c : Cursor) (p : Char → Bool) : Cursor :=
  c.skip (c.rest.takeWhile p).length

/-- Goes over blanks and a comment. -/
def skipComment (c : Cursor) : Cursor :=
  let c := c.skipWhile isBlank
  match c.rest with
  | '#' :: _ => c.skipWhile fun b => !isBreak b
  | _ => c

/-- Whether a document mark stands here: three dashes or three dots that start a line. -/
def atDocumentMark (c : Cursor) : Bool :=
  c.place.column = 0 &&
    match c.rest with
    | '-' :: '-' :: '-' :: rest => atGap rest
    | '.' :: '.' :: '.' :: rest => atGap rest
    | _ => false

end Cursor

end TaggedUnion.Yaml
