/-!
# Blank characters

The twenty-five characters with the Unicode property `White_Space`, and what is left of a text
without them.
-/

namespace TaggedUnion.Text

/-- Whether a character is white space. -/
def isBlank (c : Char) : Bool :=
  let n := c.toNat
  (0x09 ≤ n && n ≤ 0x0d) || n == 0x20 || n == 0x85 || n == 0xa0 || n == 0x1680 ||
    (0x2000 ≤ n && n ≤ 0x200a) || n == 0x2028 || n == 0x2029 || n == 0x202f || n == 0x205f ||
    n == 0x3000

/-- Whether a text has nothing but white space. -/
def isBlankText (s : String) : Bool :=
  s.toList.all isBlank

/-- A text without the white space it starts with. -/
def dropBlank (cs : List Char) : List Char :=
  cs.dropWhile isBlank

end TaggedUnion.Text
