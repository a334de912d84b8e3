import TaggedUnion.Json.Reading
import TaggedUnion.Text.Utf8

/-!
# Reading JSON from bytes

Bytes need not all be text.  A byte that is not part of a character may stand in a string that is
passed over, but it leaves a string without a text to be read.
-/

namespace TaggedUnion.Json

/-- Two readings of the same token: a string that differs depends on a stand-in, so it has no
text. -/
def agree (a b : Token) : Token :=
  if a = b then a else .string none

/-- The tokens of bytes. -/
def tokensOfBytes (bytes : ByteArray) : List Token :=
  match String.fromUTF8? bytes with
  | some text => tokens text.toList
  | none =>
    List.zipWith agree (tokens (Text.decodeWith '\ufffd' bytes))
      (tokens (Text.decodeWith '\ufffe' bytes))

/-- Reads bytes that hold one value. -/
def parseBytesWith {α : Type} (read : Outline → Except Error α) (bytes : ByteArray) :
    Except Error α :=
  readWith read (tokensOfBytes bytes)

end TaggedUnion.Json
