/-!
# Bytes that are not all text

The characters of bytes in UTF-8, with a stand-in for every byte that is not part of a character.
-/

namespace TaggedUnion.Text

/-- The characters from a place on. -/
def decodeFrom (standIn : Char) (bytes : ByteArray) (start : Nat) : List Char :=
  if h : start < bytes.size then
    match bytes.utf8DecodeChar? start with
    | some c =>
      have : bytes.size - (start + c.utf8Size) < bytes.size - start := by
        have := c.utf8Size_pos
        omega
      c :: decodeFrom standIn bytes (start + c.utf8Size)
    | none => standIn :: decodeFrom standIn bytes (start + 1)
  else []
termination_by bytes.size - start

/-- The characters of some bytes. -/
def decodeWith (standIn : Char) (bytes : ByteArray) : List Char :=
  decodeFrom standIn bytes 0

end TaggedUnion.Text
