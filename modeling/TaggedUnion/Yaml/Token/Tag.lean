import TaggedUnion.Text.Hex
import TaggedUnion.Yaml.Token

/-!
# Tags, anchors and directives in YAML text
-/

namespace TaggedUnion.Yaml

/-! ### Names -/

/-- Reads a name behind the mark of an anchor or alias.  It must end at a gap or at a character that
cannot belong to a name. -/
def scanName (c : Cursor) : Option (String × Cursor) :=
  let name := c.rest.takeWhile isNameChar
  let after := c.skip name.length
  let ends := atGap after.rest || match after.rest with
    | d :: _ => d ∈ ['?', ':', ',', ']', '\x7d', '%', '@', '\x60']
    | [] => true
  if name ≠ [] && ends then some (String.ofList name, after) else none

/-! ### Tags -/

/-- Whether a character may stand in the suffix of a tag.  Commas and brackets may do so only
between angle brackets. -/
def isTagChar (verbatim : Bool) (c : Char) : Bool :=
  isNameChar c ||
    c ∈ [';', '/', '?', ':', '@', '&', '=', '+', '$', '.', '%', '!', '~', '*', '\'', '(', ')'] ||
    (verbatim && c ∈ [',', '[', ']'])

/-- The number of octets of a character that starts with the given octet, and the bits of its number
that this octet holds. -/
def leadingOctet? (octet : Nat) : Option (Nat × Nat) :=
  if octet < 0x80 then some (1, octet)
  else if octet / 0x20 = 0x6 then some (2, octet % 0x20)
  else if octet / 0x10 = 0xe then some (3, octet % 0x10)
  else if octet / 0x8 = 0x1e then some (4, octet % 0x8)
  else none

/-- Reads the suffix of a tag, in which octets of a character can be given by number.  `pending`
holds how many octets of a character are still to come and its number so far. -/
def scanTagSuffix (verbatim : Bool) (pending : Option (Nat × Nat)) (done : List Char) :
    List Char → Option (List Char × List Char)
  | [] => if pending.isNone then some (done.reverse, []) else none
  | c :: rest =>
    if c = '%' then
      match rest with
      | a :: b :: rest => do
        let octet := 16 * (← Text.hexValue? a) + (← Text.hexValue? b)
        let (left, n) ← match pending with
          | none => leadingOctet? octet
          | some (left, n) =>
            if octet / 0x40 = 2 then some (left, 64 * n + octet % 64) else none
        if left = 1 then
          if n.isValidChar then scanTagSuffix verbatim none (Char.ofNat n :: done) rest else none
        else scanTagSuffix verbatim (some (left - 1, n)) done rest
      | _ => none
    else if pending.isSome then none
    else if isTagChar verbatim c then scanTagSuffix verbatim none (c :: done) rest
    else some (done.reverse, c :: rest)

/-- Reads the suffix of a tag at a cursor, with the part that has been read before. -/
def tagSuffix (verbatim : Bool) (head : List Char) (c : Cursor) : Option (List Char × Cursor) := do
  let (suffix, rest) ← scanTagSuffix verbatim none [] c.rest
  let read := c.rest.length - rest.length
  return (head ++ suffix, c.skip read)

/-- Reads the handle of a tag: an exclamation mark, perhaps a name and a second mark. -/
def tagHandle (c : Cursor) : Option (List Char × Cursor) :=
  match c.rest with
  | '!' :: rest =>
    let name := rest.takeWhile isNameChar
    match rest.drop name.length with
    | '!' :: _ => some ('!' :: name ++ ['!'], c.skip (name.length + 2))
    | _ => some ('!' :: name, c.skip (name.length + 1))
  | _ => none

/-- Whether a handle has its second mark. -/
def isFullHandle (handle : List Char) : Bool :=
  1 < handle.length && handle.getLast? = some '!'

/-- Reads a tag: verbatim between angle brackets, with a full handle, or with the short handle. -/
def scanTag (flow : Bool) (c : Cursor) : Option (Token × Cursor) := do
  let (token, after) ← match c.rest with
    | '!' :: '<' :: _ => do
      let (suffix, after) ← tagSuffix true [] (c.skip 2)
      match after.rest with
      | '>' :: _ =>
        if suffix = [] then none else some (Token.tag "" (String.ofList suffix), after.skip 1)
      | _ => none
    | _ => do
      let (handle, after) ← tagHandle c
      if isFullHandle handle then do
        let (suffix, after) ← tagSuffix false [] after
        if suffix = [] then none
        else some (Token.tag (String.ofList handle) (String.ofList suffix), after)
      else do
        let (suffix, after) ← tagSuffix false (handle.drop 1) after
        if suffix = [] then some (Token.tag "" "!", after)
        else some (Token.tag "!" (String.ofList suffix), after)
  if atGap after.rest || (flow && after.rest.head? = some ',') then some (token, after) else none

/-! ### Directives -/

/-- Reads a part of a version number, of at most nine digits. -/
def versionNumber (c : Cursor) : Option (Nat × Cursor) :=
  let digits := c.rest.takeWhile Char.isDigit
  if digits = [] || 9 < digits.length then none
  else
    some (digits.foldl (fun n d => 10 * n + (d.toNat - '0'.toNat)) 0, c.skip digits.length)

/-- Reads a directive behind its percent sign, up to the next line. -/
def scanDirective (c : Cursor) : Option (Token × Cursor) := do
  let name := c.rest.takeWhile isNameChar
  let after := c.skip name.length
  if name = [] || !atGap after.rest then none
  else do
    let after := after.skipWhile isBlank
    let (token, after) ←
      if name = ['Y', 'A', 'M', 'L'] then do
        let (major, after) ← versionNumber after
        match after.rest with
        | '.' :: _ => do
          let (minor, after) ← versionNumber (after.skip 1)
          some (Token.versionDirective major minor, after)
        | _ => none
      else if name = ['T', 'A', 'G'] then do
        let (handle, after) ← tagHandle after
        if handle ≠ ['!'] && !isFullHandle handle then none
        else if !(after.rest.head?.any isBlank) then none
        else do
          let (expansion, after) ← tagSuffix true [] (after.skipWhile isBlank)
          if expansion = [] || !atGap after.rest then none
          else some (Token.tagDirective (String.ofList handle) (String.ofList expansion), after)
      else none
    let after := after.skipComment
    if atLineEnd after.rest then some (token, after.skipBreak) else none

end TaggedUnion.Yaml
