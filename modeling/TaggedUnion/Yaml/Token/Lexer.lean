import TaggedUnion.Yaml.Token.Scalar
import TaggedUnion.Yaml.Token.Tag

/-!
# Cutting YAML text into tokens

A lexer goes through a text once.  Outside of brackets it turns changes of indentation into marks
that open and close block collections.  A key is recognised only when the colon behind it is met;
the marks that belong in front of the key are then put in at the place that the lexer remembered.
-/

namespace TaggedUnion.Yaml

/-- A token that may turn out to be a key. -/
structure PossibleKey where
  /-- Whether the text is wrong if it is none. -/
  required : Bool
  /-- How many tokens stand in front of it. -/
  position : Nat
  place : Place

/-- The state of a lexer. -/
structure Lexer where
  cursor : Cursor
  tokens : Array Token := #[]
  /-- The possible key of the present level; those of the levels around it. -/
  key : Option PossibleKey := none
  outerKeys : List (Option PossibleKey) := []
  /-- The column of the innermost block collection, and those around it. -/
  indent : Int := -1
  outerIndents : List Int := []
  /-- Whether a key may start here. -/
  keyAllowed : Bool := true

namespace Lexer

/-- Whether the lexer is inside brackets or braces. -/
def inFlow (s : Lexer) : Bool :=
  !s.outerKeys.isEmpty

def column (s : Lexer) : Nat :=
  s.cursor.place.column

def emit (s : Lexer) (t : Token) : Lexer :=
  { s with tokens := s.tokens.push t }

/-- Puts a token in front of the tokens from a position on. -/
def emitAt (s : Lexer) (position : Nat) (t : Token) : Lexer :=
  { s with tokens := s.tokens.insertIdxIfInBounds position t }

/-! ### Indentation -/

/-- Opens a block collection at a column unless one is open there. -/
def openBlock (s : Lexer) (column : Nat) (t : Token) (position : Nat) : Lexer :=
  if !s.inFlow && s.indent < column then
    { s.emitAt position t with indent := column, outerIndents := s.indent :: s.outerIndents }
  else s

/-- Closes the block collections that lie deeper than a column. -/
def closeBlocks (column : Int) (s : Lexer) : Lexer :=
  if s.inFlow then s else go s s.outerIndents
where
  go (s : Lexer) : List Int → Lexer
    | [] => s
    | outer :: outers =>
      if column < s.indent then
        go { s.emit .blockEnd with indent := outer, outerIndents := outers } outers
      else s

/-! ### Possible keys -/

/-- Whether a possible key cannot become one any more: it is limited to one line and a length. -/
def isStale (p : Place) (k : PossibleKey) : Bool :=
  k.place.line < p.line || k.place.index + 1024 < p.index

/-- Forgets possible keys that are out of reach. -/
def dropStale (s : Lexer) : Option Lexer :=
  let stale := isStale s.cursor.place
  if (s.key :: s.outerKeys).any fun k => k.any fun k => stale k && k.required then none
  else
    let keep := fun k : Option PossibleKey => k.filter fun k => !stale k
    some { s with key := keep s.key, outerKeys := s.outerKeys.map keep }

/-- Forgets the possible key of the present level. -/
def dropKey (s : Lexer) : Option Lexer :=
  if s.key.any PossibleKey.required then none else some { s with key := none }

/-- Remembers that the token to come may be a key. -/
def markKey (s : Lexer) : Option Lexer :=
  if s.keyAllowed then do
    let required := !s.inFlow && s.indent = s.column
    let s ← s.dropKey
    return { s with key := some { required, position := s.tokens.size, place := s.cursor.place } }
  else some s

/-! ### Tokens -/

/-- Emits a mark of one character. -/
def mark (s : Lexer) (t : Token) : Lexer :=
  { s.emit t with cursor := s.cursor.skip 1 }

def flowStart (t : Token) (s : Lexer) : Option Lexer := do
  let s ← s.markKey
  return { s.mark t with key := none, outerKeys := s.key :: s.outerKeys, keyAllowed := true }

def flowEnd (t : Token) (s : Lexer) : Option Lexer := do
  let s ← s.dropKey
  let s := match s.outerKeys with
    | [] => s
    | key :: outerKeys => { s with key, outerKeys }
  return { s.mark t with keyAllowed := false }

def flowEntry (s : Lexer) : Option Lexer := do
  let s ← s.dropKey
  return { s.mark .flowEntry with keyAllowed := true }

def blockEntry (s : Lexer) : Option Lexer := do
  if !s.inFlow && !s.keyAllowed then none
  else
    let s ← (s.openBlock s.column .blockSequenceStart s.tokens.size).dropKey
    return { s.mark .blockEntry with keyAllowed := true }

def explicitKey (s : Lexer) : Option Lexer := do
  if !s.inFlow && !s.keyAllowed then none
  else
    let s ← (s.openBlock s.column .blockMappingStart s.tokens.size).dropKey
    return { s.mark .key with keyAllowed := !s.inFlow }

/-- A colon: behind a possible key it makes it a key, else it starts a value of its own. -/
def value (s : Lexer) : Option Lexer :=
  match s.key with
  | some k =>
    let s := (s.emitAt k.position .key).openBlock k.place.column .blockMappingStart k.position
    some { s.mark .value with key := none, keyAllowed := false }
  | none =>
    if !s.inFlow && !s.keyAllowed then none
    else
      let s := s.openBlock s.column .blockMappingStart s.tokens.size
      some { s.mark .value with keyAllowed := !s.inFlow }

/-- Ends all block collections, before a directive or a document mark. -/
def endBlocks (s : Lexer) : Option Lexer := do
  let s ← (s.closeBlocks (-1)).dropKey
  return { s with keyAllowed := false }

def directive (s : Lexer) : Option Lexer := do
  let s ← s.endBlocks
  let (token, cursor) ← scanDirective (s.cursor.skip 1)
  return { s.emit token with cursor }

def documentMark (t : Token) (s : Lexer) : Option Lexer := do
  let s ← s.endBlocks
  return { s.emit t with cursor := s.cursor.skip 3 }

/-- An anchor or alias. -/
def nameToken (make : String → Token) (s : Lexer) : Option Lexer := do
  let s ← s.markKey
  let (name, cursor) ← scanName (s.cursor.skip 1)
  return { s.emit (make name) with cursor, keyAllowed := false }

def tag (s : Lexer) : Option Lexer := do
  let s ← s.markKey
  let (token, cursor) ← scanTag s.inFlow s.cursor
  return { s.emit token with cursor, keyAllowed := false }

def quotedScalar (single : Bool) (s : Lexer) : Option Lexer := do
  let s ← s.markKey
  let here := s.cursor.skip 1
  let (folding, cursor) ← scanQuoted single false none {} here.place here.rest
  let style := if single then .singleQuoted else .doubleQuoted
  return { s.emit (.scalar style folding.result) with cursor, keyAllowed := false }

/-- A plain scalar.  If line breaks follow it a key may start behind them. -/
def plainScalar (s : Lexer) : Option Lexer := do
  let s ← s.markKey
  let ctx : PlainContext := { flow := s.inFlow, indent := s.indent + 1 }
  let (folding, cursor) ← scanPlain ctx false {} s.cursor.place s.cursor.rest
  return { s.emit (.scalar .plain folding.result) with cursor, keyAllowed := folding.broken }

def blockScalar (literal : Bool) (s : Lexer) : Option Lexer := do
  let s ← s.dropKey
  let (header, here) ← scanBlockHeader (s.cursor.skip 1)
  let indent := header.increment.map fun n => (max s.indent 0).toNat + n
  let (text, cursor) ← scanBlock s.indent false 0 { literal, indent } here.place here.rest
  let style := if literal then .literal else .folded
  return { s.emit (.scalar style (text.result header.chomping)) with cursor, keyAllowed := true }

/-! ### The text between tokens -/

/-- Goes over blanks, comments and line breaks.  Outside of brackets a tab is no blank where a key
may start, and a key may start on a new line. -/
def skipGap (fuel : Nat) (s : Lexer) : Lexer :=
  match fuel with
  | 0 => s
  | fuel + 1 =>
    let bom := s.column = 0 && s.cursor.rest.head? = some '\ufeff'
    let cursor := if bom then s.cursor.skip 1 else s.cursor
    let tabs := s.inFlow || !s.keyAllowed
    let cursor := cursor.skipWhile fun c => c = ' ' || (tabs && c = '\t')
    let cursor := match cursor.rest with
      | '#' :: _ => cursor.skipWhile fun c => !isBreak c
      | _ => cursor
    match cursor.rest with
    | c :: _ =>
      if isBreak c then
        skipGap fuel
          { s with cursor := cursor.skipBreak, keyAllowed := s.keyAllowed || !s.inFlow }
      else { s with cursor }
    | [] => { s with cursor }

/-- Whether a plain scalar may start with a character, before the given text. -/
def startsPlain (flow : Bool) (c : Char) (rest : List Char) : Bool :=
  if c = '-' then !rest.head?.any isBlank
  else if c = '?' || c = ':' then !flow && !atGap rest
  else
    !isBlank c && !isBreak c &&
      c ∉ [',', '[', ']', '\x7b', '\x7d', '#', '&', '*', '!', '|', '>', '\'', '"', '%', '@', '\x60']

/-- Reads the token that starts with a character, before the given text. -/
def token (s : Lexer) (c : Char) (rest : List Char) : Option Lexer :=
  if s.column = 0 && c = '%' then s.directive
  else if s.cursor.atDocumentMark then
    s.documentMark (if c = '-' then .documentStart else .documentEnd)
  else if c = '[' then s.flowStart .flowSequenceStart
  else if c = '\x7b' then s.flowStart .flowMappingStart
  else if c = ']' then s.flowEnd .flowSequenceEnd
  else if c = '\x7d' then s.flowEnd .flowMappingEnd
  else if c = ',' then s.flowEntry
  else if c = '-' && atGap rest then s.blockEntry
  else if c = '?' && (s.inFlow || atGap rest) then s.explicitKey
  else if c = ':' && (s.inFlow || atGap rest) then s.value
  else if c = '*' then s.nameToken .alias
  else if c = '&' then s.nameToken .anchor
  else if c = '!' then s.tag
  else if c = '|' && !s.inFlow then s.blockScalar true
  else if c = '>' && !s.inFlow then s.blockScalar false
  else if c = '\'' then s.quotedScalar true
  else if c = '"' then s.quotedScalar false
  else if startsPlain s.inFlow c rest then s.plainScalar
  else none

/-- Reads all tokens.  Each of them takes at least one character, so as many steps as there are
characters suffice. -/
def run (fuel : Nat) (s : Lexer) : Option Lexer := do
  let s ← (s.skipGap (s.cursor.rest.length + 1)).dropStale
  let s := s.closeBlocks s.column
  match s.cursor.rest, fuel with
  | [], _ => s.endBlocks
  | _, 0 => none
  | c :: rest, fuel + 1 => do
    let s ← s.token c rest
    run fuel s

end Lexer

/-- The tokens of a text, if it can be cut into tokens. -/
def tokens? (text : List Char) : Option (List Token) :=
  if text.all isAllowed then
    (Lexer.run text.length { cursor := { rest := text } }).map fun s => s.tokens.toList
  else none

end TaggedUnion.Yaml
