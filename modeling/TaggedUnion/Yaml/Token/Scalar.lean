import TaggedUnion.Text.Hex
import TaggedUnion.Yaml.Token

/-!
# Scalars in YAML text

The text of plain, quoted and block scalars.  In plain and quoted scalars a line break with the
blanks around it folds into one blank, and further line breaks behind it are kept; block scalars
keep their lines, or fold those that start without a blank.
-/

namespace TaggedUnion.Yaml

/-! ### Folding -/

/-- A text that is being gathered, and the blanks and line breaks behind it that have not been
joined to it yet.  The text and the pending blanks are held backwards. -/
structure Folding where
  text : List Char := []
  blanks : List Char := []
  /-- Whether the pending part has a line break, or follows an escaped one. -/
  broken : Bool := false
  firstBreak : List Char := []
  moreBreaks : List Char := []

namespace Folding

def push (f : Folding) (c : Char) : Folding :=
  { f with text := c :: f.text }

/-- Takes a blank; blanks behind a line break do not count. -/
def addBlank (f : Folding) (c : Char) : Folding :=
  if f.broken then f else { f with blanks := c :: f.blanks }

/-- Takes a line break; blanks before it do not count. -/
def addBreak (f : Folding) (c : Char) : Folding :=
  if f.broken then { f with moreBreaks := f.moreBreaks ++ breakText c }
  else { f with blanks := [], firstBreak := breakText c, broken := true }

/-- Takes a line break that is escaped and leaves no trace. -/
def addEscapedBreak (f : Folding) : Folding :=
  { f with broken := true }

/-- What the pending blanks and line breaks become. -/
def pending (f : Folding) : List Char :=
  if f.broken then
    if f.firstBreak = ['\n'] then
      if f.moreBreaks = [] then [' '] else f.moreBreaks
    else f.firstBreak ++ f.moreBreaks
  else f.blanks.reverse

/-- Joins the pending blanks and line breaks to the text. -/
def join (f : Folding) : Folding :=
  { text := f.pending.reverse ++ f.text }

def result (f : Folding) : String :=
  String.ofList f.text.reverse

end Folding

/-! ### Plain scalars -/

/-- What is known where a plain scalar starts. -/
structure PlainContext where
  /-- Whether the scalar is inside brackets or braces. -/
  flow : Bool
  /-- The least column at which a further line of the scalar may start. -/
  indent : Int

/-- Whether a colon with the given text behind it is out of place inside brackets. -/
def isBadColon (flow : Bool) (c : Char) (rest : List Char) : Bool :=
  flow && c = ':' && match rest with
    | d :: _ => d ∈ [',', '?', '[', ']', '\x7b', '\x7d']
    | [] => false

/-- Whether a plain scalar ends before a character. -/
def endsPlain (flow : Bool) (c : Char) (rest : List Char) : Bool :=
  (c = ':' && atGap rest) || (flow && c ∈ [',', '[', ']', '\x7b', '\x7d'])

/-- Reads a plain scalar.  `fresh` says that blanks or line breaks came just before. -/
def scanPlain (ctx : PlainContext) (fresh : Bool) (f : Folding) (p : Place) :
    List Char → Option (Folding × Cursor)
  | [] => some (f, { place := p, rest := [] })
  | '\r' :: '\n' :: rest => scanPlain ctx true (f.addBreak '\n') (p.down 2) rest
  | c :: rest =>
    if isBlank c then
      if f.broken && c = '\t' && p.column < ctx.indent then none
      else scanPlain ctx true (f.addBlank c) (p.right 1) rest
    else if isBreak c then scanPlain ctx true (f.addBreak c) (p.down 1) rest
    else
      let here : Cursor := { place := p, rest := c :: rest }
      if fresh && ((!ctx.flow && p.column < ctx.indent) || here.atDocumentMark || c = '#') then
        some (f, here)
      else if isBadColon ctx.flow c rest then none
      else if endsPlain ctx.flow c rest then some (f, here)
      else scanPlain ctx false (f.join.push c) (p.right 1) rest

/-! ### Quoted scalars -/

/-- The character of a one-letter escape. -/
def escapedChar? : Char → Option Char
  | '0' => some '\x00'
  | 'a' => some '\x07'
  | 'b' => some '\x08'
  | 't' => some '\t'
  | '\t' => some '\t'
  | 'n' => some '\n'
  | 'v' => some '\x0b'
  | 'f' => some '\x0c'
  | 'r' => some '\r'
  | 'e' => some '\x1b'
  | ' ' => some ' '
  | '"' => some '"'
  | '/' => some '/'
  | '\\' => some '\\'
  | 'N' => some '\x85'
  | '_' => some '\xa0'
  | 'L' => some '\u2028'
  | 'P' => some '\u2029'
  | _ => none

/-- The number of hexadecimal digits of an escape by number. -/
def escapeLength? : Char → Option Nat
  | 'x' => some 2
  | 'u' => some 4
  | 'U' => some 8
  | _ => none

/-- The character with the given hexadecimal digits as its number. -/
def numberedChar? (digits : List Char) : Option Char := do
  let values ← digits.mapM Text.hexValue?
  let n := values.foldl (fun n d => 16 * n + d) 0
  if n.isValidChar then some (Char.ofNat n) else none

/-- Reads a quoted scalar behind its opening quote.  `digits` holds the digits of an escape by
number that is being read, backwards, with how many are still to come. -/
def scanQuoted (single fresh : Bool) (digits : Option (Nat × List Char)) (f : Folding) (p : Place)
    (cs : List Char) : Option (Folding × Cursor) :=
  match digits, cs with
  | _, [] => none
  | some (left, done), c :: rest =>
    match left with
    | 0 => none
    | 1 => do
      let d ← numberedChar? (c :: done).reverse
      scanQuoted single false none (f.push d) (p.right 1) rest
    | left + 2 => scanQuoted single false (some (left + 1, c :: done)) f (p.right 1) rest
  | none, '\r' :: '\n' :: rest =>
    scanQuoted single true none (f.addBreak '\n') (p.down 2) rest
  | none, c :: rest =>
    if isBlank c then scanQuoted single true none (f.addBlank c) (p.right 1) rest
    else if isBreak c then scanQuoted single true none (f.addBreak c) (p.down 1) rest
    else
      let here : Cursor := { place := p, rest := c :: rest }
      if fresh && here.atDocumentMark then none
      else
        let f := f.join
        if single then
          if c = '\'' then
            match rest with
            | '\'' :: rest => scanQuoted single false none (f.push '\'') (p.right 2) rest
            | _ => some (f, here.skip 1)
          else scanQuoted single false none (f.push c) (p.right 1) rest
        else if c = '"' then some (f, here.skip 1)
        else if c = '\\' then
          match rest with
          | [] => none
          | '\r' :: '\n' :: rest =>
            scanQuoted single true none f.addEscapedBreak ((p.right 1).down 2) rest
          | e :: rest =>
            if isBreak e then
              scanQuoted single true none f.addEscapedBreak ((p.right 1).down 1) rest
            else
              match escapedChar? e with
              | some d => scanQuoted single false none (f.push d) (p.right 2) rest
              | none => do
                let n ← escapeLength? e
                scanQuoted single false (some (n, [])) f (p.right 2) rest
        else scanQuoted single false none (f.push c) (p.right 1) rest
termination_by structural cs

/-! ### Block scalars -/

/-- What becomes of the line breaks at the end of a block scalar. -/
inductive Chomping where
  | strip
  | clip
  | keep
deriving DecidableEq

/-- The first line of a block scalar: how the scalar ends, and how much deeper it is indented if the
line says so. -/
structure BlockHeader where
  chomping : Chomping := .clip
  increment : Option Nat := none

def chomping? : Char → Option Chomping
  | '+' => some .keep
  | '-' => some .strip
  | _ => none

def increment? (c : Char) : Option Nat :=
  if '1' ≤ c ∧ c ≤ '9' then some (c.toNat - '0'.toNat) else none

/-- Reads the first line of a block scalar behind its mark: the two indicators in either order, and
perhaps a comment. -/
def scanBlockHeader (c : Cursor) : Option (BlockHeader × Cursor) := do
  let (header, c) ← match c.rest with
    | a :: rest =>
      match chomping? a with
      | some chomping =>
        match rest with
        | '0' :: _ => none
        | b :: _ =>
          match increment? b with
          | some n => some ({ chomping, increment := some n : BlockHeader }, c.skip 2)
          | none => some ({ chomping : BlockHeader }, c.skip 1)
        | [] => some ({ chomping : BlockHeader }, c.skip 1)
      | none =>
        if a = '0' then none
        else
          match increment? a with
          | some n =>
            match rest.head?.bind chomping? with
            | some chomping => some ({ chomping, increment := some n : BlockHeader }, c.skip 2)
            | none => some ({ increment := some n : BlockHeader }, c.skip 1)
          | none => some ({ : BlockHeader }, c)
    | [] => some ({ : BlockHeader }, c)
  let c := c.skipComment
  if atLineEnd c.rest then some (header, c.skipBreak) else none

/-- A block scalar that is being gathered.  The text is held backwards. -/
structure BlockText where
  literal : Bool
  /-- The column of the text, once it is known. -/
  indent : Option Nat
  text : List Char := []
  /-- The break that ended the last line, and those of the empty lines behind it. -/
  lastBreak : List Char := []
  emptyBreaks : List Char := []
  /-- Whether the last line started with a blank. -/
  blankStart : Bool := false

namespace BlockText

/-- Starts a line whose first character is given. -/
def startLine (b : BlockText) (c : Char) : BlockText :=
  let fold := !b.literal && b.lastBreak = ['\n'] && !b.blankStart && !isBlank c
  let join := if fold then (if b.emptyBreaks = [] then [' '] else []) else b.lastBreak
  { b with
    text := c :: (join ++ b.emptyBreaks).reverse ++ b.text
    lastBreak := []
    emptyBreaks := []
    blankStart := isBlank c }

/-- The text with the line breaks at its end that are kept. -/
def result (b : BlockText) (chomping : Chomping) : String :=
  let tail := match chomping with
    | .strip => []
    | .clip => b.lastBreak
    | .keep => b.lastBreak ++ b.emptyBreaks
  String.ofList (b.text.reverse ++ tail)

end BlockText

/-- Reads the lines of a block scalar inside a collection indented by `outer`.  `inLine` tells
whether a line has started, and `widest` is the most blanks seen before its text is found. -/
def scanBlock (outer : Int) (inLine : Bool) (widest : Nat) (b : BlockText) (p : Place) :
    List Char → Option (BlockText × Cursor)
  | [] => some (b, { place := p, rest := [] })
  | '\r' :: '\n' :: rest =>
    if inLine then scanBlock outer false 0 { b with lastBreak := ['\n'] } (p.down 2) rest
    else
      scanBlock outer false (max widest p.column)
        { b with emptyBreaks := b.emptyBreaks ++ ['\n'] } (p.down 2) rest
  | c :: rest =>
    if inLine then
      if isBreak c then
        scanBlock outer false 0 { b with lastBreak := breakText c } (p.down 1) rest
      else scanBlock outer true widest { b with text := c :: b.text } (p.right 1) rest
    else
      let early := match b.indent with
        | none => true
        | some n => p.column < n
      if early && c = ' ' then scanBlock outer false widest b (p.right 1) rest
      else if early && c = '\t' then none
      else if isBreak c then
        scanBlock outer false (max widest p.column)
          { b with emptyBreaks := b.emptyBreaks ++ breakText c } (p.down 1) rest
      else
        let indent := b.indent.getD (max (max (max widest p.column) (outer + 1).toNat) 1)
        if p.column = indent then
          scanBlock outer true 0 ({ b with indent := some indent }.startLine c) (p.right 1) rest
        else some (b, { place := p, rest := c :: rest })

end TaggedUnion.Yaml
