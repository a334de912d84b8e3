import TaggedUnion.Yaml.Ambiguity
import TaggedUnion.Yaml.Token

/-!
# Writing texts as YAML scalars

The style of a scalar follows from its text.  A text with a line feed becomes a literal block, an
ambiguous text goes between single quotes, and any other text stands plain if nothing in it has a
meaning of its own.  Where a style cannot hold the text, the next stronger one is taken; double
quotes hold everything.
-/

namespace TaggedUnion.Yaml

/-- Whether a character can be written as it is. -/
def isPrintable (c : Char) : Bool :=
  let n := c.toNat
  n == 0x0a || (0x20 ≤ n && n ≤ 0x7e) || (0xa0 ≤ n && n ≤ 0xfffd && n ≠ 0xfeff) || 0x10000 ≤ n

/-- Whether a character at the start of a plain scalar would mean something. -/
def isIndicator (c : Char) : Bool :=
  "#,[]&*!|>'\"%@\x60\x7b\x7d".toList.contains c

/-- Whether a text holds two characters of the given classes one after the other. -/
def hasPair (p q : Char → Bool) (cs : List Char) : Bool :=
  (cs.zip cs.tail).any fun (a, b) => p a && q b

/-- Whether a text starts like a document mark. -/
def startsLikeMark : List Char → Bool
  | '-' :: '-' :: '-' :: _ => true
  | '.' :: '.' :: '.' :: _ => true
  | _ => false

/-- Whether the start of a text would mean something in a plain scalar. -/
def startsIndicated : List Char → Bool
  | [] => false
  | c :: rest => isIndicator c || ((c = '-' || c = '?') && atGap rest)

/-- Whether a colon before a gap or a number sign behind one would cut a plain scalar. -/
def hasIndicator (cs : List Char) : Bool :=
  cs.getLast? = some ':' || hasPair (· = ':') (fun c => isBlank c || isBreak c) cs ||
    hasPair (fun c => isBlank c || isBreak c) (· = '#') cs

/-- Whether a text starts or ends with a space or a line break. -/
def hasOuterGap (cs : List Char) : Bool :=
  (cs.head?.toList ++ cs.getLast?.toList).any fun c => c = ' ' || isBreak c

/-- Whether a text can only be written with escapes. -/
def needsEscapes (cs : List Char) : Bool :=
  !cs.all isPrintable || hasPair (· = ' ') isBreak cs

def allowsPlain (cs : List Char) : Bool :=
  !needsEscapes cs && !cs.any isBreak && !hasOuterGap cs && !startsLikeMark cs &&
    !startsIndicated cs && !hasIndicator cs

def allowsSingleQuotes (cs : List Char) : Bool :=
  !needsEscapes cs && !hasPair isBreak (· = ' ') cs

def allowsLiteral (cs : List Char) : Bool :=
  !needsEscapes cs && cs.getLast? ≠ some ' '

/-- The style of a text. -/
def style (s : String) : Style :=
  let cs := s.toList
  if cs.contains '\n' then
    if allowsLiteral cs then .literal else .doubleQuoted
  else if allowsPlain cs && !isAmbiguous s then .plain
  else if allowsSingleQuotes cs then .singleQuoted
  else .doubleQuoted

/-! ### Written forms -/

def blanks (n : Nat) : List Char :=
  List.replicate n ' '

/-- Lines with blanks before the first character of each.  `start` says whether the text starts a
line. -/
def indented (indent : Nat) (start : Bool) : List Char → List Char
  | [] => []
  | c :: rest =>
    if isBreak c then c :: indented indent true rest
    else if start then blanks indent ++ c :: indented indent false rest
    else c :: indented indent false rest

/-- A text between single quotes, with single quotes inside doubled. -/
def singleQuotedChars (indent : Nat) (cs : List Char) : List Char :=
  let doubled := cs.flatMap fun c => if c = '\'' then ['\'', '\''] else [c]
  '\'' :: indented indent false (doubled ++ ['\''])

/-- The letters of escapes. -/
def escapeLetters : List (Char × Char) :=
  [('\x00', '0'), ('\x07', 'a'), ('\x08', 'b'), ('\t', 't'), ('\n', 'n'), ('\x0b', 'v'),
    ('\x0c', 'f'), ('\r', 'r'), ('\x1b', 'e'), ('"', '"'), ('\\', '\\'), ('\x85', 'N'),
    ('\u2028', 'L'), ('\u2029', 'P')]

/-- A character between double quotes. -/
def escaped (c : Char) : List Char :=
  match escapeLetters.lookup c with
  | some letter => ['\\', letter]
  | none =>
    if isPrintable c then [c]
    else if c.toNat < 0x100 then '\\' :: 'x' :: Text.upperHex 2 c.toNat
    else if c.toNat < 0x10000 then '\\' :: 'u' :: Text.upperHex 4 c.toNat
    else '\\' :: 'U' :: Text.upperHex 8 c.toNat

def doubleQuotedChars (cs : List Char) : List Char :=
  '"' :: cs.flatMap escaped ++ ['"']

/-- The digit of a literal whose first line does not show its indentation. -/
def indentHint : List Char → List Char
  | [] => []
  | c :: _ => if c = ' ' || isBreak c then ['2'] else []

/-- How the line breaks at the end of a literal are kept: none, one or all. -/
def chompHint (cs : List Char) : List Char :=
  match cs.reverse with
  | [] => ['-']
  | last :: rest =>
    if !isBreak last then ['-']
    else if rest.head?.all isBreak then ['+']
    else []

/-- A literal: its header and its lines. -/
def literalChars (indent : Nat) (cs : List Char) : List Char :=
  '|' :: indentHint cs ++ chompHint cs ++ '\n' :: indented indent true cs

/-- A scalar up to the end of its last line.  Lines after the first stand behind `indent` blanks. -/
def scalarLines (indent : Nat) (s : String) : List Char :=
  let cs := s.toList
  match style s with
  | .plain => cs ++ ['\n']
  | .singleQuoted => singleQuotedChars indent cs ++ ['\n']
  | .doubleQuoted => doubleQuotedChars cs ++ ['\n']
  | .literal | .folded =>
    literalChars indent cs ++ (if cs.getLast?.any isBreak then [] else ['\n'])

end TaggedUnion.Yaml
