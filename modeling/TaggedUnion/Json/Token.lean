import TaggedUnion.Json.Numeral
import TaggedUnion.Text.Hex

/-!
# Tokens of JSON text

A text is cut into marks, words, numerals and strings; blanks between them are dropped, so a compact
and an indented text of the same value have the same tokens.  Where the text goes wrong the last
token says how.

A token can be wrong in two degrees.  A value that is only passed over may hold numbers of any size
and escapes for one half of a character pair; a value that is read may not.  Hence a string token
has no text if its escapes do not pair up, and a broken token has a fault for reading and one for
passing over.
-/

namespace TaggedUnion.Json

/-- How a text goes wrong. -/
inductive Fault where
  /-- It ends too early. -/
  | truncated
  /-- It ends too early, between the quotes of a string. -/
  | unclosed
  /-- It goes on in a way that no JSON text does. -/
  | malformed
deriving DecidableEq

/-- A piece of JSON text. -/
inductive Token where
  | openArray
  | closeArray
  | openObject
  | closeObject
  | comma
  | colon
  | null
  | bool (b : Bool)
  | number (n : Numeral)
  /-- A closed string, with its text if all escapes pair up. -/
  | string (text : Option String)
  /-- Two words or numerals with nothing between them. -/
  | seam
  /-- A string that goes wrong. -/
  | brokenString (read skip : Fault)
  /-- Anything else that goes wrong. -/
  | broken (read skip : Fault)
deriving DecidableEq

/-! ### Strings -/

/-- What stands between the quotes of a string: characters, and units of sixteen bits given by
number. -/
inductive Piece where
  | char (c : Char)
  | unit (n : Nat)
deriving DecidableEq

def Piece.isLeading (n : Nat) : Bool :=
  0xd800 ≤ n && n < 0xdc00

def Piece.isTrailing (n : Nat) : Bool :=
  0xdc00 ≤ n && n < 0xe000

/-- The character that a leading and a trailing unit stand for. -/
def Piece.pair (leading trailing : Nat) : Char :=
  Char.ofNat (0x10000 + (leading - 0xd800) * 0x400 + (trailing - 0xdc00))

/-- The outcome of joining pieces. -/
inductive Joined where
  | chars (cs : List Char)
  /-- The pieces end in a leading unit. -/
  | pending
  | unpaired
deriving DecidableEq

def Joined.push (c : Char) : Joined → Joined
  | .chars cs => .chars (c :: cs)
  | j => j

/-- Joins units that stand for one character together. -/
def joinPieces : List Piece → Joined
  | [] => .chars []
  | .char c :: rest => (joinPieces rest).push c
  | .unit n :: rest =>
    if Piece.isTrailing n then .unpaired
    else if Piece.isLeading n then
      match rest with
      | [] => .pending
      | .unit m :: rest =>
        if Piece.isTrailing m then (joinPieces rest).push (Piece.pair n m) else .unpaired
      | .char _ :: _ => .unpaired
    else (joinPieces rest).push (Char.ofNat n)

/-- The character of a one-letter escape. -/
def escape? : Char → Option Char
  | '"' => some '"'
  | '\\' => some '\\'
  | '/' => some '/'
  | 'b' => some '\x08'
  | 'f' => some '\x0c'
  | 'n' => some '\n'
  | 'r' => some '\r'
  | 't' => some '\t'
  | _ => none

/-- The number of four hexadecimal digits. -/
def unit? (a b c d : Char) : Option Nat := do
  let a ← Text.hexValue? a
  let b ← Text.hexValue? b
  let c ← Text.hexValue? c
  let d ← Text.hexValue? d
  return ((a * 16 + b) * 16 + c) * 16 + d

/-- The fault of an escape by number that is followed by fewer than four characters: four bytes of
anything are taken for its digits. -/
def shortEscapeFault (rest : List Char) : Fault :=
  if (String.ofList rest).utf8ByteSize < 4 then .truncated else .malformed

/-- Reads a string behind its opening quote.  Gives the pieces up to the closing quote and the rest,
or the pieces up to a fault. -/
def scanString (done : List Piece) :
    List Char → Except (Fault × List Piece) (List Piece × List Char)
  | [] => .error (.unclosed, done.reverse)
  | '"' :: rest => .ok (done.reverse, rest)
  | '\\' :: [] => .error (.truncated, done.reverse)
  | '\\' :: 'u' :: a :: b :: c :: d :: rest =>
    match unit? a b c d with
    | some n => scanString (.unit n :: done) rest
    | none => .error (.malformed, done.reverse)
  | '\\' :: 'u' :: rest => .error (shortEscapeFault rest, done.reverse)
  | '\\' :: e :: rest =>
    match escape? e with
    | some c => scanString (.char c :: done) rest
    | none => .error (.malformed, done.reverse)
  | c :: rest =>
    if c.toNat < 0x20 then .error (.malformed, done.reverse)
    else scanString (.char c :: done) rest

/-- The text of joined pieces, if they pair up. -/
def Joined.text? : Joined → Option String
  | .chars cs => some (String.ofList cs)
  | _ => none

/-- The fault met when a broken string is read: an unpaired escape comes before it. -/
def Joined.readFault (skip : Fault) : Joined → Fault
  | .unpaired => .malformed
  | _ => skip

/-- The token of a string behind its opening quote, and the rest. -/
def stringToken (cs : List Char) : Token × List Char :=
  match scanString [] cs with
  | .ok (pieces, rest) => (.string (joinPieces pieces).text?, rest)
  | .error (fault, pieces) => (.brokenString ((joinPieces pieces).readFault fault) fault, [])

/-! ### Words and numerals -/

/-- Reads the given characters. -/
def scanWord : List Char → List Char → Except Fault (List Char)
  | [], rest => .ok rest
  | _ :: _, [] => .error .truncated
  | e :: expected, c :: rest => if c = e then scanWord expected rest else .error .malformed

/-- The token of a word behind its first letter, and the rest. -/
def wordToken (word : Token) (expected cs : List Char) : Token × List Char :=
  match scanWord expected cs with
  | .ok rest => (word, rest)
  | .error fault => (.broken fault fault, [])

/-- A numeral that is not finished.  The end of the text is not told from a wrong character when it
is passed over. -/
def unfinished : List Char → Token
  | [] => .broken .truncated .malformed
  | _ :: _ => .broken .malformed .malformed

/-- Whether an exponent has a minus sign, and what stands behind its sign. -/
def exponentSign : List Char → Bool × List Char
  | '+' :: rest => (false, rest)
  | '-' :: rest => (true, rest)
  | cs => (false, cs)

/-- Adds the exponent to a numeral, if the text goes on with one. -/
def scanExponent (n : Numeral) : List Char → Token × List Char
  | [] => (.number n, [])
  | c :: rest =>
    if c = 'e' ∨ c = 'E' then
      let (negative, cs) := exponentSign rest
      let digits := cs.takeWhile Char.isDigit
      let after := cs.dropWhile Char.isDigit
      if digits = [] then (unfinished after, [])
      else (.number { n with exponent := some { negative, digits } }, after)
    else (.number n, c :: rest)

/-- Adds fraction and exponent to a numeral, if the text goes on with them. -/
def scanFraction (n : Numeral) : List Char → Token × List Char
  | '.' :: rest =>
    let digits := rest.takeWhile Char.isDigit
    let after := rest.dropWhile Char.isDigit
    if digits = [] then (unfinished after, [])
    else scanExponent { n with fraction := some digits } after
  | cs => scanExponent n cs

/-- The token of a numeral behind its sign, and the rest.  No digit follows a leading zero. -/
def numeralToken (negative : Bool) (cs : List Char) : Token × List Char :=
  let digits := cs.takeWhile Char.isDigit
  let after := cs.dropWhile Char.isDigit
  match digits with
  | [] => (unfinished cs, [])
  | '0' :: _ :: _ => (.broken .malformed .malformed, [])
  | _ => scanFraction { negative, whole := digits } after

/-! ### Texts -/

def isSpace (c : Char) : Bool :=
  c = ' ' || c = '\t' || c = '\n' || c = '\r'

/-- Whether a word or numeral may end before the given characters. -/
def endsWord : List Char → Bool
  | [] => true
  | c :: _ => isSpace c || c ∈ ['"', '[', ']', '\x7b', '\x7d', ',', ':']

/-- The token that starts with a character, and the rest. -/
def nextToken (c : Char) (rest : List Char) : Token × List Char :=
  match c with
  | '[' => (.openArray, rest)
  | ']' => (.closeArray, rest)
  | '\x7b' => (.openObject, rest)
  | '\x7d' => (.closeObject, rest)
  | ',' => (.comma, rest)
  | ':' => (.colon, rest)
  | '"' => stringToken rest
  | 'n' => wordToken .null ['u', 'l', 'l'] rest
  | 't' => wordToken (.bool true) ['r', 'u', 'e'] rest
  | 'f' => wordToken (.bool false) ['a', 'l', 's', 'e'] rest
  | '-' => numeralToken true rest
  | c =>
    if c.isDigit then numeralToken false (c :: rest) else (.broken .malformed .malformed, [])

/-- Whether a token is a word or numeral. -/
def Token.isWord : Token → Bool
  | .null => true
  | .bool _ => true
  | .number _ => true
  | _ => false

theorem length_dropWhile_le {α : Type} (p : α → Bool) (l : List α) :
    (l.dropWhile p).length ≤ l.length :=
  (List.dropWhile_suffix p).length_le

theorem length_scanString {done : List Piece} {cs : List Char} {pieces : List Piece}
    {rest : List Char} (h : scanString done cs = .ok (pieces, rest)) :
    rest.length < cs.length := by
  fun_induction scanString done cs <;> simp_all <;> omega

theorem length_stringToken (cs : List Char) : (stringToken cs).2.length ≤ cs.length := by
  unfold stringToken
  split
  · next h => exact Nat.le_of_lt (length_scanString h)
  · simp

theorem length_scanWord {expected cs rest : List Char} (h : scanWord expected cs = .ok rest) :
    rest.length ≤ cs.length := by
  fun_induction scanWord expected cs with
  | case1 => simp_all
  | case2 => simp at h
  | case3 expected e rest' ih => exact Nat.le_succ_of_le (ih h)
  | case4 => simp at h

theorem length_wordToken (word : Token) (expected cs : List Char) :
    (wordToken word expected cs).2.length ≤ cs.length := by
  unfold wordToken
  split
  · next h => exact length_scanWord h
  · simp

theorem length_exponentSign (cs : List Char) : (exponentSign cs).2.length ≤ cs.length := by
  unfold exponentSign
  split <;> simp

theorem length_scanExponent (n : Numeral) (cs : List Char) :
    (scanExponent n cs).2.length ≤ cs.length := by
  unfold scanExponent
  split
  · simp
  · next c rest =>
    split
    · dsimp only
      split
      · simp
      · calc ((exponentSign rest).2.dropWhile Char.isDigit).length
            ≤ (exponentSign rest).2.length := length_dropWhile_le _ _
          _ ≤ rest.length := length_exponentSign rest
          _ ≤ (c :: rest).length := Nat.le_succ _
    · simp

theorem length_scanFraction (n : Numeral) (cs : List Char) :
    (scanFraction n cs).2.length ≤ cs.length := by
  unfold scanFraction
  split
  · next rest =>
    dsimp only
    split
    · simp
    · refine Nat.le_trans (length_scanExponent _ _) ?_
      refine Nat.le_trans (length_dropWhile_le _ _) ?_
      simp
  · exact length_scanExponent _ _

theorem length_numeralToken (negative : Bool) (cs : List Char) :
    (numeralToken negative cs).2.length ≤ cs.length := by
  unfold numeralToken
  dsimp only
  split
  · simp
  · simp
  · exact Nat.le_trans (length_scanFraction _ _) (length_dropWhile_le _ _)

/-- A numeral that starts with a digit takes that digit at least. -/
theorem length_numeralToken_cons (negative : Bool) {c : Char} (rest : List Char)
    (h : c.isDigit = true) : (numeralToken negative (c :: rest)).2.length ≤ rest.length := by
  unfold numeralToken
  dsimp only
  split
  · simp
  · simp
  · refine Nat.le_trans (length_scanFraction _ _) ?_
    rw [List.dropWhile_cons_of_pos h]
    exact length_dropWhile_le _ _

theorem length_nextToken (c : Char) (rest : List Char) :
    (nextToken c rest).2.length ≤ rest.length := by
  unfold nextToken
  split
  all_goals first
    | exact Nat.le_refl _
    | exact length_stringToken _
    | exact length_wordToken _ _ _
    | exact length_numeralToken _ _
    | skip
  split
  · next h => exact length_numeralToken_cons _ _ h
  · simp

/-- The tokens of a text. -/
def tokens : List Char → List Token
  | [] => []
  | c :: rest =>
    if isSpace c then tokens rest
    else
      let next := nextToken c rest
      if next.1.isWord && !endsWord next.2 then next.1 :: .seam :: tokens next.2
      else next.1 :: tokens next.2
termination_by cs => cs.length
decreasing_by
  · exact Nat.lt_succ_self _
  · exact Nat.lt_succ_of_le (length_nextToken c rest)
  · exact Nat.lt_succ_of_le (length_nextToken c rest)

end TaggedUnion.Json
