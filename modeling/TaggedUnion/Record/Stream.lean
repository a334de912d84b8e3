import TaggedUnion.Record.Json
import TaggedUnion.Text.Blank

/-!
# Streams of records

A text holds records either as one JSON array or as JSON values one after the other.  The whole text
is parsed before the first value is taken for a record.
-/

namespace TaggedUnion.Record

open Json

/-- Why a text is not a stream of records.  Records are counted from one. -/
inductive StreamError where
  | json (e : Error)
  | invalidRecord (index : Nat) (e : RecordError)
deriving DecidableEq

/-- All values of some tokens, one after the other. -/
def valuesOfTokens : List Token → Except Error (List Json)
  | [] => .ok []
  | t :: ts =>
    let (outline, rest) := Outline.value t ts
    do
      let value ← outline.json Outline.maxDepth
      let values ← valuesOfTokens rest.val
      return value :: values
termination_by ts => ts.length
decreasing_by exact Nat.lt_succ_of_le rest.property

/-- The items of a text that holds one array. -/
def arrayValues (text : List Char) : Except Error (List Json) := do
  match ← Json.parse text with
  | .array items => return items
  | _ => throw .malformed

/-- Whether a text is taken for one array. -/
def isArrayText (text : List Char) : Bool :=
  (Text.dropBlank text).head? = some '['

/-- The JSON values of a stream. -/
def streamValues (text : List Char) : Except Error (List Json) :=
  if isArrayText text then arrayValues text else valuesOfTokens (tokens text)

/-- Takes values for records, counting from `index`. -/
def convertFrom (index : Nat) : List Json → Except StreamError (List Record)
  | [] => .ok []
  | value :: rest =>
    match Record.ofJson value with
    | .error e => .error (.invalidRecord index e)
    | .ok r => (convertFrom (index + 1) rest).map (r :: ·)

/-- The records of a stream. -/
def readStream (text : List Char) : Except StreamError (List Record) :=
  match streamValues text with
  | .error e => .error (.json e)
  | .ok values => convertFrom 1 values

end TaggedUnion.Record
