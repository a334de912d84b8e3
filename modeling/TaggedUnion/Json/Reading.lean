import TaggedUnion.Json.Error

/-!
# Reading outlines

What an outline says when it is read as a value, passed over, or read as a text, a truth value, a
list or a name.  Every reader goes from left to right and reports the first thing that is wrong.
-/

namespace TaggedUnion.Json

/-! ### Ends of arrays and objects -/

/-- The end of an array or object all of whose items were wanted. -/
def Ending.close : Ending → Except Error Unit
  | .closed => .ok ()
  | .cut fault => .error fault.reading
  | .dangling fault => .error fault.reading
  | .brokenKey read _ => .error read.reading

/-- The end of an array or object that is passed over. -/
def Ending.skip : Ending → Except Error Unit
  | .closed => .ok ()
  | .cut fault => .error fault.skipping
  | .dangling fault => .error fault.skipping
  | .brokenKey _ skip => .error skip.skipping

/-- The end of an array or object where no further item is wanted. -/
def Ending.closeFull : Ending → Except Error Unit
  | .closed => .ok ()
  | .cut fault => .error fault.reading
  | .dangling _ => .error .malformed
  | .brokenKey _ _ => .error .malformed

namespace Outline

/-! ### Passing over -/

mutual

/-- Passes over a value. -/
def skip : Outline → Except Error Unit
  | .array items ending => do
    skipItems items
    ending.skip
  | .object members ending => do
    skipMembers members
    ending.skip
  | .headless => .error .malformed
  | .absent => .error .truncated
  | .brokenString _ skip => .error skip.skipping
  | .broken _ skip => .error skip.skipping
  | _ => .ok ()

def skipItems : List Outline → Except Error Unit
  | [] => .ok ()
  | item :: rest => do
    skip item
    skipItems rest

def skipMembers : List (Option String × Outline) → Except Error Unit
  | [] => .ok ()
  | (_, value) :: rest => do
    skip value
    skipMembers rest

end

/-! ### Values -/

/-- The number of a numeral. -/
def readNumber (n : Numeral) : Except Error Number :=
  match n.number? with
  | some value => .ok value
  | none => .error .malformed

/-- The text of a string. -/
def readString : Option String → Except Error String
  | some s => .ok s
  | none => .error .malformed

/-- How deeply arrays and objects may be nested. -/
def maxDepth : Nat :=
  127

mutual

/-- The value of an outline with at most `room` levels of arrays and objects.  Of members with the
same key the last one counts, in the place of the first. -/
def json (room : Nat) : Outline → Except Error Json
  | .null => .ok .null
  | .bool b => .ok (.bool b)
  | .number n => (readNumber n).map .number
  | .string text => (readString text).map .string
  | .array items ending =>
    match room with
    | 0 => .error .malformed
    | room + 1 => do
      let values ← jsonItems room items
      ending.close
      return .array values
  | .object members ending =>
    match room with
    | 0 => .error .malformed
    | room + 1 => do
      let values ← jsonMembers room [] members
      ending.close
      return .object values
  | .headless => .error .malformed
  | .absent => .error .truncated
  | .brokenString read _ => .error read.reading
  | .broken read _ => .error read.reading

def jsonItems (room : Nat) : List Outline → Except Error (List Json)
  | [] => .ok []
  | item :: rest => do
    let value ← json room item
    let values ← jsonItems room rest
    return value :: values

def jsonMembers (room : Nat) (done : List (String × Json)) :
    List (Option String × Outline) → Except Error (List (String × Json))
  | [] => .ok done
  | (key, item) :: rest => do
    let key ← readString key
    let value ← json room item
    jsonMembers room (Entries.insert key value done) rest

end

/-! ### Wanted types -/

/-- What an outline holds, for an error. -/
def found : Outline → Except Error Found
  | .null => .ok .null
  | .bool b => .ok (.bool b)
  | .number n => do
    match ← readNumber n with
    | .natural n => return .integer n.toNat
    | .negative i _ => return .integer i.toInt
    | .float x _ => return .float x
  | .string text => (readString text).map .string
  | .array _ _ => .ok .sequence
  | .object _ _ => .ok .map
  | .headless => .ok .map
  | .absent => .error .truncated
  | .brokenString read _ => .error read.reading
  | .broken read _ => .error read.reading

/-- The error of an outline that holds something else than wanted. -/
def unwanted {α : Type} (o : Outline) (wanted : String) : Except Error α := do
  throw (.mismatch (.wrongType (← o.found) wanted))

/-- Reads a text; `wanted` says what the text is for. -/
def text (wanted : String) : Outline → Except Error String
  | .string text => readString text
  | o => o.unwanted wanted

def boolean : Outline → Except Error Bool
  | .bool b => .ok b
  | o => o.unwanted "a boolean"

/-- Reads null as nothing and anything else with the given reader. -/
def option {α : Type} (read : Outline → Except Error α) : Outline → Except Error (Option α)
  | .null => .ok none
  | o => (read o).map some

/-- Reads the items of an array with the given reader. -/
def list {α : Type} (read : Outline → Except Error α) : Outline → Except Error (List α)
  | .array items ending => do
    let values ← items.mapM read
    ending.close
    return values
  | o => o.unwanted "a sequence"

/-! ### Names -/

/-- What a name stands for. -/
def nameValue {α : Type} (names : List (String × α)) (name : String) : Except Error α :=
  match names.lookup name with
  | some a => .ok a
  | none => .error (.mismatch (.unknownName name (Entries.keys names)))

/-- Reads the null that a name can be the key of. -/
def nothing : Outline → Except Error Unit
  | .null => .ok ()
  | o => o.unwanted "unit"

/-- Reads one of some names: a string, or an object with the name as its only key and null as its
value. -/
def name {α : Type} (names : List (String × α)) : Outline → Except Error α
  | .string text => do nameValue names (← readString text)
  | .brokenString read _ => .error read.reading
  | .absent => .error .truncated
  | .object [] ending => do
    ending.close
    throw .malformed
  | .object ((key, value) :: rest) ending => do
    let a ← nameValue names (← readString key)
    nothing value
    if rest.isEmpty then ending.closeFull else throw .malformed
    return a
  | _ => .error .malformed

end Outline

/-! ### Whole texts -/

/-- Reads tokens that make up one value. -/
def readWith {α : Type} (read : Outline → Except Error α) (ts : List Token) : Except Error α := do
  let (outline, rest) := Outline.ofTokens ts
  let a ← read outline
  if rest.isEmpty then return a else throw .malformed

/-- Reads a text that holds one value. -/
def parseWith {α : Type} (read : Outline → Except Error α) (text : List Char) : Except Error α :=
  readWith read (tokens text)

/-- The value of a text. -/
def parse (text : List Char) : Except Error Json :=
  parseWith (Outline.json Outline.maxDepth) text

end TaggedUnion.Json
