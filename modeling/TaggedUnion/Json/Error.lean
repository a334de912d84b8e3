import TaggedUnion.Json.Outline
import TaggedUnion.Tree.Json

/-!
# Errors of reading JSON

A text either goes wrong as a text, or is well-formed up to a place where it does not say what the
reader wants.
-/

namespace TaggedUnion.Json

/-- What was found where something else was wanted. -/
inductive Found where
  | null
  | bool (b : Bool)
  | integer (i : Int)
  | float (x : Binary64)
  | string (s : String)
  | sequence
  | map
deriving DecidableEq

/-- What was found, in words. -/
def Found.label : Found → String
  | .null => "null"
  | .bool b => "boolean `" ++ (if b then "true" else "false") ++ "`"
  | .integer i => "integer `" ++ Decimal.intText i ++ "`"
  | .float x => "floating point `" ++ Tree.jsonFloat.write x ++ "`"
  | .string s => "string " ++ Text.quoted s
  | .sequence => "sequence"
  | .map => "map"

/-- How a value differs from what is wanted. -/
inductive Mismatch where
  | wrongType (found : Found) (wanted : String)
  | wrongLength (length : Nat) (title : String) (arity : Nat)
  | missingField (name : String)
  | duplicateField (name : String)
  | unknownName (name : String) (known : List String)
  | noAlternative (title : String)
deriving DecidableEq

/-- A name between grave accents. -/
def ticked (name : String) : String :=
  "`" ++ name ++ "`"

/-- The names that would have been known, in words. -/
def knownNames : List String → String
  | [] => "there are no variants"
  | [a] => "expected " ++ ticked a
  | [a, b] => "expected " ++ ticked a ++ " or " ++ ticked b
  | names => "expected one of " ++ ", ".intercalate (names.map ticked)

def Mismatch.message : Mismatch → String
  | .wrongType found wanted => "invalid type: " ++ found.label ++ ", expected " ++ wanted
  | .wrongLength length title arity =>
    "invalid length " ++ Decimal.natText length ++ ", expected struct " ++ title ++ " with " ++
      Decimal.natText arity ++ " elements"
  | .missingField name => "missing field " ++ ticked name
  | .duplicateField name => "duplicate field " ++ ticked name
  | .unknownName name known => "unknown variant " ++ ticked name ++ ", " ++ knownNames known
  | .noAlternative title => "data did not match any variant of untagged enum " ++ title

/-- Why a text could not be read. -/
inductive Error where
  | truncated
  /-- The text ends between the quotes of a string that is only passed over. -/
  | unclosedSkipped
  | malformed
  | mismatch (m : Mismatch)
deriving DecidableEq

/-- An error in words.  What is said of mismatches is what JSON readers say, but the texts of the
other errors are our own: they stand for whatever a JSON parser says of a text that ends too early
or is malformed.  The line and column that follow every message are left out. -/
def Error.message : Error → String
  | .truncated => "unexpected end of text"
  | .unclosedSkipped => "unexpected end of text"
  | .malformed => "malformed text"
  | .mismatch m => m.message

/-- A fault met by a reader. -/
def Fault.reading : Fault → Error
  | .truncated => .truncated
  | .unclosed => .truncated
  | .malformed => .malformed

/-- A fault met while passing over a value. -/
def Fault.skipping : Fault → Error
  | .truncated => .truncated
  | .unclosed => .unclosedSkipped
  | .malformed => .malformed

end TaggedUnion.Json
