import TaggedUnion.Json.Reading
import TaggedUnion.Shape

/-!
# Keyed values in JSON

A value with a shape is read from an object, whose keys name the parts in any order, or from an
array, which holds the parts in declaration order.  Unknown keys are passed over and a known key
stands at most once.
-/

namespace TaggedUnion.Json.Outline

variable {Key α : Type} [DecidableEq Key] (S : Shape Key α)
  (read : (k : Key) → Outline → Except Error (S.Value k))

/-- Reads the members of an object into slots. -/
def readMembers (slots : S.Slots) : List (Option String × Outline) → Except Error S.Slots
  | [] => .ok slots
  | (name, value) :: rest => do
    let name ← readString name
    match S.key? name with
    | none => do
      skip value
      readMembers slots rest
    | some k =>
      if (slots k).isSome then throw (.mismatch (.duplicateField (S.label k)))
      else do
        let part ← read k value
        readMembers (S.set slots k part) rest

/-- Reads the items of an array into the slots of the given parts, one after the other. -/
def readItems (slots : S.Slots) : List Key → List Outline → Except Error S.Slots
  | k :: keys, item :: items => do
    let part ← read k item
    readItems (S.set slots k part) keys items
  | _, _ => .ok slots

/-- Reads a value with a shape. -/
def keyed : Outline → Except Error α
  | .object members ending => do
    let slots ← readMembers S read S.noSlots members
    ending.close
    match S.fill slots with
    | .ok a => return a
    | .error k => throw (.mismatch (.missingField (S.label k)))
  | .array items ending => do
    let slots ← readItems S read S.noSlots S.keys items
    if items.length < S.keys.length then ending.close
    match S.fill slots with
    | .ok a =>
      if items.length = S.keys.length then ending.closeFull
      if S.keys.length < items.length then throw .malformed
      return a
    | .error k =>
      throw (.mismatch (.wrongLength (S.keys.idxOf k) S.title S.keys.length))
  | .headless => .error .malformed
  | o => o.unwanted ("struct " ++ S.title)

end TaggedUnion.Json.Outline
