import TaggedUnion.Decoding

/-!
# Encoding instances

An instance is encoded as a record that starts with the tag field and goes on with the fields that
the variant declares, in declaration order.
-/

namespace TaggedUnion

/-- An instance whose tag value no variant has. -/
structure UnregisteredTag where
  tag : String
deriving DecidableEq

def UnregisteredTag.message (e : UnregisteredTag) : String :=
  "cannot encode instance with unregistered tag: " ++ e.tag

/-- The record of an instance, in canonical field order. -/
def Registry.encode (R : Registry) (i : Instance) : Except UnregisteredTag Record :=
  match R.get? i.tag with
  | none => .error ⟨i.tag⟩
  | some v => .ok (.ofEntries ((R.tagField, .string i.tag) :: v.select i.fields))

end TaggedUnion
