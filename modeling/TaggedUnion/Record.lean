import TaggedUnion.Entries
import TaggedUnion.Scalar

/-!
# Records

A record is a list of named scalars in insertion order with distinct names.
-/

namespace TaggedUnion

/-- Named scalars in insertion order, no name twice. -/
structure Record where
  entries : List (String × Scalar)
  nodup : (Entries.keys entries).Nodup
deriving DecidableEq

namespace Record

/-- The record without fields. -/
def empty : Record :=
  ⟨[], List.nodup_nil⟩

/-- The field names, in order. -/
def keys (r : Record) : List String :=
  Entries.keys r.entries

/-- The value of a field, if the record has the field. -/
def get? (r : Record) (name : String) : Option Scalar :=
  r.entries.lookup name

def contains (r : Record) (name : String) : Bool :=
  (r.get? name).isSome

/-- Sets a field: in its place if the record has it, else at the end. -/
def insert (r : Record) (name : String) (value : Scalar) : Record :=
  ⟨Entries.insert name value r.entries, Entries.nodup_keys_insert r.nodup⟩

/-- The record made by inserting entries in order. -/
def ofEntries (entries : List (String × Scalar)) : Record :=
  ⟨Entries.insertAll [] entries, Entries.nodup_keys_insertAll entries List.nodup_nil⟩

/-- Equality of records as maps: the order of the fields does not count, and values are compared as
values. -/
def equal (r s : Record) : Bool :=
  r.entries.length == s.entries.length &&
    r.entries.all fun (name, value) => (s.get? name).any value.equal

@[ext]
theorem ext {r s : Record} (h : r.entries = s.entries) : r = s := by
  cases r
  cases s
  simp_all

theorem entries_ofEntries {entries : List (String × Scalar)} (h : (Entries.keys entries).Nodup) :
    (ofEntries entries).entries = entries := by
  exact @Entries.insertAll_of_disjoint Scalar [] entries h

end Record

end TaggedUnion
