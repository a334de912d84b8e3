/-!
# Shapes of keyed values

A shape says how a value is put together from named parts: the names in declaration order, the type
of each part, and what an absent part stands for.  Reading a keyed value fills slots one by one;
`Shape.fill` then gives all parts, or the first one that is missing.
-/

namespace TaggedUnion

/-- How values of type `α` are put together from parts named by `Key`. -/
structure Shape (Key α : Type) where
  /-- The name of the type, for errors. -/
  title : String
  /-- The parts in declaration order. -/
  keys : List Key
  complete : ∀ k, k ∈ keys
  /-- The written name of a part. -/
  label : Key → String
  /-- The type of a part. -/
  Value : Key → Type
  /-- What a part is when it is absent, if it may be. -/
  fallback : (k : Key) → Option (Value k)
  build : ((k : Key) → Value k) → α

namespace Shape

variable {Key α : Type} (S : Shape Key α)

/-- The parts read so far. -/
abbrev Slots : Type :=
  (k : Key) → Option (S.Value k)

/-- No part read yet. -/
def noSlots : S.Slots :=
  fun _ => none

/-- Fills a slot. -/
def set [DecidableEq Key] (slots : S.Slots) (key : Key) (value : S.Value key) : S.Slots :=
  fun k => if h : k = key then some (h ▸ value) else slots k

/-- The part with a written name. -/
def key? (name : String) : Option Key :=
  S.keys.find? fun k => S.label k = name

/-- The parts with those absent replaced by what they stand for. -/
def part? (slots : S.Slots) (key : Key) : Option (S.Value key) :=
  (slots key).or (S.fallback key)

/-- The value of the filled slots, or the first part that is missing. -/
def fill (slots : S.Slots) : Except Key α :=
  match h : S.keys.find? fun k => (S.part? slots k).isNone with
  | some k => .error k
  | none => .ok <| S.build fun k =>
      (S.part? slots k).get <| by
        have := List.find?_eq_none.1 h k (S.complete k)
        simpa [← Option.isSome_iff_ne_none] using this

/-! ### Laws -/

section Laws

variable [DecidableEq Key] (slots : S.Slots)

@[simp]
theorem set_self (key : Key) (value : S.Value key) : S.set slots key value key = some value := by
  simp [set]

theorem set_of_ne {k key : Key} (h : k ≠ key) (value : S.Value key) :
    S.set slots key value k = slots k := by
  simp [set, h]

end Laws

theorem part?_of_slot {slots : S.Slots} {key : Key} {value : S.Value key}
    (h : slots key = some value) : S.part? slots key = some value := by
  rw [part?, h, Option.some_or]

/-- Filling succeeds when every part is there, and then uses exactly these parts. -/
theorem fill_of_parts {slots : S.Slots} {parts : (k : Key) → S.Value k}
    (h : ∀ k, S.part? slots k = some (parts k)) : S.fill slots = .ok (S.build parts) := by
  unfold fill
  split
  · next k hk =>
    have := List.find?_some hk
    rw [h k] at this
    simp at this
  · simp [h]

end Shape

end TaggedUnion
