import TaggedUnion.Document
import TaggedUnion.Proofs.Except
import TaggedUnion.Proofs.Json.Shape

/-!
# Schemas survive their trees

A tree writes a value with a shape part by part (`Shape.Written`): the parts that are written are
read as they were, and those left out are what an absent part stands for.  From this alone its
outline is read as the value (`Shape.Written.keyed_eq`).  Fields, variants and documents are written
so (`Field.written`, `Variant.written`, `Document.written`), each resting on the one before.
-/

namespace TaggedUnion

open Json

namespace Shape

variable {Key α : Type} {S : Shape Key α} {read : (k : Key) → Outline → Except Error (S.Value k)}
  {a : α} {t : Tree}

/-- How a tree writes a value part by part, so that the parts can be read back. -/
structure Written (S : Shape Key α) (read : (k : Key) → Outline → Except Error (S.Value k))
    (a : α) (t : Tree) where
  parts : (k : Key) → S.Value k
  /-- The parts that are not left out. -/
  writes : Key → Bool
  trees : Key → Tree
  build_eq : S.build parts = a
  tree_eq : t = .map ((S.keys.filter writes).map fun k => (S.label k, trees k))
  read_eq : ∀ k, writes k = true → read k (trees k).outline = .ok (parts k)
  fallback_eq : ∀ k, writes k = false → S.fallback k = some (parts k)

namespace Written

theorem keyed_eq [DecidableEq Key] (hS : S.Sound) (w : S.Written read a t) :
    t.outline.keyed S read = .ok a := by
  have hkeyed := Outline.keyed_written hS w.read_eq w.fallback_eq
  rwa [← w.tree_eq, w.build_eq] at hkeyed

end Written

end Shape

/-! ### Lists and optional texts -/

namespace Tree

/-- An optional text as a tree of its own. -/
def ofOption : Option String → Tree
  | none => .null
  | some s => .string s

theorem optionalText_ofOption (s? : Option String) :
    (ofOption s?).outline.optionalText = .ok s? := by
  cases s? <;> rfl

/-- What stands for an absent text is no text. -/
theorem some_none_eq {s? : Option String} (h : s?.isSome = false) : some none = some s? := by
  rw [Option.some.injEq, eq_comm, ← Option.not_isSome_iff_eq_none, h]
  exact Bool.false_ne_true

/-- A list of values that are read back is read back. -/
theorem list_outline {α : Type} {toTree : α → Tree} {read : Outline → Except Error α}
    {as : List α} (h : ∀ a ∈ as, read (toTree a).outline = .ok a) :
    (Tree.list (as.map toTree)).outline.list read = .ok as := by
  rw [outline, itemOutlines_eq_map, List.map_map, Outline.list]
  exact bind_eq_ok_iff.mpr ⟨as, mapM_map_eq_ok h, rfl⟩

end Tree

/-! ### Fields -/

theorem FieldType.ofOutline_label (t : FieldType) :
    FieldType.ofOutline (.string (some t.label)) = .ok t := by
  cases t <;> rfl

namespace Field

theorem shape_sound : Field.shape.Sound :=
  ⟨by decide, fun k => by cases k <;> rfl⟩

def written (f : Field) : Field.shape.Written Field.part f f.toTree where
  parts
    | .name => f.name
    | .type => f.type
    | .required => f.required
    | .description => f.description
  writes
    | .description => f.description.isSome
    | _ => true
  trees
    | .name => .string f.name
    | .type => .string f.type.label
    | .required => .bool f.required
    | .description => .ofOption f.description
  build_eq := rfl
  tree_eq := by
    unfold toTree
    cases f.description <;> rfl
  read_eq
    | .name, _ => rfl
    | .type, _ => FieldType.ofOutline_label f.type
    | .required, _ => rfl
    | .description, _ => Tree.optionalText_ofOption f.description
  fallback_eq
    | .name, hk => nomatch hk
    | .type, hk => nomatch hk
    | .required, hk => nomatch hk
    | .description, hk => Tree.some_none_eq hk

theorem ofOutline_toTree (f : Field) : Field.ofOutline f.toTree.outline = .ok f :=
  f.written.keyed_eq shape_sound

end Field

/-! ### Variants -/

namespace Variant

theorem shape_sound : Variant.shape.Sound :=
  ⟨by decide, fun k => by cases k <;> rfl⟩

def written (v : Variant) : Variant.shape.Written Variant.part v v.toTree where
  parts
    | .tag => v.tag
    | .name => v.name
    | .fields => v.fields
    | .description => v.description
  writes
    | .name => v.name ≠ ""
    | .description => v.description.isSome
    | _ => true
  trees
    | .tag => .string v.tag
    | .name => .string v.name
    | .fields => .list (v.fields.map Field.toTree)
    | .description => .ofOption v.description
  build_eq := rfl
  tree_eq := by
    unfold toTree
    by_cases hname : v.name = ""
    · cases v.description <;> simp [hname, shape, Tree.optional, Tree.ofOption]
    · cases v.description <;> simp [hname, shape, Tree.optional, Tree.ofOption]
  read_eq
    | .tag, _ => rfl
    | .name, _ => rfl
    | .fields, _ => Tree.list_outline fun f _ => f.ofOutline_toTree
    | .description, _ => Tree.optionalText_ofOption v.description
  fallback_eq
    | .tag, hk => nomatch hk
    | .name, hk => congrArg some (not_ne_iff.mp (of_decide_eq_false hk)).symm
    | .fields, hk => nomatch hk
    | .description, hk => Tree.some_none_eq hk

theorem ofOutline_toTree (v : Variant) : Variant.ofOutline v.toTree.outline = .ok v :=
  v.written.keyed_eq shape_sound

end Variant

/-! ### Documents -/

namespace Document

theorem shape_sound : Document.shape.Sound :=
  ⟨by decide, fun k => by cases k <;> rfl⟩

def written (d : Document) : Document.shape.Written Document.part d d.toTree where
  parts
    | .schemaVersion => d.schemaVersion
    | .tagField => d.tagField
    | .variants => d.variants
  writes
    | .schemaVersion => d.schemaVersion.isSome
    | _ => true
  trees
    | .schemaVersion => .ofOption d.schemaVersion
    | .tagField => .string d.tagField
    | .variants => .list (d.variants.map Variant.toTree)
  build_eq := rfl
  tree_eq := by
    unfold toTree
    cases d.schemaVersion <;> rfl
  read_eq
    | .schemaVersion, _ => Tree.optionalText_ofOption d.schemaVersion
    | .tagField, _ => rfl
    | .variants, _ => Tree.list_outline fun v _ => v.ofOutline_toTree
  fallback_eq
    | .schemaVersion, hk => Tree.some_none_eq hk
    | .tagField, hk => nomatch hk
    | .variants, hk => nomatch hk

theorem ofOutline_toTree (d : Document) : Document.ofOutline d.toTree.outline = .ok d :=
  d.written.keyed_eq shape_sound

end Document

end TaggedUnion
