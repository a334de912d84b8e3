import TaggedUnion.Proofs.Conformance

/-!
# Making registries

A registry is made from exactly the well-formed definitions, and any other definition gives its
first problem (`Registry.ofDefinition_eq_error_iff`).  Nothing of the definition is lost: tag
values are distinct, so inserting the variants under their tag values keeps all of them in order
(`Registry.index_eq`), and looking a tag value up in this index is what `get?` does
(`Registry.lookup_index`).

A builder is a definition in the making.  Each call sets the tag field or adds variants behind
those there are (`Builder.tagField_apply`, `Builder.variants_apply`), so a sequence of calls leaves
the tag field that was set last and all variants in the order of the calls
(`Builder.tagField_applyAll`, `Builder.variants_applyAll`).
-/

namespace TaggedUnion.Registry

variable {R : Registry} {tagField tag : String} {variants : List Variant} {v : Variant}

/-! ### Definitions -/

theorem exists_ofDefinition_eq_ok_iff :
    (∃ R, ofDefinition tagField variants = .ok R) ↔ Definition.WellFormed tagField variants := by
  constructor
  · rintro ⟨R, h⟩
    obtain ⟨rfl, rfl⟩ := ofDefinition_eq_ok_iff.mp h
    exact R.wellFormed
  · intro h
    have hsound := (Definition.problems_eq_nil_iff tagField variants).mpr h
    exact ⟨⟨tagField, variants, hsound⟩, ofDefinition_eq_ok_iff.mpr ⟨rfl, rfl⟩⟩

theorem ofDefinition_eq_error_iff {p : Definition.Problem} :
    ofDefinition tagField variants = .error p ↔
      (Definition.problems tagField variants).head? = some p := by
  unfold ofDefinition
  split
  · next h => simp [h]
  · next problem rest h => simp [h]

/-! ### Variants by tag value -/

/-- The variants under their tag values, inserted one after the other. -/
def index (R : Registry) : List (String × Variant) :=
  Entries.insertAll [] (R.variants.map fun v => (v.tag, v))

/-- No variant takes the place of another. -/
theorem index_eq (R : Registry) : R.index = R.variants.map fun v => (v.tag, v) := by
  have hn : (Entries.keys (R.variants.map fun v => (v.tag, v))).Nodup := by
    rw [Entries.keys_map]
    exact R.wellFormed.tags_distinct
  exact @Entries.insertAll_of_disjoint Variant [] _ hn

theorem lookup_index (R : Registry) (tag : String) : R.index.lookup tag = R.get? tag := by
  have hn : (Entries.keys R.index).Nodup := by
    rw [index_eq, Entries.keys_map]
    exact R.wellFormed.tags_distinct
  apply Option.ext
  intro v
  rw [Entries.lookup_eq_some_iff_mem hn, get?_eq_some_iff, index_eq, List.mem_map]
  constructor
  · rintro ⟨w, hw, heq⟩
    obtain ⟨rfl, rfl⟩ := Prod.mk.inj heq
    exact ⟨hw, rfl⟩
  · rintro ⟨hv, rfl⟩
    exact ⟨v, hv, rfl⟩

theorem get?_eq_none_iff : R.get? tag = none ↔ tag ∉ R.tags := by
  rw [← lookup_index, Entries.lookup_eq_none_iff_not_mem, index_eq, Entries.keys_map]
  rfl

theorem contains_iff : R.contains tag = true ↔ tag ∈ R.tags := by
  unfold contains
  rw [Option.isSome_iff_ne_none, ne_eq, get?_eq_none_iff, not_not]

theorem lookup_of_get?_eq_some (h : R.get? tag = some v) : R.lookup tag = .ok v := by
  unfold lookup
  rw [h]

theorem lookup_of_get?_eq_none (h : R.get? tag = none) : R.lookup tag = .error ⟨tag⟩ := by
  unfold lookup
  rw [h]

/-- Only one of the variants has the tag value of a variant. -/
theorem filter_tag_eq (hv : v ∈ R.variants) :
    (R.variants.filter fun w => w.tag = v.tag) = [v] := by
  have hn : R.variants.Nodup := List.Nodup.of_map _ R.wellFormed.tags_distinct
  -- Having the tag value of `v` is the same as being `v`.
  have hfilter : (R.variants.filter fun w => w.tag = v.tag) = R.variants.filter (· = v) := by
    apply List.filter_congr
    intro w hw
    rw [decide_eq_decide]
    constructor
    · exact List.inj_on_of_nodup_map R.wellFormed.tags_distinct hw hv
    · rintro rfl
      rfl
  rw [hfilter, List.filter_eq, List.count_eq_one_of_mem hn hv, List.replicate_one]

/-! ### Calls of a builder -/

namespace Builder

/-- A call of a builder. -/
inductive Call where
  | tagField (name : String)
  | variant (v : Variant)
  | variants (vs : List Variant)

/-- The builder after a call. -/
def apply (b : Builder) : Call → Builder
  | .tagField name => b.withTagField name
  | .variant v => b.withVariant v
  | .variants vs => b.withVariants vs

/-- The builder after some calls. -/
def applyAll (b : Builder) (calls : List Call) : Builder :=
  calls.foldl apply b

/-- The tag field that a call sets, if it sets one. -/
def Call.tagField? : Call → Option String
  | .tagField name => some name
  | _ => none

/-- The variants that a call adds. -/
def Call.added : Call → List Variant
  | .tagField _ => []
  | .variant v => [v]
  | .variants vs => vs

/-- The tag field that is set last, or the given one if none is set. -/
def lastTagField (start : String) (calls : List Call) : String :=
  (calls.filterMap Call.tagField?).getLast?.getD start

theorem tagField_apply (b : Builder) (c : Call) :
    (b.apply c).tagField = c.tagField?.getD b.tagField := by
  cases c <;> rfl

theorem variants_apply (b : Builder) (c : Call) :
    (b.apply c).variants = b.variants ++ c.added := by
  cases c with
  | tagField name => exact (List.append_nil _).symm
  | variant v => rfl
  | variants vs => rfl

theorem lastTagField_cons (start : String) (c : Call) (calls : List Call) :
    lastTagField start (c :: calls) = lastTagField (c.tagField?.getD start) calls := by
  unfold lastTagField
  cases hc : c.tagField? with
  | none => rw [List.filterMap_cons_none hc, Option.getD_none]
  | some name => rw [List.filterMap_cons_some hc, List.getLast?_cons, Option.getD_some,
      Option.getD_some]

theorem tagField_applyAll (b : Builder) (calls : List Call) :
    (b.applyAll calls).tagField = lastTagField b.tagField calls := by
  induction calls generalizing b with
  | nil => rfl
  | cons c calls ih =>
    rw [lastTagField_cons, ← tagField_apply]
    exact ih (b.apply c)

theorem variants_applyAll (b : Builder) (calls : List Call) :
    (b.applyAll calls).variants = b.variants ++ calls.flatMap Call.added := by
  induction calls generalizing b with
  | nil => exact (List.append_nil _).symm
  | cons c calls ih =>
    rw [List.flatMap_cons, ← List.append_assoc, ← variants_apply]
    exact ih (b.apply c)

end Builder

/-! ### What is made -/

/-- Exactly the well-formed definitions make registries, and any other gives its first problem.
The registry holds the tag field and all variants in order; a tag value finds the one variant that
has it, and no other tag value finds anything.  A builder makes what the tag field set last and all
variants added make. -/
theorem ofDefinition_accepts_iff_wellFormed :
    (∀ tagField variants,
      ((∃ R, ofDefinition tagField variants = .ok R) ↔
        Definition.WellFormed tagField variants) ∧
      (¬ Definition.WellFormed tagField variants →
        ∃ p, (Definition.problems tagField variants).head? = some p ∧
          ofDefinition tagField variants = .error p) ∧
      ∀ R, ofDefinition tagField variants = .ok R →
        R.tagField = tagField ∧ R.variants = variants ∧ R.tags = variants.map Variant.tag ∧
        R.size = variants.length ∧ R.index = variants.map (fun v => (v.tag, v)) ∧
        ∀ tag, R.index.lookup tag = R.get? tag ∧
          (∀ v ∈ variants, v.tag = tag → (variants.filter fun w => w.tag = tag) = [v] ∧
            R.get? tag = some v ∧ R.lookup tag = .ok v ∧ R.contains tag = true) ∧
          (tag ∉ variants.map Variant.tag →
            R.get? tag = none ∧ R.lookup tag = .error ⟨tag⟩ ∧ R.contains tag = false)) ∧
    ∀ calls : List Builder.Call,
      (Builder.applyAll {} calls).build =
        ofDefinition (Builder.lastTagField "tag" calls) (calls.flatMap Builder.Call.added) := by
  refine ⟨fun tagField variants => ⟨exists_ofDefinition_eq_ok_iff, ?_, ?_⟩, fun calls => ?_⟩
  · intro h
    rw [← exists_ofDefinition_eq_ok_iff] at h
    cases hmade : ofDefinition tagField variants with
    | error p => exact ⟨p, ofDefinition_eq_error_iff.mp hmade, rfl⟩
    | ok R => exact absurd ⟨R, hmade⟩ h
  · intro R h
    obtain ⟨rfl, rfl⟩ := ofDefinition_eq_ok_iff.mp h
    refine ⟨rfl, rfl, rfl, rfl, R.index_eq, fun tag => ⟨R.lookup_index tag, ?_, ?_⟩⟩
    · rintro v hv rfl
      have hget := get?_tag hv
      exact ⟨filter_tag_eq hv, hget, lookup_of_get?_eq_some hget,
        contains_iff.mpr (List.mem_map_of_mem hv)⟩
    · intro htag
      have hget := get?_eq_none_iff.mpr htag
      refine ⟨hget, lookup_of_get?_eq_none hget, ?_⟩
      rw [← Bool.not_eq_true, contains_iff]
      exact htag
  · unfold Builder.build
    rw [Builder.tagField_applyAll, Builder.variants_applyAll]
    rfl

/-- The readings make a registry, and fail to make one when their tag field is one of the fields or
a tag value is used again. -/
theorem ofDefinition_readings :
    (∃ R, ofDefinition "type" [Sample.reading, { tag := "heartbeat" }] = .ok R) ∧
    Sample.readings.lookup "heartbeat" = .ok { tag := "heartbeat" } ∧
    Sample.readings.lookup "alarm" = .error ⟨"alarm"⟩ ∧
    ofDefinition "seq" [Sample.reading, { tag := "reading" }] =
      .error (.reservedField "reading" "seq") ∧
    (Builder.applyAll {} [.variant Sample.reading, .tagField "kind", .tagField "type",
      .variants [{ tag := "heartbeat" }]]).build = .ok Sample.readings := by
  obtain ⟨hdefinitions, hbuilder⟩ := ofDefinition_accepts_iff_wellFormed
  have hreadings : ofDefinition "type" [Sample.reading, { tag := "heartbeat" }] =
      .ok Sample.readings := rfl
  obtain ⟨-, -, -, -, -, hlookup⟩ := (hdefinitions _ _).2.2 _ hreadings
  obtain ⟨-, hheartbeat, -⟩ := hlookup "heartbeat"
  obtain ⟨-, -, halarm⟩ := hlookup "alarm"
  have hproblems : Definition.problems "seq" [Sample.reading, { tag := "reading" }] =
      [.reservedField "reading" "seq", .duplicateTag "reading"] := rfl
  have hill : ¬ Definition.WellFormed "seq" [Sample.reading, { tag := "reading" }] := by
    rw [← Definition.problems_eq_nil_iff, hproblems]
    exact List.cons_ne_nil _ _
  obtain ⟨p, hp, herror⟩ := (hdefinitions _ _).2.1 hill
  rw [hproblems, List.head?_cons, Option.some.injEq] at hp
  refine ⟨⟨_, hreadings⟩, ?_, ?_, ?_, ?_⟩
  · exact (hheartbeat _ (by simp) rfl).2.2.1
  · exact (halarm (by decide)).2.1
  · rw [herror, hp]
  · rw [hbuilder]
    rfl

end TaggedUnion.Registry
