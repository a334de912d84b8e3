import TaggedUnion.Encoding
import TaggedUnion.Proofs.Construction
import Mathlib.Data.List.Perm.Basic

/-!
# Variants do not depend on each other

Decoding a record and encoding an instance look at one variant of a registry, the one that has the
tag value at hand.  Tag values are distinct, so which variant that is does not depend on the other
variants or on the order of all of them (`Registry.get?_eq_of_mem_iff`), and neither does what is
made of it (`Registry.decode_eq_of_get?`, `Registry.encode_eq_of_get?`).

Rearranging the variants of a registry always gives a registry again
(`Definition.WellFormed.of_perm`), and every tag value finds the same variant in it.
-/

namespace TaggedUnion

/-- What makes a definition well-formed has nothing to do with the order of its variants. -/
theorem Definition.WellFormed.of_perm {tagField : String} {vs ws : List Variant}
    (h : WellFormed tagField vs) (hperm : vs.Perm ws) : WellFormed tagField ws where
  tagField_nonblank := h.tagField_nonblank
  variants_nonempty := fun hnil => h.variants_nonempty (hperm.trans (.of_eq hnil)).eq_nil
  tags_nonempty := fun v hv => h.tags_nonempty v (hperm.mem_iff.mpr hv)
  tags_distinct := (hperm.map Variant.tag).nodup_iff.mp h.tags_distinct
  fields := fun v hv => h.fields v (hperm.mem_iff.mpr hv)

namespace Registry

variable {R S : Registry} {tagField tag : String} {vs ws : List Variant} {r : Record}
  {i : Instance}

/-! ### One variant at a time -/

/-- Registries whose variants with a tag value are the same find the same one. -/
theorem get?_eq_of_mem_iff (h : ∀ v, v.tag = tag → (v ∈ R.variants ↔ v ∈ S.variants)) :
    R.get? tag = S.get? tag := by
  apply Option.ext
  intro v
  rw [get?_eq_some_iff, get?_eq_some_iff]
  exact and_congr_left (h v)

theorem resolve_eq_of_get? (htagField : R.tagField = S.tagField)
    (h : ∀ tag, r.get? S.tagField = some (.string tag) → R.get? tag = S.get? tag) :
    R.resolve r = S.resolve r := by
  unfold resolve
  rw [htagField]
  split
  · rfl
  · rfl
  · next tag htag => rw [h tag htag]
  · rfl

/-- Of the variants, decoding depends on the one under the tag value of the record, if it has
one. -/
theorem decode_eq_of_get? (htagField : R.tagField = S.tagField)
    (h : ∀ tag, r.get? S.tagField = some (.string tag) → R.get? tag = S.get? tag)
    (options : DecodeOptions) : R.decode options r = S.decode options r := by
  unfold decode
  rw [resolve_eq_of_get? htagField h, htagField]

theorem encode_eq_of_get? (htagField : R.tagField = S.tagField)
    (h : R.get? i.tag = S.get? i.tag) : R.encode i = S.encode i := by
  unfold encode
  rw [h, htagField]

/-! ### Other variants -/

/-- Where two registries with the same tag field have the same variant with a tag value, or both
have none, they decode every record with this tag value and encode every instance with it alike,
whatever their other variants are.  The variants of a registry make one in any order, and it decodes
all records and encodes all instances as the first one does. -/
theorem decode_encode_local (hR : ofDefinition tagField vs = .ok R) :
    (∀ ws S, ofDefinition tagField ws = .ok S →
      ∀ tag, (∀ v, v.tag = tag → (v ∈ vs ↔ v ∈ ws)) →
        (∀ r options, r.get? tagField = some (.string tag) →
          R.decode options r = S.decode options r) ∧
        ∀ i : Instance, i.tag = tag → R.encode i = S.encode i) ∧
    ∀ ws, vs.Perm ws → ∃ S, ofDefinition tagField ws = .ok S ∧
      (∀ options r, R.decode options r = S.decode options r) ∧
      ∀ i, R.encode i = S.encode i := by
  obtain ⟨rfl, rfl⟩ := ofDefinition_eq_ok_iff.mp hR
  constructor
  · intro ws S hS tag hvariants
    obtain ⟨htagField, rfl⟩ := ofDefinition_eq_ok_iff.mp hS
    have hget : R.get? tag = S.get? tag := get?_eq_of_mem_iff hvariants
    refine ⟨fun r options htag => ?_, fun i hi => ?_⟩
    · apply decode_eq_of_get? htagField.symm
      intro tag' htag'
      -- The record has no tag value but the one that the registries agree on.
      rw [htagField, htag] at htag'
      cases htag'
      exact hget
    · exact encode_eq_of_get? htagField.symm (hi ▸ hget)
  · intro ws hperm
    obtain ⟨S, hS⟩ := exists_ofDefinition_eq_ok_iff.mpr (R.wellFormed.of_perm hperm)
    obtain ⟨htagField, rfl⟩ := ofDefinition_eq_ok_iff.mp hS
    have hget : ∀ tag, R.get? tag = S.get? tag :=
      fun _ => get?_eq_of_mem_iff fun _ _ => hperm.mem_iff
    exact ⟨S, hS, fun options r => decode_eq_of_get? htagField.symm (fun tag _ => hget tag) options,
      fun i => encode_eq_of_get? htagField.symm (hget i.tag)⟩

end Registry

/-! ### Other registries to try the law on -/

/-- The readings behind a new variant, and with another declaration of the heartbeats. -/
def Sample.busyReadings : Registry where
  tagField := "type"
  variants := [{ tag := "alarm", fields := [{ name := "value", type := .bool }] },
    { tag := "heartbeat", fields := [{ name := "seq", type := .int }] }, Sample.reading]
  sound := by decide

theorem Registry.decode_encode_busyReadings :
    Sample.readings.decode .strict Sample.noisyRecord =
      Sample.busyReadings.decode .strict Sample.noisyRecord ∧
    Sample.readings.encode Sample.decoded = Sample.busyReadings.encode Sample.decoded ∧
    ∃ S, ofDefinition "type" [{ tag := "heartbeat" }, Sample.reading] = .ok S ∧
      ∀ options r, Sample.readings.decode options r = S.decode options r := by
  have hreadings : ofDefinition "type" Sample.readings.variants = .ok Sample.readings := rfl
  have hbusy : ofDefinition "type" Sample.busyReadings.variants = .ok Sample.busyReadings := rfl
  have hvariants : ∀ v : Variant, v.tag = "reading" →
      (v ∈ Sample.readings.variants ↔ v ∈ Sample.busyReadings.variants) := by
    intro v hv
    simp only [Sample.readings, Sample.busyReadings, List.mem_cons, List.not_mem_nil, or_false]
    constructor
    · rintro (rfl | rfl)
      · exact .inr (.inr rfl)
      · exact absurd hv (by decide)
    · rintro (rfl | rfl | rfl)
      · exact absurd hv (by decide)
      · exact absurd hv (by decide)
      · exact .inl rfl
  obtain ⟨hlocal, hperm⟩ := decode_encode_local hreadings
  obtain ⟨hdecode, hencode⟩ := hlocal _ _ hbusy "reading" hvariants
  obtain ⟨S, hS, hsame, -⟩ := hperm [{ tag := "heartbeat" }, Sample.reading] (.swap _ _ [])
  exact ⟨hdecode _ _ rfl, hencode _ rfl, S, hS, hsame⟩

end TaggedUnion
