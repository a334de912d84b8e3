import TaggedUnion.Encoding
import TaggedUnion.Proofs.Construction
import TaggedUnion.Proofs.Document

/-!
# Registries captured as documents

A document that defines a registry is captured from it again, but for its version
(`Document.ofRegistry_of_toRegistry`), and the captured document defines the registry that it was
captured from (`Document.toRegistry_ofRegistry`).  What is captured are the variants as they stand
under their tag values.  Tag values are distinct, so each variant stands under its own, and the
values of the index are the variants in the order of the document (`Registry.values_index`).

Documents with the same bytes are the same, so capturing keeps the bytes of the fingerprint exactly
for documents of the current version (`Document.canonicalBytes_captured_iff`).
-/

namespace TaggedUnion

/-- The variants that are found under their tag values, in the order in which they were inserted. -/
theorem Registry.values_index (R : Registry) : R.index.map Prod.snd = R.variants := by
  rw [R.index_eq, List.map_map]
  exact List.map_id R.variants

namespace Document

variable {d : Document} {R : Registry}

theorem toRegistry_eq_ok_iff :
    d.toRegistry = .ok R ↔ R.tagField = d.tagField ∧ R.variants = d.variants :=
  Registry.ofDefinition_eq_ok_iff

/-- The document of a registry defines it. -/
theorem toRegistry_ofRegistry (R : Registry) : (ofRegistry R).toRegistry = .ok R :=
  toRegistry_eq_ok_iff.mpr ⟨rfl, rfl⟩

/-- The document of a registry is any document that defines it, in the current version. -/
theorem ofRegistry_of_toRegistry (h : d.toRegistry = .ok R) :
    ofRegistry R = { d with schemaVersion := some contractVersion } := by
  obtain ⟨htagField, hvariants⟩ := toRegistry_eq_ok_iff.mp h
  rw [ofRegistry, htagField, hvariants]

theorem canonicalBytes_captured_iff (h : d.toRegistry = .ok R) :
    (ofRegistry R).canonicalBytes = d.canonicalBytes ↔ d.schemaVersion = some contractVersion := by
  rw [ofRegistry_of_toRegistry h]
  constructor
  · intro hbytes
    have hsame : { d with schemaVersion := some contractVersion } = d :=
      canonicalBytes_injective hbytes
    exact (congrArg schemaVersion hsame).symm
  · intro hversion
    rw [← hversion]

/-- Nothing but the version is lost from a document that becomes a registry and is captured again,
and the bytes of the fingerprint change exactly if the version does.  A registry that is captured
and made again has the same tag field, the same variants in the same order and under the same tag
values, and decodes and encodes alike. -/
theorem capture_without_loss :
    (∀ (d : Document) (R : Registry), d.toRegistry = .ok R →
      ofRegistry R = { d with schemaVersion := some "1.0.0" } ∧
      (ofRegistry R).variants = R.index.map Prod.snd ∧
      ((ofRegistry R).canonicalBytes = d.canonicalBytes ↔ d.schemaVersion = some "1.0.0")) ∧
    ∀ (tagField : String) (variants : List Variant) (R : Registry),
      Registry.ofDefinition tagField variants = .ok R →
      ∃ R', (ofRegistry R).toRegistry = .ok R' ∧ R'.tagField = tagField ∧
        R'.variants = variants ∧ R'.index = R.index ∧
        (∀ options r, R'.decode options r = R.decode options r) ∧
        ∀ i, R'.encode i = R.encode i := by
  refine ⟨fun d R h => ⟨ofRegistry_of_toRegistry h, ?_, canonicalBytes_captured_iff h⟩, ?_⟩
  · exact R.values_index.symm
  · intro tagField variants R h
    obtain ⟨htagField, hvariants⟩ := Registry.ofDefinition_eq_ok_iff.mp h
    exact ⟨R, toRegistry_ofRegistry R, htagField, hvariants, rfl, fun _ _ => rfl, fun _ => rfl⟩

end Document

/-! ### A document to try the laws on -/

/-- A document of an earlier version. -/
def Sample.oldDocument : Document where
  schemaVersion := some "0.9.0"
  tagField := "type"
  variants := [Sample.reading,
    { tag := "heartbeat", name := "Heartbeat", description := some "without fields" }]

/-- The earlier document changes when it is captured; brought to the current version, it does not. -/
theorem Document.capture_oldDocument :
    ∃ R, Sample.oldDocument.toRegistry = .ok R ∧
      (ofRegistry R).variants = Sample.oldDocument.variants ∧
      (ofRegistry R).canonicalBytes ≠ Sample.oldDocument.canonicalBytes ∧
      ({ Sample.oldDocument with schemaVersion := some "1.0.0" } : Document).toRegistry = .ok R ∧
      (ofRegistry R).canonicalBytes =
        ({ Sample.oldDocument with schemaVersion := some "1.0.0" } : Document).canonicalBytes ∧
      ∃ R', (ofRegistry R).toRegistry = .ok R' ∧ R'.variants = R.variants := by
  obtain ⟨hdocuments, hregistries⟩ := capture_without_loss
  obtain ⟨R, hold⟩ : ∃ R, Sample.oldDocument.toRegistry = .ok R := ⟨_, rfl⟩
  have hnew : ({ Sample.oldDocument with schemaVersion := some "1.0.0" } : Document).toRegistry =
      .ok R := hold
  obtain ⟨hcaptured, -, hbytes⟩ := hdocuments _ R hold
  obtain ⟨-, -, hbytes'⟩ := hdocuments _ R hnew
  obtain ⟨R', hmade, -, hvariants, -⟩ := hregistries _ _ R hold
  refine ⟨R, hold, ?_, fun h => ?_, hnew, hbytes'.mpr rfl, R', hmade, ?_⟩
  · rw [hcaptured]
  · exact absurd (hbytes.mp h) (by decide)
  · rw [hvariants]
    exact (toRegistry_eq_ok_iff.mp hold).2.symm

end TaggedUnion
