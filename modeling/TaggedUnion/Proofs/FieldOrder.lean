import TaggedUnion.Proofs.RoundTrip
import TaggedUnion.Proofs.Violations

/-!
# The order of fields

Records that differ in the order of their fields give the same values by name
(`Record.get?_of_perm`).  Decoding looks fields up by name, in the order of the variant, except for
the undeclared names, which it lists in the order of the record.  So the two records are decoded to
the same instance, or have the same violations but for the order of the unexpected fields
(`Registry.decode_of_perm`).

Strict decoding accepts no undeclared field, hence a canonical record has all fields of the record
it comes from (`Registry.perm_of_encode_strict`), and two records have the same canonical record
exactly when they differ in the order of their fields only
(`Registry.canonical_eq_iff_perm`).
-/

namespace TaggedUnion

/-! ### Records as maps -/

namespace Record

variable {r s : Record}

theorem get?_of_perm (h : s.entries.Perm r.entries) (name : String) :
    s.get? name = r.get? name := by
  apply Option.ext
  intro value
  rw [get?_eq_some_iff, get?_eq_some_iff]
  exact h.mem_iff

theorem keys_perm (h : s.entries.Perm r.entries) : s.keys.Perm r.keys :=
  h.map Prod.fst

/-- Picked under names that leave no field out, the fields are those of the record. -/
theorem Picks.perm_entries {names : List String} {entries : List (String × Scalar)}
    (hn : names.Nodup) (hkeys : ∀ name ∈ r.keys, name ∈ names) (h : r.Picks names entries) :
    entries.Perm r.entries := by
  have hall : ∀ entry ∈ r.entries, decide (entry.1 ∈ names) = true := by
    intro entry hentry
    rw [decide_eq_true_eq]
    exact hkeys entry.1 (Entries.mem_keys_of_mem hentry)
  have hperm := h.perm_filter hn
  rwa [List.filter_eq_self.mpr hall] at hperm

end Record

/-! ### Violations -/

/-- Two lists of violations that differ at most in the order of the unexpected fields. -/
structure Violation.SameReport (es es' : List Violation) : Prop where
  declared : es.filter (fun e => !e.isUnexpected) = es'.filter fun e => !e.isUnexpected
  unexpected : (es.filter Violation.isUnexpected).Perm (es'.filter Violation.isUnexpected)

namespace Variant

variable (v : Variant) (tagField : String) (options : DecodeOptions) {r s : Record}

theorem unexpected_perm (h : s.entries.Perm r.entries) :
    (v.unexpected tagField options s).Perm (v.unexpected tagField options r) := by
  unfold unexpected
  cases options.unknownFields with
  | reject => exact (Record.keys_perm h).filter _
  | ignore => exact List.Perm.refl _

theorem violations_of_perm (h : s.entries.Perm r.entries) :
    Violation.SameReport (v.violations tagField options s) (v.violations tagField options r) := by
  constructor
  · rw [filter_declared_violations, filter_declared_violations]
    exact fieldViolations_congr fun name _ => Record.get?_of_perm h name
  · rw [filter_unexpected_violations, filter_unexpected_violations]
    exact (v.unexpected_perm tagField options h).map _

variable {v tagField options}

/-- Whether there are violations at all does not depend on the order either. -/
theorem violations_eq_nil_of_perm (h : s.entries.Perm r.entries)
    (hnil : v.violations tagField options r = []) : v.violations tagField options s = [] := by
  rw [violations_eq, List.append_eq_nil_iff, List.map_eq_nil_iff] at hnil ⊢
  refine ⟨?_, ?_⟩
  · rw [fieldViolations_congr fun name _ => Record.get?_of_perm h name]
    exact hnil.1
  · have hperm := v.unexpected_perm tagField options h
    rw [hnil.2] at hperm
    exact hperm.eq_nil

end Variant

/-! ### Decoding -/

namespace Registry

variable {R : Registry} {r s : Record} {i : Instance}

/-- Records that differ in the order of their fields are decoded alike. -/
theorem decode_of_perm (R : Registry) (options : DecodeOptions) (h : s.entries.Perm r.entries) :
    (∃ i, R.decode options s = .ok i ∧ R.decode options r = .ok i) ∨
    ∃ es es', R.decode options s = .error es ∧ R.decode options r = .error es' ∧
      Violation.SameReport es es' := by
  have hresolve : R.resolve s = R.resolve r := resolve_congr (Record.get?_of_perm h R.tagField)
  cases hr : R.resolve r with
  | error e =>
    refine Or.inr ⟨[e], [e], ?_, decode_of_resolve_error hr, rfl, List.Perm.refl _⟩
    exact decode_of_resolve_error (hresolve.trans hr)
  | ok v =>
    have hs : R.resolve s = .ok v := hresolve.trans hr
    by_cases hnil : v.violations R.tagField options r = []
    · refine Or.inl ⟨_, ?_, decode_of_violations_eq_nil hr hnil⟩
      rw [decode_of_violations_eq_nil hs (Variant.violations_eq_nil_of_perm h hnil),
        Variant.select_congr fun name _ => Record.get?_of_perm h name]
    · have hnil' : v.violations R.tagField options s ≠ [] :=
        fun hs => hnil (Variant.violations_eq_nil_of_perm h.symm hs)
      exact Or.inr ⟨_, _, decode_of_violations_ne_nil hs hnil', decode_of_violations_ne_nil hr hnil,
        v.violations_of_perm R.tagField options h⟩

theorem decode_eq_ok_of_perm {options : DecodeOptions} (h : s.entries.Perm r.entries)
    (hr : R.decode options r = .ok i) : R.decode options s = .ok i := by
  rcases R.decode_of_perm options h with ⟨j, hs, hj⟩ | ⟨_, _, _, herror, _⟩
  · rw [hs, ← hj, hr]
  · rw [hr] at herror
    cases herror

/-- The canonical record of a strictly decoded record has the same fields. -/
theorem perm_of_encode_strict (h : R.decode .strict r = .ok i) (hencode : R.encode i = .ok s) :
    s.entries.Perm r.entries := by
  obtain ⟨v, s', hv, hconforms, -, -, hencode', -, hcanonical⟩ := exists_encode_of_decode h
  obtain rfl : s = s' := Except.ok.inj (hencode.symm.trans hencode')
  apply hcanonical.perm_entries (nodup_canonicalNames hv.registered)
  intro name hname
  exact List.mem_cons.mpr (hconforms.declared rfl name hname)

/-- Canonical records tell strictly decoded records apart up to the order of their fields, and no
order of the fields makes a difference to decoding but for that of the unexpected fields in its
report. -/
theorem canonical_eq_iff_perm (R : Registry) :
    (∀ r₁ r₂ i₁ i₂, R.decode .strict r₁ = .ok i₁ → R.decode .strict r₂ = .ok i₂ →
      ∃ s₁ s₂, R.encode i₁ = .ok s₁ ∧ R.encode i₂ = .ok s₂ ∧
        (s₁.entries = s₂.entries ↔ r₁.entries.Perm r₂.entries)) ∧
    ∀ options r r', r'.entries.Perm r.entries →
      (∃ i, R.decode options r = .ok i ∧ R.decode options r' = .ok i) ∨
      ∃ es es', R.decode options r = .error es ∧ R.decode options r' = .error es' ∧
        es.filter (fun e => !e.isUnexpected) = es'.filter (fun e => !e.isUnexpected) ∧
        (es.filter Violation.isUnexpected).Perm (es'.filter Violation.isUnexpected) := by
  refine ⟨?_, ?_⟩
  · intro r₁ r₂ i₁ i₂ h₁ h₂
    obtain ⟨-, s₁, -, -, -, -, hencode₁, -⟩ := exists_encode_of_decode h₁
    obtain ⟨-, s₂, -, -, -, -, hencode₂, -⟩ := exists_encode_of_decode h₂
    refine ⟨s₁, s₂, hencode₁, hencode₂, fun heq => ?_, fun hperm => ?_⟩
    · have hperm₁ := perm_of_encode_strict h₁ hencode₁
      have hperm₂ := perm_of_encode_strict h₂ hencode₂
      rw [heq] at hperm₁
      exact hperm₁.symm.trans hperm₂
    · -- The records are decoded to one instance, which has one canonical record.
      have hi : i₁ = i₂ := Except.ok.inj (h₁.symm.trans (decode_eq_ok_of_perm hperm h₂))
      rw [hi] at hencode₁
      rw [Except.ok.inj (hencode₁.symm.trans hencode₂)]
  · intro options r r' hperm
    rcases R.decode_of_perm options hperm.symm with hok | ⟨es, es', h, h', hes⟩
    · exact Or.inl hok
    · exact Or.inr ⟨es, es', h, h', hes.declared, hes.unexpected⟩

end Registry

/-! ### Readings, rearranged -/

namespace Sample

/-- The record in another order. -/
def rearranged : Record where
  entries := [("sensor", .string "t1"), ("calibrated", .null), ("value", .int 20),
    ("type", .string "reading")]
  nodup := by decide

/-- A reading without its sensor and with two fields that are not declared. -/
def faulty : Record where
  entries := [("type", .string "reading"), ("b", .null), ("a", .bool true), ("value", .int 20)]
  nodup := by decide

def faultyRearranged : Record where
  entries := [("a", .bool true), ("value", .int 20), ("b", .null), ("type", .string "reading")]
  nodup := by decide

end Sample

theorem Registry.canonical_eq_rearranged :
    Sample.readings.decode .strict Sample.record = .ok Sample.decoded ∧
    Sample.readings.decode .strict Sample.rearranged = .ok Sample.decoded ∧
    Sample.record.entries.Perm Sample.rearranged.entries ∧
    ∃ es es', Sample.readings.decode .strict Sample.faulty = .error es ∧
      Sample.readings.decode .strict Sample.faultyRearranged = .error es' ∧ es ≠ es' ∧
      es.filter (fun e => !e.isUnexpected) = es'.filter (fun e => !e.isUnexpected) ∧
      (es.filter Violation.isUnexpected).Perm (es'.filter Violation.isUnexpected) := by
  obtain ⟨hcanonical, horder⟩ := canonical_eq_iff_perm Sample.readings
  have h : Sample.readings.decode .strict Sample.record = .ok Sample.decoded := rfl
  have h' : Sample.readings.decode .strict Sample.rearranged = .ok Sample.decoded := rfl
  obtain ⟨s, s', hs, hs', hiff⟩ := hcanonical _ _ _ _ h h'
  have hsame : s = s' := Except.ok.inj (hs.symm.trans hs')
  refine ⟨h, h', hiff.mp (by rw [hsame]), ?_⟩
  have hfaulty : Sample.readings.decode .strict Sample.faulty =
      .error [.missingField "sensor", .unexpectedField "b", .unexpectedField "a"] := rfl
  have hfaulty' : Sample.readings.decode .strict Sample.faultyRearranged =
      .error [.missingField "sensor", .unexpectedField "a", .unexpectedField "b"] := rfl
  rcases horder .strict Sample.faulty Sample.faultyRearranged (by decide) with
    ⟨i, hi, -⟩ | ⟨es, es', hes, hes', hreport⟩
  · rw [hfaulty] at hi
    cases hi
  · refine ⟨es, es', hes, hes', ?_, hreport⟩
    rw [← Except.error.inj (hfaulty.symm.trans hes), ← Except.error.inj (hfaulty'.symm.trans hes')]
    decide

end TaggedUnion
