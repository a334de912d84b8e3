import TaggedUnion.Encoding
import TaggedUnion.Proofs.Conformance

/-!
# Decoding and encoding undo each other

Encoding writes the tag field and then what the instance has under the declared names
(`exists_encode`).  For an instance that decoding gave, this is the record that was decoded, picked
under the names of the variant in canonical order (`exists_encode_of_decode`).  So nothing is lost
but the order of the fields and the undeclared ones, and decoding the canonical record gives the
instance back, whatever the options (`decode_of_encode`).
-/

namespace TaggedUnion.Registry

variable {R : Registry} {options options' : DecodeOptions} {r : Record} {v : Variant} {i : Instance}

/-! ### Encoding -/

/-- The record of an instance whose tag value is registered. -/
theorem exists_encode {rest : List (String × Scalar)} (hv : v ∈ R.variants) (htag : i.tag = v.tag)
    (hrest : i.fields.Picks v.fieldNames rest) :
    ∃ r', R.encode i = .ok r' ∧ r'.entries = (R.tagField, .string v.tag) :: rest := by
  have hselect : v.select i.fields = rest := (v.picks_select i.fields).unique hrest
  -- The tag field is no declared name, so inserting the fields behind it overwrites nothing.
  have hnodup : (Entries.keys ((R.tagField, Scalar.string v.tag) :: rest)).Nodup :=
    (hrest.keys_sublist.cons_cons R.tagField).nodup (nodup_canonicalNames hv)
  refine ⟨.ofEntries ((R.tagField, .string v.tag) :: rest), ?_, Record.entries_ofEntries hnodup⟩
  unfold encode
  rw [htag, get?_tag hv, ← hselect]

/-- An instance that decoding gave is encoded, and what it is encoded as is picked from the record
under the canonical names. -/
theorem exists_encode_of_decode (h : R.decode options r = .ok i) :
    ∃ v r', R.Resolves r v ∧ v.Conforms R.tagField options r ∧ i.tag = v.tag ∧
      r.Picks v.fieldNames i.fields.entries ∧ R.encode i = .ok r' ∧
      r'.entries = (R.tagField, .string v.tag) :: i.fields.entries ∧
      r.Picks (R.canonicalNames v) r'.entries := by
  obtain ⟨v, hv, hconforms, htag, hpicks⟩ := decode_eq_ok_iff.mp h
  obtain ⟨r', hencode, hentries⟩ := exists_encode hv.registered htag hpicks.self
  refine ⟨v, r', hv, hconforms, htag, hpicks, hencode, hentries, ?_⟩
  rw [hentries]
  exact hpicks.cons_some hv.tagged

/-- Encoding what was decoded gives the tag field and then the declared fields of the record in
declaration order, with the values of the record.  Strictly decoded, the record is only rearranged,
and not even that if its names come in canonical order; otherwise the undeclared fields are gone. -/
theorem encode_decode_canonical (h : R.decode options r = .ok i) :
    ∃ v r', R.Resolves r v ∧ R.encode i = .ok r' ∧
      (∃ rest, r'.entries = (R.tagField, .string v.tag) :: rest ∧ r.Picks v.fieldNames rest) ∧
      (∀ name ∈ R.canonicalNames v, r'.get? name = r.get? name) ∧
      (options.unknownFields = .reject →
        r'.entries.Perm r.entries ∧
        (r'.entries = r.entries ↔ r.keys.Sublist (R.canonicalNames v))) ∧
      (options.unknownFields = .ignore →
        r'.entries.Perm (r.entries.filter fun entry => entry.1 ∈ R.canonicalNames v)) := by
  obtain ⟨v, r', hv, hconforms, -, hpicks, hencode, hentries, hcanonical⟩ :=
    exists_encode_of_decode h
  have hn := nodup_canonicalNames hv.registered
  have hperm := hcanonical.perm_filter hn
  refine ⟨v, r', hv, hencode, ⟨_, hentries, hpicks⟩,
    fun name hname => hcanonical.get?_of_entries hname, fun hreject => ⟨?_, ?_⟩, fun _ => hperm⟩
  · -- Strictly decoded, no field is filtered out.
    have hall : ∀ entry ∈ r.entries, decide (entry.1 ∈ R.canonicalNames v) = true := by
      intro entry hentry
      rw [decide_eq_true_eq]
      exact List.mem_cons.mpr (hconforms.declared hreject _ (Entries.mem_keys_of_mem hentry))
    rwa [List.filter_eq_self.mpr hall] at hperm
  · rw [← Record.picks_entries_iff hn]
    constructor
    · intro heq
      rwa [heq] at hcanonical
    · intro hr
      exact hcanonical.unique hr

theorem encode_decode_reading :
    Sample.readings.decode .strict Sample.record = .ok Sample.decoded ∧
    ∃ r', Sample.readings.encode Sample.decoded = .ok r' ∧
      r'.entries.Perm Sample.record.entries := by
  have hdecode : Sample.readings.decode .strict Sample.record = .ok Sample.decoded := rfl
  obtain ⟨_, r', -, hencode, -, -, hstrict, -⟩ := encode_decode_canonical hdecode
  exact ⟨hdecode, r', hencode, (hstrict rfl).1⟩

/-! ### Decoding again -/

/-- The canonical form of a record that conforms. -/
def normalize? (R : Registry) (options : DecodeOptions) (r : Record) : Option Record :=
  match R.decode options r with
  | .error _ => none
  | .ok i => (R.encode i).toOption

/-- The canonical record of an instance that decoding gave is decoded to the same instance. -/
theorem decode_of_encode {r' : Record} (h : R.decode options r = .ok i)
    (hencode : R.encode i = .ok r') : R.decode options' r' = .ok i := by
  obtain ⟨v, s, hv, hconforms, htag, hpicks, hencode', -, hcanonical⟩ := exists_encode_of_decode h
  obtain rfl : r' = s := Except.ok.inj (hencode.symm.trans hencode')
  -- The canonical record agrees with the decoded one on the tag field and on the declared fields,
  -- and has no others, so not even a strict pass finds anything to reject.
  have hget : ∀ name ∈ R.canonicalNames v, r'.get? name = r.get? name :=
    fun name hname => hcanonical.get?_of_entries hname
  have hfields : ∀ name ∈ v.fieldNames, r'.get? name = r.get? name :=
    fun name hname => hget name (List.mem_cons_of_mem _ hname)
  have hkeys : ∀ name ∈ r'.keys, name = R.tagField ∨ name ∈ v.fieldNames :=
    fun name hname => List.mem_cons.mp (hcanonical.mem_keys_iff.mp hname).1
  have hresolves : R.Resolves r' v := by
    refine ⟨hv.registered, ?_⟩
    rw [hget R.tagField List.mem_cons_self, hv.tagged]
  exact decode_eq_ok_iff.mpr
    ⟨v, hresolves, hconforms.congr hfields hkeys, htag, hpicks.congr hfields⟩

/-- Decoding undoes encoding on every instance that decoding gave, and so the canonical form of a
canonical form is that form, whatever the options of the two passes. -/
theorem decode_encode_decode (R : Registry) (options options' : DecodeOptions) (r : Record) :
    (∀ i, R.decode options r = .ok i →
      ∃ r', R.encode i = .ok r' ∧ R.decode options' r' = .ok i) ∧
    (R.normalize? options r).bind (R.normalize? options') = R.normalize? options r := by
  have hundo : ∀ i, R.decode options r = .ok i →
      ∃ r', R.encode i = .ok r' ∧ R.decode options' r' = .ok i := by
    intro i h
    obtain ⟨-, r', -, -, -, -, hencode, -⟩ := exists_encode_of_decode h
    exact ⟨r', hencode, decode_of_encode h hencode⟩
  refine ⟨hundo, ?_⟩
  cases h : R.decode options r with
  | error violations => simp only [normalize?, h, Option.bind_none]
  | ok i =>
    obtain ⟨r', hencode, hdecode⟩ := hundo i h
    simp only [normalize?, h, hencode, Except.toOption, Option.bind_some, hdecode]

/-- Decoded leniently, a reading with an undeclared field has a canonical record that is decoded
strictly. -/
theorem decode_encode_noisy_reading :
    Sample.readings.decode .permissive Sample.noisyRecord = .ok Sample.decoded ∧
    ∃ r', Sample.readings.encode Sample.decoded = .ok r' ∧
      Sample.readings.decode .strict r' = .ok Sample.decoded := by
  have hdecode : Sample.readings.decode .permissive Sample.noisyRecord = .ok Sample.decoded := rfl
  exact ⟨hdecode, (decode_encode_decode Sample.readings .permissive .strict Sample.noisyRecord).1
    Sample.decoded hdecode⟩

end TaggedUnion.Registry
