import TaggedUnion.Proofs.Reports

/-!
# Normalizing twice

What normalizing prints is normalized already (`Command.run_normalize_normalized`): a second run,
strict or lenient, prints the same text, complains about nothing and succeeds.

* The canonical form of a record takes its values from the record, so it can be read back from its
  line if the record could (`Registry.whole_of_normalize?`).
* A canonical form is accepted, whatever the options, and is its own canonical form
  (`Registry.normalize?_canonical`).
* The second run finds the same registry, since neither the options nor the input change where it is
  looked for (`Source.exists_decoder`).
-/

namespace TaggedUnion

/-! ### Canonical records -/

namespace Registry

variable {R : Registry} {options : DecodeOptions} {r r' : Record} {records : List Record}

theorem exists_of_normalize? (h : R.normalize? options r = some r') :
    ∃ i, R.decode options r = .ok i ∧ R.encode i = .ok r' := by
  cases hdecode : R.decode options r with
  | error errors =>
    rw [normalize?_of_decode_error hdecode] at h
    cases h
  | ok i =>
    obtain ⟨s, hencode, hs⟩ := normalize?_of_decode_ok hdecode
    obtain rfl : s = r' := Option.some.inj (hs.symm.trans h)
    exact ⟨i, rfl, hencode⟩

theorem whole_of_normalize? (hwhole : r.Whole) (h : R.normalize? options r = some r') :
    r'.Whole := by
  obtain ⟨i, hdecode, hencode⟩ := exists_of_normalize? h
  obtain ⟨v, s, -, -, -, -, hencode', -, hcanonical⟩ := exists_encode_of_decode hdecode
  obtain rfl : r' = s := Except.ok.inj (hencode.symm.trans hencode')
  -- Every entry of the canonical form is an entry of the record.
  intro e he
  exact hwhole e (Record.get?_eq_some_iff.mp (hcanonical.get?_eq e.1 e.2 he))

/-- The canonical form of a record is accepted again, under any options, and is its own canonical
form. -/
theorem normalize?_canonical (options' : DecodeOptions) (h : R.normalize? options r = some r') :
    (∃ i, R.decode options' r' = .ok i) ∧ R.normalize? options' r' = some r' := by
  obtain ⟨i, hdecode, hencode⟩ := exists_of_normalize? h
  have hagain : R.decode options' r' = .ok i := decode_of_encode hdecode hencode
  obtain ⟨s, hencode', hs⟩ := normalize?_of_decode_ok hagain
  obtain rfl : r' = s := Except.ok.inj (hencode.symm.trans hencode')
  exact ⟨⟨i, hagain⟩, hs⟩

/-! ### Canonical streams -/

/-- Records that are all accepted and in canonical form. -/
def Canonical (R : Registry) (options : DecodeOptions) (records : List Record) : Prop :=
  ∀ r ∈ records, (∃ i, R.decode options r = .ok i) ∧ R.normalize? options r = some r

theorem canonical_filterMap (options' : DecodeOptions) (records : List Record) :
    R.Canonical options' (records.filterMap (R.normalize? options)) := by
  intro r' hr'
  obtain ⟨r, -, hr⟩ := List.mem_filterMap.mp hr'
  exact normalize?_canonical options' hr

/-- Records in canonical form are printed as they are, without complaints. -/
theorem output_of_canonical (h : R.Canonical options records) :
    R.output options records (Record.lines (records.filterMap (R.normalize? options)))
        (R.complaints options 1 records) =
      { exitCode := 0, stdout := Record.lines records, stderr := "" } := by
  have hcanonical : records.filterMap (R.normalize? options) = records := by
    rw [List.filterMap_congr fun r hr => (h r hr).2, List.filterMap_some]
  have hrejections : R.rejections options records = 0 := by
    rw [rejections, List.countP_eq_zero]
    intro r hr
    obtain ⟨i, hi⟩ := (h r hr).1
    rw [hi]
    exact Bool.false_ne_true
  have hcomplaints : R.complaints options 1 records = [] := by
    rw [complaints, List.flatMap_eq_nil_iff]
    intro p hp
    obtain ⟨i, hi⟩ := (h p.1 (List.fst_mem_of_mem_zipIdx hp)).1
    rw [hi]
    rfl
  rw [output, hcanonical, hrejections, hcomplaints]
  rfl

end Registry

/-! ### Sources -/

namespace Source

variable {s s' : Source} {files : Files} {R : Registry} {options : DecodeOptions}

/-- Where a registry is found does not depend on how records are decoded or where they are. -/
theorem exists_decoder (h : s.decoder files = .ok (R, options)) (horigin : s'.origin = s.origin) :
    ∃ options', s'.decoder files = .ok (R, options') := by
  unfold decoder at h ⊢
  rw [horigin]
  cases horigin : s.origin with
  | config path =>
    rw [horigin] at h
    obtain ⟨config, hconfig, h⟩ := bind_eq_ok_iff.mp h
    obtain ⟨registry, hregistry, h⟩ := bind_eq_ok_iff.mp h
    obtain ⟨rfl, -⟩ := Prod.mk.inj (Except.ok.inj h)
    exact ⟨_, bind_eq_ok_iff.mpr ⟨config, hconfig, bind_eq_ok_iff.mpr ⟨registry, hregistry, rfl⟩⟩⟩
  | registry path =>
    rw [horigin] at h
    obtain ⟨registry, hregistry, h⟩ := bind_eq_ok_iff.mp h
    obtain ⟨rfl, -⟩ := Prod.mk.inj (Except.ok.inj h)
    exact ⟨_, bind_eq_ok_iff.mpr ⟨registry, hregistry, rfl⟩⟩

end Source

/-! ### Commands -/

namespace Command

variable {s : Source} {files : Files} {stdin : ByteArray} {R : Registry} {options : DecodeOptions}
  {records : List Record}

theorem run_normalize_of_canonical (hdecoder : s.decoder files = .ok (R, options))
    (hrecords : s.records files stdin = .ok records) (h : R.Canonical options records) :
    (Command.normalize s).run files stdin =
      { exitCode := 0, stdout := Record.lines records, stderr := "" } := by
  rw [run_normalize hdecoder hrecords]
  exact Registry.output_of_canonical h

/-- What normalizing prints for records without floating-point numbers is printed again when it is
normalized, with nothing on standard error and with success.  It does not matter whether undeclared
fields are dropped in either run, and whether the text is piped into the second run or stored in a
file for it. -/
theorem run_normalize_normalized (hdecoder : s.decoder files = .ok (R, options))
    (hrecords : s.records files stdin = .ok records)
    (hwhole : ∀ r ∈ records, ∀ e ∈ r.entries, e.2.kind ≠ .float) :
    ∃ text, ((Command.normalize s).run files stdin).stdout = text ∧
      (∀ permissive,
        (Command.normalize { s with permissive, input := none }).run files text.toUTF8 =
          { exitCode := 0, stdout := text, stderr := "" }) ∧
      ∀ permissive file files' stdin', s.decoder files' = s.decoder files →
        files' file = .ok (.file text.toUTF8) →
        (Command.normalize { s with permissive, input := some file }).run files' stdin' =
          { exitCode := 0, stdout := text, stderr := "" } := by
  have hread : Record.ofContent
      (.file (Record.lines (records.filterMap (R.normalize? options))).toUTF8) =
        .ok (records.filterMap (R.normalize? options)) := by
    rw [Record.ofContent_toUTF8]
    refine mapError_eq_ok_iff.mpr (Record.readStream_of_whole fun r' hr' => ?_)
    obtain ⟨r, hr, hnormalize⟩ := List.mem_filterMap.mp hr'
    exact Registry.whole_of_normalize? (hwhole r hr) hnormalize
  refine ⟨Record.lines (records.filterMap (R.normalize? options)), ?_, fun permissive => ?_,
    fun permissive file files' stdin' hfiles hfile => ?_⟩
  · rw [run_normalize hdecoder hrecords]
    rfl
  · obtain ⟨options', hagain⟩ :=
      @Source.exists_decoder s { s with permissive, input := none } files R options hdecoder rfl
    exact run_normalize_of_canonical hagain (Source.records_of_stdin rfl hread)
      (Registry.canonical_filterMap options' records)
  · obtain ⟨options', hagain⟩ := @Source.exists_decoder s { s with permissive, input := some file }
      files' R options (hfiles.trans hdecoder) rfl
    exact run_normalize_of_canonical hagain (Source.records_of_file rfl hfile hread)
      (Registry.canonical_filterMap options' records)

end Command

theorem Command.run_normalize_sample_again :
    ∃ text, ((Command.normalize Sample.source).run Sample.files Sample.stdin).stdout = text ∧
      (Command.normalize { Sample.source with permissive := false, input := none }).run Sample.files
        text.toUTF8 = { exitCode := 0, stdout := text, stderr := "" } := by
  obtain ⟨text, htext, hagain, -⟩ :=
    run_normalize_normalized Sample.decoder_source Sample.records_source Sample.whole_records
  exact ⟨text, htext, hagain false⟩

end TaggedUnion
