import TaggedUnion.Proofs.Leniency
import TaggedUnion.Proofs.Reports
import Mathlib.Algebra.Ring.Nat

/-!
# Two ways through JSON

A scalar goes to JSON text in two ways: it is written as it is (`Scalar.toTree`), or turned into a
JSON value that is then written (`Scalar.toJson`).  It comes back in two ways as well: on its own,
by trying one kind after the other (`Scalar.ofJson?`), or as a member of a record
(`Scalar.ofMember`).

* Both ways of writing give the same text, for NaN and the infinities too (`Record.compact_toTree`).
  Decoding writes the fields of an instance in one way and normalizing in the other, so they stand
  alike in both outputs (`Registry.exists_lines`).
* The kinds overlap in the integers, which are floating-point numbers as well, so there the order
  decides which one is taken (`Scalar.ofJson?_eq_some_iff`).
* Both ways of reading give the same scalar or refuse the same values (`Record.ofJson_of_fits`,
  `Record.ofJson_of_nested`).  They differ on the natural numbers that are no integers of 64 bits
  (`Record.ofJson_of_beyond`).
-/

namespace TaggedUnion

open Json

/-! ### Writing -/

theorem Record.compact_toTree (r : Record) : r.toTree.compact = r.toJson.toTree.compact :=
  congrArg String.ofList r.compactChars_toTree

/-! ### Printing -/

namespace Registry

variable {R : Registry} {options : DecodeOptions} {r r' : Record} {i : Instance}

/-- What is printed for the record with the number `index`: a line by decoding, and one by
normalizing if the record is accepted.  The fields in the first line are the object in the second
one without the tag field. -/
structure PrintsAlike (R : Registry) (options : DecodeOptions) (index : Nat) (r : Record)
    (decoded : String) (normalized : Option String) : Prop where
  accepted : ∀ i, R.decode options r = .ok i → ∃ r', R.encode i = .ok r' ∧
    r'.get? R.tagField = some (.string i.tag) ∧ normalized = some r'.toJson.toTree.compact ∧
    decoded = (Tree.map [("index", .nat index), ("ok", .map [("tag", .string i.tag),
      ("fields", (r'.filter fun name => name ≠ R.tagField).toJson.toTree)])]).compact
  rejected : ∀ errors, R.decode options r = .error errors → normalized = none

/-- Behind the tag field, an instance is encoded as its fields. -/
theorem fields_of_encode (h : R.decode options r = .ok i) (hencode : R.encode i = .ok r') :
    r'.get? R.tagField = some (.string i.tag) ∧
    (r'.filter fun name => name ≠ R.tagField) = i.fields := by
  obtain ⟨v, s, -, -, htag, -, hencode', hentries, -⟩ := exists_encode_of_decode h
  obtain rfl : r' = s := Except.ok.inj (hencode.symm.trans hencode')
  rw [← htag] at hentries
  constructor
  · rw [Record.get?_eq_some_iff, hentries]
    exact List.mem_cons_self
  · -- No name stands twice in the record, so none of the fields has the name of the tag field.
    have hnodup : (R.tagField :: i.fields.keys).Nodup := by
      have := r'.nodup
      rwa [hentries] at this
    have hnotMem : R.tagField ∉ i.fields.keys := (List.nodup_cons.mp hnodup).1
    apply Record.ext
    show r'.entries.filter (fun entry => decide (entry.1 ≠ R.tagField)) = i.fields.entries
    rw [hentries, List.filter_cons_of_neg (by simp), List.filter_eq_self]
    intro entry hentry
    rw [decide_eq_true_eq]
    intro heq
    exact hnotMem (heq ▸ Entries.mem_keys_of_mem hentry)

theorem printsAlike (R : Registry) (options : DecodeOptions) (index : Nat) (r : Record) :
    R.PrintsAlike options index r (Outcome.toTree index (R.decode options r)).compact
      ((R.normalize? options r).map fun r' => r'.toJson.toTree.compact) where
  accepted i h := by
    obtain ⟨r', hencode, hcanonical⟩ := normalize?_of_decode_ok h
    obtain ⟨htag, hfields⟩ := fields_of_encode h hencode
    refine ⟨r', hencode, htag, by rw [hcanonical, Option.map_some], ?_⟩
    rw [h, hfields, Record.toTree_toJson]
    exact Outcome.compact_toTree index (.ok i)
  rejected errors h := by rw [normalize?_of_decode_error h, Option.map_none]

/-- Decoding and normalizing print their lines in the order of the records. -/
theorem exists_lines (R : Registry) (options : DecodeOptions) (records : List Record) :
    ∃ lines : List (String × Option String),
      List.Forall₂ (fun p line => R.PrintsAlike options p.2 p.1 line.1 line.2)
        (records.zipIdx 1) lines ∧
      (decodeReport R options .json records).text = unlines (lines.map Prod.fst) ∧
      (normalizeReport R options records).text = unlines (lines.filterMap Prod.snd) := by
  refine ⟨(records.zipIdx 1).map fun p => ((Outcome.toTree p.2 (R.decode options p.1)).compact,
    (R.normalize? options p.1).map fun r' => r'.toJson.toTree.compact), ?_, ?_, ?_⟩
  · rw [List.forall₂_map_right_iff, List.forall₂_same]
    exact fun p _ => R.printsAlike options p.2 p.1
  · show unlines ((outcomeTrees 1 (records.map (R.decode options))).map Tree.compact) = _
    rw [outcomeTrees_eq, List.zipIdx_map, List.map_map, List.map_map, List.map_map]
    rfl
  · have hnormalized : (records.filterMap (R.normalize? options)).map (fun r' =>
        r'.toJson.toTree.compact) = (records.zipIdx 1).filterMap fun p =>
          (R.normalize? options p.1).map fun r' => r'.toJson.toTree.compact := by
      nth_rewrite 1 [← List.zipIdx_map_fst 1 records]
      rw [List.map_filterMap, List.filterMap_map]
      rfl
    rw [normalizeReport, R.normalizeFrom_eq, List.filterMap_map]
    exact congrArg unlines hnormalized

end Registry

theorem Report.stdout_output (report : Report) : report.output.stdout = report.text := by
  unfold output
  cases report.failure <;> rfl

/-- What the commands print on standard output for the records of a source. -/
theorem Command.stdout_run {s : Source} {files : Files} {stdin : ByteArray} {R : Registry}
    {options : DecodeOptions} {records : List Record}
    (hdecoder : s.decoder files = .ok (R, options))
    (hrecords : s.records files stdin = .ok records) :
    ((Command.decode s .json).run files stdin).stdout =
      (decodeReport R options .json records).text ∧
    ((Command.normalize s).run files stdin).stdout = (normalizeReport R options records).text := by
  simp only [run, report, Source.report_eq hdecoder hrecords, Report.stdout_output, and_self]

/-! ### Reading -/

namespace Scalar

variable {field : String} {value : Json} {s : Scalar}

/-- A value is the scalar that one of the kinds takes it for.  Only a number can be taken for two,
and then it is the integer. -/
theorem ofJson?_eq_some_iff :
    ofJson? value = some s ↔ s.kind.scalar? value = some s ∧
      (s.kind = .float → Kind.int.scalar? value = none) := by
  cases value with
  | number n => cases h : n.int64? <;> cases s <;> simp [ofJson?, Kind.all, Kind.scalar?, kind, h]
  | _ => cases s <;> simp [ofJson?, Kind.all, Kind.scalar?, kind]

/-- What a member of a record is, it is on its own. -/
theorem ofJson?_of_ofMember (h : ofMember field value = .ok s) : ofJson? value = some s := by
  rw [ofJson?_eq_some_iff]
  cases value with
  | number number =>
    cases number with
    | natural n =>
      cases hn : natInt64? n with
      | none => rw [ofMember_natural_of_none hn] at h; cases h
      | some i =>
        rw [ofMember_natural_of_some hn] at h
        cases h
        exact ⟨congrArg (Option.map Scalar.int) hn, fun hfloat => by cases hfloat⟩
    | negative i hneg => cases h; exact ⟨rfl, fun hfloat => by cases hfloat⟩
    | float x hfinite => cases h; exact ⟨rfl, fun _ => rfl⟩
  | array items => cases h
  | object members => cases h
  | _ => cases h; exact ⟨rfl, fun hfloat => by cases hfloat⟩

/-- On its own, a natural number that is no integer of 64 bits is rounded. -/
theorem ofJson?_of_beyond {n : UInt64} (h : natInt64? n = none) :
    ofJson? (.number (.natural n)) = some (.float (.ofNat n.toNat)) := by
  rw [ofJson?_eq_some_iff]
  exact ⟨rfl, fun _ => congrArg (Option.map Scalar.int) h⟩

end Scalar

namespace Json

/-- A value that holds other values. -/
def Nested (value : Json) : Prop :=
  (∃ items, value = .array items) ∨ ∃ members, value = .object members

theorem maxValue_lt_toNat_iff {n : UInt64} :
    Int64.maxValue.toInt < n.toNat ↔ 2 ^ 63 ≤ n.toNat := by
  have hmax : Int64.maxValue.toInt = 2 ^ 63 - 1 := by decide
  rw [hmax]
  omega

/-- A text that holds one value is read as the scalar that the value is. -/
theorem parseWith_ofOutline {text : List Char} {value : Json} (h : Json.parse text = .ok value) :
    Json.parseWith Scalar.ofOutline text =
      (Scalar.ofJson? value).elim (.error (.mismatch (.noAlternative "Value"))) .ok := by
  obtain ⟨o, htokens, hvalue⟩ := ofTokens_of_readWith h
  rw [parseWith, readWith_of_ofTokens htokens, Scalar.ofOutline, hvalue]
  cases hs : Scalar.ofJson? value with
  | none =>
    simp only [bind, Except.bind, hs]
    rfl
  | some s =>
    simp only [bind, Except.bind, hs]
    rfl

end Json

namespace Record

variable {value : Json}

/-- An object with one member is read as the member is. -/
theorem ofJson_singleton (name : String) (value : Json) :
    Record.ofJson (.object [(name, value)]) =
      (Scalar.ofMember name value).map fun s => .ofEntries [(name, s)] := by
  cases h : Scalar.ofMember name value with
  | ok s => exact ofJson_object_eq_ok_iff.mpr ⟨[(name, s)], .cons ⟨rfl, h⟩ .nil, rfl⟩
  | error e =>
    obtain ⟨complaint, hunfit, rfl⟩ := Scalar.ofMember_eq_error_iff.mp h
    exact ofJson_object_eq_error_iff.mpr ⟨[], name, value, [], complaint, rfl, by simp, hunfit, rfl⟩

theorem ofJson_of_nested (name : String) (h : value.Nested) :
    Scalar.ofJson? value = none ∧
    Record.ofJson (.object [(name, value)]) = .error (.nonScalar name) := by
  rw [ofJson_singleton]
  rcases h with ⟨items, rfl⟩ | ⟨members, rfl⟩
  · exact ⟨rfl, rfl⟩
  · exact ⟨rfl, rfl⟩

theorem ofJson_of_beyond (name : String) {n : UInt64} (h : 2 ^ 63 ≤ n.toNat) :
    Scalar.ofJson? (.number (.natural n)) = some (.float (.ofNat n.toNat)) ∧
    Record.ofJson (.object [(name, .number (.natural n))]) = .error (.integerOutOfRange name) := by
  have hnone : natInt64? n = none := natInt64?_eq_none_iff.mpr (maxValue_lt_toNat_iff.mpr h)
  rw [ofJson_singleton, Scalar.ofMember_natural_of_none hnone]
  exact ⟨Scalar.ofJson?_of_beyond hnone, rfl⟩

theorem ofJson_of_fits (name : String) (hnested : ¬ value.Nested)
    (hnumber : ∀ n : UInt64, value = .number (.natural n) → n.toNat < 2 ^ 63) :
    ∃ s r, Scalar.ofJson? value = some s ∧ Record.ofJson (.object [(name, value)]) = .ok r ∧
      r.entries = [(name, s)] := by
  have hfits : ∀ complaint, ¬ value.Unfit complaint := by
    intro complaint hunfit
    cases hunfit with
    | array items => exact hnested (.inl ⟨items, rfl⟩)
    | object members => exact hnested (.inr ⟨members, rfl⟩)
    | beyond h => exact absurd (hnumber _ rfl) (Nat.not_lt.mpr (maxValue_lt_toNat_iff.mp h))
  obtain ⟨s, hs⟩ := (@Scalar.exists_ofMember_iff name value).mpr hfits
  refine ⟨s, .ofEntries [(name, s)], Scalar.ofJson?_of_ofMember hs, ?_, rfl⟩
  rw [ofJson_singleton, hs]
  rfl

end Record

/-! ### Both ways compared -/

/-- Records have the same text whichever way they are written, and so the fields of an instance
stand alike in what decoding and normalizing print.  A value is the same scalar on its own and under
a name, or none; only natural numbers from `2 ^ 63` on are refused under a name and rounded on their
own. -/
theorem json_forms_agree :
    (∀ r : Record, r.toTree.compact = r.toJson.toTree.compact) ∧
    (∀ (R : Registry) options records, ∃ lines : List (String × Option String),
      List.Forall₂ (fun p line => R.PrintsAlike options p.2 p.1 line.1 line.2)
        (records.zipIdx 1) lines ∧
      (decodeReport R options .json records).text = unlines (lines.map Prod.fst) ∧
      (normalizeReport R options records).text = unlines (lines.filterMap Prod.snd)) ∧
    (∀ (s : Source) files stdin R options records, s.decoder files = .ok (R, options) →
      s.records files stdin = .ok records →
      ((Command.decode s .json).run files stdin).stdout =
        (decodeReport R options .json records).text ∧
      ((Command.normalize s).run files stdin).stdout = (normalizeReport R options records).text) ∧
    (∀ text value, Json.parse text = .ok value → Json.parseWith Scalar.ofOutline text =
      (Scalar.ofJson? value).elim (.error (.mismatch (.noAlternative "Value"))) .ok) ∧
    ∀ (name : String) (value : Json),
      (value.Nested → Scalar.ofJson? value = none ∧
        Record.ofJson (.object [(name, value)]) = .error (.nonScalar name)) ∧
      (∀ n : UInt64, value = .number (.natural n) → 2 ^ 63 ≤ n.toNat →
        Scalar.ofJson? value = some (.float (.ofNat n.toNat)) ∧
        Record.ofJson (.object [(name, value)]) = .error (.integerOutOfRange name)) ∧
      (¬ value.Nested → (∀ n : UInt64, value = .number (.natural n) → n.toNat < 2 ^ 63) →
        ∃ s r, Scalar.ofJson? value = some s ∧ Record.ofJson (.object [(name, value)]) = .ok r ∧
          r.entries = [(name, s)]) := by
  refine ⟨Record.compact_toTree, Registry.exists_lines, ?_, fun _ _ => parseWith_ofOutline, ?_⟩
  · intro s files stdin R options records hdecoder hrecords
    exact Command.stdout_run hdecoder hrecords
  · intro name value
    refine ⟨Record.ofJson_of_nested name, ?_, Record.ofJson_of_fits name⟩
    rintro n rfl hn
    exact Record.ofJson_of_beyond name hn

/-- A reading without a number, out of order. -/
def Sample.unmeasured : Record :=
  ⟨[("value", .float ⟨0x7ff8000000000000⟩), ("type", .string "reading"), ("sensor", .string "t1")],
    by decide⟩

theorem json_forms_agree_samples :
    Sample.unmeasured.toTree.compact = Sample.unmeasured.toJson.toTree.compact ∧
    (decodeReport Sample.readings .strict .json [Sample.unmeasured]).text =
      unlines [(Tree.map [("index", .nat 1), ("ok", .map [("tag", .string "reading"),
        ("fields", .map [("sensor", .string "t1"), ("value", .null)])])]).compact] ∧
    (normalizeReport Sample.readings .strict [Sample.unmeasured]).text =
      unlines [(Tree.map [("type", .string "reading"), ("sensor", .string "t1"),
        ("value", .null)]).compact] ∧
    ((Command.normalize Sample.source).run Sample.files Sample.stdin).stdout =
      (normalizeReport Sample.registry .permissive Sample.records).text ∧
    Json.parseWith Scalar.ofOutline (Tree.string "[").compact.toList = .ok (.string "[") ∧
    Record.ofJson (.object [("n", .array [])]) = .error (.nonScalar "n") ∧
    Scalar.ofJson? (.number (.natural 9223372036854775808)) =
      some (.float ⟨0x43e0000000000000⟩) ∧
    Record.ofJson (.object [("n", .number (.natural 9223372036854775808))]) =
      .error (.integerOutOfRange "n") ∧
    ∃ s r, Scalar.ofJson? (.number (.natural 9223372036854775807)) = some s ∧
      Record.ofJson (.object [("n", .number (.natural 9223372036854775807))]) = .ok r ∧
      r.entries = [("n", s)] := by
  obtain ⟨hwrite, hreports, hrun, hparse, hread⟩ := json_forms_agree
  obtain ⟨lines, hlines, hdecode, hnormalize⟩ :=
    hreports Sample.readings .strict [Sample.unmeasured]
  obtain ⟨⟨decoded, normalized⟩, rest, hline, hrest, rfl⟩ := List.forall₂_cons_left_iff.mp hlines
  obtain rfl := List.forall₂_nil_left_iff.mp hrest
  obtain ⟨r', hencode, -, rfl, rfl⟩ := hline.accepted _ rfl
  obtain rfl := Except.ok.inj hencode
  have hparsed : Json.parse (Tree.string "[").compact.toList = .ok (.string "[") :=
    Tree.parseWith_compact _ _
  have hrounded : Binary64.ofNat 9223372036854775808 = ⟨0x43e0000000000000⟩ := by decide +kernel
  obtain ⟨hfloat, hrange⟩ :=
    (hread "n" (.number (.natural 9223372036854775808))).2.1 _ rfl (by decide)
  refine ⟨hwrite _, hdecode, hnormalize,
    (hrun _ _ _ _ _ _ Sample.decoder_source Sample.records_source).2, hparse _ _ hparsed,
    ((hread "n" (.array [])).1 (.inl ⟨[], rfl⟩)).2, hrounded ▸ hfloat, hrange, ?_⟩
  refine (hread "n" (.number (.natural 9223372036854775807))).2.2 ?_ ?_
  · rintro (⟨items, h⟩ | ⟨members, h⟩) <;> cases h
  · rintro n ⟨⟩
    decide

end TaggedUnion
