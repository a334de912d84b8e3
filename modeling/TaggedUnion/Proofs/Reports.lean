import TaggedUnion.Proofs.Document
import TaggedUnion.Proofs.RoundTrip
import TaggedUnion.Proofs.Stream
import TaggedUnion.Proofs.Violations

/-!
# Reports on records

Decoding and normalizing a list of records go through the same outcomes, each in a loop of its own,
and report the same about them (`Command.run_decode_normalize`):

* decoding prints one line for each record (`Registry.outcome_lines`).  It holds an object with the
  number of the record and either the tag and the fields of the instance or an account of each
  violation (`Outcome.member`), of which there is one at least (`Registry.ne_nil_of_decode_error`),
  and no line break, whatever the record holds;
* normalizing prints one line for each record that is accepted (`Registry.canonical_lines`) and
  gives the same account of every violation of the others.  Whatever was decoded can be encoded, so
  the loop never ends early (`Registry.normalizeFrom_eq`);
* both end with the same status and message (`output_recordsFailure`).
-/

namespace TaggedUnion

open Json

/-! ### Violations -/

namespace Violation

/-- What is told about a violation: the field it is found at, the name of its kind, what belongs to
this kind, and a message. -/
structure Account where
  field : String
  kind : String
  details : List (String × String)
  message : String

def account : Violation → Account
  | .missingTag field => ⟨field, "missing_tag", [], "missing tag field '" ++ field ++ "'"⟩
  | .unknownTag field tag =>
    ⟨field, "unknown_tag", [("tag", tag)], "unknown tag value '" ++ tag ++ "'"⟩
  | .missingField field =>
    ⟨field, "missing_field", [], "missing required field '" ++ field ++ "'"⟩
  | .typeMismatch field expected actual =>
    ⟨field, "type_mismatch", [("expected", expected.label), ("actual", actual.label)],
      "expected " ++ expected.label ++ ", got " ++ actual.label⟩
  | .unexpectedField field =>
    ⟨field, "unexpected_field", [], "unexpected field '" ++ field ++ "'"⟩

/-- The members of the object that holds a violation. -/
def Account.members (a : Account) : List (String × Tree) :=
  [("path", .list [.string a.field]), ("kind", .string a.kind)] ++
    a.details.map (fun detail => (detail.1, .string detail.2)) ++ [("message", .string a.message)]

/-- A violation in one text. -/
def Account.text (a : Account) : String :=
  a.field ++ ": " ++ a.message

theorem toTree_eq (e : Violation) : e.toTree = .map e.account.members := by
  cases e <;> rfl

theorem display_eq (e : Violation) : e.display = e.account.text := by
  cases e <;> rfl

end Violation

/-! ### Outcomes -/

namespace Outcome

/-- What an outcome says about its record: the tag and the fields of the instance, or the
violations. -/
def member : Outcome → String × Tree
  | .ok i =>
    ("ok", .map [("tag", .string i.tag),
      ("fields", .map (i.fields.entries.map fun e => (e.1, e.2.toJson.toTree)))])
  | .error errors => ("errors", .list (errors.map fun e => .map e.account.members))

/-- An outcome is written as the object with its number and its member. -/
theorem compact_toTree (index : Nat) (o : Outcome) :
    (o.toTree index).compact = (Tree.map [("index", .nat index), o.member]).compact := by
  cases o with
  | ok i =>
    simp only [toTree, Instance.toTree, member, Tree.compact, Tree.compactChars,
      Tree.compactEntries, i.fields.compactChars_toTree, ← i.fields.toTree_toJson]
  | error errors => rw [toTree, member, funext Violation.toTree_eq]

/-- The lines on standard error for the outcome of the record with the number `index`. -/
def complaints (index : Nat) : Outcome → List String
  | .ok _ => []
  | .error errors =>
    errors.map fun e => "record " ++ Decimal.natText index ++ ": " ++ e.account.text

theorem complaints_error (index : Nat) (errors : List Violation) :
    complaints index (.error errors) =
      errors.map fun e => "record " ++ Decimal.natText index ++ ": " ++ e.display := by
  simp only [complaints, Violation.display_eq]

end Outcome

namespace Registry

variable {R : Registry} {options : DecodeOptions} {r : Record}

/-- A record that is rejected is told why. -/
theorem ne_nil_of_decode_error {errors : List Violation} (h : R.decode options r = .error errors) :
    errors ≠ [] := by
  cases hv : R.resolve r with
  | error e =>
    rw [decode_of_resolve_error hv] at h
    rw [← Except.error.inj h]
    exact List.cons_ne_nil e []
  | ok v =>
    by_cases hnil : v.violations R.tagField options r = []
    · rw [decode_of_violations_eq_nil hv hnil] at h
      cases h
    · rw [decode_of_violations_ne_nil hv hnil] at h
      exact Except.error.inj h ▸ hnil

theorem normalize?_of_decode_error {errors : List Violation}
    (h : R.decode options r = .error errors) : R.normalize? options r = none := by
  unfold normalize?
  rw [h]

/-- A record that is accepted has a canonical form. -/
theorem normalize?_of_decode_ok {i : Instance} (h : R.decode options r = .ok i) :
    ∃ r', R.encode i = .ok r' ∧ R.normalize? options r = some r' := by
  obtain ⟨-, r', -, -, -, -, hencode, -⟩ := exists_encode_of_decode h
  refine ⟨r', hencode, ?_⟩
  unfold normalize?
  rw [h]
  dsimp only
  rw [hencode]
  rfl

end Registry

/-! ### Loops -/

theorem outcomeTrees_eq (index : Nat) (outcomes : List Outcome) :
    outcomeTrees index outcomes = (outcomes.zipIdx index).map fun p => p.1.toTree p.2 := by
  induction outcomes generalizing index with
  | nil => rfl
  | cons o rest ih => rw [outcomeTrees, ih, List.zipIdx_cons, List.map_cons]

namespace Registry

/-- The lines on standard error for records, counted from `index`. -/
def complaints (R : Registry) (options : DecodeOptions) (index : Nat) (records : List Record) :
    List String :=
  (records.zipIdx index).flatMap fun p => Outcome.complaints p.2 (R.decode options p.1)

/-- Every record is either printed in canonical form or complained about, and no instance is met
that cannot be encoded. -/
theorem normalizeFrom_eq (R : Registry) (options : DecodeOptions) (index : Nat)
    (records : List Record) :
    normalizeFrom R index (records.map (R.decode options)) =
      ((records.filterMap (R.normalize? options)).map fun r => r.toJson.toTree.compact,
        R.complaints options index records, none) := by
  induction records generalizing index with
  | nil => rfl
  | cons r rest ih =>
    rw [List.map_cons, complaints, List.zipIdx_cons, List.flatMap_cons]
    cases h : R.decode options r with
    | error errors =>
      rw [normalizeFrom, ih, List.filterMap_cons_none (normalize?_of_decode_error h),
        Outcome.complaints_error]
      rfl
    | ok i =>
      obtain ⟨r', hencode, hcanonical⟩ := normalize?_of_decode_ok h
      rw [normalizeFrom, hencode]
      dsimp only
      rw [ih, List.filterMap_cons_some hcanonical]
      rfl

/-- How many records are rejected. -/
def rejections (R : Registry) (options : DecodeOptions) (records : List Record) : Nat :=
  records.countP fun r => !(R.decode options r).isOk

end Registry

/-! ### Output -/

/-- The last message of a run in which `failed` of `total` records failed. -/
def lastMessage (failed total : Nat) : List String :=
  if failed = 0 then []
  else ["error: " ++ (Decimal.natText failed ++ " of " ++ Decimal.natText total ++
    " records failed validation")]

/-- The output of a command on records: it fails, with a last message, if one of them does. -/
def Registry.output (R : Registry) (options : DecodeOptions) (records : List Record)
    (stdout : String) (complaints : List String) : Output where
  exitCode := if R.rejections options records = 0 then 0 else 1
  stdout := stdout
  stderr := unlines (complaints ++ lastMessage (R.rejections options records) records.length)

theorem output_recordsFailure (R : Registry) (options : DecodeOptions) (records : List Record)
    (text : String) (complaints : List String) :
    Report.output ⟨text, complaints, recordsFailure (records.map (R.decode options))⟩ =
      R.output options records text complaints := by
  have hfailed : (records.map (R.decode options)).countP (fun o => !o.isOk) =
      R.rejections options records := List.countP_map
  rw [recordsFailure, Registry.output, lastMessage, hfailed, List.length_map]
  by_cases hnone : R.rejections options records = 0
  · rw [if_pos hnone, if_pos hnone, if_pos hnone, List.append_nil]
    rfl
  · rw [if_neg hnone, if_neg hnone, if_neg hnone]
    rfl

/-- What normalizing prints, without a word about instances that cannot be encoded. -/
theorem output_normalizeReport (R : Registry) (options : DecodeOptions) (records : List Record) :
    (normalizeReport R options records).output =
      R.output options records (Record.lines (records.filterMap (R.normalize? options)))
        (R.complaints options 1 records) := by
  rw [normalizeReport, R.normalizeFrom_eq]
  exact output_recordsFailure R options records _ _

/-- A line that holds the outcome of the record with the number `index`, as an object with the
number and with what the outcome says.  An outcome without instance has a violation. -/
structure Outcome.IsLine (index : Nat) (o : Outcome) (line : String) : Prop where
  text : line = (Tree.map [("index", .nat index), o.member]).compact
  one_line : '\n' ∉ line.toList
  object : Json.parseWith .ok line.toList =
    .ok (.object [(some "index", .number (.ofInt index)), (some o.member.1, o.member.2.outline)]
      .closed)
  violations : ∀ errors, o = .error errors → errors ≠ []

theorem newline_not_mem_compact (t : Tree) : '\n' ∉ t.compact.toList := by
  rw [Tree.compact, String.toList_ofList]
  exact t.newline_not_mem_compactChars

namespace Registry

variable (R : Registry) (options : DecodeOptions)

theorem isLine_decode (index : Nat) (r : Record) :
    Outcome.IsLine index (R.decode options r)
      (Outcome.toTree index (R.decode options r)).compact where
  text := Outcome.compact_toTree index _
  one_line := newline_not_mem_compact _
  object := by
    rw [Outcome.compact_toTree, Tree.parseWith_compact, Tree.outline, Tree.entryOutlines_eq_map]
    rfl
  violations _ := ne_nil_of_decode_error

/-- The lines that decoding prints, one for each record. -/
theorem outcome_lines (index : Nat) (records : List Record) :
    List.Forall₂ (fun p line => Outcome.IsLine p.2 (R.decode options p.1) line)
      (records.zipIdx index)
      ((outcomeTrees index (records.map (R.decode options))).map Tree.compact) := by
  rw [outcomeTrees_eq, List.zipIdx_map, List.map_map, List.map_map, List.forall₂_map_right_iff,
    List.forall₂_same]
  exact fun p _ => isLine_decode R options p.2 p.1

/-- The lines that normalizing prints, one for each record that is accepted. -/
theorem canonical_lines (records : List Record) :
    List.Forall₂ (fun r line => ∃ i r', R.decode options r = .ok i ∧ R.encode i = .ok r' ∧
        line = r'.toJson.toTree.compact ∧ '\n' ∉ line.toList)
      (records.filter fun r => (R.decode options r).isOk)
      ((records.filterMap (R.normalize? options)).map fun r => r.toJson.toTree.compact) := by
  induction records with
  | nil => exact .nil
  | cons r rest ih =>
    cases h : R.decode options r with
    | error errors =>
      rw [List.filter_cons_of_neg (by rw [h]; simp [Except.isOk, Except.toBool]),
        List.filterMap_cons_none (normalize?_of_decode_error h)]
      exact ih
    | ok i =>
      obtain ⟨r', hencode, hcanonical⟩ := normalize?_of_decode_ok h
      rw [List.filter_cons_of_pos (by rw [h]; rfl), List.filterMap_cons_some hcanonical,
        List.map_cons]
      exact .cons ⟨i, r', h, hencode, rfl, newline_not_mem_compact _⟩ ih

end Registry

/-! ### Commands -/

namespace Source

variable {s : Source} {files : Files} {stdin : ByteArray} {R : Registry} {options : DecodeOptions}
  {records : List Record}

theorem records_of_stdin (hinput : s.input = none)
    (h : Record.ofContent (.file stdin) = .ok records) : s.records files stdin = .ok records := by
  unfold Source.records
  rw [hinput]
  exact mapError_eq_ok_iff.mpr h

theorem records_of_file {file : Path} {content : Content} (hinput : s.input = some file)
    (hfile : files file = .ok content) (h : Record.ofContent content = .ok records) :
    s.records files stdin = .ok records := by
  unfold Source.records
  rw [hinput]
  exact bind_eq_ok_iff.mpr ⟨content, mapError_eq_ok_iff.mpr hfile, mapError_eq_ok_iff.mpr h⟩

theorem report_eq (hdecoder : s.decoder files = .ok (R, options))
    (hrecords : s.records files stdin = .ok records)
    (report : Registry → DecodeOptions → List Record → Report) :
    s.report files stdin report = report R options records := by
  unfold Source.report
  rw [hdecoder]
  dsimp only
  rw [hrecords]

end Source

namespace Command

variable {s : Source} {files : Files} {stdin : ByteArray} {R : Registry} {options : DecodeOptions}
  {records : List Record}

theorem run_normalize (hdecoder : s.decoder files = .ok (R, options))
    (hrecords : s.records files stdin = .ok records) :
    (Command.normalize s).run files stdin =
      R.output options records (Record.lines (records.filterMap (R.normalize? options)))
        (R.complaints options 1 records) := by
  rw [run, report, Source.report_eq hdecoder hrecords]
  exact output_normalizeReport R options records

/-- Decoding and normalizing the same records report the same outcomes.  Decoding prints a line for
every record; normalizing prints a line for every record that is accepted and complains about all
others; and both end in the same way. -/
theorem run_decode_normalize (hdecoder : s.decoder files = .ok (R, options))
    (hrecords : s.records files stdin = .ok records) :
    ∃ decoded normalized : List String,
      List.Forall₂ (fun p line => Outcome.IsLine p.2 (R.decode options p.1) line)
        (records.zipIdx 1) decoded ∧
      List.Forall₂ (fun r line => ∃ i r', R.decode options r = .ok i ∧ R.encode i = .ok r' ∧
          line = r'.toJson.toTree.compact ∧ '\n' ∉ line.toList)
        (records.filter fun r => (R.decode options r).isOk) normalized ∧
      (Command.decode s .json).run files stdin = R.output options records (unlines decoded) [] ∧
      (Command.normalize s).run files stdin =
        R.output options records (unlines normalized) (R.complaints options 1 records) := by
  refine ⟨_, _, R.outcome_lines options 1 records, R.canonical_lines options records, ?_,
    run_normalize hdecoder hrecords⟩
  rw [run, report, Source.report_eq hdecoder hrecords]
  exact output_recordsFailure R options records _ []

end Command

/-! ### Files to try the laws on -/

namespace Sample

/-- The registry of the document `definition`. -/
def registry : Registry where
  tagField := "tag"
  variants := [{ tag := "a" }]
  sound := by decide

def files : Files := fun path =>
  if path = ⟨"r.json"⟩ then .ok (.file definition.toTree.compact.toUTF8) else .error .notFound

/-- A record that is rejected, with a line break in it, and one that is accepted if undeclared
fields are dropped. -/
def records : List Record :=
  [⟨[("tag", .string "b\n")], by decide⟩, ⟨[("x", .null), ("tag", .string "a")], by decide⟩]

def stdin : ByteArray :=
  (Record.lines records).toUTF8

def source : Source where
  origin := .registry ⟨"r.json"⟩
  permissive := true

theorem decoder_source : source.decoder files = .ok (registry, .permissive) := by
  have hdocument : Document.load files ⟨"r.json"⟩ = .ok definition :=
    (Document.load_of_file (by decide) (if_pos rfl)).trans definition.parse_compact
  have hregistry : Registry.load files ⟨"r.json"⟩ = .ok registry :=
    bind_eq_ok_iff.mpr ⟨definition, hdocument, rfl⟩
  exact bind_eq_ok_iff.mpr ⟨registry, mapError_eq_ok_iff.mpr hregistry, rfl⟩

theorem whole_records : ∀ r ∈ records, ∀ e ∈ r.entries, e.2.kind ≠ .float := by
  decide

theorem records_source : source.records files stdin = .ok records := by
  apply Source.records_of_stdin rfl
  rw [stdin, Record.ofContent_toUTF8]
  exact mapError_eq_ok_iff.mpr (Record.readStream_of_whole whole_records)

end Sample

/-- Of two records the second one is accepted, and the line break in the first one reaches standard
error only. -/
theorem Command.run_decode_normalize_sample :
    (Command.decode Sample.source .json).run Sample.files Sample.stdin =
      { exitCode := 1
        stdout := unlines [
          "\x7b\"index\":1,\"errors\":[\x7b\"path\":[\"tag\"],\"kind\":\"unknown_tag\"," ++
            "\"tag\":\"b\\n\",\"message\":\"unknown tag value 'b\\n'\"\x7d]\x7d",
          "\x7b\"index\":2,\"ok\":\x7b\"tag\":\"a\",\"fields\":\x7b\x7d\x7d\x7d"]
        stderr := "error: 1 of 2 records failed validation\n" } ∧
    (Command.normalize Sample.source).run Sample.files Sample.stdin =
      { exitCode := 1
        stdout := "\x7b\"tag\":\"a\"\x7d\n"
        stderr := unlines [
          "record 1: tag: unknown tag value 'b\n'",
          "error: 1 of 2 records failed validation"] } := by
  obtain ⟨decoded, normalized, hdecoded, hnormalized, hdecode, hnormalize⟩ :=
    run_decode_normalize Sample.decoder_source Sample.records_source
  have htexts : (Sample.records.zipIdx 1).map (fun p => (Tree.map [("index", .nat p.2),
      Outcome.member (Sample.registry.decode .permissive p.1)]).compact) = decoded := by
    rw [← List.forall₂_eq_eq_eq, List.forall₂_map_left_iff]
    exact hdecoded.imp fun _ _ h => h.text.symm
  have hfilter : Sample.records.filter (fun r => (Sample.registry.decode .permissive r).isOk) =
      [⟨[("x", .null), ("tag", .string "a")], by decide⟩] := rfl
  rw [hfilter, List.forall₂_cons_left_iff] at hnormalized
  obtain ⟨line, rest, ⟨i, r', hi, hr', rfl, -⟩, hrest, rfl⟩ := hnormalized
  cases hi
  cases hr'
  cases hrest
  rw [hdecode, hnormalize, ← htexts]
  constructor
  · apply Output.ext <;> decide +kernel
  · apply Output.ext <;> decide +kernel

end TaggedUnion
