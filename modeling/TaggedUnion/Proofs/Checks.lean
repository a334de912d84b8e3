import TaggedUnion.Command
import TaggedUnion.Proofs.Construction
import TaggedUnion.Proofs.Document
import TaggedUnion.Proofs.Except

/-!
# Checking agrees with loading

Checking a document lists all problems of its definition, while loading its registry stops at the
first one.  They agree on each path (`checkPath_cases`): a document that cannot be read gives the
same error in both, one with problems gives all of them where loading gives the first, and one
without problems gives a registry.

A run over paths puts together what is said about each one.  What is printed on standard output are
the approvals of the paths that a registry can be loaded from (`forall₂_isApproval`), what is
printed on standard error are the refusals of the others (`forall₂_isRefusal`), both in the order of
the paths, and the paths that fail are those refused (`failsCheck_eq`).
-/

namespace TaggedUnion

/-! ### Loading -/

namespace Registry

variable {files : Files} {path : Path} {d : Document}

/-- Whether a registry can be loaded from a path. -/
def loads (files : Files) (path : Path) : Bool :=
  (Registry.load files path).isOk

theorem loads_iff : loads files path = true ↔ ∃ R, Registry.load files path = .ok R := by
  unfold loads
  cases Registry.load files path with
  | error e => simp [Except.isOk, Except.toBool]
  | ok R => simp [Except.isOk, Except.toBool]

theorem loads_of_load_error {e : LoadError} (h : Registry.load files path = .error e) :
    loads files path = false := by
  unfold loads
  rw [h]
  rfl

theorem load_of_document_error {e : LoadError} (h : Document.load files path = .error e) :
    Registry.load files path = .error e := by
  unfold Registry.load
  rw [h]
  rfl

theorem load_of_document (h : Document.load files path = .ok d) :
    Registry.load files path = d.toRegistry.mapError .definition := by
  unfold Registry.load
  rw [h]
  rfl

/-- A document without problems gives a registry with its variants. -/
theorem exists_load_of_problems_eq_nil (h : Document.load files path = .ok d)
    (hproblems : d.problems = []) :
    ∃ R, Registry.load files path = .ok R ∧ R.variants = d.variants := by
  refine ⟨⟨d.tagField, d.variants, hproblems⟩, ?_, rfl⟩
  rw [load_of_document h, mapError_eq_ok_iff]
  exact ofDefinition_eq_ok_iff.mpr ⟨rfl, rfl⟩

/-- A document with problems gives the first one. -/
theorem load_of_problems_eq_cons {p : Definition.Problem} {rest : List Definition.Problem}
    (h : Document.load files path = .ok d) (hproblems : d.problems = p :: rest) :
    Registry.load files path = .error (.definition p) := by
  have herror : d.toRegistry = .error p := by
    apply ofDefinition_eq_error_iff.mpr
    rw [← Document.problems, hproblems, List.head?_cons]
  rw [load_of_document h, herror]
  rfl

end Registry

/-! ### One path -/

/-- The line that approves a path, with the number of variants found there. -/
def approvalLine (path : Path) (variants : Nat) (fingerprint : String) : String :=
  "ok " ++ path.text ++ " (" ++ Decimal.natText variants ++ " variants, fingerprint " ++
    fingerprint ++ ")"

/-- A line that approves a path from which a registry is loaded. -/
def IsApproval (files : Files) (path : Path) (line : String) : Prop :=
  ∃ d R, Document.load files path = .ok d ∧ Registry.load files path = .ok R ∧
    line = approvalLine path R.size d.fingerprint

/-- The lines that refuse a path from which no registry is loaded. -/
inductive IsRefusal (files : Files) (path : Path) : List String → Prop where
  /-- The error of a document that is not loaded, which is that of its registry too. -/
  | unreadable {e : LoadError} (hdocument : Document.load files path = .error e)
    (hregistry : Registry.load files path = .error e) :
    IsRefusal files path [path.text ++ ": " ++ e.message]
  /-- All problems of a document, the first of which is the error of its registry. -/
  | unsound {d : Document} {p : Definition.Problem} {rest : List Definition.Problem}
    (hdocument : Document.load files path = .ok d) (hproblems : d.problems = p :: rest)
    (hregistry : Registry.load files path = .error (.definition p)) :
    IsRefusal files path ((p :: rest).map fun q => path.text ++ ": " ++ q.message)

section Steps

variable {files : Files} {path : Path} {d : Document}

theorem checkPath_of_document_error {e : LoadError} (h : Document.load files path = .error e) :
    checkPath files path = .error [e.message] := by
  unfold checkPath
  rw [h]

theorem checkPath_of_problems_eq_nil (h : Document.load files path = .ok d)
    (hproblems : d.problems = []) :
    checkPath files path = .ok (approvalLine path d.variants.length d.fingerprint) := by
  unfold checkPath
  rw [h]
  simp only [hproblems]
  rfl

theorem checkPath_of_problems_eq_cons {p : Definition.Problem} {rest : List Definition.Problem}
    (h : Document.load files path = .ok d) (hproblems : d.problems = p :: rest) :
    checkPath files path = .error ((p :: rest).map Definition.Problem.message) := by
  unfold checkPath
  rw [h]
  simp only [hproblems]

theorem checkComplaints_of_ok {line : String} (h : checkPath files path = .ok line) :
    checkComplaints files path = [] := by
  unfold checkComplaints
  rw [h]

theorem checkComplaints_of_error {messages : List String}
    (h : checkPath files path = .error messages) :
    checkComplaints files path = messages.map fun m => path.text ++ ": " ++ m := by
  unfold checkComplaints
  rw [h]

end Steps

/-- A path is approved if a registry can be loaded from it, and refused otherwise. -/
theorem checkPath_cases (files : Files) (path : Path) :
    (Registry.loads files path = true ∧ checkComplaints files path = [] ∧
      ∃ line, checkPath files path = .ok line ∧ IsApproval files path line) ∨
    (Registry.loads files path = false ∧ IsRefusal files path (checkComplaints files path) ∧
      ∃ messages, checkPath files path = .error messages) := by
  cases hload : Document.load files path with
  | error e =>
    right
    have hregistry := Registry.load_of_document_error hload
    have hcheck := checkPath_of_document_error hload
    refine ⟨Registry.loads_of_load_error hregistry, ?_, _, hcheck⟩
    rw [checkComplaints_of_error hcheck]
    exact .unreadable hload hregistry
  | ok d =>
    cases hproblems : d.problems with
    | nil =>
      left
      obtain ⟨R, hregistry, hvariants⟩ := Registry.exists_load_of_problems_eq_nil hload hproblems
      have hcheck := checkPath_of_problems_eq_nil hload hproblems
      rw [← hvariants] at hcheck
      exact ⟨Registry.loads_iff.mpr ⟨R, hregistry⟩, checkComplaints_of_ok hcheck, _, hcheck,
        d, R, hload, hregistry, rfl⟩
    | cons p rest =>
      right
      have hregistry := Registry.load_of_problems_eq_cons hload hproblems
      have hcheck := checkPath_of_problems_eq_cons hload hproblems
      refine ⟨Registry.loads_of_load_error hregistry, ?_, _, hcheck⟩
      rw [checkComplaints_of_error hcheck, List.map_map]
      exact .unsound hload hproblems hregistry

/-! ### A run over paths -/

theorem failsCheck_eq (files : Files) (path : Path) :
    failsCheck files path = !Registry.loads files path := by
  unfold failsCheck
  obtain ⟨hloads, -, line, hcheck, -⟩ | ⟨hloads, -, messages, hcheck⟩ := checkPath_cases files path
  · rw [hloads, hcheck]
    rfl
  · rw [hloads, hcheck]
    rfl

/-- The lines on standard output, one for each path that a registry is loaded from. -/
theorem forall₂_isApproval (files : Files) (paths : List Path) :
    List.Forall₂ (IsApproval files) (paths.filter (Registry.loads files))
      (paths.filterMap fun path => (checkPath files path).toOption) := by
  induction paths with
  | nil => exact .nil
  | cons path paths ih =>
    obtain ⟨hloads, -, line, hcheck, happroval⟩ | ⟨hloads, -, messages, hcheck⟩ :=
      checkPath_cases files path
    · rw [List.filter_cons_of_pos hloads, List.filterMap_cons_some (by rw [hcheck]; rfl)]
      exact .cons happroval ih
    · rw [List.filter_cons_of_neg (by simp [hloads]),
        List.filterMap_cons_none (by rw [hcheck]; rfl)]
      exact ih

/-- The lines on standard error, some for each path that no registry is loaded from. -/
theorem forall₂_isRefusal (files : Files) (paths : List Path) :
    ∃ blocks, List.Forall₂ (IsRefusal files)
        (paths.filter fun path => !Registry.loads files path) blocks ∧
      paths.flatMap (checkComplaints files) = blocks.flatten := by
  induction paths with
  | nil => exact ⟨[], .nil, rfl⟩
  | cons path paths ih =>
    obtain ⟨blocks, hblocks, hflatten⟩ := ih
    rw [List.flatMap_cons, hflatten]
    obtain ⟨hloads, hcomplaints, -⟩ | ⟨hloads, hrefusal, -⟩ := checkPath_cases files path
    · refine ⟨blocks, ?_, by rw [hcomplaints, List.nil_append]⟩
      rw [List.filter_cons_of_neg (by simp [hloads])]
      exact hblocks
    · refine ⟨_ :: blocks, ?_, List.flatten_cons.symm⟩
      rw [List.filter_cons_of_pos (by simp [hloads])]
      exact .cons hrefusal hblocks

/-- How many of the paths no registry is loaded from, each counted as often as it is given. -/
def refusals (files : Files) (paths : List Path) : Nat :=
  paths.countP fun path => !Registry.loads files path

theorem refusals_eq_zero_iff {files : Files} {paths : List Path} :
    refusals files paths = 0 ↔ ∀ path ∈ paths, ∃ R, Registry.load files path = .ok R := by
  rw [refusals, List.countP_eq_zero]
  refine forall₂_congr fun path _ => ?_
  rw [← Registry.loads_iff]
  simp

/-- The last message of a check in which `failed` of `total` paths were refused. -/
def lastCheckMessage (failed total : Nat) : List String :=
  if failed = 0 then []
  else ["error: " ++ (Decimal.natText failed ++ " of " ++ Decimal.natText total ++
    " registry file(s) failed checks")]

/-- The output of a check: it fails, with a last message, if a path is refused. -/
theorem output_checkReport (files : Files) (paths : List Path) :
    (checkReport files paths).output =
      { exitCode := if refusals files paths = 0 then 0 else 1
        stdout := unlines (paths.filterMap fun path => (checkPath files path).toOption)
        stderr := unlines (paths.flatMap (checkComplaints files) ++
          lastCheckMessage (refusals files paths) paths.length) } := by
  have hfailed : paths.countP (failsCheck files) = refusals files paths :=
    List.countP_congr fun path _ => by rw [failsCheck_eq]
  rw [checkReport, hfailed, lastCheckMessage]
  by_cases hnone : refusals files paths = 0
  · rw [if_pos hnone, if_pos hnone, if_pos hnone, List.append_nil]
    rfl
  · rw [if_neg hnone, if_neg hnone, if_neg hnone]
    rfl

/-- Checking agrees with loading.  It approves, in order, the paths that a registry is loaded from
and refuses the others, with the error of loading or with all problems, the first of which is that
error.  It succeeds exactly if a registry is loaded from every path, and its last message counts
those from which none is. -/
theorem Command.run_check_eq_load (files : Files) (stdin : ByteArray) (paths : List Path) :
    ∃ (lines : List String) (blocks : List (List String)),
      List.Forall₂ (IsApproval files) (paths.filter (Registry.loads files)) lines ∧
      List.Forall₂ (IsRefusal files) (paths.filter fun path => !Registry.loads files path) blocks ∧
      (Command.check paths).run files stdin =
        { exitCode := if refusals files paths = 0 then 0 else 1
          stdout := unlines lines
          stderr := unlines (blocks.flatten ++
            lastCheckMessage (refusals files paths) paths.length) } ∧
      (((Command.check paths).run files stdin).exitCode = 0 ↔
        ∀ path ∈ paths, ∃ R, Registry.load files path = .ok R) := by
  obtain ⟨blocks, hblocks, hflatten⟩ := forall₂_isRefusal files paths
  have hrun := output_checkReport files paths
  rw [hflatten] at hrun
  refine ⟨_, blocks, forall₂_isApproval files paths, hblocks, hrun, ?_⟩
  rw [run, report, hrun, ← refusals_eq_zero_iff]
  simp

/-! ### Files to try the law on -/

namespace Sample

/-- A file with a document that defines a registry, and one with a document that does not. -/
def documents : Files := fun path =>
  if path = ⟨"a.json"⟩ then .ok (.file definition.toTree.compact.toUTF8)
  else if path = ⟨"b.json"⟩ then .ok (.file document.toTree.compact.toUTF8)
  else .error .notFound

theorem load_definition : Document.load documents ⟨"a.json"⟩ = .ok definition :=
  (Document.load_of_file (by decide) rfl).trans definition.parse_compact

theorem load_document : Document.load documents ⟨"b.json"⟩ = .ok document :=
  (Document.load_of_file (by decide) rfl).trans document.parse_compact

theorem load_missing : Document.load documents ⟨"c.json"⟩ = .error (.file .notFound) :=
  rfl

/-- Which of the three paths a registry is loaded from. -/
theorem loads_documents :
    Registry.loads documents ⟨"a.json"⟩ = true ∧ Registry.loads documents ⟨"b.json"⟩ = false ∧
      Registry.loads documents ⟨"c.json"⟩ = false := by
  obtain ⟨R, hR, -⟩ := Registry.exists_load_of_problems_eq_nil load_definition rfl
  have hdocument := Registry.load_of_problems_eq_cons load_document rfl
  have hmissing := Registry.load_of_document_error load_missing
  exact ⟨Registry.loads_iff.mpr ⟨R, hR⟩, Registry.loads_of_load_error hdocument,
    Registry.loads_of_load_error hmissing⟩

theorem approval_definition {line : String} (h : IsApproval documents ⟨"a.json"⟩ line) :
    line = approvalLine ⟨"a.json"⟩ 1 definition.fingerprint := by
  obtain ⟨d, R, hd, hR, rfl⟩ := h
  rw [load_definition] at hd
  rw [Registry.load_of_document load_definition] at hR
  cases hd
  cases hR
  rfl

theorem refusal_document {lines : List String} (h : IsRefusal documents ⟨"b.json"⟩ lines) :
    lines = document.problems.map fun q => "b.json" ++ ": " ++ q.message := by
  cases h with
  | unreadable hdocument _ =>
    rw [load_document] at hdocument
    cases hdocument
  | unsound hdocument hproblems _ =>
    rw [load_document] at hdocument
    cases hdocument
    rw [hproblems]

theorem refusal_missing {lines : List String} (h : IsRefusal documents ⟨"c.json"⟩ lines) :
    lines = ["c.json" ++ ": " ++ (LoadError.file .notFound).message] := by
  cases h with
  | unreadable hdocument _ =>
    rw [load_missing] at hdocument
    cases hdocument
    rfl
  | unsound hdocument _ _ =>
    rw [load_missing] at hdocument
    cases hdocument

end Sample

/-- Of three paths the second one is approved.  The first one is refused for all three problems of
its document, and the third one because there is no file. -/
theorem Command.run_check_sample :
    (Command.check [⟨"b.json"⟩, ⟨"a.json"⟩, ⟨"c.json"⟩]).run Sample.documents .empty =
      { exitCode := 1
        stdout := unlines
          ["ok a.json (1 variants, fingerprint " ++ Sample.definition.fingerprint ++ ")"]
        stderr := unlines [
          "b.json: variant tag value cannot be empty",
          "b.json: variant '' declares a field with an empty name",
          "b.json: variant '' declares a field with an empty name",
          "c.json: I/O error: No such file or directory (os error 2)",
          "error: 2 of 3 registry file(s) failed checks"] } := by
  obtain ⟨hdefinition, hdocument, hmissing⟩ := Sample.loads_documents
  obtain ⟨lines, blocks, hlines, hblocks, hrun, -⟩ :=
    run_check_eq_load Sample.documents .empty [⟨"b.json"⟩, ⟨"a.json"⟩, ⟨"c.json"⟩]
  have hrefusals : refusals Sample.documents [⟨"b.json"⟩, ⟨"a.json"⟩, ⟨"c.json"⟩] = 2 := by
    simp [refusals, hdefinition, hdocument, hmissing]
  have happroved : [⟨"b.json"⟩, ⟨"a.json"⟩, ⟨"c.json"⟩].filter (Registry.loads Sample.documents) =
      [⟨"a.json"⟩] := by
    simp [hdefinition, hdocument, hmissing]
  have hrefused : [⟨"b.json"⟩, ⟨"a.json"⟩, ⟨"c.json"⟩].filter
      (fun path => !Registry.loads Sample.documents path) = [⟨"b.json"⟩, ⟨"c.json"⟩] := by
    simp [hdefinition, hdocument, hmissing]
  rw [happroved] at hlines
  rw [hrefused] at hblocks
  cases hlines with | cons happroval hlines =>
  cases hlines
  cases hblocks with | cons hrefusal hblocks =>
  cases hblocks with | cons hrefusal' hblocks =>
  cases hblocks
  rw [hrun, hrefusals, Sample.approval_definition happroval, Sample.refusal_document hrefusal,
    Sample.refusal_missing hrefusal']
  apply Output.ext
  · rfl
  · have hstart : "ok " ++ "a.json" ++ " (" ++ Decimal.natText 1 ++ " variants, fingerprint " =
        "ok a.json (1 variants, fingerprint " := by decide +kernel
    show unlines ["ok " ++ "a.json" ++ " (" ++ Decimal.natText 1 ++ " variants, fingerprint " ++
      Sample.definition.fingerprint ++ ")"] = _
    rw [hstart]
  · decide +kernel

end TaggedUnion
