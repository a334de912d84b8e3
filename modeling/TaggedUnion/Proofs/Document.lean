import TaggedUnion.Proofs.Schema
import TaggedUnion.Proofs.Storage

/-!
# Documents survive their JSON text

A document is read from its outline, whatever its texts hold and whether or not it defines a
registry.  So both its compact and its indented text give the document back
(`Document.parse_compact`, `Document.parse_pretty`), a document saved as JSON is loaded again
(`Document.load_of_save`), and different documents have different bytes under their fingerprints
(`Document.canonicalBytes_injective`).
-/

namespace TaggedUnion

namespace Document

theorem parse_compact (d : Document) : parse .json d.toTree.compact = .ok d := by
  apply mapError_eq_ok_iff.mpr
  rw [Tree.parseWith_compact]
  exact d.ofOutline_toTree

theorem parse_pretty (d : Document) : parse .json (Format.json.write d.toTree) = .ok d :=
  Format.Reader.parse_write d.ofOutline_toTree

variable {d d' : Document} {files files' : FileTree} {path : Path}

theorem files_of_save (hpath : path.format = .ok .json) (h : d.save files path = .ok files') :
    files'.files path = .ok (.file (Format.json.write d.toTree).toUTF8) :=
  Format.files_of_save hpath h

/-- What is loaded from a JSON file is what its text is read as. -/
theorem load_of_file {files : Files} {text : String} (hpath : path.format = .ok .json)
    (hfile : files path = .ok (.file text.toUTF8)) : load files path = parse .json text :=
  reader.load_of_file hpath hfile

/-- A document saved as JSON is what is loaded from there. -/
theorem load_of_save (hpath : path.format = .ok .json) (h : d.save files path = .ok files') :
    load files'.files path = .ok d := by
  have hread : reader.ofOutline d.toTree.outline = .ok d := d.ofOutline_toTree
  exact Format.Reader.load_of_save hread hpath h

theorem canonicalBytes_injective (h : d.canonicalBytes = d'.canonicalBytes) : d = d' := by
  have htext : d.toTree.compact = d'.toTree.compact := String.toByteArray_inj.mp h
  have hparse := d.parse_compact
  rw [htext, parse_compact] at hparse
  exact (Except.ok.inj hparse).symm

/-- Both JSON texts of a document are read as the document, and so is the file that saving it as
JSON makes.  Hence the bytes of its fingerprint are those of no other document. -/
theorem parse_json_toTree :
    (∀ d : Document, parse .json d.toTree.compact = .ok d ∧
      parse .json (Format.json.write d.toTree) = .ok d ∧
      ∀ files path files', path.format = .ok .json → d.save files path = .ok files' →
        files'.files path = .ok (.file (Format.json.write d.toTree).toUTF8) ∧
        load files'.files path = .ok d) ∧
    ∀ d d' : Document, d.canonicalBytes = d'.canonicalBytes ↔ d = d' := by
  refine ⟨fun d => ⟨d.parse_compact, d.parse_pretty, fun files path files' hpath h => ?_⟩,
    fun d d' => ⟨canonicalBytes_injective, fun h => by rw [h]⟩⟩
  exact ⟨files_of_save hpath h, load_of_save hpath h⟩

end Document

/-! ### Documents to try the laws on -/

/-- A document that leaves its tag field to be the usual one. -/
def Sample.definition : Document :=
  .ofVariants [{ tag := "a" }]

/-- A document that defines no registry, with texts that have to be escaped. -/
def Sample.document : Document where
  schemaVersion := none
  tagField := "\"\\\x01"
  variants := [{ tag := "", name := "a\nb", fields := [{ name := "", type := .float },
    { name := "", type := .bool, required := false, description := some "\t" }] }]

theorem Document.load_saved_document :
    ∃ path files', Path.format path = .ok .json ∧
      Sample.document.save .empty path = .ok files' ∧
      load files'.files path = .ok Sample.document := by
  have hpath : Path.format ⟨"r.json"⟩ = .ok .json := by decide
  obtain ⟨files', h⟩ : ∃ files', Sample.document.save .empty ⟨"r.json"⟩ = .ok files' := ⟨_, rfl⟩
  exact ⟨_, _, hpath, h, ((parse_json_toTree.1 Sample.document).2.2 _ _ _ hpath h).2⟩

end TaggedUnion
