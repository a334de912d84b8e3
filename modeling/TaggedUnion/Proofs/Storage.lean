import TaggedUnion.Storage
import TaggedUnion.Proofs.FileTree
import TaggedUnion.Proofs.Json.Reading

/-!
# What is stored as JSON

Saving writes the indented text of a tree, and the path then leads to that text
(`Format.files_of_save`).  Loading reads the text of a file (`Format.Reader.load_of_file`).  So a
value that is read from the outline of its tree is what is loaded after the tree was saved
(`Format.Reader.load_of_save`), whatever the value is.
-/

namespace TaggedUnion

open Json

/-! ### Bytes -/

namespace Json

/-- Bytes that are a text are read as that text. -/
theorem parseBytesWith_toUTF8 {α : Type} (read : Outline → Except Error α) (s : String) :
    parseBytesWith read s.toUTF8 = parseWith read s.toList := by
  have hs : String.fromUTF8? s.toUTF8 = some s := by
    unfold String.fromUTF8?
    exact dif_pos s.isValidUTF8
  unfold parseBytesWith tokensOfBytes parseWith
  rw [hs]

end Json

/-! ### Saving and loading -/

namespace Format

variable {α : Type} {r : Reader α} {t : Tree} {a : α} {files files' : FileTree} {path : Path}

theorem files_of_save (hpath : path.format = .ok .json) (h : save t files path = .ok files') :
    files'.files path = .ok (.file (Format.json.write t).toUTF8) := by
  unfold save at h
  obtain ⟨format, hformat, hcreate⟩ := bind_eq_ok_iff.mp h
  obtain rfl : format = .json := Except.ok.inj (hformat.symm.trans hpath)
  exact FileTree.files_of_create (mapError_eq_ok_iff.mp hcreate)

namespace Reader

theorem parse_write (h : r.ofOutline t.outline = .ok a) :
    r.parse .json (Format.json.write t) = .ok a := by
  apply mapError_eq_ok_iff.mpr
  rw [Format.write, Tree.parseWith_pretty]
  exact h

/-- What is loaded from a JSON file is what its text is read as. -/
theorem load_of_file {files : Files} {text : String} (r : Reader α)
    (hpath : path.format = .ok .json) (hfile : files path = .ok (.file text.toUTF8)) :
    r.load files path = r.parse .json text := by
  unfold load
  rw [hpath, hfile]
  exact congrArg (Except.mapError _) (parseBytesWith_toUTF8 _ text)

/-- What was saved as JSON is what is loaded from there. -/
theorem load_of_save (hread : r.ofOutline t.outline = .ok a) (hpath : path.format = .ok .json)
    (h : save t files path = .ok files') : r.load files'.files path = .ok a := by
  rw [load_of_file r hpath (files_of_save hpath h)]
  exact parse_write hread

end Reader

end Format

end TaggedUnion
