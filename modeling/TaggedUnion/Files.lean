import TaggedUnion.Path

/-!
# Files

What a path leads to, as far as reading is concerned: the bytes of a file, a folder, or an error.
-/

namespace TaggedUnion

/-- Why a path cannot be opened. -/
inductive FileError where
  | notFound
  | notDirectory
  | isDirectory
  | nameTooLong
  /-- The path holds a character that no name can hold. -/
  | nulCharacter
  /-- Bytes that are not text where text is wanted. -/
  | notText
  /-- Any other failure, in the words of the system. -/
  | other (text : String)
deriving DecidableEq

def FileError.message : FileError → String
  | .notFound => "No such file or directory (os error 2)"
  | .notDirectory => "Not a directory (os error 20)"
  | .isDirectory => "Is a directory (os error 21)"
  | .nameTooLong => "File name too long (os error 36)"
  | .nulCharacter => "file name contained an unexpected NUL byte"
  | .notText => "stream did not contain valid UTF-8"
  | .other text => text

/-- What a path leads to. -/
inductive Content where
  | file (bytes : ByteArray)
  | folder

/-- The outcome of opening each path. -/
abbrev Files : Type :=
  Path → Except FileError Content

/-- The text of a file. -/
def Content.text : Content → Except FileError String
  | .folder => .error .isDirectory
  | .file bytes =>
    match String.fromUTF8? bytes with
    | some text => .ok text
    | none => .error .notText

/-- A file made from a text holds that text. -/
theorem Content.text_toUTF8 (s : String) : (Content.file s.toUTF8).text = .ok s := by
  have h : String.fromUTF8? s.toUTF8 = some s := by
    unfold String.fromUTF8?
    exact dif_pos s.isValidUTF8
  rw [Content.text, h]

end TaggedUnion
