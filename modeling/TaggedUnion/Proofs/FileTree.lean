import TaggedUnion.FileTree
import TaggedUnion.Proofs.Except
import Mathlib.Tactic.SplitIfs

/-!
# Files that were made

A path leads to a file that was made at it (`FileTree.files_of_create`).  The way there only goes
through folders, and the new file stands where no folder is, so filling its place does not change
the way (`FileTree.walk_set`).
-/

namespace TaggedUnion

namespace FileTree

variable {t t' : FileTree} {place place' : Location} {path : Path} {bytes : ByteArray}
  {content : Content}

/-- Only folders can be gone through. -/
theorem content?_of_step {piece : List Char} (h : t.step place piece = .ok place') :
    t.content? place = some .folder := by
  unfold step at h
  split at h
  · cases h
  · cases h
  · next hfolder => exact hfolder

theorem step_set_of_ne (h : place ≠ place') (piece : List Char) :
    (t.set place' content).step place piece = t.step place piece := by
  unfold step
  rw [content?_set_of_ne t h]

/-- Filling the end of a way leaves the way as it is. -/
theorem walk_set (hplace : t.content? place' ≠ some .folder) {pieces : List (List Char)}
    (h : t.walk place pieces = .ok place') :
    (t.set place' content).walk place pieces = .ok place' := by
  induction pieces generalizing place with
  | nil => exact h
  | cons piece rest ih =>
    rw [walk] at h ⊢
    obtain ⟨next, hstep, hrest⟩ := bind_eq_ok_iff.mp h
    -- The way goes on from here, so here is a folder and not the end of the way.
    have hne : place ≠ place' := by
      rintro rfl
      exact hplace (content?_of_step hstep)
    rw [step_set_of_ne hne]
    exact bind_eq_ok_iff.mpr ⟨next, hstep, ih hrest⟩

theorem locate_set (hplace : t.content? place ≠ some .folder) (h : t.locate path = .ok place) :
    (t.set place content).locate path = .ok place := by
  unfold locate at h ⊢
  split_ifs at h ⊢
  exact walk_set hplace h

/-- What making a file does, when it succeeds. -/
theorem exists_of_create (h : t.create path bytes = .ok t') :
    ∃ place, t.locate path = .ok place ∧ t.content? place ≠ some .folder ∧
      t' = t.set place (.file bytes) := by
  unfold create at h
  split_ifs at h with hslash
  · -- A path that ends in a slash names no file.
    obtain ⟨_, _, herror⟩ := bind_eq_ok_iff.mp h
    cases herror
  · obtain ⟨place, hlocate, hset⟩ := bind_eq_ok_iff.mp h
    split at hset
    · cases hset
    · next hnot => exact ⟨place, hlocate, hnot, (Except.ok.inj hset).symm⟩

/-- A file that was made is found with its bytes. -/
theorem files_of_create (h : t.create path bytes = .ok t') :
    t'.files path = .ok (.file bytes) := by
  obtain ⟨place, hlocate, hplace, rfl⟩ := exists_of_create h
  unfold files
  refine bind_eq_ok_iff.mpr ⟨place, locate_set hplace hlocate, ?_⟩
  rw [content?_set_self]
  rfl

end FileTree

end TaggedUnion
