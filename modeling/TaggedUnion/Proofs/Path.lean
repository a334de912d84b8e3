import TaggedUnion.Path
import Mathlib.Data.List.Basic
import Mathlib.Tactic.SplitIfs

/-!
# Where paths lead

Two paths are the same when they start alike and make the same steps (`Path.Same`); idle pieces do
not count.  A relative path inside a folder makes the steps of the folder and then its own
(`Path.steps_join`), and starts as the folder does (`Path.lead_join`).  So putting a folder in front
of a path that is already inside it gives the same path exactly when the folder makes no step
(`Path.same_join_join_iff`).  The parent of a path is written without idle pieces at its end, hence
a relative parent that makes no step is empty or a single dot (`Path.parent?_steps_eq_nil_iff`).
-/

namespace TaggedUnion.Path

/-! ### Pieces -/

/-- A slash divides a text without changing the pieces on its two sides. -/
theorem pieces_append_slash (a b : List Char) : pieces (a ++ '/' :: b) = pieces a ++ pieces b := by
  induction a with
  | nil => rfl
  | cons c a ih =>
    rw [List.cons_append, pieces, pieces, ih]
    split_ifs
    · rfl
    · cases hp : pieces a with
      | nil => exact absurd hp (pieces_ne_nil a)
      | cons piece others => rfl

theorem pieces_of_slash_not_mem {cs : List Char} (h : '/' ∉ cs) : pieces cs = [cs] := by
  induction cs with
  | nil => rfl
  | cons c cs ih =>
    rw [List.mem_cons, not_or] at h
    rw [pieces, if_neg (Ne.symm h.1), ih h.2]

theorem slash_not_mem_of_mem_pieces {cs piece : List Char} (h : piece ∈ pieces cs) :
    '/' ∉ piece := by
  induction cs generalizing piece with
  | nil =>
    rw [List.mem_singleton.mp h]
    exact List.not_mem_nil
  | cons c cs ih =>
    rw [pieces] at h
    split_ifs at h with hc
    · rcases List.mem_cons.mp h with rfl | h
      · exact List.not_mem_nil
      · exact ih h
    · cases hp : pieces cs with
      | nil => exact absurd hp (pieces_ne_nil cs)
      | cons first others =>
        simp only [hp] at h ih
        rcases List.mem_cons.mp h with rfl | h
        · rw [List.mem_cons, not_or]
          exact ⟨Ne.symm hc, ih List.mem_cons_self⟩
        · exact ih (List.mem_cons_of_mem _ h)

theorem ofPieces_concat {ps : List (List Char)} (h : ps ≠ []) (piece : List Char) :
    ofPieces (ps ++ [piece]) = ofPieces ps ++ '/' :: piece := by
  induction ps with
  | nil => exact absurd rfl h
  | cons p ps ih =>
    cases ps with
    | nil => rfl
    | cons q ps =>
      have hps := ih (List.cons_ne_nil q ps)
      simp only [List.cons_append, ofPieces] at hps ⊢
      rw [hps, List.append_assoc, List.cons_append]

/-! ### Steps -/

/-- The pieces of a path that lead somewhere. -/
def steps (p : Path) : List (List Char) :=
  (pieces p.text.toList).filter fun piece => !isIdle piece

/-- Paths are the same when they start alike and make the same steps. -/
def Same (p q : Path) : Prop :=
  p.lead = q.lead ∧ p.steps = q.steps

instance (p q : Path) : Decidable (p.Same q) :=
  inferInstanceAs (Decidable (p.lead = q.lead ∧ p.steps = q.steps))

theorem Same.refl (p : Path) : p.Same p :=
  ⟨rfl, rfl⟩

variable {p q folder path : Path} {cs : List Char}

theorem steps_of_text_eq (h : p.text.toList = cs) :
    p.steps = (pieces cs).filter fun piece => !isIdle piece := by
  rw [steps, h]

/-- The characters of a relative path inside a folder: a slash stands between the two, which the
folder may have brought along. -/
theorem text_join (hpath : path.isAbsolute = false) (hfolder : folder.text ≠ "") :
    (∃ cs, folder.text.toList = cs ++ ['/'] ∧
        (folder.join path).text.toList = cs ++ '/' :: path.text.toList) ∨
      (folder.join path).text.toList = folder.text.toList ++ '/' :: path.text.toList := by
  unfold join
  rw [hpath, Bool.false_or, if_neg (by simpa using hfolder)]
  split_ifs with hslash
  · obtain ⟨cs, hcs⟩ := List.getLast?_eq_some_iff.mp hslash
    refine .inl ⟨cs, hcs, ?_⟩
    rw [String.toList_append, hcs, List.append_assoc, List.singleton_append]
  · right
    simp [String.toList_append]

theorem join_of_text_eq_empty (h : folder.text = "") (path : Path) : folder.join path = path := by
  unfold join
  rw [if_pos (by simp [h])]

theorem join_of_isAbsolute (h : path.isAbsolute = true) (folder : Path) :
    folder.join path = path := by
  unfold join
  rw [if_pos (by simp [h])]

/-- Inside a folder, a relative path makes the steps of the folder first. -/
theorem steps_join (hpath : path.isAbsolute = false) (folder : Path) :
    (folder.join path).steps = folder.steps ++ path.steps := by
  by_cases hfolder : folder.text = ""
  · have hnone : folder.steps = [] := by
      rw [steps, hfolder]
      rfl
    rw [join_of_text_eq_empty hfolder, hnone, List.nil_append]
  · rcases text_join hpath hfolder with ⟨cs, hcs, htext⟩ | htext
    · -- The slash at the end of the folder is followed by an empty piece, which is idle.
      rw [steps_of_text_eq htext, steps_of_text_eq hcs, pieces_append_slash, pieces_append_slash,
        List.filter_append, List.filter_append]
      simp [pieces, isIdle, steps]
    · rw [steps_of_text_eq htext, pieces_append_slash, List.filter_append]
      rfl

/-! ### Leads -/

/-- How a text starts does not change when a slash and more is put behind it. -/
theorem lead_append_slash (hcs : cs ≠ []) (rest : List Char) (hp : p.text.toList = cs)
    (hq : q.text.toList = cs ++ '/' :: rest) : q.lead = p.lead := by
  unfold lead
  rw [hp, hq]
  match cs with
  | [c] =>
    by_cases hslash : c = '/'
    · subst hslash
      rfl
    by_cases hdot : c = '.'
    · subst hdot
      rfl
    simp [hslash, hdot]
  | c :: d :: cs =>
    by_cases hslash : c = '/'
    · subst hslash
      rfl
    by_cases hdot : c = '.'
    · subst hdot
      by_cases hnext : d = '/'
      · subst hnext
        rfl
      · simp [hnext]
    simp [hslash, hdot]

theorem lead_join (hpath : path.isAbsolute = false) (hfolder : folder.text ≠ "") :
    (folder.join path).lead = folder.lead := by
  rcases text_join hpath hfolder with ⟨cs, hcs, htext⟩ | htext
  · cases cs with
    | nil =>
      unfold lead
      rw [htext, hcs]
      rfl
    | cons c cs =>
      -- Both texts are the folder without its slash, with a slash and more behind it.
      have hne : c :: cs ≠ [] := List.cons_ne_nil c cs
      have htoList : (String.ofList (c :: cs)).toList = c :: cs := String.toList_ofList
      rw [@lead_append_slash ⟨String.ofList (c :: cs)⟩ _ _ hne _ htoList htext,
        @lead_append_slash ⟨String.ofList (c :: cs)⟩ folder _ hne _ htoList hcs]
  · exact lead_append_slash (by simpa using hfolder) _ rfl htext

theorem isAbsolute_iff : p.isAbsolute = true ↔ p.lead = ['/'] := by
  rw [isAbsolute, decide_eq_true_eq, List.head?_eq_some_iff]
  unfold lead
  split <;> simp_all

/-- Whether a relative path inside a folder is absolute is up to the folder. -/
theorem isAbsolute_join (hpath : path.isAbsolute = false) (folder : Path) :
    (folder.join path).isAbsolute = folder.isAbsolute := by
  by_cases hfolder : folder.text = ""
  · rw [join_of_text_eq_empty hfolder, hpath, isAbsolute, hfolder]
    rfl
  · rw [Bool.eq_iff_iff, isAbsolute_iff, isAbsolute_iff, lead_join hpath hfolder]

/-! ### Folders put in front twice -/

theorem isAbsolute_of_join (h : (folder.join path).isAbsolute = false) :
    path.isAbsolute = false := by
  rw [← Bool.not_eq_true] at h ⊢
  intro hpath
  rw [join_of_isAbsolute hpath] at h
  exact h hpath

/-- Putting a folder in front of a path inside it gives the same path only if it makes no step. -/
theorem same_join_join_iff (h : (folder.join path).isAbsolute = false) :
    (folder.join (folder.join path)).Same (folder.join path) ↔ folder.steps = [] := by
  have hlead : (folder.join (folder.join path)).lead = (folder.join path).lead := by
    by_cases hfolder : folder.text = ""
    · rw [join_of_text_eq_empty hfolder (folder.join path)]
    · rw [lead_join h hfolder, lead_join (isAbsolute_of_join h) hfolder]
  rw [Same, and_iff_right hlead, steps_join h, List.append_left_eq_self]

/-! ### Parents -/

theorem lead_cases (p : Path) : p.lead = ['/'] ∨ p.lead = ['.'] ∨ p.lead = [] := by
  unfold lead
  split <;> simp

theorem steps_ne_nil_of_mem {piece : List Char} (hmem : piece ∈ pieces p.text.toList)
    (hidle : isIdle piece = false) : p.steps ≠ [] :=
  List.ne_nil_of_mem (List.mem_filter.mpr ⟨hmem, by rw [hidle]; rfl⟩)

/-- Behind a lead, pieces that end in one that is not idle make a step. -/
theorem steps_ne_nil_of_concat {ps : List (List Char)} {piece : List Char}
    (hslash : '/' ∉ piece) (hidle : isIdle piece = false)
    (hp : p.text.toList = path.lead ++ ofPieces (ps ++ [piece])) : p.steps ≠ [] := by
  have hpiece : pieces piece = [piece] := pieces_of_slash_not_mem hslash
  by_cases hps : ps = []
  · subst hps
    rw [List.nil_append, ofPieces] at hp
    rcases path.lead_cases with hlead | hlead | hlead
    · refine steps_ne_nil_of_mem ?_ hidle
      rw [hp, hlead, List.singleton_append, pieces, if_pos rfl, hpiece]
      exact List.mem_cons_of_mem _ List.mem_cons_self
    · -- A dot right in front of the piece makes it a longer one.
      have hmem : '.' :: piece ∈ pieces p.text.toList := by
        rw [hp, hlead, List.singleton_append, pieces, if_neg (by decide), hpiece]
        exact List.mem_cons_self
      refine steps_ne_nil_of_mem hmem ?_
      simp only [isIdle, Bool.or_eq_false_iff, decide_eq_false_iff_not] at hidle ⊢
      exact ⟨List.cons_ne_nil _ _, fun heq => hidle.1 (List.cons.inj heq).2⟩
    · refine steps_ne_nil_of_mem ?_ hidle
      rw [hp, hlead, List.nil_append, hpiece]
      exact List.mem_cons_self
  · refine steps_ne_nil_of_mem ?_ hidle
    rw [hp, ofPieces_concat hps, ← List.append_assoc, pieces_append_slash, hpiece]
    exact List.mem_append_right _ List.mem_cons_self

/-- A parent is nothing, the lead of the path, or more than the lead, without an idle piece at its
end. -/
theorem parent?_cases (h : path.parent? = some folder) :
    folder.text = "" ∨ folder.text = String.ofList path.lead ∨
      ∃ ps piece, '/' ∉ piece ∧ isIdle piece = false ∧
        folder.text.toList = path.lead ++ ofPieces (ps ++ [piece]) := by
  unfold parent? at h
  split at h
  · next last rest hbackward =>
    obtain rfl := Option.some.inj h
    have hpieces : ∀ piece ∈ rest, '/' ∉ piece := by
      intro piece hmem
      have hback : piece ∈ path.backward := by
        rw [hbackward]
        exact List.mem_cons_of_mem _ hmem
      exact slash_not_mem_of_mem_pieces
        (List.mem_reverse.mp ((List.dropWhile_sublist isIdle).subset hback))
    have hidle := List.head?_dropWhile_not isIdle rest
    cases hkept : rest.dropWhile isIdle with
    | nil =>
      right; left
      rw [List.reverse_nil, ofPieces, List.append_nil]
    | cons piece kept =>
      rw [hkept] at hidle
      have hmem : piece ∈ rest := (List.dropWhile_sublist isIdle).subset (by simp [hkept])
      refine .inr (.inr ⟨kept.reverse, piece, hpieces piece hmem, hidle, ?_⟩)
      rw [List.reverse_cons, String.toList_ofList]
  · split_ifs at h
    obtain rfl := Option.some.inj h
    exact .inl rfl

/-- A relative parent that makes no step is empty or a single dot. -/
theorem parent?_steps_eq_nil_iff (h : path.parent? = some folder)
    (hrelative : folder.isAbsolute = false) :
    folder.steps = [] ↔ folder = ⟨""⟩ ∨ folder = ⟨"."⟩ := by
  constructor
  · intro hsteps
    rcases parent?_cases h with htext | htext | ⟨ps, piece, hslash, hidle, htext⟩
    · exact .inl (congrArg Path.mk htext)
    · rcases path.lead_cases with hlead | hlead | hlead
      · -- A lone slash is an absolute path.
        rw [isAbsolute, htext, hlead] at hrelative
        exact absurd hrelative (by decide)
      · rw [hlead] at htext
        exact .inr (congrArg Path.mk htext)
      · rw [hlead] at htext
        exact .inl (congrArg Path.mk htext)
    · exact absurd hsteps (steps_ne_nil_of_concat hslash hidle htext)
  · rintro (rfl | rfl)
    · rfl
    · rfl

end TaggedUnion.Path
