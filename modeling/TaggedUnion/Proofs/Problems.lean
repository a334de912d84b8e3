import TaggedUnion.Definition
import Mathlib.Algebra.BigOperators.Group.List.Basic
import Mathlib.Algebra.GroupWithZero.Nat
import Mathlib.Data.List.Forall2

/-!
# Every problem is reported as often as it occurs

`Definition.multiplicity` says how often a problem occurs in a definition, by counting names: a
name that has to be unique is a problem each time it comes again.  Both scans of a definition go
over names and remember those seen (`scan`, `fieldProblems_eq_scan`).  What a scan reports in one
step decides what it reports in all: a problem of a name in itself as often as the name occurs
(`count_scan_of_name`), a problem of a name seen before as often as it comes again
(`count_scan_of_seen`).

The order of variants and fields makes no difference to how often a name occurs
(`multiplicity_of_rearranged`), hence only to the order of the report.  What has been reported does
not depend on the variants that follow (`variantProblems_append`).
-/

namespace TaggedUnion

namespace Definition

/-! ### Names that come again -/

/-- How often a name comes again in `names`: each time if it was seen before, and each time but the
first if it was not. -/
def repeats (seen names : List String) (name : String) : Nat :=
  if name ∈ seen then names.count name else names.count name - 1

theorem repeats_nil_left (names : List String) (name : String) :
    repeats [] names name = names.count name - 1 :=
  if_neg List.not_mem_nil

/-- Only whether the name itself was seen matters. -/
theorem repeats_congr {seen seen' : List String} {name : String} (h : name ∈ seen ↔ name ∈ seen')
    (names : List String) : repeats seen names name = repeats seen' names name := by
  unfold repeats
  rw [if_congr h rfl rfl]

/-- A name that was seen comes again, and any name is seen from then on. -/
theorem repeats_cons (seen names : List String) (first name : String) :
    repeats seen (first :: names) name =
      (if first = name ∧ name ∈ seen then 1 else 0) + repeats (first :: seen) names name := by
  by_cases hfirst : first = name
  · subst hfirst
    by_cases hseen : first ∈ seen
    · simp [repeats, hseen, Nat.add_comm]
    · simp [repeats, hseen]
  · have hrest : repeats (first :: seen) names name = repeats seen names name :=
      repeats_congr (by simp [Ne.symm hfirst]) names
    rw [hrest]
    simp [repeats, hfirst]

/-! ### Scans over names -/

/-- A scan over names that knows which ones it has seen. -/
def scan (report : List String → String → List Problem) (seen : List String) :
    List String → List Problem
  | [] => []
  | name :: names => report seen name ++ scan report (name :: seen) names

section Scan

variable {report : List String → String → List Problem} {p : Problem}

theorem count_scan_of_not_mem (h : ∀ seen name, p ∉ report seen name) (seen names : List String) :
    (scan report seen names).count p = 0 := by
  induction names generalizing seen with
  | nil => rfl
  | cons first names ih =>
    rw [scan, List.count_append, List.count_eq_zero_of_not_mem (h seen first), ih]

/-- What is reported of a name whenever it comes is reported as often as it occurs. -/
theorem count_scan_of_name {name : String}
    (h : ∀ seen first, (report seen first).count p = if first = name then 1 else 0)
    (seen names : List String) : (scan report seen names).count p = names.count name := by
  induction names generalizing seen with
  | nil => rfl
  | cons first names ih =>
    rw [scan, List.count_append, h, ih, List.count_cons, Nat.add_comm]
    simp only [beq_iff_eq]

/-- What is reported of a name when it was seen before is reported as often as it comes again. -/
theorem count_scan_of_seen {name : String}
    (h : ∀ seen first, (report seen first).count p = if first = name ∧ name ∈ seen then 1 else 0)
    (seen names : List String) : (scan report seen names).count p = repeats seen names name := by
  induction names generalizing seen with
  | nil => simp [scan, repeats]
  | cons first names ih => rw [scan, List.count_append, h, ih, repeats_cons]

end Scan

/-! ### Fields -/

/-- The problem of the name of a field, given the names of the fields before. -/
def nameProblems (tagField tag : String) (seen : List String) (name : String) : List Problem :=
  if name = "" then [.emptyFieldName tag]
  else if name = tagField then [.reservedField tag name]
  else if name ∈ seen then [.duplicateField tag name]
  else []

variable {tagField : String}

/-- The scan over fields is one over their names.  Names that are problems in themselves and names
that come again need not be remembered, so it is enough that other names are seen alike. -/
theorem fieldProblems_eq_scan {tag : String} {seen seen' : List String}
    (h : ∀ name, name ≠ "" → name ≠ tagField → (name ∈ seen ↔ name ∈ seen'))
    (fields : List Field) :
    fieldProblems tagField tag seen fields =
      scan (nameProblems tagField tag) seen' (fields.map Field.name) := by
  induction fields generalizing seen seen' with
  | nil => rfl
  | cons f rest ih =>
    rw [fieldProblems, List.map_cons, scan, nameProblems]
    -- In each case the names seen from here on differ at most by one that the proviso leaves out.
    by_cases hempty : f.name = ""
    · rw [if_pos hempty, if_pos hempty, List.singleton_append, ih fun name hname hname' => ?_]
      rw [h name hname hname', List.mem_cons, hempty, or_iff_right hname]
    rw [if_neg hempty, if_neg hempty]
    by_cases hreserved : f.name = tagField
    · rw [if_pos hreserved, if_pos hreserved, List.singleton_append,
        ih fun name hname hname' => ?_]
      rw [h name hname hname', List.mem_cons, hreserved, or_iff_right hname']
    rw [if_neg hreserved, if_neg hreserved, if_congr (h f.name hempty hreserved) rfl rfl]
    by_cases hseen : f.name ∈ seen'
    · rw [if_pos hseen, if_pos hseen, List.singleton_append, ih fun name hname hname' => ?_]
      rw [h name hname hname', List.mem_cons]
      exact ⟨.inr, fun hmem => hmem.elim (fun heq => heq ▸ hseen) id⟩
    · rw [if_neg hseen, if_neg hseen, List.nil_append, ih fun name hname hname' => ?_]
      rw [List.mem_cons, List.mem_cons, h name hname hname']

theorem fieldProblems_nil_eq_scan (v : Variant) :
    fieldProblems tagField v.tag [] v.fields = scan (nameProblems tagField v.tag) [] v.fieldNames :=
  fieldProblems_eq_scan (fun _ _ _ => Iff.rfl) v.fields

/-- What can be wrong with a name, and of which variant it is said. -/
theorem mem_nameProblems_cases {tag name : String} {seen : List String} {p : Problem}
    (h : p ∈ nameProblems tagField tag seen name) :
    p = .emptyFieldName tag ∨ p = .reservedField tag tagField ∨
      name ≠ "" ∧ name ≠ tagField ∧ p = .duplicateField tag name := by
  unfold nameProblems at h
  split_ifs at h with hempty hreserved hseen
  · exact .inl (List.mem_singleton.mp h)
  · rw [← hreserved]
    exact .inr (.inl (List.mem_singleton.mp h))
  · exact .inr (.inr ⟨hempty, hreserved, List.mem_singleton.mp h⟩)
  · exact absurd h List.not_mem_nil

theorem count_emptyFieldName (v : Variant) (tag : String) :
    (fieldProblems tagField v.tag [] v.fields).count (.emptyFieldName tag) =
      if v.tag = tag then v.fieldNames.count "" else 0 := by
  rw [fieldProblems_nil_eq_scan]
  split_ifs with htag
  · apply count_scan_of_name
    intro seen first
    unfold nameProblems
    split_ifs <;> simp [htag]
  · apply count_scan_of_not_mem
    intro seen name h
    rcases mem_nameProblems_cases h with heq | heq | ⟨-, -, heq⟩
    · exact htag (Problem.emptyFieldName.inj heq).symm
    · cases heq
    · cases heq

theorem count_reservedField (hnonempty : tagField ≠ "") (v : Variant) (tag field : String) :
    (fieldProblems tagField v.tag [] v.fields).count (.reservedField tag field) =
      if v.tag = tag ∧ field = tagField then v.fieldNames.count tagField else 0 := by
  rw [fieldProblems_nil_eq_scan]
  split_ifs with h
  · obtain ⟨rfl, rfl⟩ := h
    apply count_scan_of_name
    intro seen first
    by_cases hfirst : first = field
    · subst hfirst
      simp [nameProblems, hnonempty]
    · rw [if_neg hfirst]
      unfold nameProblems
      split_ifs <;> simp
  · apply count_scan_of_not_mem
    intro seen name hmem
    rcases mem_nameProblems_cases hmem with heq | heq | ⟨-, -, heq⟩
    · cases heq
    · obtain ⟨htag, hfield⟩ := Problem.reservedField.inj heq
      exact h ⟨htag.symm, hfield⟩
    · cases heq

theorem count_duplicateField (v : Variant) (tag field : String) :
    (fieldProblems tagField v.tag [] v.fields).count (.duplicateField tag field) =
      if v.tag = tag ∧ field ≠ "" ∧ field ≠ tagField then v.fieldNames.count field - 1 else 0 := by
  rw [fieldProblems_nil_eq_scan]
  split_ifs with h
  · obtain ⟨rfl, hempty, hreserved⟩ := h
    rw [← repeats_nil_left]
    apply count_scan_of_seen
    intro seen first
    by_cases hfirst : first = field
    · subst hfirst
      rw [nameProblems, if_neg hempty, if_neg hreserved]
      by_cases hseen : first ∈ seen <;> simp [hseen]
    · rw [if_neg fun hboth => hfirst hboth.1]
      unfold nameProblems
      split_ifs <;> simp [hfirst]
  · apply count_scan_of_not_mem
    intro seen name hmem
    rcases mem_nameProblems_cases hmem with heq | heq | ⟨hempty, hreserved, heq⟩
    · cases heq
    · cases heq
    · obtain ⟨rfl, rfl⟩ := Problem.duplicateField.inj heq
      exact h ⟨rfl, hempty, hreserved⟩

/-! ### Tag values -/

theorem mem_tagProblems_cases {tag : String} {seen : List String} {p : Problem}
    (h : p ∈ tagProblems seen tag) : p = .emptyTagValue ∨ tag ≠ "" ∧ p = .duplicateTag tag := by
  unfold tagProblems at h
  split_ifs at h with hempty hseen
  · exact .inl (List.mem_singleton.mp h)
  · exact .inr ⟨hempty, List.mem_singleton.mp h⟩
  · exact absurd h List.not_mem_nil

theorem count_emptyTagValue (seen tags : List String) :
    (scan tagProblems seen tags).count .emptyTagValue = tags.count "" := by
  apply count_scan_of_name
  intro seen first
  unfold tagProblems
  split_ifs <;> simp

theorem count_duplicateTag (tags : List String) (tag : String) :
    (scan tagProblems [] tags).count (.duplicateTag tag) =
      if tag ≠ "" then tags.count tag - 1 else 0 := by
  split_ifs with hempty
  · rw [← repeats_nil_left]
    apply count_scan_of_seen
    intro seen first
    by_cases hfirst : first = tag
    · subst hfirst
      rw [tagProblems, if_neg hempty]
      by_cases hseen : first ∈ seen <;> simp [hseen]
    · rw [if_neg fun hboth => hfirst hboth.1]
      unfold tagProblems
      split_ifs <;> simp [hfirst]
  · apply count_scan_of_not_mem
    intro seen name hmem
    rcases mem_tagProblems_cases hmem with heq | ⟨hname, heq⟩
    · cases heq
    · rw [Problem.duplicateTag.inj heq] at hempty
      exact hempty hname

/-! ### Definitions -/

/-- A sum over the variants with a tag value. -/
def total (variants : List Variant) (tag : String) (f : Variant → Nat) : Nat :=
  ((variants.filter fun v => v.tag = tag).map f).sum

/-- How often a problem occurs in a definition with a tag field and variants: what has to be named
and is not, each time; what has to be named differently, each time that it comes again; and what
must not be named like the tag field, each time that it is. -/
def multiplicity (tagField : String) (variants : List Variant) : Problem → Nat
  | .emptyTagField => 0
  | .emptyRegistry => 0
  | .emptyTagValue => (variants.map Variant.tag).count ""
  | .duplicateTag tag => if tag ≠ "" then (variants.map Variant.tag).count tag - 1 else 0
  | .emptyFieldName tag => total variants tag fun v => v.fieldNames.count ""
  | .reservedField tag field =>
    if field = tagField then total variants tag fun v => v.fieldNames.count tagField else 0
  | .duplicateField tag field =>
    if field ≠ "" ∧ field ≠ tagField then
      total variants tag fun v => v.fieldNames.count field - 1
    else 0

theorem sum_map_eq_total (variants : List Variant) (tag : String) (f : Variant → Nat) :
    (variants.map fun v => if v.tag = tag then f v else 0).sum = total variants tag f := by
  rw [List.sum_map_ite, List.sum_map_zero, Nat.add_zero]
  rfl

theorem sum_map_and_eq (variants : List Variant) (tag : String) (c : Prop) [Decidable c]
    (f : Variant → Nat) :
    (variants.map fun v => if v.tag = tag ∧ c then f v else 0).sum =
      if c then total variants tag f else 0 := by
  by_cases hc : c
  · simp only [hc, and_true, if_true]
    exact sum_map_eq_total variants tag f
  · simp only [hc, and_false, if_false]
    exact List.sum_map_zero

/-- The scan over variants reports what is wrong with their tag values and with their fields. -/
theorem count_variantProblems (tagField : String) (seen : List String) (variants : List Variant)
    (p : Problem) :
    (variantProblems tagField seen variants).count p =
      (scan tagProblems seen (variants.map Variant.tag)).count p +
        (variants.map fun v => (fieldProblems tagField v.tag [] v.fields).count p).sum := by
  induction variants generalizing seen with
  | nil => rfl
  | cons v rest ih =>
    rw [variantProblems, List.count_append, List.count_append, ih, List.map_cons, List.map_cons,
      scan, List.count_append, List.sum_cons]
    omega

/-- Whether a problem is one of a tag value. -/
def Problem.isOfTag : Problem → Bool
  | .emptyTagValue => true
  | .duplicateTag _ => true
  | _ => false

/-- Whether a problem is one of a field of a variant. -/
def Problem.isOfField : Problem → Bool
  | .emptyFieldName _ => true
  | .reservedField _ _ => true
  | .duplicateField _ _ => true
  | _ => false

theorem count_scan_tagProblems {p : Problem} (h : p.isOfTag = false) (tags : List String) :
    (scan tagProblems [] tags).count p = 0 := by
  apply count_scan_of_not_mem
  intro seen tag hmem
  rcases mem_tagProblems_cases hmem with rfl | ⟨-, rfl⟩
  · cases h
  · cases h

theorem sum_count_fieldProblems {p : Problem} (h : p.isOfField = false) (variants : List Variant) :
    (variants.map fun v => (fieldProblems tagField v.tag [] v.fields).count p).sum = 0 := by
  have hnone : ∀ v ∈ variants, (fieldProblems tagField v.tag [] v.fields).count p = 0 := by
    intro v _
    rw [fieldProblems_nil_eq_scan]
    apply count_scan_of_not_mem
    intro seen name hmem
    rcases mem_nameProblems_cases hmem with rfl | rfl | ⟨-, -, rfl⟩
    · cases h
    · cases h
    · cases h
  rw [List.map_congr_left hnone, List.sum_map_zero]

/-- Each problem is reported as often as it occurs. -/
theorem count_variantProblems_nil (hnonempty : tagField ≠ "") (variants : List Variant)
    (p : Problem) :
    (variantProblems tagField [] variants).count p = multiplicity tagField variants p := by
  rw [count_variantProblems]
  cases p with
  | emptyTagField =>
    rw [sum_count_fieldProblems rfl, count_scan_tagProblems rfl]
    rfl
  | emptyRegistry =>
    rw [sum_count_fieldProblems rfl, count_scan_tagProblems rfl]
    rfl
  | emptyTagValue =>
    rw [sum_count_fieldProblems rfl, count_emptyTagValue]
    rfl
  | duplicateTag tag =>
    rw [sum_count_fieldProblems rfl, count_duplicateTag]
    rfl
  | emptyFieldName tag =>
    rw [count_scan_tagProblems rfl, Nat.zero_add]
    simp only [count_emptyFieldName]
    exact sum_map_eq_total variants tag _
  | reservedField tag field =>
    rw [count_scan_tagProblems rfl, Nat.zero_add]
    simp only [count_reservedField hnonempty]
    exact sum_map_and_eq variants tag _ _
  | duplicateField tag field =>
    rw [count_scan_tagProblems rfl, Nat.zero_add]
    simp only [count_duplicateField]
    exact sum_map_and_eq variants tag _ _

/-! ### Order -/

/-- The variant `w` has the tag value of `v` and its fields in some order. -/
structure SameFields (v w : Variant) : Prop where
  tag : w.tag = v.tag
  fields : w.fields.Perm v.fields

/-- The same variants in some order, each with its fields in some order. -/
def Rearranged (vs ws : List Variant) : Prop :=
  ∃ us, List.Forall₂ SameFields vs us ∧ us.Perm ws

theorem Rearranged.tags_perm {vs ws : List Variant} (h : Rearranged vs ws) :
    (ws.map Variant.tag).Perm (vs.map Variant.tag) := by
  obtain ⟨us, hfields, hperm⟩ := h
  have htags : vs.map Variant.tag = us.map Variant.tag := by
    rw [← List.forall₂_eq_eq_eq, List.forall₂_map_left_iff, List.forall₂_map_right_iff]
    exact hfields.imp fun v u hu => hu.tag.symm
  rw [htags]
  exact hperm.symm.map _

theorem Rearranged.ne_nil {vs ws : List Variant} (h : Rearranged vs ws) (hvs : vs ≠ []) :
    ws ≠ [] := by
  rintro rfl
  exact hvs (List.map_eq_nil_iff.mp h.tags_perm.nil_eq.symm)

/-- A sum over variants of what does not depend on the order of their names. -/
theorem Rearranged.total_eq {vs ws : List Variant} (h : Rearranged vs ws) (tag : String)
    {f : List String → Nat} (hf : ∀ as bs, as.Perm bs → f as = f bs) :
    total ws tag (fun v => f v.fieldNames) = total vs tag (fun v => f v.fieldNames) := by
  obtain ⟨us, hfields, hperm⟩ := h
  calc total ws tag (fun v => f v.fieldNames)
      = total us tag (fun v => f v.fieldNames) := ((hperm.symm.filter _).map _).sum_nat
    _ = total vs tag (fun v => f v.fieldNames) := by
      rw [← sum_map_eq_total, ← sum_map_eq_total]
      congr 1
      rw [← List.forall₂_eq_eq_eq, List.forall₂_map_left_iff, List.forall₂_map_right_iff]
      refine hfields.flip.imp fun u v hu => ?_
      have hnames : u.fieldNames.Perm v.fieldNames := hu.fields.map Field.name
      rw [hu.tag, hf _ _ hnames]

theorem multiplicity_of_rearranged {vs ws : List Variant} (h : Rearranged vs ws) (p : Problem) :
    multiplicity tagField ws p = multiplicity tagField vs p := by
  have hcount : ∀ name (as bs : List String), as.Perm bs → as.count name = bs.count name :=
    fun name _ _ hperm => hperm.count_eq name
  cases p with
  | emptyTagField => rfl
  | emptyRegistry => rfl
  | emptyTagValue => exact hcount _ _ _ h.tags_perm
  | duplicateTag tag => rw [multiplicity, multiplicity, hcount _ _ _ h.tags_perm]
  | emptyFieldName tag => exact h.total_eq tag (hcount _)
  | reservedField tag field => rw [multiplicity, multiplicity, h.total_eq tag (hcount _)]
  | duplicateField tag field =>
    have hrepeats : ∀ as bs : List String, as.Perm bs →
        as.count field - 1 = bs.count field - 1 := fun as bs hperm => by rw [hcount _ _ _ hperm]
    rw [multiplicity, multiplicity, h.total_eq tag hrepeats]

/-- The scan goes on over more variants as if it had just begun, but for the tag values seen. -/
theorem variantProblems_append (tagField : String) (seen : List String)
    (front back : List Variant) :
    variantProblems tagField seen (front ++ back) = variantProblems tagField seen front ++
      variantProblems tagField ((front.map Variant.tag).reverse ++ seen) back := by
  induction front generalizing seen with
  | nil => rfl
  | cons v front ih =>
    rw [List.cons_append, variantProblems, variantProblems, ih, List.map_cons, List.reverse_cons]
    simp only [List.append_assoc, List.singleton_append]

theorem problems_of_nonblank {variants : List Variant} (hblank : ¬ Text.isBlankText tagField)
    (hvariants : variants ≠ []) :
    problems tagField variants = variantProblems tagField [] variants := by
  rw [problems, if_neg hblank, if_neg hvariants]

/-- In a definition with variants and a tag field that is not blank, each problem is reported as
often as it occurs and no other is.  So the order of the variants, and of the fields in them, only
changes the order of the report, and the report on the first variants is where that on all of them
begins. -/
theorem count_problems_eq_multiplicity {tagField : String} {variants : List Variant}
    (hblank : ¬ Text.isBlankText tagField) (hvariants : variants ≠ []) :
    (∀ p, (problems tagField variants).count p = multiplicity tagField variants p) ∧
    (∀ variants', Rearranged variants variants' →
      (problems tagField variants').Perm (problems tagField variants)) ∧
    ∀ front back, variants = front ++ back → front ≠ [] →
      problems tagField front <+: problems tagField variants := by
  have hnonempty : tagField ≠ "" := by
    rintro rfl
    exact hblank rfl
  have hcount : ∀ variants : List Variant, variants ≠ [] → ∀ p,
      (problems tagField variants).count p = multiplicity tagField variants p := by
    intro variants hvariants p
    rw [problems_of_nonblank hblank hvariants, count_variantProblems_nil hnonempty]
  refine ⟨hcount variants hvariants, fun variants' h => ?_, fun front back heq hfront => ?_⟩
  · apply List.perm_iff_count.mpr
    intro p
    rw [hcount _ (h.ne_nil hvariants), hcount _ hvariants, multiplicity_of_rearranged h]
  · rw [problems_of_nonblank hblank hfront, problems_of_nonblank hblank hvariants, heq,
      variantProblems_append]
    exact ⟨_, rfl⟩

end Definition

/-! ### A definition to try the law on -/

namespace Sample

def named (name : String) : Field :=
  { name, type := .int }

/-- A definition in which tag values and names of fields are missing, come again, and clash with the
tag field `type`. -/
def flawed : List Variant :=
  [{ tag := "a", fields := ["x", "x", "", "type", "x"].map named },
    { tag := "", fields := [named ""] },
    { tag := "a", fields := ["x", "y", "x"].map named },
    { tag := "a" }]

/-- The definition written backwards. -/
def flawedBackwards : List Variant :=
  (flawed.map fun v => { v with fields := v.fields.reverse }).reverse

end Sample

theorem Definition.count_problems_flawed :
    (problems "type" Sample.flawed).count (.duplicateField "a" "x") = 3 ∧
    (problems "type" Sample.flawed).count (.duplicateTag "a") = 2 ∧
    (problems "type" Sample.flawed).count (.duplicateTag "") = 0 ∧
    (problems "type" Sample.flawedBackwards).Perm (problems "type" Sample.flawed) ∧
    problems "type" (Sample.flawed.take 2) <+: problems "type" Sample.flawed := by
  obtain ⟨hcount, hperm, hfront⟩ :=
    @count_problems_eq_multiplicity "type" Sample.flawed (by decide) (List.cons_ne_nil _ _)
  have hrearranged : Rearranged Sample.flawed Sample.flawedBackwards := by
    refine ⟨_, ?_, (List.reverse_perm _).symm⟩
    rw [List.forall₂_map_right_iff, List.forall₂_same]
    exact fun v _ => ⟨rfl, List.reverse_perm _⟩
  refine ⟨?_, ?_, ?_, hperm _ hrearranged, ?_⟩
  · rw [hcount]
    rfl
  · rw [hcount]
    rfl
  · rw [hcount]
    rfl
  · exact hfront _ (Sample.flawed.drop 2) (List.take_append_drop 2 _).symm (List.cons_ne_nil _ _)

end TaggedUnion
