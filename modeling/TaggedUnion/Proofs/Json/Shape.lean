import TaggedUnion.Json.Shape
import TaggedUnion.Proofs.Except
import TaggedUnion.Proofs.Json.Outline

/-!
# Reading values with a shape

The members of an object spell the parts of a value (`Outline.Spells`) when each part is named at
most once and read as it should be, those not named stand for themselves, and members that name no
part can be passed over.  Exactly then reading the object gives the value
(`Outline.keyed_object_eq_ok_iff`).  The scan fills one slot with each member that names a part
(`Shape.FilledBy.set`); what it keeps is which slots are filled, and with what
(`Outline.readMembers_spelled`), and in turn the slots say what the members were
(`Outline.scanned_of_readMembers`).

A value that is written part by part, in declaration order and with some parts left out, is read
back (`Outline.keyed_written`).
-/

namespace TaggedUnion

namespace Shape

variable {Key α : Type}

/-- Parts are listed once and can be told apart by their written names. -/
structure Sound (S : Shape Key α) : Prop where
  nodup : S.keys.Nodup
  key?_label : ∀ k, S.key? (S.label k) = some k

/-- The slots of `done` are filled with the given parts, and no others are. -/
structure FilledBy (S : Shape Key α) (parts : (k : Key) → S.Value k) (done : List Key)
    (slots : S.Slots) : Prop where
  filled : ∀ k ∈ done, slots k = some (parts k)
  vacant : ∀ k, k ∉ done → slots k = none

variable {S : Shape Key α} {parts : (k : Key) → S.Value k} {done : List Key} {slots : S.Slots}

theorem filledBy_noSlots : S.FilledBy parts [] S.noSlots :=
  ⟨fun _ h => absurd h List.not_mem_nil, fun _ _ => rfl⟩

theorem FilledBy.set [DecidableEq Key] (h : S.FilledBy parts done slots) (k : Key) :
    S.FilledBy parts (k :: done) (S.set slots k (parts k)) := by
  constructor
  · intro k' hk'
    by_cases heq : k' = k
    · subst heq
      exact S.set_self slots k' (parts k')
    · rw [S.set_of_ne slots heq]
      exact h.filled k' ((List.mem_cons.mp hk').resolve_left heq)
  · intro k' hk'
    rw [List.mem_cons, not_or] at hk'
    rw [S.set_of_ne slots hk'.1]
    exact h.vacant k' hk'.2

/-- Slots filled with parts give the value of these parts, if the others stand for theirs. -/
theorem FilledBy.fill_eq (h : S.FilledBy parts done slots)
    (habsent : ∀ k, k ∉ done → S.fallback k = some (parts k)) :
    S.fill slots = .ok (S.build parts) := by
  apply S.fill_of_parts
  intro k
  by_cases hk : k ∈ done
  · exact S.part?_of_slot (h.filled k hk)
  · rw [part?, h.vacant k hk, Option.none_or, habsent k hk]

/-- The parts that a value is filled with. -/
theorem exists_parts_of_fill {slots : S.Slots} {a : α} (h : S.fill slots = .ok a) :
    ∃ parts, (∀ k, S.part? slots k = some (parts k)) ∧ S.build parts = a := by
  unfold fill at h
  split at h
  · cases h
  · exact ⟨_, fun k => (Option.some_get _).symm, Except.ok.inj h⟩

end Shape

namespace Json.Outline

variable {Key α : Type} {S : Shape Key α} {read : (k : Key) → Outline → Except Error (S.Value k)}
  {parts : (k : Key) → S.Value k} {members : List (String × Outline)}

/-- The parts that members name, in their order. -/
def named (S : Shape Key α) (members : List (String × Outline)) : List Key :=
  members.filterMap fun m => S.key? m.1

theorem named_cons_of_unknown {m : String × Outline} (hk : S.key? m.1 = none)
    (members : List (String × Outline)) : named S (m :: members) = named S members :=
  List.filterMap_cons_none hk

theorem named_cons_of_known {m : String × Outline} {k : Key} (hk : S.key? m.1 = some k)
    (members : List (String × Outline)) : named S (m :: members) = k :: named S members :=
  List.filterMap_cons_some hk

/-- The members of an object give the parts of a value. -/
structure Spells (S : Shape Key α) (read : (k : Key) → Outline → Except Error (S.Value k))
    (parts : (k : Key) → S.Value k) (members : List (String × Outline)) : Prop where
  distinct : (named S members).Nodup
  known : ∀ m ∈ members, ∀ k, S.key? m.1 = some k → read k m.2 = .ok (parts k)
  unknown : ∀ m ∈ members, S.key? m.1 = none → m.2.skip = .ok ()
  absent : ∀ k, k ∉ named S members → S.fallback k = some (parts k)

/-- Members as they stand in an outline. -/
def spelled (members : List (String × Outline)) : List (Option String × Outline) :=
  members.map fun m => (some m.1, m.2)

variable [DecidableEq Key]

theorem readMembers_of_known {slots : S.Slots} {name : String} {o : Outline}
    {rest : List (Option String × Outline)} {k : Key} {part : S.Value k}
    (hk : S.key? name = some k) (hslot : slots k = none) (hread : read k o = .ok part) :
    readMembers S read slots ((some name, o) :: rest) =
      readMembers S read (S.set slots k part) rest := by
  rw [readMembers]
  simp only [readString, bind, Except.bind, hk, hslot, hread]
  rfl

theorem readMembers_of_unknown {slots : S.Slots} {name : String} {o : Outline}
    {rest : List (Option String × Outline)} (hk : S.key? name = none) (hskip : o.skip = .ok ()) :
    readMembers S read slots ((some name, o) :: rest) = readMembers S read slots rest := by
  rw [readMembers]
  simp only [readString, bind, Except.bind, hk, hskip]

/-- What the scan over members keeps: the slots named so far are filled with their parts. -/
theorem readMembers_spelled {done : List Key} {slots : S.Slots}
    (hslots : S.FilledBy parts done slots) (hdistinct : (named S members).Nodup)
    (hnew : ∀ k ∈ named S members, k ∉ done)
    (hknown : ∀ m ∈ members, ∀ k, S.key? m.1 = some k → read k m.2 = .ok (parts k))
    (hunknown : ∀ m ∈ members, S.key? m.1 = none → m.2.skip = .ok ()) :
    ∃ slots', readMembers S read slots (spelled members) = .ok slots' ∧
      S.FilledBy parts ((named S members).reverse ++ done) slots' := by
  induction members generalizing done slots with
  | nil => exact ⟨slots, rfl, hslots⟩
  | cons m members ih =>
    obtain ⟨name, o⟩ := m
    have hknown' := fun m hm => hknown m (List.mem_cons_of_mem _ hm)
    have hunknown' := fun m hm => hunknown m (List.mem_cons_of_mem _ hm)
    cases hk : S.key? name with
    | none =>
      -- A member that names no part changes nothing.
      rw [named_cons_of_unknown hk] at hdistinct hnew ⊢
      obtain ⟨slots', hread, hfilled⟩ := ih hslots hdistinct hnew hknown' hunknown'
      refine ⟨slots', ?_, hfilled⟩
      rw [← hread]
      exact readMembers_of_unknown hk (hunknown _ List.mem_cons_self hk)
    | some k =>
      rw [named_cons_of_known hk] at hdistinct hnew ⊢
      rw [List.nodup_cons] at hdistinct
      -- The part is named for the first time, so its slot is vacant, and it is not named again.
      have hnew' : ∀ k' ∈ named S members, k' ∉ k :: done := by
        intro k' hk' hmem
        rcases List.mem_cons.mp hmem with rfl | hmem
        · exact hdistinct.1 hk'
        · exact hnew k' (List.mem_cons_of_mem _ hk') hmem
      obtain ⟨slots', hread, hfilled⟩ := ih (hslots.set k) hdistinct.2 hnew' hknown' hunknown'
      refine ⟨slots', ?_, ?_⟩
      · rw [← hread]
        exact readMembers_of_known hk (hslots.vacant k (hnew k List.mem_cons_self))
          (hknown _ List.mem_cons_self k hk)
      · rwa [List.reverse_cons, List.append_assoc, List.singleton_append]

theorem keyed_of_spells (h : Spells S read parts members) :
    keyed S read (.object (spelled members) .closed) = .ok (S.build parts) := by
  obtain ⟨slots, hread, hfilled⟩ := readMembers_spelled Shape.filledBy_noSlots h.distinct
    (fun k _ => List.not_mem_nil) h.known h.unknown
  have habsent : ∀ k, k ∉ (named S members).reverse ++ [] → S.fallback k = some (parts k) := by
    intro k hk
    rw [List.append_nil, List.mem_reverse] at hk
    exact h.absent k hk
  rw [keyed, hread]
  simp only [bind, Except.bind, Ending.close, hfilled.fill_eq habsent]
  rfl

/-- What a scan over members says about them when it succeeds. -/
structure Scanned (S : Shape Key α) (read : (k : Key) → Outline → Except Error (S.Value k))
    (slots slots' : S.Slots) (members : List (String × Outline)) : Prop where
  distinct : (named S members).Nodup
  vacant : ∀ k ∈ named S members, slots k = none
  known : ∀ m ∈ members, ∀ k, S.key? m.1 = some k →
    ∃ part, read k m.2 = .ok part ∧ slots' k = some part
  unknown : ∀ m ∈ members, S.key? m.1 = none → m.2.skip = .ok ()
  kept : ∀ k, k ∉ named S members → slots' k = slots k

section Scan

variable {m : String × Outline} {slots slots' : S.Slots} {k : Key} {part : S.Value k}

/-- What the first step of a scan does when it succeeds. -/
theorem readMembers_cons_cases
    (h : readMembers S read slots (spelled (m :: members)) = .ok slots') :
    (S.key? m.1 = none ∧ m.2.skip = .ok () ∧
        readMembers S read slots (spelled members) = .ok slots') ∨
      ∃ k part, S.key? m.1 = some k ∧ slots k = none ∧ read k m.2 = .ok part ∧
        readMembers S read (S.set slots k part) (spelled members) = .ok slots' := by
  rw [spelled, List.map_cons, readMembers] at h
  obtain ⟨_, hname, h⟩ := bind_eq_ok_iff.mp h
  obtain rfl := Except.ok.inj hname
  cases hk : S.key? m.1 with
  | none =>
    simp only [hk] at h
    obtain ⟨_, hskip, h⟩ := bind_eq_ok_iff.mp h
    exact .inl ⟨rfl, hskip, h⟩
  | some k =>
    simp only [hk] at h
    split at h
    · cases h
    next hvacant =>
    obtain ⟨part, hread, h⟩ := bind_eq_ok_iff.mp h
    exact .inr ⟨k, part, rfl, by simpa using hvacant, hread, h⟩

omit [DecidableEq Key] in
theorem Scanned.cons_unknown (hk : S.key? m.1 = none) (hskip : m.2.skip = .ok ())
    (h : Scanned S read slots slots' members) : Scanned S read slots slots' (m :: members) := by
  have hnamed := named_cons_of_unknown hk members
  refine ⟨hnamed ▸ h.distinct, hnamed ▸ h.vacant, ?_, ?_, hnamed ▸ h.kept⟩
  · exact List.forall_mem_cons.mpr ⟨fun k hk' => by simp [hk] at hk', h.known⟩
  · exact List.forall_mem_cons.mpr ⟨fun _ => hskip, h.unknown⟩

theorem Scanned.cons_known (hk : S.key? m.1 = some k) (hvacant : slots k = none)
    (hread : read k m.2 = .ok part) (h : Scanned S read (S.set slots k part) slots' members) :
    Scanned S read slots slots' (m :: members) := by
  -- The slot was filled here, so no later member names the part.
  have hnew : k ∉ named S members := by
    intro hmem
    have := h.vacant k hmem
    rw [S.set_self] at this
    cases this
  have hset : ∀ k', k' ≠ k → S.set slots k part k' = slots k' :=
    fun k' hne => S.set_of_ne slots hne part
  have hnamed := named_cons_of_known hk members
  refine ⟨?_, ?_, ?_, ?_, ?_⟩
  · rw [hnamed]
    exact List.nodup_cons.mpr ⟨hnew, h.distinct⟩
  · rw [hnamed]
    refine List.forall_mem_cons.mpr ⟨hvacant, fun k' hk' => ?_⟩
    rw [← hset k' (fun heq => hnew (heq ▸ hk'))]
    exact h.vacant k' hk'
  · refine List.forall_mem_cons.mpr ⟨fun k' hk' => ?_, h.known⟩
    obtain rfl : k = k' := Option.some.inj (hk.symm.trans hk')
    exact ⟨part, hread, by rw [h.kept k hnew, S.set_self]⟩
  · exact List.forall_mem_cons.mpr ⟨fun hk' => by simp [hk] at hk', h.unknown⟩
  · rw [hnamed]
    intro k' hk'
    rw [List.mem_cons, not_or] at hk'
    rw [h.kept k' hk'.2, hset k' hk'.1]

theorem scanned_of_readMembers (h : readMembers S read slots (spelled members) = .ok slots') :
    Scanned S read slots slots' members := by
  induction members generalizing slots with
  | nil =>
    obtain rfl := Except.ok.inj h
    exact ⟨List.nodup_nil, by simp [named], by simp, by simp, fun _ _ => rfl⟩
  | cons m members ih =>
    obtain ⟨hk, hskip, h⟩ | ⟨k, part, hk, hvacant, hread, h⟩ := readMembers_cons_cases h
    · exact (ih h).cons_unknown hk hskip
    · exact (ih h).cons_known hk hvacant hread

end Scan

/-- An object is read as a value exactly when its members spell the parts of it. -/
theorem keyed_object_eq_ok_iff {a : α} :
    keyed S read (.object (spelled members) .closed) = .ok a ↔
      ∃ parts, Spells S read parts members ∧ S.build parts = a := by
  constructor
  · intro h
    rw [keyed] at h
    obtain ⟨slots, hread, h⟩ := bind_eq_ok_iff.mp h
    obtain ⟨_, -, h⟩ := bind_eq_ok_iff.mp h
    split at h
    · next b hfill =>
      obtain rfl := Except.ok.inj h
      obtain ⟨parts, hparts, rfl⟩ := S.exists_parts_of_fill hfill
      have hscanned := scanned_of_readMembers hread
      refine ⟨parts, ⟨hscanned.distinct, fun m hm k hk => ?_, hscanned.unknown,
        fun k hk => ?_⟩, rfl⟩
      · obtain ⟨part, hpart, hslot⟩ := hscanned.known m hm k hk
        rw [hpart, Option.some.inj ((S.part?_of_slot hslot).symm.trans (hparts k))]
      · have hslot : slots k = none := hscanned.kept k hk
        have := hparts k
        rwa [Shape.part?, hslot, Option.none_or] at this
    · cases h
  · rintro ⟨parts, hspells, rfl⟩
    exact keyed_of_spells hspells

omit [DecidableEq Key] in
/-- Written names name the parts they are written for. -/
theorem named_map_label (hS : S.Sound) (outlines : Key → Outline) (keys : List Key) :
    named S (keys.map fun k => (S.label k, outlines k)) = keys := by
  unfold named
  rw [List.filterMap_map]
  simp [hS.key?_label]

/-- A value written part by part is read back. -/
theorem keyed_written (hS : S.Sound) {writes : Key → Bool} {trees : Key → Tree}
    (hread : ∀ k, writes k = true → read k (trees k).outline = .ok (parts k))
    (habsent : ∀ k, writes k = false → S.fallback k = some (parts k)) :
    keyed S read (Tree.map ((S.keys.filter writes).map fun k => (S.label k, trees k))).outline =
      .ok (S.build parts) := by
  have hspells : Spells S read parts
      ((S.keys.filter writes).map fun k => (S.label k, (trees k).outline)) := by
    constructor
    · rw [named_map_label hS]
      exact hS.nodup.filter _
    · intro m hm k hk
      obtain ⟨k', hk', rfl⟩ := List.mem_map.mp hm
      rw [hS.key?_label, Option.some.injEq] at hk
      subst hk
      exact hread k' (List.mem_filter.mp hk').2
    · intro m hm hk
      obtain ⟨k', -, rfl⟩ := List.mem_map.mp hm
      rw [hS.key?_label] at hk
      cases hk
    · intro k hk
      rw [named_map_label hS, List.mem_filter, not_and] at hk
      exact habsent k (by simpa using hk (S.complete k))
  have hkeyed := keyed_of_spells hspells
  rw [spelled, List.map_map] at hkeyed
  rw [Tree.outline, Tree.entryOutlines_eq_map, List.map_map]
  exact hkeyed

end Json.Outline

end TaggedUnion
