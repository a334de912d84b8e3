import TaggedUnion.Record
import Mathlib.Data.List.Nodup
import Mathlib.Data.List.Perm.Subperm

/-!
# Records as maps and as sequences

The names of a record are distinct, so the entries that it lists and the values that it gives by
name determine each other (`Record.get?_eq_some_iff`, `Record.get?_eq_none_iff`).

`r.Picks names entries` says that `entries` are the fields of `r` with a name among `names`, in the
order of `names` and with the values of `r`.  There is exactly one such list (`picks_filterMap`,
`Picks.unique`).  For distinct `names` it is a permutation of what the record has under them
(`Picks.perm_filter`), and it is the record itself exactly when the names of the record come in the
order of `names` (`picks_entries_iff`).
-/

namespace TaggedUnion

/-- A sublist that leaves no member of a list of distinct members out leaves nothing out. -/
theorem eq_of_sublist_of_subset {α : Type} {as bs : List α} (hsub : as.Sublist bs) (hn : bs.Nodup)
    (hss : bs ⊆ as) : as = bs :=
  hsub.eq_of_length_le (List.subperm_of_subset hn hss).length_le

/-! ### Entries by name -/

namespace Entries

variable {α : Type} {name : String} {value : α} {entries : List (String × α)}

theorem mem_keys_iff : name ∈ keys entries ↔ ∃ value, (name, value) ∈ entries := by
  simp [keys]

theorem mem_keys_of_mem (h : (name, value) ∈ entries) : name ∈ keys entries :=
  mem_keys_iff.mpr ⟨value, h⟩

theorem lookup_eq_none_iff_not_mem : entries.lookup name = none ↔ name ∉ keys entries := by
  rw [List.lookup_eq_none_iff, mem_keys_iff]
  constructor
  · rintro h ⟨value, hmem⟩
    have := h _ hmem
    simp at this
  · rintro h ⟨k, value⟩ hmem
    rw [bne_iff_ne]
    rintro rfl
    exact h ⟨value, hmem⟩

/-- With distinct names, looking a name up finds the entry that has it. -/
theorem lookup_eq_some_iff_mem (hn : (keys entries).Nodup) :
    entries.lookup name = some value ↔ (name, value) ∈ entries := by
  induction entries with
  | nil => simp
  | cons entry rest ih =>
    obtain ⟨k, v⟩ := entry
    rw [keys_cons, List.nodup_cons] at hn
    rw [List.lookup_cons, List.mem_cons]
    by_cases hk : name = k
    · subst hk
      -- The name is used up by the first entry.
      have hrest : (name, value) ∉ rest := fun hmem => hn.1 (mem_keys_of_mem hmem)
      simp [hrest, eq_comm]
    · have hbeq : (name == k) = false := by simpa using hk
      simp [hbeq, hk, ih hn.2]

/-- Entries are determined by their names in order and a map that gives their values. -/
theorem eq_of_keys_eq {f : String → Option α} {as bs : List (String × α)}
    (hkeys : keys as = keys bs) (has : ∀ name value, (name, value) ∈ as → f name = some value)
    (hbs : ∀ name value, (name, value) ∈ bs → f name = some value) : as = bs := by
  induction as generalizing bs with
  | nil =>
    cases bs with
    | nil => rfl
    | cons b bs => simp at hkeys
  | cons a as ih =>
    cases bs with
    | nil => simp at hkeys
    | cons b bs =>
      obtain ⟨k, v⟩ := a
      obtain ⟨k', v'⟩ := b
      rw [keys_cons, keys_cons, List.cons.injEq] at hkeys
      obtain ⟨rfl, htail⟩ := hkeys
      have hv : some v = some v' := by
        rw [← has k v List.mem_cons_self, hbs k v' List.mem_cons_self]
      rw [Option.some.inj hv, ih htail (fun n w h => has n w (List.mem_cons_of_mem _ h))
        (fun n w h => hbs n w (List.mem_cons_of_mem _ h))]

theorem mem_of_mem_insert {entry : String × α} (h : entry ∈ insert name value entries) :
    entry = (name, value) ∨ entry ∈ entries := by
  induction entries with
  | nil => exact .inl (List.mem_singleton.mp h)
  | cons first rest ih =>
    rw [insert] at h
    split_ifs at h with hname
    · rcases List.mem_cons.mp h with rfl | hrest
      · exact .inl (by rw [hname])
      · exact .inr (List.mem_cons_of_mem _ hrest)
    · rcases List.mem_cons.mp h with rfl | hrest
      · exact .inr List.mem_cons_self
      · exact (ih hrest).imp_right (List.mem_cons_of_mem _)

/-- Inserting makes up no entries. -/
theorem mem_of_mem_insertAll {new : List (String × α)} {entry : String × α}
    (h : entry ∈ insertAll entries new) : entry ∈ entries ∨ entry ∈ new := by
  induction new generalizing entries with
  | nil => exact .inl h
  | cons first rest ih =>
    rcases ih h with hinsert | hrest
    · rcases mem_of_mem_insert hinsert with rfl | hentries
      · exact .inr List.mem_cons_self
      · exact .inl hentries
    · exact .inr (List.mem_cons_of_mem _ hrest)

theorem lookup_insertAll_of_not_mem {new : List (String × α)} (h : name ∉ keys new) :
    (insertAll entries new).lookup name = entries.lookup name := by
  induction new generalizing entries with
  | nil => rfl
  | cons first rest ih =>
    rw [keys_cons, List.mem_cons, not_or] at h
    show (insertAll (insert first.1 first.2 entries) rest).lookup name = _
    rw [ih h.2, lookup_insert_of_ne h.1]

/-- The last value that a name was given is the one it has. -/
theorem lookup_insertAll_append_cons {before after : List (String × α)}
    (h : name ∉ keys after) :
    (insertAll entries (before ++ (name, value) :: after)).lookup name = some value := by
  rw [insertAll, List.foldl_append, List.foldl_cons]
  exact (lookup_insertAll_of_not_mem h).trans (lookup_insert_self name value _)

end Entries

namespace Record

variable {r : Record} {name : String} {value : Scalar} {names : List String}

theorem get?_eq_some_iff : r.get? name = some value ↔ (name, value) ∈ r.entries :=
  Entries.lookup_eq_some_iff_mem r.nodup

theorem get?_eq_none_iff : r.get? name = none ↔ name ∉ r.keys :=
  Entries.lookup_eq_none_iff_not_mem

theorem mem_keys_iff : name ∈ r.keys ↔ ∃ value, r.get? name = some value := by
  rw [← not_iff_not, ← get?_eq_none_iff, Option.eq_none_iff_forall_ne_some, not_exists]

theorem mem_keys_of_get? (h : r.get? name = some value) : name ∈ r.keys :=
  mem_keys_iff.mpr ⟨value, h⟩

/-! ### Picking fields by name -/

/-- The fields of `r` with a name among `names`, in the order of `names`, with the values of `r`. -/
structure Picks (r : Record) (names : List String) (entries : List (String × Scalar)) : Prop where
  keys_eq : Entries.keys entries = names.filter fun name => name ∈ r.keys
  get?_eq : ∀ name value, (name, value) ∈ entries → r.get? name = some value

theorem picks_nil (r : Record) : r.Picks [] [] :=
  ⟨rfl, fun _ _ h => absurd h List.not_mem_nil⟩

variable {entries : List (String × Scalar)}

theorem Picks.cons_some (hv : r.get? name = some value) (h : r.Picks names entries) :
    r.Picks (name :: names) ((name, value) :: entries) := by
  constructor
  · rw [List.filter_cons_of_pos (by simpa using mem_keys_of_get? hv), Entries.keys_cons, h.keys_eq]
  · intro n w hmem
    rcases List.mem_cons.mp hmem with heq | hmem
    · obtain ⟨rfl, rfl⟩ := Prod.mk.inj heq
      exact hv
    · exact h.get?_eq n w hmem

theorem Picks.cons_none (hv : r.get? name = none) (h : r.Picks names entries) :
    r.Picks (name :: names) entries := by
  refine ⟨?_, h.get?_eq⟩
  rw [List.filter_cons_of_neg (by simpa using get?_eq_none_iff.mp hv), h.keys_eq]

/-- Looking the names up one after the other picks them. -/
theorem picks_filterMap (r : Record) (names : List String) :
    r.Picks names (names.filterMap fun name => (r.get? name).map fun value => (name, value)) := by
  induction names with
  | nil => exact picks_nil r
  | cons name names ih =>
    cases hv : r.get? name with
    | none =>
      rw [List.filterMap_cons_none (by rw [hv]; rfl)]
      exact ih.cons_none hv
    | some value =>
      rw [List.filterMap_cons_some (by rw [hv]; rfl)]
      exact ih.cons_some hv

theorem Picks.unique {as bs : List (String × Scalar)} (ha : r.Picks names as)
    (hb : r.Picks names bs) : as = bs :=
  Entries.eq_of_keys_eq (ha.keys_eq.trans hb.keys_eq.symm) ha.get?_eq hb.get?_eq

theorem Picks.mem_keys_iff (h : r.Picks names entries) :
    name ∈ Entries.keys entries ↔ name ∈ names ∧ name ∈ r.keys := by
  rw [h.keys_eq, List.mem_filter, decide_eq_true_eq]

theorem Picks.mem_iff (h : r.Picks names entries) :
    (name, value) ∈ entries ↔ name ∈ names ∧ r.get? name = some value := by
  constructor
  · intro hmem
    exact ⟨(h.mem_keys_iff.mp (Entries.mem_keys_of_mem hmem)).1, h.get?_eq name value hmem⟩
  · rintro ⟨hname, hv⟩
    -- The name is picked with some value, and the record has only one for it.
    obtain ⟨value', hmem⟩ :=
      Entries.mem_keys_iff.mp (h.mem_keys_iff.mpr ⟨hname, mem_keys_of_get? hv⟩)
    have heq : some value = some value' := hv.symm.trans (h.get?_eq name value' hmem)
    rwa [Option.some.inj heq]

theorem Picks.keys_sublist (h : r.Picks names entries) :
    (Entries.keys entries).Sublist names := by
  rw [h.keys_eq]
  exact List.filter_sublist

theorem Picks.nodup_keys (hn : names.Nodup) (h : r.Picks names entries) :
    (Entries.keys entries).Nodup :=
  h.keys_sublist.nodup hn

/-- Picked under distinct names, the fields are those of the record with one of these names. -/
theorem Picks.perm_filter (hn : names.Nodup) (h : r.Picks names entries) :
    entries.Perm (r.entries.filter fun entry => entry.1 ∈ names) := by
  -- Both lists are without duplicates, so having the same members is enough.
  have hentries : entries.Nodup := List.Nodup.of_map Prod.fst (h.nodup_keys hn)
  have hr : r.entries.Nodup := List.Nodup.of_map Prod.fst r.nodup
  rw [List.perm_ext_iff_of_nodup hentries (hr.filter _)]
  rintro ⟨name, value⟩
  rw [h.mem_iff, List.mem_filter, decide_eq_true_eq, get?_eq_some_iff, and_comm]

/-- Whether picking changes nothing is a matter of the order of the names alone. -/
theorem picks_entries_iff (hn : names.Nodup) : r.Picks names r.entries ↔ r.keys.Sublist names := by
  constructor
  · exact Picks.keys_sublist
  · intro h
    refine ⟨?_, fun name value hmem => get?_eq_some_iff.mpr hmem⟩
    -- Filtered by its own members the sublist stays whole.
    have hsub : r.keys.Sublist (names.filter fun name => name ∈ r.keys) := by
      have := h.filter fun name => decide (name ∈ r.keys)
      rwa [List.filter_eq_self.mpr (by simp)] at this
    apply eq_of_sublist_of_subset hsub (hn.filter _)
    intro name hname
    simpa using (List.mem_filter.mp hname).2

/-- Records that give the same values under `names` have the same fields picked. -/
theorem Picks.congr {s : Record} (hget : ∀ name ∈ names, s.get? name = r.get? name)
    (h : r.Picks names entries) : s.Picks names entries := by
  have hkeys : ∀ name ∈ names, (name ∈ s.keys ↔ name ∈ r.keys) := by
    intro name hname
    rw [Record.mem_keys_iff, Record.mem_keys_iff, hget name hname]
  constructor
  · rw [h.keys_eq]
    apply List.filter_congr
    intro name hname
    rw [decide_eq_decide, hkeys name hname]
  · intro name value hmem
    have hname : name ∈ names := (h.mem_iff.mp hmem).1
    rw [hget name hname, h.get?_eq name value hmem]

/-- A record made of picked fields gives the values of the record they are picked from. -/
theorem Picks.get?_of_entries {s : Record} (h : r.Picks names s.entries) (hname : name ∈ names) :
    s.get? name = r.get? name := by
  apply Option.ext
  intro value
  rw [get?_eq_some_iff, h.mem_iff]
  exact and_iff_right hname

/-- Picked fields are what the record made of them has under the names. -/
theorem Picks.self {s : Record} (h : r.Picks names s.entries) : s.Picks names s.entries :=
  h.congr fun _ hname => h.get?_of_entries hname

end Record

end TaggedUnion
