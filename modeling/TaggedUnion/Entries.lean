/-!
# Ordered entries

Lists of named values that keep the order in which names were first inserted.  `insert` replaces the
value of a name that is present and otherwise appends, so it never makes a name occur twice
(`nodup_keys_insert`), and `List.lookup` is the view that says what it does (`lookup_insert_self`,
`lookup_insert_of_ne`).
-/

namespace TaggedUnion.Entries

variable {α : Type}

/-- The names, in order. -/
def keys (entries : List (String × α)) : List String :=
  entries.map Prod.fst

/-- Gives a name a value: in its place if the name is present, else at the end. -/
def insert (key : String) (value : α) : List (String × α) → List (String × α)
  | [] => [(key, value)]
  | (k, v) :: rest => if k = key then (k, value) :: rest else (k, v) :: insert key value rest

/-- Inserts entries one after the other. -/
def insertAll (entries new : List (String × α)) : List (String × α) :=
  new.foldl (fun acc entry => insert entry.1 entry.2 acc) entries

/-! ### Laws -/

@[simp]
theorem keys_nil : keys ([] : List (String × α)) = [] :=
  rfl

@[simp]
theorem keys_cons (entry : String × α) (entries : List (String × α)) :
    keys (entry :: entries) = entry.1 :: keys entries :=
  rfl

@[simp]
theorem keys_append (as bs : List (String × α)) : keys (as ++ bs) = keys as ++ keys bs :=
  List.map_append

theorem keys_map {β : Type} (name : β → String) (value : β → α) (bs : List β) :
    keys (bs.map fun b => (name b, value b)) = bs.map name := by
  rw [keys, List.map_map]
  rfl

theorem keys_insert_of_mem {key : String} {value : α} {entries : List (String × α)}
    (h : key ∈ keys entries) : keys (insert key value entries) = keys entries := by
  induction entries with
  | nil => simp at h
  | cons entry rest ih =>
    obtain ⟨k, v⟩ := entry
    by_cases hk : k = key
    · simp [insert, hk]
    · have : key ∈ keys rest := by
        rcases List.mem_cons.1 h with h | h
        · exact absurd h.symm hk
        · exact h
      simp [insert, hk, ih this]

theorem insert_of_not_mem {key : String} {value : α} {entries : List (String × α)}
    (h : key ∉ keys entries) : insert key value entries = entries ++ [(key, value)] := by
  induction entries with
  | nil => rfl
  | cons entry rest ih =>
    obtain ⟨k, v⟩ := entry
    simp only [keys_cons, List.mem_cons, not_or] at h
    simp [insert, Ne.symm h.1, ih h.2]

theorem nodup_keys_insert {key : String} {value : α} {entries : List (String × α)}
    (h : (keys entries).Nodup) : (keys (insert key value entries)).Nodup := by
  by_cases hk : key ∈ keys entries
  · rw [keys_insert_of_mem hk]
    exact h
  · rw [insert_of_not_mem hk, keys_append, List.nodup_append]
    refine ⟨h, by simp, ?_⟩
    intro a ha b hb
    simp only [keys_cons, keys_nil, List.mem_singleton] at hb
    subst hb
    exact fun hab => hk (hab ▸ ha)

theorem nodup_keys_insertAll {entries : List (String × α)} (new : List (String × α))
    (h : (keys entries).Nodup) : (keys (insertAll entries new)).Nodup := by
  induction new generalizing entries with
  | nil => exact h
  | cons entry rest ih => exact ih (nodup_keys_insert h)

/-- Entries under new and distinct names are appended as they are. -/
theorem insertAll_of_disjoint {entries new : List (String × α)}
    (h : (keys (entries ++ new)).Nodup) : insertAll entries new = entries ++ new := by
  induction new generalizing entries with
  | nil => simp [insertAll]
  | cons entry rest ih =>
    have hnot : entry.1 ∉ keys entries := by
      rw [keys_append, List.nodup_append] at h
      exact fun hm => h.2.2 _ hm _ (by simp) rfl
    have happ : entries ++ entry :: rest = (entries ++ [entry]) ++ rest := by simp
    rw [happ] at h
    rw [happ, ← ih h]
    simp only [insertAll, List.foldl_cons]
    rw [insert_of_not_mem hnot]

theorem lookup_insert_self (key : String) (value : α) (entries : List (String × α)) :
    (insert key value entries).lookup key = some value := by
  induction entries with
  | nil => simp [insert]
  | cons entry rest ih =>
    obtain ⟨k, v⟩ := entry
    by_cases hk : k = key
    · simp [insert, hk]
    · have : (key == k) = false := by simpa using Ne.symm hk
      simp [insert, hk, List.lookup_cons, this, ih]

theorem lookup_insert_of_ne {key other : String} (h : other ≠ key) (value : α)
    (entries : List (String × α)) :
    (insert key value entries).lookup other = entries.lookup other := by
  induction entries with
  | nil =>
    have : (other == key) = false := by simpa using h
    simp [insert, List.lookup_cons, this]
  | cons entry rest ih =>
    obtain ⟨k, v⟩ := entry
    by_cases hk : k = key
    · subst hk
      have : (other == k) = false := by simpa using h
      simp [insert, List.lookup_cons, this]
    · simp only [insert, if_neg hk, List.lookup_cons]
      rw [ih]

end TaggedUnion.Entries
