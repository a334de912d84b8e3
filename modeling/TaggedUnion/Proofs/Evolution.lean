import TaggedUnion.Proofs.RoundTrip

/-!
# Registries that evolve

A registry evolves compatibly when every variant stays, fields are only relaxed, and the fields that
are added are optional (`Registry.Evolves`).  A record that the old registry decodes strictly is
then decoded by the new one to the same instance, and that instance has the same record in both.

Relaxing keeps what a declaration admits (`Field.Relaxes.admits`).  The old names are a sublist of
the new ones, which are distinct, so the added fields have new names
(`Field.Extended.mem_cases`), and names chosen from the old ones are chosen in the same order from
the new ones (`Field.Extended.filter_names`).  A strictly decoded record has no names but the old
ones.
-/

namespace TaggedUnion

namespace Field

/-- The field `g` has the name of `f`, the type of `f` or the floating-point type in the place of
the integers, and is required only if `f` is. -/
structure Relaxes (g f : Field) : Prop where
  name : g.name = f.name
  type : g.type = f.type ∨ f.type = .int ∧ g.type = .float
  required : g.required = f.required ∨ g.required = false

/-- The fields `fs` turn into `gs` when each one is relaxed in its place and optional fields are
added anywhere between them. -/
inductive Extended : List Field → List Field → Prop where
  | nil : Extended [] []
  | keep {f g : Field} {fs gs : List Field} :
    g.Relaxes f → Extended fs gs → Extended (f :: fs) (g :: gs)
  | add {g : Field} {fs gs : List Field} :
    g.required = false → Extended fs gs → Extended fs (g :: gs)

/-! ### Relaxed fields -/

variable {f g : Field}

theorem Relaxes.takes (h : g.Relaxes f) {k : Kind} (htakes : f.type.Takes k) : g.type.Takes k := by
  rcases h.type with htype | ⟨hint, hfloat⟩
  · rwa [htype]
  · rcases htakes with hk | ⟨hfloat', -⟩
    · rw [hint] at hk
      exact Or.inr ⟨hfloat, hk⟩
    · rw [hint] at hfloat'
      cases hfloat'

theorem Relaxes.optional (h : g.Relaxes f) (hf : f.required = false) : g.required = false := by
  rcases h.required with heq | hg
  · rw [heq, hf]
  · exact hg

/-- A relaxed declaration admits what the declaration before admits. -/
theorem Relaxes.admits (h : g.Relaxes f) {value? : Option Scalar} (hf : f.Admits value?) :
    g.Admits value? := by
  cases value? with
  | none => exact admits_none_iff.mpr (h.optional (admits_none_iff.mp hf))
  | some value =>
    by_cases hnull : value = .null
    · subst hnull
      exact admits_null_iff.mpr (h.optional (admits_null_iff.mp hf))
    · rw [admits_some_iff hnull] at hf ⊢
      exact h.takes hf

/-! ### Extended lists of fields -/

variable {fs gs : List Field}

theorem Extended.names_sublist (h : Extended fs gs) :
    (fs.map Field.name).Sublist (gs.map Field.name) := by
  induction h with
  | nil => exact List.Sublist.refl _
  | keep hg _ ih =>
    rw [List.map_cons, List.map_cons, hg.name]
    exact ih.cons_cons _
  | add _ _ ih =>
    rw [List.map_cons]
    exact ih.cons _

/-- A field of the extended list relaxes one that was there before, or is optional with a new
name. -/
theorem Extended.mem_cases (h : Extended fs gs) (hn : (gs.map Field.name).Nodup) (hg : g ∈ gs) :
    (∃ f ∈ fs, g.Relaxes f) ∨ (g.required = false ∧ g.name ∉ fs.map Field.name) := by
  induction h with
  | nil => exact absurd hg List.not_mem_nil
  | @keep f' g' fs gs hrelaxes _ ih =>
    rw [List.map_cons, List.nodup_cons] at hn
    rcases List.mem_cons.mp hg with rfl | hg
    · exact Or.inl ⟨f', List.mem_cons_self, hrelaxes⟩
    · rcases ih hn.2 hg with ⟨f, hf, hrelaxes'⟩ | ⟨hoptional, hnew⟩
      · exact Or.inl ⟨f, List.mem_cons_of_mem _ hf, hrelaxes'⟩
      · refine Or.inr ⟨hoptional, fun hmem => ?_⟩
        rcases List.mem_cons.mp hmem with heq | hmem
        · -- The name of `f'` is that of `g'`, which no later field has.
          apply hn.1
          rw [hrelaxes.name, ← heq]
          exact List.mem_map_of_mem hg
        · exact hnew hmem
  | @add g' fs gs hoptional hextended ih =>
    rw [List.map_cons, List.nodup_cons] at hn
    rcases List.mem_cons.mp hg with rfl | hg
    · exact Or.inr ⟨hoptional, fun hmem => hn.1 (hextended.names_sublist.subset hmem)⟩
    · exact ih hn.2 hg

/-- Names chosen from the old ones are chosen in the same order from the new ones. -/
theorem Extended.filter_names (h : Extended fs gs) (hn : (gs.map Field.name).Nodup)
    {p : String → Bool}
    (hp : ∀ name ∈ gs.map Field.name, p name = true → name ∈ fs.map Field.name) :
    (fs.map Field.name).filter p = (gs.map Field.name).filter p := by
  apply eq_of_sublist_of_subset (h.names_sublist.filter p) (hn.filter p)
  intro name hname
  rw [List.mem_filter] at hname ⊢
  exact ⟨hp name hname.1 hname.2, hname.2⟩

end Field

/-! ### Variants and registries -/

/-- The variant `w` belongs to the tag value of `v` and extends its fields. -/
structure Variant.Extends (w v : Variant) : Prop where
  tag : w.tag = v.tag
  fields : Field.Extended v.fields w.fields

namespace Variant

variable {v w : Variant} {r : Record} {entries : List (String × Scalar)}

/-- Fields picked under the old names are picked under the new ones, if the record has none of the
names that were added. -/
theorem Extends.picks (h : w.Extends v) (hn : w.fieldNames.Nodup)
    (hkeys : ∀ name ∈ w.fieldNames, name ∈ r.keys → name ∈ v.fieldNames)
    (hpicks : r.Picks v.fieldNames entries) : r.Picks w.fieldNames entries := by
  refine ⟨?_, hpicks.get?_eq⟩
  have hfilter : v.fieldNames.filter (fun name => name ∈ r.keys) =
      w.fieldNames.filter fun name => name ∈ r.keys := by
    apply h.fields.filter_names hn
    intro name hname hp
    exact hkeys name hname (by simpa using hp)
  rw [hpicks.keys_eq, hfilter]

theorem Extends.admits (h : w.Extends v) (hn : w.fieldNames.Nodup)
    (hkeys : ∀ name ∈ w.fieldNames, name ∈ r.keys → name ∈ v.fieldNames)
    (hadmits : ∀ f ∈ v.fields, f.Admits (r.get? f.name)) :
    ∀ g ∈ w.fields, g.Admits (r.get? g.name) := by
  intro g hg
  rcases h.fields.mem_cases hn hg with ⟨f, hf, hrelaxes⟩ | ⟨hoptional, hnew⟩
  · rw [hrelaxes.name]
    exact hrelaxes.admits (hadmits f hf)
  · have habsent : g.name ∉ r.keys :=
      fun hmem => hnew (hkeys g.name (List.mem_map_of_mem hg) hmem)
    rw [Record.get?_eq_none_iff.mpr habsent]
    exact Field.admits_none_iff.mpr hoptional

end Variant

namespace Registry

/-- The registry `S` keeps the tag field of `R` and extends each of its variants. -/
structure Evolves (R S : Registry) : Prop where
  tagField : S.tagField = R.tagField
  variants : ∀ v ∈ R.variants, ∃ w ∈ S.variants, w.Extends v

variable {R S : Registry} {r : Record} {i : Instance}

/-- What is decoded strictly by a registry is decoded strictly and encoded alike by one that it
evolves to. -/
theorem decode_strict_of_evolves (hevolves : R.Evolves S) (h : R.decode .strict r = .ok i) :
    S.decode .strict r = .ok i ∧ S.encode i = R.encode i ∧ ∃ r', R.encode i = .ok r' := by
  obtain ⟨v, r', hv, hconforms, htag, hpicks, hencode, hentries, -⟩ := exists_encode_of_decode h
  obtain ⟨w, hw, hextends⟩ := hevolves.variants v hv.registered
  have hn : w.fieldNames.Nodup := (S.wellFormed.fields w hw).distinct
  have hdeclared := hconforms.declared rfl
  -- Strictly decoded, the record has no name of `w` that `v` does not have.
  have hkeys : ∀ name ∈ w.fieldNames, name ∈ r.keys → name ∈ v.fieldNames := by
    intro name hname hmem
    rcases hdeclared name hmem with htagField | hmem
    · rw [htagField, ← hevolves.tagField] at hname
      exact absurd hname (S.wellFormed.fields w hw).unreserved
    · exact hmem
  have hpicks' : r.Picks w.fieldNames i.fields.entries := hextends.picks hn hkeys hpicks
  have hresolves : S.Resolves r w := by
    refine ⟨hw, ?_⟩
    rw [hevolves.tagField, hextends.tag, hv.tagged]
  have hconforms' : w.Conforms S.tagField .strict r := by
    refine ⟨hextends.admits hn hkeys hconforms.fields, fun _ name hmem => ?_⟩
    rw [hevolves.tagField]
    exact (hdeclared name hmem).imp_right fun hname =>
      hextends.fields.names_sublist.subset hname
  have htag' : i.tag = w.tag := htag.trans hextends.tag.symm
  refine ⟨decode_eq_ok_iff.mpr ⟨w, hresolves, hconforms', htag', hpicks'⟩, ?_, r', hencode⟩
  obtain ⟨s, hencode', hentries'⟩ := exists_encode hw htag' hpicks'.self
  have hsame : s = r' := by
    apply Record.ext
    rw [hentries', hentries, hevolves.tagField, hextends.tag]
  rw [hencode', hencode, hsame]

end Registry

/-! ### Readings, evolved -/

namespace Sample

/-- The readings with fields added at both ends and in between, the sensor optional, and numbers
for the sequence. -/
def laterReading : Variant where
  tag := "reading"
  fields := [{ name := "site", type := .string, required := false },
    { name := "sensor", type := .string, required := false }, { name := "value", type := .float },
    { name := "unit", type := .string, required := false },
    { name := "calibrated", type := .bool, required := false },
    { name := "seq", type := .float, required := false },
    { name := "note", type := .bool, required := false }]

def laterReadings : Registry where
  tagField := "type"
  variants := [{ tag := "alarm" }, { tag := "heartbeat" }, laterReading]
  sound := by decide

theorem laterReading_extends : laterReading.Extends reading :=
  ⟨rfl, .add rfl <| .keep ⟨rfl, .inl rfl, .inr rfl⟩ <| .keep ⟨rfl, .inl rfl, .inl rfl⟩ <|
    .add rfl <| .keep ⟨rfl, .inl rfl, .inl rfl⟩ <| .keep ⟨rfl, .inr ⟨rfl, rfl⟩, .inl rfl⟩ <|
    .add rfl .nil⟩

theorem readings_evolves : readings.Evolves laterReadings := by
  refine ⟨rfl, fun v hv => ?_⟩
  rcases List.mem_cons.mp hv with rfl | hv
  · exact ⟨laterReading, by simp [laterReadings], laterReading_extends⟩
  · obtain rfl := List.mem_singleton.mp hv
    exact ⟨{ tag := "heartbeat" }, by simp [laterReadings], rfl, .nil⟩

end Sample

theorem Registry.decode_strict_laterReadings :
    Sample.readings.Evolves Sample.laterReadings ∧
    Sample.readings.decode .strict Sample.record = .ok Sample.decoded ∧
    Sample.laterReadings.decode .strict Sample.record = .ok Sample.decoded :=
  ⟨Sample.readings_evolves, rfl, (decode_strict_of_evolves Sample.readings_evolves rfl).1⟩

end TaggedUnion
