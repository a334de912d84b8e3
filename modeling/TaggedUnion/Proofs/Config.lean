import TaggedUnion.Config
import TaggedUnion.Proofs.Path
import TaggedUnion.Proofs.Schema
import TaggedUnion.Proofs.Storage

/-!
# Configurations that are stored again

A configuration is read from its outline (`Config.ofOutline_toTree`), so what is saved as JSON is
what is stored.  But loading resolves the path of the registry from the folder that holds the
configuration (`Config.load_of_save`), while saving writes the path as it is.  Storing a loaded
configuration in its place and loading it again therefore resolves the path twice.

Resolving twice is the same as resolving once exactly when the path is absolute by then, or the
folder is the working directory, written as nothing or as a dot (`Config.same_resolve_iff`).  In any
other folder the registry moves.
-/

namespace TaggedUnion

/-! ### Trees -/

theorem UnknownFields.ofOutline_label (u : UnknownFields) :
    UnknownFields.ofOutline (.string (some u.label)) = .ok u := by
  cases u <;> rfl

/-- A path that names a document has a parent. -/
theorem Path.exists_parent_of_format {path : Path} {format : Format}
    (h : path.format = .ok format) : ∃ folder, path.parent? = some folder := by
  cases hbackward : path.backward with
  | nil =>
    -- Without a name there is no extension to tell the format by.
    have hname : path.extension? = none := by
      rw [extension?, name?, hbackward]
      rfl
    rw [Path.format, hname] at h
    cases h
  | cons piece rest =>
    rw [parent?, hbackward]
    exact ⟨_, rfl⟩

namespace Config

theorem shape_sound : Config.shape.Sound :=
  ⟨by decide, fun k => by cases k <;> rfl⟩

def written (c : Config) : Config.shape.Written Config.part c c.toTree where
  parts
    | .registry => c.registry
    | .unknownFields => c.unknownFields
  writes _ := true
  trees
    | .registry => .string c.registry.text
    | .unknownFields => .string c.unknownFields.label
  build_eq := rfl
  tree_eq := rfl
  read_eq
    | .registry, _ => rfl
    | .unknownFields, _ => UnknownFields.ofOutline_label c.unknownFields
  fallback_eq
    | .registry, hk => nomatch hk
    | .unknownFields, hk => nomatch hk

theorem ofOutline_toTree (c : Config) : reader.ofOutline c.toTree.outline = .ok c :=
  c.written.keyed_eq shape_sound

/-! ### Resolving -/

/-- Configurations are the same when they lead to the same registry and treat undeclared fields
alike. -/
structure Same (c d : Config) : Prop where
  registry : c.registry.Same d.registry
  unknownFields : c.unknownFields = d.unknownFields

variable {c : Config} {path folder : Path} {files files' : FileTree}

@[simp]
theorem unknownFields_resolve (c : Config) (path : Path) :
    (c.resolve path).unknownFields = c.unknownFields := by
  unfold resolve
  split <;> rfl

theorem registry_resolve (h : path.parent? = some folder) (c : Config) :
    (c.resolve path).registry = folder.join c.registry := by
  unfold resolve
  rw [h]

/-- Whether it makes a difference to resolve a configuration twice. -/
theorem same_resolve_iff (hparent : path.parent? = some folder) (c : Config) :
    ((c.resolve path).resolve path).Same (c.resolve path) ↔
      (c.resolve path).registry.isAbsolute = true ∨ folder = ⟨""⟩ ∨ folder = ⟨"."⟩ := by
  have hsame : ((c.resolve path).resolve path).Same (c.resolve path) ↔
      (folder.join (folder.join c.registry)).Same (folder.join c.registry) := by
    rw [← registry_resolve hparent c, ← registry_resolve hparent (c.resolve path)]
    exact ⟨Same.registry, fun h => ⟨h, unknownFields_resolve _ path⟩⟩
  rw [hsame, registry_resolve hparent]
  cases habsolute : (folder.join c.registry).isAbsolute with
  | true =>
    rw [Path.join_of_isAbsolute habsolute]
    exact iff_of_true (.refl _) (.inl rfl)
  | false =>
    have hfolder : folder.isAbsolute = false := by
      rw [← Path.isAbsolute_join (Path.isAbsolute_of_join habsolute), habsolute]
    rw [Path.same_join_join_iff habsolute, Path.parent?_steps_eq_nil_iff hparent hfolder]
    simp

/-! ### Loading and saving -/

/-- What is loaded after a configuration was saved as JSON. -/
theorem load_of_save (hpath : path.format = .ok .json) (h : c.save files path = .ok files') :
    load files'.files path = .ok (c.resolve path) :=
  bind_eq_ok_iff.mpr ⟨c, Format.Reader.load_of_save c.ofOutline_toTree hpath h, rfl⟩

/-- What is loaded from a path was resolved from there. -/
theorem exists_of_load {files : Files} (h : load files path = .ok c) :
    ∃ stored : Config, c = stored.resolve path := by
  obtain ⟨stored, -, hresolve⟩ := bind_eq_ok_iff.mp h
  exact ⟨stored, (Except.ok.inj hresolve).symm⟩

/-- A configuration that is loaded, saved in its place and loaded again still treats undeclared
fields alike, and its registry is looked for from its folder once more.  It is the same
configuration exactly when the path of the registry was absolute or the folder is the working
directory. -/
theorem load_save_load (hpath : path.format = .ok .json) (hload : load files.files path = .ok c)
    (hsave : c.save files path = .ok files') :
    ∃ c', load files'.files path = .ok c' ∧ c'.unknownFields = c.unknownFields ∧
      (∀ folder, path.parent? = some folder → c'.registry = folder.join c.registry) ∧
      (c'.Same c ↔ c.registry.isAbsolute = true ∨
        path.parent? = some ⟨""⟩ ∨ path.parent? = some ⟨"."⟩) := by
  obtain ⟨folder, hparent⟩ := Path.exists_parent_of_format hpath
  obtain ⟨stored, rfl⟩ := exists_of_load hload
  refine ⟨_, load_of_save hpath hsave, unknownFields_resolve _ path,
    fun folder hfolder => registry_resolve hfolder _, ?_⟩
  rw [same_resolve_iff hparent, hparent, Option.some.injEq, Option.some.injEq]

end Config

/-! ### Configurations to try the laws on -/

namespace Sample

/-- A configuration that names a registry beside it. -/
def config : Config where
  registry := ⟨"r.json"⟩
  unknownFields := .reject

/-- The configuration stored as `v.json` in the working directory and in a folder of it. -/
def configTree : FileTree :=
  let content := Content.file (Format.json.write config.toTree).toUTF8
  ((FileTree.empty.set ["v.json", "", ""] content).set ["sub", "", ""] .folder).set
    ["v.json", "sub", "", ""] content

theorem load_config {path : Path} (hpath : path.format = .ok .json)
    (hfile : configTree.files path = .ok (.file (Format.json.write config.toTree).toUTF8)) :
    Config.load configTree.files path = .ok (config.resolve path) := by
  refine bind_eq_ok_iff.mpr ⟨config, ?_, rfl⟩
  rw [Config.reader.load_of_file hpath hfile]
  exact Format.Reader.parse_write config.ofOutline_toTree

end Sample

namespace Config

/-- In the working directory the configuration leads to the same registry, if in other words. -/
theorem load_save_load_beside :
    ∃ files', load Sample.configTree.files ⟨"./v.json"⟩ = .ok ⟨⟨"./r.json"⟩, .reject⟩ ∧
      Config.save ⟨⟨"./r.json"⟩, .reject⟩ Sample.configTree ⟨"./v.json"⟩ = .ok files' ∧
      ∃ c', load files'.files ⟨"./v.json"⟩ = .ok c' ∧ c'.Same ⟨⟨"./r.json"⟩, .reject⟩ := by
  have hpath : Path.format ⟨"./v.json"⟩ = .ok .json := by decide
  have hload : load Sample.configTree.files ⟨"./v.json"⟩ = .ok ⟨⟨"./r.json"⟩, .reject⟩ :=
    Sample.load_config hpath rfl
  obtain ⟨files', hsave⟩ : ∃ files',
      Config.save ⟨⟨"./r.json"⟩, .reject⟩ Sample.configTree ⟨"./v.json"⟩ = .ok files' := ⟨_, rfl⟩
  obtain ⟨c', hload', -, -, hsame⟩ := load_save_load hpath hload hsave
  exact ⟨files', hload, hsave, c', hload', hsame.mpr (.inr (.inr (by decide)))⟩

/-- Stored in a folder, a configuration that names a registry beside it names one in a folder of
that folder after it was loaded and saved. -/
theorem load_save_load_moves :
    Path.format ⟨"sub/v.json"⟩ = .ok .json ∧
    load Sample.configTree.files ⟨"sub/v.json"⟩ = .ok ⟨⟨"sub/r.json"⟩, .reject⟩ ∧
    ∃ files', Config.save ⟨⟨"sub/r.json"⟩, .reject⟩ Sample.configTree ⟨"sub/v.json"⟩ = .ok files' ∧
      load files'.files ⟨"sub/v.json"⟩ = .ok ⟨⟨"sub/sub/r.json"⟩, .reject⟩ ∧
      ¬ Config.Same ⟨⟨"sub/sub/r.json"⟩, .reject⟩ ⟨⟨"sub/r.json"⟩, .reject⟩ := by
  have hpath : Path.format ⟨"sub/v.json"⟩ = .ok .json := by decide
  obtain ⟨files', hsave⟩ : ∃ files',
      Config.save ⟨⟨"sub/r.json"⟩, .reject⟩ Sample.configTree ⟨"sub/v.json"⟩ = .ok files' := ⟨_, rfl⟩
  refine ⟨hpath, Sample.load_config hpath rfl, files', hsave, load_of_save hpath hsave, ?_⟩
  intro hsame
  exact absurd hsame.registry (by decide)

end Config

end TaggedUnion
