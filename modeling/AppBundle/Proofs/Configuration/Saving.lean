import AppBundle.Proofs.Configuration.Reading
import AppBundle.Proofs.FileSystem.Hierarchy

namespace AppBundle

/-! Settings that are saved where they were loaded. Everything is read as it was written, but a relative
path is read in the directory of the file once more. That leaves it where it was only if the file is
named by an absolute path or by nothing but its name.
-/

open Json AppBundle.Path

namespace Configuration

variable {configuration : Configuration} {files : FileSystem} {path base : Path}

/-- Equal in every field, paths by their components. -/
structure Same (left right : Configuration) : Prop where
  settings : { left with nestedModels := [], localRepository := none, applicationOutput := none } =
    { right with nestedModels := [], localRepository := none, applicationOutput := none }
  nestedModels : List.Forall₂ SameComponents left.nestedModels right.nestedModels
  localRepository : Option.Rel SameComponents left.localRepository right.localRepository
  applicationOutput : Option.Rel SameComponents left.applicationOutput right.applicationOutput

theorem rebasePath_absolute (absolute : path.isAbsolute = true) : rebasePath base path = path := by
  rw [rebasePath, isRelative, absolute]
  rfl

theorem rebasePath_relative (relative : path.isAbsolute = false) :
    rebasePath base path = base.join path := by
  rw [rebasePath, isRelative, relative]
  rfl

/-- A directory that adds no name to a path adds none to it a second time. -/
theorem join_join_iff {raw : Path} (relative : (base.join raw).isAbsolute = false) :
    (base.join (base.join raw)).SameComponents (base.join raw) ↔ base.moving = [] := by
  obtain ⟨_, rawRelative⟩ := relative_of_join relative
  constructor
  · intro same
    have names : (base.join (base.join raw)).moving = (base.join raw).moving := moves_congr same
    rw [moving_join relative] at names
    exact List.append_left_eq_self.mp names
  · intro still
    have steps : stepsOf base.text = [] := by
      rw [stepsOf, filterMap_componentOf?, List.map_eq_nil_iff]
      exact still
    by_cases empty : base.text = ""
    · have joined (next : Path) (relative : next.isAbsolute = false) : base.join next = next := by
        rw [join_relative relative, separator, empty]
        simp
      rw [joined _ relative]
      rfl
    · rw [SameComponents, components_join empty relative, components_join empty rawRelative,
        stepsOf_join rawRelative, steps, List.nil_append]

theorem isAbsolute_rebasePath (absolute : base.isAbsolute = true) (raw : Path) :
    (rebasePath base raw).isAbsolute = true := by
  cases begun : raw.isAbsolute with
  | true => rw [rebasePath_absolute begun, begun]
  | false => rw [rebasePath_relative begun, isAbsolute_join begun, absolute]

theorem rebasePath_twice (base raw : Path) :
    (rebasePath base (rebasePath base raw)).SameComponents (rebasePath base raw) ↔
      (rebasePath base raw).isAbsolute = true ∨ base.moving = [] := by
  cases absolute : (rebasePath base raw).isAbsolute with
  | true =>
      rw [rebasePath_absolute absolute]
      exact iff_of_true rfl (.inl rfl)
  | false =>
      have relative : raw.isAbsolute = false := by
        by_contra begun
        rw [Bool.not_eq_false] at begun
        rw [rebasePath_absolute begun, begun] at absolute
        cases absolute
      rw [rebasePath_relative absolute]
      rw [rebasePath_relative relative] at absolute ⊢
      simpa using join_join_iff absolute

theorem rel_map_iff {relation : Path → Path → Prop} {change : Path → Path} {value : Option Path} :
    Option.Rel relation (value.map change) value ↔
      ∀ path ∈ value.toList, relation (change path) path := by
  cases value with
  | none => simp
  | some path => simp

theorem same_rebase_iff :
    (configuration.rebase base).Same configuration ↔
      ∀ path ∈ configuration.paths, (rebasePath base path).SameComponents path := by
  have models : List.Forall₂ SameComponents (configuration.nestedModels.map (rebasePath base))
      configuration.nestedModels ↔
        ∀ path ∈ configuration.nestedModels, (rebasePath base path).SameComponents path := by
    rw [List.forall₂_map_left_iff, List.forall₂_same]
  simp only [paths, List.forall_mem_append, ← models, ← rel_map_iff]
  exact ⟨fun same => ⟨⟨same.nestedModels, same.localRepository⟩, same.applicationOutput⟩,
    fun same => ⟨rfl, same.1.1, same.1.2, same.2⟩⟩

theorem paths_rebase : (configuration.rebase base).paths = configuration.paths.map (rebasePath base) := by
  have listed (value : Option Path) :
      (value.map (rebasePath base)).toList = value.toList.map (rebasePath base) := by
    cases value <;> rfl
  simp only [paths, rebase, List.map_append, listed]

theorem same_rebase_twice (base : Path) (configuration : Configuration) :
    ((configuration.rebase base).rebase base).Same (configuration.rebase base) ↔
      (∀ path ∈ (configuration.rebase base).paths, path.isAbsolute = true) ∨ base.moving = [] := by
  simp only [same_rebase_iff, paths_rebase, List.forall_mem_map, rebasePath_twice]
  by_cases still : base.moving = []
  · simp [still]
  · simp [still]

theorem load_eq_ok (there : files.exists path = true) (loaded : load files path = .ok configuration) :
    ∃ content text raw, files.read? path = some content ∧
      readFromSoundText record.reader text = .ok raw ∧
      configuration = raw.rebase (path.parent?.getD ⟨"."⟩) ∧ configuration.validate = .ok () := by
  rw [load, there] at loaded
  simp only [Bool.not_true, Bool.false_eq_true, if_false] at loaded
  split at loaded
  · cases loaded
  · next text found =>
      obtain ⟨content, read, _⟩ := Option.bind_eq_some_iff.mp found
      split at loaded
      · cases loaded
      · next raw decoded =>
          obtain ⟨_, valid, same⟩ := bind_ok.mp loaded
          cases same
          exact ⟨content, text, raw, read, decoded, rfl, valid⟩

theorem save_of_texts (texts : ∀ named ∈ configuration.paths, named.isText = true) :
    save files path configuration =
      match files.write? path (configuration.toJson.render true).toUTF8 with
      | some saved => .ok saved
      | none => .error (.file path) := by
  rw [save, List.all_eq_true.mpr texts]
  rfl

theorem save_of_unwritable {named : Path} (member : named ∈ configuration.paths)
    (raw : named.isText = false) : save files path configuration = .error .unwritablePath := by
  have some : configuration.paths.all Path.isText = false :=
    List.all_eq_false.mpr ⟨named, member, by simp [raw]⟩
  simp [save, some]

theorem texts_of_save {saved : FileSystem} (written : save files path configuration = .ok saved) :
    ∀ named ∈ configuration.paths, named.isText = true := by
  intro named member
  by_contra raw
  rw [save_of_unwritable member (by simpa using raw)] at written
  cases written

/-- What is saved is read back, with its paths in the directory of the file. -/
theorem load_saved {saved : FileSystem} (bounded : configuration.concurrency < wordLimit)
    (valid : configuration.validate = .ok ()) (written : save files path configuration = .ok saved) :
    load saved path = .ok (configuration.rebase (path.parent?.getD ⟨"."⟩)) := by
  have texts := texts_of_save written
  rw [save_of_texts texts] at written
  split at written
  · next after wrote =>
      cases written
      have read := (FileSystem.wrote_write? wrote).read?
      rw [load, FileSystem.exists_of_read? read, FileSystem.readText?_of_read? read]
      simp only [Bool.not_true, Bool.false_eq_true, if_false, readFromSoundText_render ⟨bounded, texts⟩]
      exact bind_ok.mpr ⟨(), valid, rfl⟩
  · cases written

theorem isText_rebasePath {raw : Path} (directory : base.isText = true) (isText : raw.isText = true) :
    (rebasePath base raw).isText = true := by
  cases begun : raw.isAbsolute with
  | true => rwa [rebasePath_absolute begun]
  | false =>
      rw [rebasePath_relative begun]
      exact (isText_join begun).mpr ⟨directory, isText⟩

/-- Settings that were loaded from a file can be saved to it where all their paths are texts, as they
are where the path to the file is one. What is loaded then are the same settings with every relative
path in the directory of the file once more. These are the settings that were saved, paths included,
exactly where the file was named by an absolute path or by its name alone, or where no path of the
settings is relative. -/
theorem load_save (tree : files.Hierarchical) (there : files.exists path = true)
    (loaded : load files path = .ok configuration) :
    ∃ directory, path.parent? = some directory ∧
      (path.isText = true → ∀ named ∈ configuration.paths, named.isText = true) ∧
      ((∃ named ∈ configuration.paths, named.isText = false) →
        save files path configuration = .error .unwritablePath) ∧
      ((∀ named ∈ configuration.paths, named.isText = true) →
        ∃ saved, save files path configuration = .ok saved ∧ saved.Hierarchical ∧
          load saved path = .ok (configuration.rebase directory)) ∧
      ((configuration.rebase directory).Same configuration ↔
        path.isAbsolute = true ∨ path.moving.length = 1 ∨
          ∀ named ∈ configuration.paths, named.isAbsolute = true) := by
  obtain ⟨content, text, raw, read, decoded, same, valid⟩ := load_eq_ok there loaded
  obtain ⟨names, name, isName, moved⟩ := FileSystem.moving_of_read? tree read
  obtain ⟨directory, outer, _, around, begun, _⟩ := parent?_moving isName moved
  rw [outer, Option.getD_some] at same
  subst same
  have writable := writable_of_readFromSoundText decoded
  refine ⟨directory, outer, fun isText => ?_, fun ⟨_, member, raw⟩ => save_of_unwritable member raw,
    fun texts => ?_, ?_⟩
  · rw [paths_rebase, List.forall_mem_map]
    intro named member
    exact isText_rebasePath (isText_parent isName moved outer isText) (writable.texts named member)
  · obtain ⟨saved, wrote⟩ := FileSystem.write?_of_read? tree read
      ((raw.rebase directory).toJson.render true).toUTF8
    have written : save files path (raw.rebase directory) = .ok saved := by
      rw [save_of_texts texts, wrote]
    refine ⟨saved, written, tree.write? wrote, ?_⟩
    have bounded : (raw.rebase directory).concurrency < wordLimit := writable.bounded
    rw [load_saved bounded valid written, outer, Option.getD_some]
  · have length : path.moving.length = 1 ↔ directory.moving = [] := by
      rw [moved, around]
      simp
    have absolute : path.isAbsolute = true →
        ∀ named ∈ (raw.rebase directory).paths, named.isAbsolute = true := by
      intro begins
      rw [paths_rebase, List.forall_mem_map]
      exact fun named _ => isAbsolute_rebasePath (begun.trans begins) named
    rw [same_rebase_twice, length]
    constructor
    · rintro (all | still)
      · exact .inr (.inr all)
      · exact .inr (.inl still)
    · rintro (begins | still | all)
      · exact .inl (absolute begins)
      · exact .inr still
      · exact .inl all

/-- A file in the working directory, which the path to it starts from, and paths of both kinds. A path
that was read twice has another text, but the same components. -/
theorem load_save_beside :
    let path : Path := ⟨"./packager.json"⟩
    let files := FileSystem.empty.place path
      "\x7b\"nested_models\": [\"sub/a.json\", \"/opt/b.json\"], \"concurrency\": 3\x7d".toUTF8
    let configuration := { Configuration.default with
      nestedModels := [⟨"./sub/a.json"⟩, ⟨"/opt/b.json"⟩], concurrency := 3 }
    files.Hierarchical ∧ files.exists path = true ∧ load files path = .ok configuration ∧
      ∃ saved reloaded, save files path configuration = .ok saved ∧
        load saved path = .ok reloaded ∧ reloaded.Same configuration ∧
        reloaded.nestedModels = [⟨"././sub/a.json"⟩, ⟨"/opt/b.json"⟩] := by
  intro path files configuration
  have tree : files.Hierarchical := FileSystem.hierarchical_of_entries (by decide +kernel)
  have there : files.exists path = true := by decide +kernel
  have loaded : load files path = .ok configuration := by decide +kernel
  have alone : path.moving.length = 1 := by decide
  have beside : path.parent? = some ⟨"."⟩ := by decide
  obtain ⟨directory, outer, texts, _, saves, same⟩ := load_save tree there loaded
  obtain ⟨saved, written, _, again⟩ := saves (texts (Path.isText_mk _))
  obtain rfl := Option.some.inj (beside.symm.trans outer)
  exact ⟨tree, there, loaded, saved, configuration.rebase ⟨"."⟩, written, again,
    same.mpr (.inr (.inl alone)), by decide⟩

/-- A file in another directory, with a relative path in it. What is saved names the path from the
working directory, and what is loaded then reads it from the directory of the file again. -/
theorem load_save_elsewhere :
    let path : Path := ⟨"conf/packager.json"⟩
    let files := FileSystem.empty.place path "\x7b\"nested_models\": [\"a.json\"]\x7d".toUTF8
    let configuration := { Configuration.default with nestedModels := [⟨"conf/a.json"⟩] }
    let reloaded := { Configuration.default with nestedModels := [⟨"conf/conf/a.json"⟩] }
    files.exists path = true ∧ load files path = .ok configuration ∧
      ∃ saved, save files path configuration = .ok saved ∧ load saved path = .ok reloaded ∧
        ¬reloaded.Same configuration := by
  intro path files configuration reloaded
  have loaded : load files path = .ok configuration := by decide +kernel
  have saves : (save files path configuration).isOk = true := by decide +kernel
  obtain ⟨saved, written⟩ := exists_ok saves
  have again : load saved path = .ok reloaded :=
    (load_saved (by decide) (by decide +kernel) written).trans (by decide +kernel)
  have apart : ¬List.Forall₂ SameComponents reloaded.nestedModels configuration.nestedModels := by
    decide
  exact ⟨by decide +kernel, loaded, saved, written, again, fun same => apart same.nestedModels⟩

end Configuration

end AppBundle
