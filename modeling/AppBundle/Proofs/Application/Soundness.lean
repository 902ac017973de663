import AppBundle.Proofs.Application.Merge
import AppBundle.Proofs.Application.Operations
import AppBundle.Proofs.Descriptor.Rewriting
import AppBundle.Proofs.Installation.Plan

namespace AppBundle

/-! What every application has that packaging works with, whatever was done to it: nested models
belong to root dependencies and carry their owner's key, and no artifact lacks its location. Lists of
dependencies are collected by construction, so that an operation has to keep only the rest.
-/

/-- The root model and the nested models. -/
def Application.models (application : Application) : List Model :=
  application.root :: application.nested.map (·.2)

structure Application.Sound (application : Application) : Prop where
  /-- The application depends on whatever has a nested model. -/
  held : ∀ key model, (key, model) ∈ application.nested →
    application.root.dependencies.Holds key.identity
  owned : ∀ key model, (key, model) ∈ application.nested → model.owner.identity = key.identity
  located : ∀ model ∈ application.models, model.Located
  distinct : ∀ model ∈ application.models,
    model.dependencies.artifacts.Pairwise (·.identity ≠ ·.identity)
  ordered : ∀ model ∈ application.models, model.dependencies.artifacts.Pairwise Artifact.Precedes

section Locations

variable {artifact : Artifact} {model : Model} {files : FileSystem} {own : Option Path}

theorem Artifact.Located.introspect {result : Artifact} (located : artifact.Located)
    (introspected : artifact.introspect files = .ok result) : result.Located := by
  obtain ⟨coordinate, location⟩ := Artifact.introspect_ok introspected
  intro absent
  rw [location] at absent
  rw [coordinate]
  exact located absent

theorem Model.Located.introspect {result : Model} (located : model.Located)
    (introspected : model.introspect files own = .ok result) : result.Located := by
  refine ⟨fun artifact member => ?_, ?_⟩
  · obtain ⟨before, listed, here⟩ := Model.mem_introspect introspected member
    exact (located.dependencies before listed).introspect here
  · rw [(Model.introspect_ok introspected).2.1]
    exact located.additions

theorem DependencySet.located_insertAll {set : DependencySet} {artifacts : List Artifact}
    (old : ∀ artifact ∈ set.artifacts, artifact.Located)
    (new : ∀ artifact ∈ artifacts, artifact.Located) :
    ∀ artifact ∈ (set.insertAll artifacts).artifacts, artifact.Located := by
  intro artifact member
  rcases DependencySet.of_mem_insertAll member with here | there
  · exact old artifact here
  · exact new artifact there

theorem Placeholder.faithful_localize (placeholder : Placeholder) (bundleRoot : Path) :
    Presentation.Faithful (placeholder.localize bundleRoot) where
  coordinate artifact := by
    unfold Placeholder.localize
    split
    · split <;> rfl
    · rfl
  located artifact located := by
    unfold Placeholder.localize
    split
    · split
      · exact located
      · exact fun absent => nomatch absent
    · exact located

end Locations

namespace Application

variable {application result : Application} {model : Model} {models : List Model}
  {policy : MergePolicy} {addition : Addition} {additions : List Addition} {files : FileSystem}
  {own : Option Path}

/-- Soundness entry by entry. -/
theorem Sound.of_entries (root : application.root.Located)
    (nested : ∀ key model, (key, model) ∈ application.nested →
      application.root.dependencies.Holds key.identity ∧ model.owner.identity = key.identity ∧
        model.Located) : application.Sound where
  held key model member := (nested key model member).1
  owned key model member := (nested key model member).2.1
  located := by
    refine List.forall_mem_cons.mpr ⟨root, fun model member => ?_⟩
    obtain ⟨⟨key, _⟩, listed, rfl⟩ := List.mem_map.mp member
    exact (nested key _ listed).2.2
  distinct model _ := model.dependencies.distinct
  ordered model _ := model.dependencies.ordered

theorem Sound.root (sound : application.Sound) : application.root.Located :=
  sound.located _ (List.mem_cons_self ..)

theorem Sound.nested (sound : application.Sound) {key : Coordinate}
    (member : (key, model) ∈ application.nested) : model.Located :=
  sound.located _ (List.mem_cons_of_mem _ (List.mem_map_of_mem member))

theorem Sound.introspect (sound : application.Sound)
    (introspected : application.introspect files own = .ok result) : result.Sound := by
  obtain ⟨rooted, nested⟩ := introspect_ok introspected
  refine .of_entries (sound.root.introspect rooted) fun key model member => ?_
  obtain ⟨before, listed, here⟩ := nested key model member
  refine ⟨?_, ?_, (sound.nested listed).introspect here⟩
  · exact (Model.holds_introspect rooted).mpr (sound.held key before listed)
  · rw [(Model.introspect_ok here).1]
    exact sound.owned key before listed

theorem Sound.extend (sound : application.Sound)
    (located : ∀ artifact ∈ addition.dependencies, artifact.Located)
    (extended : application.extend addition = .ok result) : result.Sound := by
  obtain ⟨target, _, nested, root⟩ := extend_ok.mp extended
  have additions : ∀ recorded ∈ result.root.additions, ∀ artifact ∈ recorded.dependencies,
      artifact.Located := by
    rw [root]
    intro recorded member
    rcases List.mem_append.mp member with old | new
    · exact sound.root.additions recorded old
    · obtain rfl := List.mem_singleton.mp new
      exact fun artifact inside => located artifact (DependencySet.of_mem_ofList inside)
  have dependencies : result.root.dependencies = application.root.dependencies := by rw [root]
  refine .of_entries ⟨by rw [dependencies]; exact sound.root.dependencies, additions⟩ ?_
  intro key model member
  rw [nested] at member
  obtain ⟨before, listed, rfl⟩ := mem_insertInto.mp member
  have old := sound.nested listed
  rw [dependencies]
  refine ⟨sound.held key before listed, ?_, ?_⟩
  · rw [← sound.owned key before listed]
    split <;> rfl
  · split
    · exact ⟨DependencySet.located_insertAll old.dependencies located, old.additions⟩
    · exact old

theorem Sound.merge (sound : application.Sound) (located : model.Located)
    (merged : application.merge policy model = .ok result) : result.Sound := by
  obtain ⟨target, found, _, nested, root⟩ := merge_ok.mp merged
  obtain ⟨member, same⟩ := DependencySet.find?_iff_mem.mp found
  have keeps {identity : Identity} (held : application.root.dependencies.Holds identity) :
      result.root.dependencies.Holds identity := by
    rw [root]
    exact DependencySet.holds_insertAll.mpr (.inl held)
  have joining : ∀ artifact ∈ policy.joinsRoot model, artifact.Located := by
    cases policy with
    | inlined => exact located.dependencies
    | legacy => exact fun _ none => absurd none List.not_mem_nil
  refine .of_entries ?_ fun key other listed => ?_
  · rw [root]
    exact ⟨DependencySet.located_insertAll sound.root.dependencies joining, sound.root.additions⟩
  · rw [nested, mem_insertEntry] at listed
    rcases listed with new | old
    · cases new
      exact ⟨keeps ⟨target, member, rfl⟩, same.symm, located⟩
    · exact ⟨keeps (sound.held key other old), sound.owned key other old, sound.nested old⟩

theorem Sound.extendAll (sound : application.Sound)
    (located : ∀ addition ∈ additions, ∀ artifact ∈ addition.dependencies, artifact.Located)
    (extended : application.extendAll additions = .ok result) : result.Sound :=
  foldlM_keeps (fun _ before addition member _ here => before.extend (located addition member) here)
    sound extended

theorem Sound.mergeAll (sound : application.Sound) (located : ∀ model ∈ models, model.Located)
    (merged : application.mergeAll policy models = .ok result) : result.Sound :=
  foldlM_keeps (fun _ before model member _ here => before.merge (located model member) here)
    sound merged

theorem Sound.packaged (sound : application.Sound) {artifact : Artifact}
    (member : artifact ∈ Installer.packaged application) :
    ∃ source, artifact.locationPath = .ok source := by
  obtain ⟨listed, packaged⟩ := List.mem_filter.mp member
  have located : artifact.Located := by
    rcases of_mem_allArtifacts listed with rooted | ⟨entry, nested, inside⟩
    · exact sound.root.dependencies artifact rooted
    · exact (sound.nested nested).dependencies artifact inside
  unfold Artifact.locationPath
  cases location : artifact.location with
  | some source => exact ⟨⟨source⟩, rfl⟩
  | none => simp [Artifact.isPackaged, located location] at packaged

/-- However the tasks of an installation run side by side, it fails only over a file that could not
be written or a payload that could not be copied. -/
theorem Sound.installs_failure (sound : application.Sound) {installer : Installer}
    {concurrency : Nat} {after : FileSystem} {failure : Failure}
    (failed : installer.InstallsTo application concurrency files (after, .error failure)) :
    (∃ path, failure = .file path) ∨
      ∃ coordinate source target, failure = .installation coordinate source target := by
  obtain ⟨order, completed, interleaved, _, same⟩ := failed
  have stopped := Outcome.answer_error (Prod.mk.inj same).2.symm
  obtain ⟨step, planned, earlier, here⟩ := Step.runAll_failure stopped
  rcases Step.run_failure here with file | payload | rfl
  · exact .inl file
  · exact .inr payload
  · -- only an artifact without a location is refused, and every artifact has a place to copy from
    rcases List.mem_cons.mp planned with other | planned
    · cases other
    · rcases Installer.mem_work.mp (interleaved.perm.subset planned) with
        ⟨_, other⟩ | ⟨artifact, member, inside⟩
      · cases other
      · obtain ⟨source, located⟩ := sound.packaged member
        exact absurd inside (Installer.refuse_not_mem_artifactSteps located)

/-- None of the tasks misses a location. -/
theorem Sound.installs (sound : application.Sound) {installer : Installer} {concurrency : Nat}
    {after : FileSystem} {failure : Failure}
    (failed : installer.InstallsTo application concurrency files (after, .error failure))
    (coordinate : Coordinate) : failure ≠ .missingLocation coordinate := by
  rcases sound.installs_failure failed with ⟨_, rfl⟩ | ⟨_, _, _, rfl⟩
  · exact nofun
  · exact nofun

end Application

end AppBundle
