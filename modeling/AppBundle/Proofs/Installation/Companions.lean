import AppBundle.Proofs.Descriptor.Rewriting
import AppBundle.Proofs.Installation.Layout

namespace AppBundle

/-! Companion descriptors. Whoever reads the companion of an artifact reads the nested model whose
descriptor was written there last. All artifacts of a directory name their descriptors alike, so that
this is the artifact's own model where no other artifact of the directory has one.
-/

variable {application : Application} {model : Model} {coordinate other : Coordinate}

/-- Every location is portable, but for domain references that need none. -/
theorem Placeholder.showsLocations (placeholder : Placeholder) (model : Model) :
    model.ShowsLocations placeholder.parameterize := by
  have located (artifact : Artifact) : (placeholder.parameterize artifact).Located := by
    unfold Placeholder.parameterize
    split
    · next domain => exact fun _ => domain
    · exact fun absent => nomatch absent
  exact ⟨fun artifact _ => located artifact, fun _ _ artifact _ => located artifact⟩

theorem Model.load_read {files : FileSystem} {path : Path} {content : ByteArray}
    (read : files.read? path = some content) : Model.load files path = ofDescriptor content := by
  rw [load, read]

namespace Installer

variable {installer : Installer} {concurrency : Nat} {files made after : FileSystem}
  {order : List Step} {reported : List Installed} {artifact : Artifact}

theorem companionModel?_eq_some :
    companionModel? application coordinate = some model ↔
      application.nested? coordinate = some model ∧ model.dependencies.artifacts ≠ [] := by
  simp [companionModel?, DependencySet.isEmpty]

theorem Completes.load_companion
    (completes : installer.Completes application concurrency files made after order)
    {owner : Artifact} (member : artifact ∈ packaged application)
    (listed : owner ∈ packaged application)
    (lasts : installer.Lasts application files.workingDirectory
      (installer.companionStep application owner.coordinate))
    (same : files.destination (installer.companionPath application owner.coordinate) =
      files.destination (installer.companionPath application artifact.coordinate))
    (nested : companionModel? application owner.coordinate = some model) :
    Model.load after (installer.companionPath application artifact.coordinate) =
      .ok (model.presented installer.placeholder.parameterize) := by
  have written := completes.write_stands (completes.accompanied listed) lasts
  have read := completes.read_at (completes.accompanied member) rfl same written
  rw [Model.load_read read, companionContent, nested]
  exact Model.ofDescriptor_shown (installer.placeholder.showsLocations model) installer.pretty

/-- Whatever is reported is a packaged artifact. Where its nested model has dependencies, its
companion is read as that model with portable locations, unless something is written over it. Among
plain coordinates that takes another model or a payload with the name of a descriptor in the same
directory, and the model that is written last is the one that is read. -/
theorem installed_companions
    (installed : installer.InstallsTo application concurrency files (after, .ok reported)) :
    (∀ entry ∈ reported,
      ∃ artifact ∈ packaged application, installer.installedAs application artifact = entry) ∧
    ∀ artifact ∈ packaged application, ∀ model,
      application.nested? artifact.coordinate = some model → model.dependencies.artifacts ≠ [] →
        let companion (owner : Artifact) := installer.companionPath application owner.coordinate
        let lasts (owner : Artifact) := installer.Lasts application files.workingDirectory
          (installer.companionStep application owner.coordinate)
        let portable := installer.placeholder.parameterize
        (lasts artifact →
          Model.load after (companion artifact) = .ok (model.presented portable) ∧
            (model.presented portable).owner = model.owner ∧
              (model.presented portable).dependencies.artifacts.Perm
                (model.dependencies.artifacts.map portable)) ∧
        ((∀ other ∈ packaged application, other.coordinate.Plain) →
          (∀ other ∈ packaged application,
            other.coordinate.directoryNames = artifact.coordinate.directoryNames →
              other.coordinate.fileName ≠ Model.descriptorName ∧
                ((companionModel? application other.coordinate).isSome = true →
                  other = artifact)) →
          lasts artifact) ∧
        ∀ owner ∈ packaged application, ∀ other,
          companionModel? application owner.coordinate = some other → lasts owner →
            files.destination (companion owner) = files.destination (companion artifact) →
              Model.load after (companion artifact) = .ok (other.presented portable) := by
  obtain ⟨made, order, completes, listed⟩ := installed.completes
  refine ⟨fun entry member => (listed entry).mp member, ?_⟩
  intro artifact member model nested occupied
  have companion := companionModel?_eq_some.mpr ⟨nested, occupied⟩
  refine ⟨fun lasts => ⟨completes.load_companion member member lasts rfl companion, rfl, ?_⟩,
    fun plain alone => ?_, fun owner listed other nested lasts same =>
      completes.load_companion member listed lasts same nested⟩
  · exact DependencySet.ofList_perm
      (DependencySet.distinct_shown installer.placeholder.faithful_parameterize)
  · exact lasts_descriptor plain member (by rw [companion]; rfl)
      (fun other listed names => (alone other listed names).2)
      (fun other listed names => (alone other listed names).1)

/-- A module beside a variant of its own without dependencies. -/
theorem installed_companions_module :
    let artifact (name : String) (classifier : Option String) (location : String) : Artifact :=
      ⟨⟨"g", name, "1.0", "jar", classifier, none⟩, some location, false, .empty, .empty⟩
    let plug := artifact "p" (some "mule-plugin") "p.jar"
    let tests := artifact "p" (some "tests") "t.jar"
    let library := artifact "a" none "a.jar"
    let nested := Model.ofDependencies plug.coordinate (.ofList [library])
    let application : Application :=
      { root := .ofDependencies ⟨"g", "app", "1.0", "jar", none, none⟩ (.ofList [plug, tests])
        nested := [(plug.coordinate, nested)]
        ascending := List.pairwise_singleton _ _ }
    let files := ((FileSystem.empty.place ⟨"p.jar"⟩ ⟨#[1]⟩).place ⟨"t.jar"⟩ ⟨#[2]⟩).place
      ⟨"a.jar"⟩ ⟨#[3]⟩
    let installer : Installer := ⟨⟨"out"⟩, .default, false, false⟩
    ∃ after reported, installer.InstallsTo application 8 files (after, .ok reported) ∧
      plug ∈ packaged application ∧ application.nested? plug.coordinate = some nested ∧
        nested.dependencies.artifacts ≠ [] ∧
          Model.load after (installer.companionPath application plug.coordinate) =
            .ok (nested.presented installer.placeholder.parameterize) := by
  intro artifact plug tests library nested application files installer
  have installed : installer.InstallsTo application 8 files _ :=
    installsTo_ordered (by decide +kernel) (by decide +kernel) (by decide +kernel)
  have member : plug ∈ packaged application := by decide +kernel
  have found : application.nested? plug.coordinate = some nested := by decide +kernel
  have occupied : nested.dependencies.artifacts ≠ [] := by decide +kernel
  obtain ⟨read, lasts, _⟩ := (installed_companions installed).2 plug member nested found occupied
  have alone := lasts (by decide +kernel) (by decide +kernel)
  exact ⟨_, _, installed, member, found, occupied, (read alone).1⟩

/-- Of two variants with nested models only the second keeps its descriptor. -/
theorem installed_companions_variants :
    let artifact (name : String) (classifier : Option String) (location : String) : Artifact :=
      ⟨⟨"g", name, "1.0", "jar", classifier, none⟩, some location, false, .empty, .empty⟩
    let plug := artifact "p" (some "mule-plugin") "p.jar"
    let tests := artifact "p" (some "tests") "t.jar"
    let nested (owner : Artifact) (name : String) :=
      Model.ofDependencies owner.coordinate (.ofList [artifact name none "a.jar"])
    let application : Application :=
      { root := .ofDependencies ⟨"g", "app", "1.0", "jar", none, none⟩ (.ofList [plug, tests])
        nested := [(plug.coordinate, nested plug "a"), (tests.coordinate, nested tests "b")]
        ascending := by decide +kernel }
    let files := ((FileSystem.empty.place ⟨"p.jar"⟩ ⟨#[1]⟩).place ⟨"t.jar"⟩ ⟨#[2]⟩).place
      ⟨"a.jar"⟩ ⟨#[3]⟩
    let installer : Installer := ⟨⟨"out"⟩, .default, false, false⟩
    ∃ after reported, installer.InstallsTo application 8 files (after, .ok reported) ∧
      installer.installedAs application plug ∈ reported ∧
        application.nested? plug.coordinate = some (nested plug "a") ∧
          ∃ read, Model.load after (installer.companionPath application plug.coordinate) = .ok read ∧
            read.owner = tests.coordinate := by
  intro artifact plug tests nested application files installer
  have succeeded : (Step.runAll files (.makeDirectory installer.repository ::
      (packaged application).flatMap (installer.artifactSteps application))).failure? = none := by
    decide +kernel
  have installed : installer.InstallsTo application 8 files _ :=
    installsTo_ordered (by decide +kernel) (by decide +kernel) succeeded
  obtain ⟨_, _, _, listed⟩ := installed.completes
  have reported := (listed _).mpr ⟨plug, by decide +kernel, rfl⟩
  have whole : packaged application = (packaged application).dropLast ++ [tests] := by
    decide +kernel
  refine ⟨_, _, installed, reported, by decide +kernel,
    (nested tests "b").presented installer.placeholder.parameterize, ?_, rfl⟩
  refine (Model.load_read (read_last_companion whole succeeded)).trans ?_
  exact Model.ofDescriptor_shown (installer.placeholder.showsLocations (nested tests "b")) false

end Installer

end AppBundle
