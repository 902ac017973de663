import AppBundle.Proofs.Application.Nested
import AppBundle.Proofs.Installation.Plan

namespace AppBundle

/-! What descriptors promise and what is installed. A descriptor lists artifacts under their own kinds
and scopes, while an installation takes one artifact of each identity. A payload that is promised is
there where the artifact that was taken is packaged and of the promised kind.
-/

variable {application : Application} {artifact : Artifact} {coordinate other : Coordinate}

theorem Coordinate.localPath_congr (same : coordinate.identity = other.identity)
    (kind : coordinate.kind = other.kind) : coordinate.localPath = other.localPath := by
  cases coordinate
  cases other
  cases same
  cases kind
  rfl

namespace Application

/-- The artifact that stands for a coordinate: the root's, or else that of the first nested model
that lists one. -/
def standing? (application : Application) (coordinate : Coordinate) : Option Artifact :=
  (application.root.dependencies.find? coordinate).or
    (application.nested.findSome? fun entry => entry.2.dependencies.find? coordinate)

theorem find?_allArtifacts :
    application.allArtifacts.find? coordinate = application.standing? coordinate := by
  rw [allArtifacts, standing?]
  generalize application.root.dependencies = all
  generalize application.nested = nested
  induction nested generalizing all with
  | nil => exact Option.or_none.symm
  | cons entry rest ih =>
      rw [List.foldl_cons, ih, DependencySet.find?_insertAll_set, Option.or_assoc,
        List.findSome?_cons]
      cases entry.2.dependencies.find? coordinate with
      | none => rfl
      | some found => rfl

/-- A packaged artifact of the root's descriptor, or of a descriptor that is written beside an
installed artifact. -/
def Promises (application : Application) (artifact : Artifact) : Prop :=
  artifact.isPackaged = true ∧
    (artifact ∈ application.root.dependencies.artifacts ∨
      ∃ owner ∈ Installer.packaged application,
        ∃ model ∈ Installer.companionModel? application owner.coordinate,
          artifact ∈ model.dependencies.artifacts)

instance : Decidable (application.Promises artifact) :=
  inferInstanceAs (Decidable (_ ∧ (_ ∨ _)))

/-- The artifact that stands for a coordinate is packaged, and as the same kind. -/
def Supplies (application : Application) (coordinate : Coordinate) : Prop :=
  ∃ standing ∈ application.standing? coordinate,
    standing.isPackaged = true ∧ standing.coordinate.kind = coordinate.kind

instance : Decidable (application.Supplies coordinate) :=
  inferInstanceAs (Decidable (∃ standing ∈ application.standing? coordinate, _ ∧ _))

theorem supplies_of_root (member : artifact ∈ application.root.dependencies.artifacts)
    (packaged : artifact.isPackaged = true) : application.Supplies artifact.coordinate := by
  refine ⟨artifact, ?_, packaged, rfl⟩
  rw [standing?, DependencySet.mem_iff_find?.mp member]
  rfl

theorem Supplies.exists_packaged (supplied : application.Supplies coordinate) :
    ∃ standing ∈ Installer.packaged application,
      standing.coordinate.localPath = coordinate.localPath := by
  obtain ⟨standing, stands, packaged, kind⟩ := supplied
  obtain ⟨member, same⟩ := DependencySet.find?_iff_mem.mp (find?_allArtifacts.trans stands)
  exact ⟨standing, List.mem_filter.mpr ⟨member, packaged⟩, Coordinate.localPath_congr same kind⟩

end Application

namespace Installer

variable {installer : Installer} {concurrency : Nat} {files after : FileSystem}
  {reported : List Installed}

/-- Only what is supplied under a coordinate is copied for it. -/
theorem supplies_of_copied {source target : Path}
    (listed : .copy coordinate source target ∈ (installer.work application).flatten)
    (same : coordinate.identity = other.identity) (kind : coordinate.kind = other.kind) :
    application.Supplies other := by
  rcases mem_work.mp listed with ⟨_, marker⟩ | ⟨standing, packaged, member⟩
  · cases marker
  · obtain ⟨inside, isPackaged⟩ := List.mem_filter.mp packaged
    rcases writes_of_mem member rfl with ⟨_, _, copied⟩ | ⟨_, digest⟩ | companion
    · cases copied
      refine ⟨standing, ?_, isPackaged, kind⟩
      exact Application.find?_allArtifacts.symm.trans
        (DependencySet.find?_iff_mem.mpr ⟨inside, same⟩)
    · cases digest
    · cases companion

/-- After an installation the payload of a promised artifact can be read where its kind is supplied,
which holds of all that the root lists. A file is there for no other reason than that, unless it was
there before or is written for another artifact or as a file of another kind. -/
theorem promised_present
    (installed : installer.InstallsTo application concurrency files (after, .ok reported))
    (promised : application.Promises artifact) :
    let path := installer.repository.join artifact.coordinate.localPath
    (application.Supplies artifact.coordinate → (after.read? path).isSome = true) ∧
      (artifact ∈ application.root.dependencies.artifacts →
        application.Supplies artifact.coordinate) ∧
      ((after.read? path).isSome = true → application.Supplies artifact.coordinate ∨
        (files.contentAt? (files.destination path)).isSome = true ∨
          ∃ step ∈ (installer.work application).flatten,
            step.place? files.workingDirectory = some (files.destination path) ∧
              ∀ coordinate source target, step = .copy coordinate source target →
                coordinate.identity = artifact.identity →
                  coordinate.kind ≠ artifact.coordinate.kind) := by
  intro path
  obtain ⟨made, order, completes, _⟩ := installed.completes
  refine ⟨fun supplied => ?_, fun member => ?_, fun present => ?_⟩
  · obtain ⟨standing, member, same⟩ := supplied.exists_packaged
    obtain ⟨source, _, copied⟩ := completes.copied member
    have written := (completes.written copied rfl).2
    rwa [payloadPath_eq, same] at written
  · exact Application.supplies_of_root member promised.1
  · by_cases supplied : application.Supplies artifact.coordinate
    · exact .inl supplied
    · refine .inr ?_
      by_cases inside : files.destination path ∈ installer.places application files.workingDirectory
      · obtain ⟨step, listed, place⟩ := mem_places.mp inside
        refine .inr ⟨step, listed, place, ?_⟩
        rintro coordinate source target rfl same kind
        exact supplied (supplies_of_copied listed same kind)
      · obtain ⟨content, read⟩ := Option.isSome_iff_exists.mp present
        have found := (FileSystem.read?_eq_some.mp read).2
        rw [completes.grows.destination, completes.untouched inside] at found
        exact .inl (Option.isSome_iff_exists.mpr ⟨content, found⟩)

/-- A module's descriptor promises a library that the root does not list. -/
theorem promised_present_module :
    let artifact (name : String) (classifier : Option String) : Artifact :=
      ⟨⟨"g", name, "1.0", "jar", classifier, none⟩, some (name ++ ".jar"), false, .empty, .empty⟩
    let plug := artifact "plug" (some "mule-plugin")
    let library := artifact "lib" none
    let application : Application :=
      { root := .ofDependencies ⟨"g", "app", "1.0", "jar", none, none⟩ (.ofList [plug])
        nested := [(plug.coordinate, .ofDependencies plug.coordinate (.ofList [library]))]
        ascending := List.pairwise_singleton _ _ }
    let files := (FileSystem.empty.place ⟨"lib.jar"⟩ ⟨#[1, 2]⟩).place ⟨"plug.jar"⟩ ⟨#[3]⟩
    let installer : Installer := ⟨⟨"out"⟩, .default, false, false⟩
    ∃ after reported, installer.InstallsTo application 8 files (after, .ok reported) ∧
      application.Promises library ∧ library ∉ application.root.dependencies.artifacts ∧
        (after.read? ⟨"out/g/lib/1.0/lib-1.0.jar"⟩).isSome = true := by
  intro artifact plug library application files installer
  have installed : installer.InstallsTo application 8 files _ :=
    installsTo_ordered (by decide +kernel) (by decide +kernel) (by decide +kernel)
  have promised : application.Promises library := by decide +kernel
  have supplied : application.Supplies library.coordinate := by decide +kernel
  have place : installer.repository.join library.coordinate.localPath =
      ⟨"out/g/lib/1.0/lib-1.0.jar"⟩ := by decide +kernel
  refine ⟨_, _, installed, promised, by decide, ?_⟩
  rw [← place]
  exact (promised_present installed promised).1 supplied

/-- The root lists an archive under the coordinate whose library a module's descriptor promises: the
archive is installed, and the library is not. -/
theorem promised_absent :
    let artifact (name kind : String) (classifier : Option String) : Artifact :=
      ⟨⟨"g", name, "1.0", kind, classifier, none⟩, some (name ++ "." ++ kind), false, .empty, .empty⟩
    let plug := artifact "plug" "jar" (some "mule-plugin")
    let archive := artifact "lib" "zip" none
    let library := artifact "lib" "jar" none
    let application : Application :=
      { root := .ofDependencies ⟨"g", "app", "1.0", "jar", none, none⟩ (.ofList [archive, plug])
        nested := [(plug.coordinate, .ofDependencies plug.coordinate (.ofList [library]))]
        ascending := List.pairwise_singleton _ _ }
    let files := ((FileSystem.empty.place ⟨"lib.jar"⟩ ⟨#[1]⟩).place ⟨"lib.zip"⟩ ⟨#[2]⟩).place
      ⟨"plug.jar"⟩ ⟨#[3]⟩
    let installer : Installer := ⟨⟨"out"⟩, .default, false, false⟩
    ∃ after reported, installer.InstallsTo application 8 files (after, .ok reported) ∧
      application.Promises library ∧
        installer.repository.join library.coordinate.localPath = ⟨"out/g/lib/1.0/lib-1.0.jar"⟩ ∧
          after.read? ⟨"out/g/lib/1.0/lib-1.0.jar"⟩ = none := by
  intro artifact plug archive library application files installer
  have installed : installer.InstallsTo application 8 files _ :=
    installsTo_ordered (by decide +kernel) (by decide +kernel) (by decide +kernel)
  have promised : application.Promises library := by decide +kernel
  exact ⟨_, _, installed, promised, by decide +kernel, by decide +kernel⟩

end Installer

end AppBundle
