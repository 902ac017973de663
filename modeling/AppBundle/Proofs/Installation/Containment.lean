import AppBundle.Proofs.FileSystem.Below
import AppBundle.Proofs.Installation.Layout

namespace AppBundle

/-! Where an installation writes. Its files are named relative to the repository, by paths that are made
of the parts of coordinates. They lie inside of every repository where no part leads above it, as the
parts of plain coordinates never do.
-/

/-- Joined to whatever repository, a path that stays below leads into it, and no other path does. -/
theorem Path.staysBelow_iff_join {path : Path} :
    path.StaysBelow ↔ ∀ (repository : Path) (base : Location),
      (repository.placeFrom base).Below ((repository.join path).placeFrom base) := by
  simp only [placeFrom_join]
  refine ⟨fun stays repository base => stays.below _, fun below => ?_⟩
  rw [staysBelow_iff]
  intro directory
  -- the empty path is read as the directory itself
  exact below ⟨""⟩ directory

namespace Installer

variable {installer : Installer} {application : Application} {artifact : Artifact}
  {coordinate : Coordinate} {concurrency : Nat} {files made after : FileSystem}
  {order : List Step} {step : Step} {path output : Path} {location : Location}
  {result : Except Failure (List Installed)}

/-- The files that are written for a coordinate, relative to the repository. -/
def outputsOf (installer : Installer) (application : Application) (coordinate : Coordinate) :
    List Path :=
  [coordinate.localPath] ++
    (if installer.checksums then [checksumPath coordinate.localPath] else []) ++
      [coordinate.directory.join ⟨companionName application coordinate⟩]

/-- The files that an installation writes, relative to the repository. -/
def outputs (installer : Installer) (application : Application) : List Path :=
  if (packaged application).isEmpty then [⟨markerName⟩]
  else (packaged application).flatMap fun artifact =>
    installer.outputsOf application artifact.coordinate

theorem output_of_mem (member : step ∈ (installer.work application).flatten)
    (writes : step.target? = some path) :
    ∃ output ∈ installer.outputs application, installer.repository.join output = path := by
  rw [outputs]
  rcases mem_work.mp member with ⟨nothing, rfl⟩ | ⟨artifact, listed, inside⟩
  · cases writes
    rw [nothing]
    exact ⟨_, List.mem_singleton_self _, rfl⟩
  · have occupied : ¬(packaged application).isEmpty = true := fun empty =>
      absurd listed (List.isEmpty_iff.mp empty ▸ List.not_mem_nil)
    have output {file : Path} (own : file ∈ installer.outputsOf application artifact.coordinate) :
        file ∈ (packaged application).flatMap fun artifact =>
          installer.outputsOf application artifact.coordinate :=
      List.mem_flatMap.mpr ⟨artifact, listed, own⟩
    rw [if_neg occupied]
    rcases writes_of_mem inside writes with ⟨source, _, rfl⟩ | ⟨checksums, rfl⟩ | rfl
    · cases writes
      exact ⟨_, output (by simp [outputsOf]), payloadPath_eq.symm⟩
    · cases writes
      rw [payloadPath_eq, checksumPath_join Coordinate.nonempty_localPath]
      exact ⟨_, output (by simp [outputsOf, checksums]), rfl⟩
    · cases writes
      exact ⟨_, output (by simp [outputsOf]), companionPath_eq.symm⟩

/-- Whatever came of an installation, no other files have changed. -/
theorem InstallsTo.changed
    (installed : installer.InstallsTo application concurrency files (after, result))
    (changed : after.contentAt? location ≠ files.contentAt? location) :
    ∃ output ∈ installer.outputs application,
      files.destination (installer.repository.join output) = location := by
  obtain ⟨order, completed, interleaved, _, same⟩ := installed
  obtain ⟨rfl, _⟩ := Prod.mk.inj same
  by_contra elsewhere
  refine changed (Step.contentAt?_files_runAll fun named => elsewhere ?_)
  obtain ⟨step, member, place⟩ := List.mem_filterMap.mp named
  obtain ⟨path, writes, leads⟩ := Option.map_eq_some_iff.mp place
  rcases List.mem_cons.mp member with rfl | inside
  · cases writes
  · obtain ⟨output, listed, rfl⟩ := output_of_mem (interleaved.perm.subset inside) writes
    exact ⟨output, listed, leads⟩

theorem Completes.step_of_output
    (completes : installer.Completes application concurrency files made after order)
    (listed : output ∈ installer.outputs application) :
    ∃ step ∈ order, step.target? = some (installer.repository.join output) := by
  rw [outputs] at listed
  split at listed
  · next empty =>
      obtain rfl := List.mem_singleton.mp listed
      have marker : installer.markerStep ∈ (installer.work application).flatten :=
        mem_work.mpr (.inl ⟨List.isEmpty_iff.mp empty, rfl⟩)
      exact ⟨_, completes.interleaved.perm.symm.subset marker, rfl⟩
  · obtain ⟨artifact, member, own⟩ := List.mem_flatMap.mp listed
    simp only [outputsOf, List.mem_append, List.mem_singleton] at own
    rcases own with (rfl | digest) | rfl
    · obtain ⟨source, _, copied⟩ := completes.copied member
      rw [← payloadPath_eq]
      exact ⟨_, copied, rfl⟩
    · split at digest
      · next checksums =>
          obtain rfl := List.mem_singleton.mp digest
          rw [← checksumPath_join Coordinate.nonempty_localPath, ← payloadPath_eq]
          exact ⟨_, completes.checked member checksums, rfl⟩
      · cases digest
    · rw [← companionPath_eq]
      exact ⟨_, completes.accompanied member, rfl⟩

theorem Completes.output_written
    (completes : installer.Completes application concurrency files made after order)
    (listed : output ∈ installer.outputs application) :
    after.locate (installer.repository.join output) =
        .ok (files.destination (installer.repository.join output)) ∧
      (after.read? (installer.repository.join output)).isSome = true := by
  obtain ⟨step, member, writes⟩ := completes.step_of_output listed
  exact completes.written member writes

theorem staysBelow_of_plain
    (plain : ∀ artifact ∈ packaged application, artifact.coordinate.Plain)
    (listed : output ∈ installer.outputs application) : output.StaysBelow := by
  rw [Path.staysBelow_iff]
  intro directory
  rw [outputs] at listed
  split at listed
  · rw [List.mem_singleton.mp listed, isName_markerName.placeFrom]
    exact ⟨_, by simp, rfl⟩
  · obtain ⟨artifact, member, own⟩ := List.mem_flatMap.mp listed
    have plain := plain artifact member
    have file {text : String} (name : Path.IsName text) : directory.Below
        ((artifact.coordinate.directory.join ⟨text⟩).placeFrom directory) :=
      ⟨_, by simp, plain.placeFrom_file name⟩
    simp only [outputsOf, List.mem_append, List.mem_singleton] at own
    rcases own with (rfl | digest) | rfl
    · exact file plain.isName_fileName
    · split at digest
      · rw [List.mem_singleton.mp digest, Coordinate.localPath,
          checksumPath_name plain.isName_fileName]
        exact file plain.isName_fileName.digest
      · cases digest
    · exact file (isName_companionName plain.clean)

/-- An installation changes no other files than its outputs, however far it comes, and a successful
one leaves each of them where its path leads. An output lies inside of every repository exactly where
its path stays below, as those of plain coordinates do. -/
theorem installed_inside
    (installed : installer.InstallsTo application concurrency files (after, result)) :
    (∀ location, after.contentAt? location ≠ files.contentAt? location →
      ∃ output ∈ installer.outputs application,
        files.destination (installer.repository.join output) = location ∧
          (output.StaysBelow → (files.destination installer.repository).Below location)) ∧
    (∀ reported, result = .ok reported → ∀ output ∈ installer.outputs application,
      after.locate (installer.repository.join output) =
          .ok (files.destination (installer.repository.join output)) ∧
        (after.read? (installer.repository.join output)).isSome = true) ∧
    (∀ output ∈ installer.outputs application,
      output.StaysBelow ↔ ∀ (repository : Path) (base : Location),
        (repository.placeFrom base).Below ((repository.join output).placeFrom base)) ∧
    ((∀ artifact ∈ packaged application, artifact.coordinate.Plain) →
      ∀ output ∈ installer.outputs application, output.StaysBelow) := by
  refine ⟨fun location changed => ?_, fun reported succeeded output listed => ?_,
    fun output _ => Path.staysBelow_iff_join, fun plain output => staysBelow_of_plain plain⟩
  · obtain ⟨output, listed, leads⟩ := installed.changed changed
    refine ⟨output, listed, leads, fun stays => ?_⟩
    rw [← leads]
    exact Path.staysBelow_iff_join.mp stays _ _
  · subst succeeded
    obtain ⟨made, order, completes, _⟩ := installed.completes
    exact completes.output_written listed

/-- A name of two dots leads up only as far as its group led down. -/
theorem installed_inside_group :
    let artifact : Artifact :=
      ⟨⟨"g", "..", "1.0", "jar", none, none⟩, some "a.jar", false, .empty, .empty⟩
    let application := Application.ofRoot <|
      .ofDependencies ⟨"g", "app", "1.0", "jar", none, none⟩ (.ofList [artifact])
    let files := FileSystem.empty.place ⟨"a.jar"⟩ ⟨#[1]⟩
    let installer : Installer := ⟨⟨"out"⟩, .default, false, false⟩
    let payload : Location := ["work", "out", "1.0", "..-1.0.jar"]
    ∃ after reported, installer.InstallsTo application 8 files (after, .ok reported) ∧
      after.locate (installer.payloadPath artifact.coordinate) = .ok payload ∧
        (files.destination installer.repository).Below payload := by
  intro artifact application files installer payload
  have installed : installer.InstallsTo application 8 files _ :=
    installsTo_ordered (by decide +kernel) (by decide +kernel) (by decide +kernel)
  obtain ⟨_, written, inside, _⟩ := installed_inside installed
  have listed : artifact.coordinate.localPath ∈ installer.outputs application := by decide +kernel
  have place : files.destination (installer.repository.join artifact.coordinate.localPath) =
      payload := by decide +kernel
  have located := (written _ rfl _ listed).1
  have below := (inside _ listed).mp (by decide +kernel) installer.repository files.workingDirectory
  rw [place] at located
  refine ⟨_, _, installed, payloadPath_eq ▸ located, ?_⟩
  rw [← place]
  exact below

/-- Version and name lead out of the repository. -/
theorem installed_outside :
    let artifact : Artifact :=
      ⟨⟨"g", "..", "..", "jar", none, none⟩, some "a.jar", false, .empty, .empty⟩
    let application := Application.ofRoot <|
      .ofDependencies ⟨"g", "app", "1.0", "jar", none, none⟩ (.ofList [artifact])
    let files := FileSystem.empty.place ⟨"a.jar"⟩ ⟨#[1]⟩
    let installer : Installer := ⟨⟨"out/repository"⟩, .default, true, false⟩
    let payload : Location := ["work", "out", "..-...jar"]
    Coordinate.parse? "g:..:.." = some artifact.coordinate ∧
      ∃ after reported, installer.InstallsTo application 8 files (after, .ok reported) ∧
        files.contentAt? payload = none ∧ after.contentAt? payload = some ⟨#[1]⟩ ∧
          ¬(files.destination installer.repository).Below payload := by
  intro artifact application files installer payload
  have installed : installer.InstallsTo application 8 files _ :=
    installsTo_ordered (by decide +kernel) (by decide +kernel) (by decide +kernel)
  exact ⟨by decide +kernel, _, _, installed, by decide +kernel, by decide +kernel,
    by decide +kernel⟩

end Installer

end AppBundle
