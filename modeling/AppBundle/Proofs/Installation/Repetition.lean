import AppBundle.Proofs.FileSystem.Repetition
import AppBundle.Proofs.Installation.Plan

namespace AppBundle.Installer

/-! Installing again. An installation reads its sources, which it does not write, and the payloads that
it has just copied. So a second one writes every file as it is.
-/

variable {installer : Installer} {application : Application} {artifact : Artifact} {source : Path}
  {files after : FileSystem} {reported : List Installed} {base : Location} {known : Location → Prop}

theorem sourced_companion (coordinate : Coordinate) :
    Step.Sourced base known (installer.companionSteps application coordinate) := by
  obtain ⟨around, steps⟩ := installer.companionSteps_eq application coordinate
  rw [steps]
  refine .append ?_ (.cons_of_none rfl trivial)
  rw [List.map_eq_flatMap]
  exact .flatMap fun path _ => .cons_of_none rfl trivial

theorem sourced_artifact (located : artifact.locationPath = .ok source)
    (apart : known (source.placeFrom base)) :
    Step.Sourced base known (installer.artifactSteps application artifact) := by
  simp only [artifactSteps, payloadStep, located]
  refine .cons_of_none rfl ⟨fun place reads => ?_, .append ?_ (sourced_companion _)⟩
  · cases reads
    exact .inl apart
  · unfold checksumSteps
    split
    · exact ⟨fun place reads => .inr reads, trivial⟩
    · trivial

theorem sourced_steps
    (apart : ∀ artifact ∈ packaged application, ∃ source, artifact.locationPath = .ok source ∧
      known (source.placeFrom base)) :
    Step.Sourced base known (installer.steps application) := by
  have ordered : ∀ artifact ∈ byDirectory (packaged application), artifact ∈ packaged application :=
    fun artifact => List.mem_mergeSort.mp
  refine .cons_of_none rfl ?_
  split
  · exact .cons_of_none rfl trivial
  · rw [tasks_flatten]
    refine .flatMap fun artifact member => ?_
    obtain ⟨source, located, reads⟩ := apart artifact (ordered artifact member)
    exact sourced_artifact located (.inl reads)

/-- Where no source is a file that is written: an installation that succeeded does so again, with the
same report, and leaves everything as it is. -/
theorem install_again
    (apart : ∀ artifact ∈ packaged application, ∀ source, artifact.locationPath = .ok source →
      files.destination source ∉ installer.places application files.workingDirectory)
    (installed : installer.install application files = (after, .ok reported)) :
    installer.install application after = (after, .ok reported) := by
  obtain ⟨left, answered⟩ := Prod.mk.inj installed
  obtain ⟨ran, rfl⟩ := answer_ok answered
  rw [left] at ran
  have sourced : Step.Sourced files.workingDirectory
      (· ∉ Step.places files.workingDirectory (installer.steps application))
      (installer.steps application) := by
    refine sourced_steps fun artifact member => ?_
    obtain ⟨source, located, _⟩ := readable_of_complete ran member
    exact ⟨source, located, apart artifact member source located⟩
  rw [install, Step.runAll_twice ran sourced]
  rfl

/-- Two variants that share a companion, which each of them writes with other text. -/
theorem install_again_shared :
    let plain : Artifact :=
      ⟨⟨"g", "lib", "1.0", "jar", none, none⟩, some "a.jar", false, .empty, .empty⟩
    let variant : Artifact :=
      ⟨⟨"g", "lib", "1.0", "zip", some "docs", none⟩, some "a.zip", false, .empty, .empty⟩
    let application := Application.ofRoot <|
      .ofDependencies ⟨"g", "app", "1.0", "jar", none, none⟩ (.ofList [plain, variant])
    let files := (FileSystem.empty.place ⟨"a.jar"⟩ ⟨#[1]⟩).place ⟨"a.zip"⟩ ⟨#[2]⟩
    let installer : Installer := ⟨⟨"out"⟩, .default, true, true⟩
    ∃ after reported, installer.install application files = (after, .ok reported) ∧
      installer.install application after = (after, .ok reported) := by
  intro plain variant application files installer
  have listed : packaged application = [plain, variant] := by decide +kernel
  have occupied : packaged application ≠ [] := by simp [listed]
  have installed : installer.install application files =
      (_, .ok (installer.report application)) :=
    install_ordered occupied (by decide +kernel) (by decide +kernel)
  have elsewhere : ∀ path ∈ [(⟨"a.jar"⟩ : Path), ⟨"a.zip"⟩],
      files.destination path ∉ installer.places application files.workingDirectory := by
    simp only [mem_places_of_packaged occupied]
    decide +kernel
  refine ⟨_, _, installed, install_again ?_ installed⟩
  rw [listed]
  simp only [List.forall_mem_cons]
  refine ⟨fun source located => ?_, fun source located => ?_, List.forall_mem_nil _⟩
  · cases located
    exact elsewhere _ (List.mem_cons_self ..)
  · cases located
    exact elsewhere _ (List.mem_cons_of_mem _ (List.mem_cons_self ..))

end AppBundle.Installer
