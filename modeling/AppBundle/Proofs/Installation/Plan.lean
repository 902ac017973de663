import Mathlib.Data.List.SplitBy
import AppBundle.Installation
import AppBundle.Proofs.DependencyOrder
import AppBundle.Proofs.FileSystem.Run

namespace AppBundle.Installer

/-! The plan of an installation and its successful runs. However the tasks run side by side, all their
steps succeed, and each artifact's steps in their order.
-/

variable {installer : Installer} {application : Application} {artifact : Artifact}
  {artifacts : List Artifact} {coordinate : Coordinate} {concurrency : Nat} {entry : Installed}
  {files after : FileSystem} {reported : List Installed} {source path : Path} {step : Step}
  {location : Location} {content : ByteArray} {model : Model}

/-- The places of all files that an installation writes, from a working directory. -/
def places (installer : Installer) (application : Application) (base : Location) : List Location :=
  Step.places base (installer.steps application)

/-- The places of the files that may be written behind a step. -/
def placesBehind (installer : Installer) (application : Application) (base : Location)
    (step : Step) : List Location :=
  Step.places base (step.followers (installer.work application))

/-- Nothing is written behind a step over the file that it writes. -/
def Lasts (installer : Installer) (application : Application) (base : Location) (step : Step) :
    Prop :=
  ∀ location ∈ step.place? base, location ∉ installer.placesBehind application base step

instance {base : Location} : Decidable (installer.Lasts application base step) :=
  inferInstanceAs (Decidable (∀ location ∈ step.place? base, _))

theorem batches_perm : (batches artifacts).flatten.Perm artifacts := by
  rw [batches, List.flatten_splitBy]
  exact List.mergeSort_perm artifacts _

theorem mem_batches : (∃ batch ∈ batches artifacts, artifact ∈ batch) ↔ artifact ∈ artifacts := by
  rw [← List.mem_flatten]
  exact batches_perm.mem_iff

theorem exists_task (member : artifact ∈ packaged application) :
    ∃ task ∈ installer.tasks application,
      (installer.artifactSteps application artifact).Sublist task := by
  obtain ⟨batch, listed, inside⟩ := mem_batches.mpr member
  refine ⟨_, List.mem_map_of_mem listed, ?_⟩
  rw [List.flatMap_def]
  exact List.sublist_flatten_of_mem (List.mem_map_of_mem inside)

theorem work_of_packaged (member : artifact ∈ packaged application) :
    installer.work application = installer.tasks application := by
  rw [work, if_neg]
  intro empty
  rw [List.isEmpty_iff.mp empty] at member
  cases member

theorem steps_eq_work :
    installer.steps application =
      .makeDirectory installer.repository :: (installer.work application).flatten := by
  rw [steps, work]
  split
  · rfl
  · rfl

theorem tasks_flatten :
    (installer.tasks application).flatten =
      (byDirectory (packaged application)).flatMap (installer.artifactSteps application) := by
  have whole : byDirectory (packaged application) = (batches (packaged application)).flatMap id := by
    rw [← List.flatten_eq_flatMap, batches, List.flatten_splitBy]
  rw [whole, List.flatMap_assoc, tasks, List.flatMap_def]
  rfl

theorem work_flatten (occupied : packaged application ≠ []) :
    (installer.work application).flatten =
      (byDirectory (packaged application)).flatMap (installer.artifactSteps application) := by
  rw [work, if_neg (by simpa using occupied), tasks_flatten]

theorem mem_byDirectory : artifact ∈ byDirectory artifacts ↔ artifact ∈ artifacts :=
  List.mem_mergeSort

/-- The step that is run where nothing is packaged. -/
def markerStep (installer : Installer) : Step :=
  .write (installer.repository.join ⟨markerName⟩) ByteArray.empty

theorem mem_work :
    step ∈ (installer.work application).flatten ↔
      (packaged application = [] ∧ step = installer.markerStep) ∨
        ∃ artifact ∈ packaged application, step ∈ installer.artifactSteps application artifact := by
  rw [work]
  split
  · next empty =>
      have nothing := List.isEmpty_iff.mp empty
      simp [nothing, markerStep]
  · next occupied =>
      have artifacts : packaged application ≠ [] := fun nothing =>
        occupied (List.isEmpty_iff.mpr nothing)
      have batched (artifact : Artifact) : artifact ∈ packaged application ↔
          ∃ batch ∈ batches (packaged application), artifact ∈ batch :=
        mem_batches.symm
      simp only [artifacts, false_and, false_or, tasks, List.mem_flatten, List.mem_map, batched]
      constructor
      · intro listed
        obtain ⟨_, ⟨batch, inside, rfl⟩, member⟩ := listed
        obtain ⟨artifact, batched, member⟩ := List.mem_flatMap.mp member
        exact ⟨artifact, ⟨batch, inside, batched⟩, member⟩
      · intro listed
        obtain ⟨artifact, ⟨batch, inside, batched⟩, member⟩ := listed
        exact ⟨_, ⟨batch, inside, rfl⟩, List.mem_flatMap.mpr ⟨artifact, batched, member⟩⟩

theorem mem_places {base : Location} :
    location ∈ installer.places application base ↔
      ∃ step ∈ (installer.work application).flatten, step.place? base = some location := by
  rw [places, Step.places, List.mem_filterMap, steps_eq_work]
  simp [Step.place?, Step.target?]

theorem mem_places_of_packaged {base : Location} (occupied : packaged application ≠ []) :
    location ∈ installer.places application base ↔
      ∃ artifact ∈ packaged application, ∃ step ∈ installer.artifactSteps application artifact,
        step.place? base = some location := by
  simp only [mem_places, mem_work, occupied, false_and, false_or]
  constructor
  · intro planned
    obtain ⟨step, ⟨artifact, member, inside⟩, place⟩ := planned
    exact ⟨artifact, member, step, inside, place⟩
  · intro planned
    obtain ⟨artifact, member, step, inside, place⟩ := planned
    exact ⟨step, ⟨artifact, member, inside⟩, place⟩

theorem payloadPath_eq : installer.payloadPath coordinate =
    installer.repository.join coordinate.localPath :=
  Path.join_assoc ..

theorem companionPath_eq : installer.companionPath application coordinate =
    installer.repository.join (coordinate.directory.join ⟨companionName application coordinate⟩) :=
  Path.join_assoc ..

/-- What the companion of an artifact says. -/
def companionContent (installer : Installer) (application : Application)
    (coordinate : Coordinate) : ByteArray :=
  match companionModel? application coordinate with
  | some model =>
      (model.descriptor installer.placeholder.parameterize installer.pretty).toUTF8
  | none => (Pom.minimal coordinate).toXml.toUTF8

def companionStep (installer : Installer) (application : Application) (coordinate : Coordinate) :
    Step :=
  .write (installer.companionPath application coordinate)
    (installer.companionContent application coordinate)

/-- The companion is written last, behind the directory around it. -/
theorem companionSteps_around (installer : Installer) (application : Application)
    (coordinate : Coordinate) : ∃ around : List Path,
    installer.companionSteps application coordinate =
        around.map .makeDirectory ++ [installer.companionStep application coordinate] ∧
      ∀ path ∈ around, (installer.companionPath application coordinate).parent? = some path := by
  unfold companionStep companionContent companionSteps
  cases companionModel? application coordinate with
  | some model => exact ⟨_, rfl, fun path member => Option.mem_toList.mp member⟩
  | none => exact ⟨[], rfl, nofun⟩

theorem companionSteps_eq (installer : Installer) (application : Application)
    (coordinate : Coordinate) : ∃ around : List Path,
    installer.companionSteps application coordinate =
      around.map .makeDirectory ++ [installer.companionStep application coordinate] := by
  obtain ⟨around, steps, _⟩ := installer.companionSteps_around application coordinate
  exact ⟨around, steps⟩

theorem artifactSteps_eq (installer : Installer) (application : Application)
    (artifact : Artifact) : ∃ earlier : List Step,
    installer.artifactSteps application artifact =
      earlier ++ [installer.companionStep application artifact.coordinate] := by
  obtain ⟨around, steps⟩ := installer.companionSteps_eq application artifact.coordinate
  refine ⟨.makeDirectory (installer.directoryOf artifact.coordinate) ::
    installer.payloadStep artifact :: (installer.checksumSteps artifact.coordinate ++
      around.map .makeDirectory), ?_⟩
  rw [artifactSteps, steps]
  simp

theorem copy_mem_artifactSteps (located : artifact.locationPath = .ok source) :
    .copy artifact.coordinate source (installer.payloadPath artifact.coordinate) ∈
      installer.artifactSteps application artifact := by
  simp [artifactSteps, payloadStep, located]

theorem checksum_mem_artifactSteps (checksums : installer.checksums = true) :
    .checksum (installer.payloadPath artifact.coordinate) ∈
      installer.artifactSteps application artifact := by
  simp [artifactSteps, checksumSteps, checksums]

theorem companion_mem_artifactSteps :
    installer.companionStep application artifact.coordinate ∈
      installer.artifactSteps application artifact := by
  obtain ⟨earlier, steps⟩ := installer.artifactSteps_eq application artifact
  rw [steps]
  exact List.mem_append_right _ (List.mem_singleton_self _)

/-- The files that are written for an artifact: its payload, the digest of that, a companion. -/
theorem writes_of_mem (member : step ∈ installer.artifactSteps application artifact)
    (writes : step.target? = some path) :
    (∃ source, artifact.locationPath = .ok source ∧
        step = .copy artifact.coordinate source (installer.payloadPath artifact.coordinate)) ∨
      (installer.checksums = true ∧
        step = .checksum (installer.payloadPath artifact.coordinate)) ∨
      step = installer.companionStep application artifact.coordinate := by
  simp only [artifactSteps, List.mem_cons, List.mem_append] at member
  rcases member with rfl | rfl | digest | companion
  · cases writes
  · unfold payloadStep at writes ⊢
    cases located : artifact.locationPath with
    | error failure =>
        rw [located] at writes
        cases writes
    | ok source => exact .inl ⟨source, rfl, rfl⟩
  · unfold checksumSteps at digest
    split at digest
    · next enabled => exact .inr (.inl ⟨enabled, List.mem_singleton.mp digest⟩)
    · cases digest
  · obtain ⟨around, steps⟩ := installer.companionSteps_eq application artifact.coordinate
    rw [steps] at companion
    rcases List.mem_append.mp companion with directory | companion
    · obtain ⟨_, _, rfl⟩ := List.mem_map.mp directory
      cases writes
    · exact .inr (.inr (List.mem_singleton.mp companion))

/-- The directories that are made for an artifact: its own, and again the one around a descriptor. -/
theorem directory_of_mem (member : .makeDirectory path ∈ installer.artifactSteps application artifact) :
    path = installer.directoryOf artifact.coordinate ∨
      (installer.companionPath application artifact.coordinate).parent? = some path := by
  obtain ⟨around, steps, parent⟩ :=
    installer.companionSteps_around application artifact.coordinate
  simp only [artifactSteps, List.mem_cons, List.mem_append, steps] at member
  rcases member with same | payload | digest | directory | companion
  · exact .inl (Step.makeDirectory.inj same)
  · unfold payloadStep at payload
    split at payload <;> cases payload
  · unfold checksumSteps at digest
    split at digest <;> simp at digest
  · obtain ⟨_, listed, same⟩ := List.mem_map.mp directory
    cases same
    exact .inr (parent _ listed)
  · simp [companionStep] at companion

theorem mem_steps_of_packaged (member : artifact ∈ packaged application)
    (planned : step ∈ installer.artifactSteps application artifact) :
    step ∈ installer.steps application := by
  rw [steps_eq_work]
  exact List.mem_cons_of_mem _ (mem_work.mpr (.inr ⟨artifact, member, planned⟩))

theorem copy_mem_steps (member : artifact ∈ packaged application)
    (located : artifact.locationPath = .ok source) :
    .copy artifact.coordinate source (installer.payloadPath artifact.coordinate) ∈
      installer.steps application :=
  mem_steps_of_packaged member (copy_mem_artifactSteps located)

/-- Every source was there, since an artifact without one is refused. -/
theorem readable_of_complete
    (ran : Step.runAll files (installer.steps application) = .complete after)
    (member : artifact ∈ packaged application) :
    ∃ source, artifact.locationPath = .ok source ∧ (after.read? source).isSome = true := by
  cases located : artifact.locationPath with
  | error failure =>
      have planned : .refuse failure ∈ installer.artifactSteps application artifact := by
        simp [artifactSteps, payloadStep, located]
      exact absurd (mem_steps_of_packaged member planned) (Step.refuse_not_mem ran)
  | ok source =>
      obtain ⟨first, rest, steps⟩ := List.append_of_mem (copy_mem_steps member located)
      rw [steps] at ran
      obtain ⟨earlier, later, _, here, ended⟩ := Step.runAll_at ran
      obtain ⟨content, read, _⟩ := Step.run_copy here
      have grown := (Step.grows_of_run here).trans (Step.runAll_grows ended)
      exact ⟨source, rfl, grown.read? (Option.isSome_iff_exists.mpr ⟨content, read⟩)⟩

theorem refuse_not_mem_artifactSteps {failure : Failure}
    (located : artifact.locationPath = .ok source) :
    .refuse failure ∉ installer.artifactSteps application artifact := by
  obtain ⟨around, steps⟩ := installer.companionSteps_eq application artifact.coordinate
  simp only [artifactSteps, payloadStep, located, steps, companionStep, checksumSteps]
  split <;> simp

theorem packaged_nodup : (packaged application).Nodup :=
  (DependencySet.nodup_of_distinct application.allArtifacts.distinct).filter _

theorem eq_of_identity {other : Artifact} (member : artifact ∈ packaged application)
    (listed : other ∈ packaged application) (same : other.identity = artifact.identity) :
    other = artifact := by
  have here := DependencySet.mem_iff_find?.mp (List.mem_filter.mp member).1
  have there := DependencySet.mem_iff_find?.mp (List.mem_filter.mp listed).1
  rw [DependencySet.find?_congr same, here] at there
  exact (Option.some.inj there).symm

theorem fileSteps_nodup :
    (installer.payloadStep artifact :: (installer.checksumSteps artifact.coordinate ++
      [installer.companionStep application artifact.coordinate])).Nodup := by
  unfold payloadStep checksumSteps companionStep
  cases artifact.locationPath with
  | ok source => cases installer.checksums <;> simp
  | error failure => cases installer.checksums <;> simp

theorem count_artifactSteps (writes : step.target? = some path) :
    (installer.artifactSteps application artifact).count step ≤ 1 := by
  obtain ⟨around, steps⟩ := installer.companionSteps_eq application artifact.coordinate
  have opened : .makeDirectory (installer.directoryOf artifact.coordinate) ≠ step := by
    rintro rfl
    cases writes
  have directories : (around.map Step.makeDirectory).count step = 0 := by
    refine List.count_eq_zero.mpr fun member => ?_
    obtain ⟨_, _, rfl⟩ := List.mem_map.mp member
    cases writes
  have whole : (installer.artifactSteps application artifact).count step =
      (installer.payloadStep artifact :: (installer.checksumSteps artifact.coordinate ++
        [installer.companionStep application artifact.coordinate])).count step := by
    rw [artifactSteps, steps, List.count_cons_of_ne opened]
    simp only [List.count_cons, List.count_append, directories, Nat.zero_add]
  rw [whole]
  exact List.nodup_iff_count_le_one.mp fileSteps_nodup step

theorem count_flatMap {batch : List Artifact} {plan : Artifact → List Step} (nodup : batch.Nodup)
    (own : ∀ other ∈ batch, step ∈ plan other → other = artifact)
    (once : (plan artifact).count step ≤ 1) : (batch.flatMap plan).count step ≤ 1 := by
  induction batch with
  | nil => simp
  | cons first rest ih =>
      obtain ⟨fresh, nodup⟩ := List.nodup_cons.mp nodup
      rw [List.flatMap_cons, List.count_append]
      by_cases inside : step ∈ plan first
      · -- no artifact of the rest plans the step too, since that would be the same one again
        obtain rfl := own first (List.mem_cons_self ..) inside
        have absent : step ∉ rest.flatMap plan := by
          intro later
          obtain ⟨other, member, there⟩ := List.mem_flatMap.mp later
          exact fresh (own other (List.mem_cons_of_mem _ member) there ▸ member)
        rw [List.count_eq_zero.mpr absent]
        exact once
      · rw [List.count_eq_zero.mpr inside, Nat.zero_add]
        exact ih nodup fun other member => own other (List.mem_cons_of_mem _ member)

theorem count_work (member : artifact ∈ packaged application) (writes : step.target? = some path)
    (own : ∀ other ∈ packaged application,
      step ∈ installer.artifactSteps application other → other = artifact) :
    (installer.work application).flatten.count step ≤ 1 := by
  have permuted : (byDirectory (packaged application)).Perm (packaged application) :=
    List.mergeSort_perm _ _
  have once : (installer.artifactSteps application artifact).count step ≤ 1 :=
    count_artifactSteps writes
  rw [work_of_packaged member, tasks_flatten]
  exact count_flatMap (permuted.nodup_iff.mpr packaged_nodup)
    (fun other listed => own other (permuted.mem_iff.mp listed)) once

/-- A file that only one step names lasts. -/
theorem lasts_of_alone {base : Location} (member : artifact ∈ packaged application)
    (inside : step ∈ installer.artifactSteps application artifact)
    (place : step.place? base = some location)
    (alone : ∀ other ∈ packaged application, ∀ step' ∈ installer.artifactSteps application other,
      step'.place? base = some location → other = artifact ∧ step' = step) :
    installer.Lasts application base step := by
  intro location' there behind
  obtain rfl := Option.some.inj (place.symm.trans there)
  obtain ⟨path, writes, _⟩ := Option.map_eq_some_iff.mp place
  obtain ⟨step', follows, same⟩ := List.mem_filterMap.mp behind
  rcases mem_work.mp (Step.followers_subset_flatten follows) with
    ⟨nothing, _⟩ | ⟨other, listed, inside'⟩
  · rw [nothing] at member
    cases member
  · -- only the step itself could follow, and for that it would have to be planned twice
    obtain ⟨rfl, rfl⟩ := alone other listed step' inside' same
    have twice := Step.count_of_mem_followers follows
    have once := count_work member writes fun other listed here =>
      (alone other listed _ here place).1
    omega

/-- Every order of the tasks' steps leads to an outcome. -/
theorem installsTo_of_interleaving {order : List Step} {outcome : Outcome}
    (interleaved : Interleaving (max concurrency 1) (installer.work application) order)
    (ran : Step.runAll files (.makeDirectory installer.repository :: order) = outcome) :
    installer.InstallsTo application concurrency files
      (outcome.files, outcome.answer (installer.report application)) :=
  ⟨order, batches (packaged application), interleaved, .refl _, ran ▸ rfl⟩

/-- One task after the other is one way to install. -/
theorem install_installsTo :
    installer.InstallsTo application concurrency files (installer.install application files) := by
  refine ⟨(installer.work application).flatten, batches (packaged application),
    .inOrder (by omega), .refl _, ?_⟩
  rw [install, steps_eq_work]
  rfl

/-- With one task at a time it is the only way. -/
theorem installsTo_alone {outcome : FileSystem × Except Failure (List Installed)}
    (installed : installer.InstallsTo application concurrency files outcome)
    (limited : concurrency ≤ 1) :
    ∃ completed, completed.Perm (batches (packaged application)) ∧
      outcome = ((installer.install application files).1,
        (installer.install application files).2.map fun _ =>
          installer.reportOf application completed) := by
  obtain ⟨order, completed, interleaved, permuted, rfl⟩ := installed
  have sequential := interleaved.alone (by omega)
  refine ⟨completed, permuted, ?_⟩
  rw [install, steps_eq_work, ← sequential, Outcome.map_answer]

/-- Artifacts that stand in the order of their directories are installed one after the other. -/
theorem steps_ordered (occupied : packaged application ≠ [])
    (ordered : (packaged application).Pairwise fun left right => (directoryOrder left right).isLE) :
    installer.steps application = .makeDirectory installer.repository ::
      (packaged application).flatMap (installer.artifactSteps application) := by
  have sorted : byDirectory (packaged application) = packaged application :=
    List.mergeSort_of_pairwise ordered
  rw [steps_eq_work, work_flatten occupied, sorted]

theorem install_ordered (occupied : packaged application ≠ [])
    (ordered : (packaged application).Pairwise fun left right => (directoryOrder left right).isLE) :
    let run := Step.runAll files (.makeDirectory installer.repository ::
      (packaged application).flatMap (installer.artifactSteps application))
    run.failure? = none →
      installer.install application files = (run.files, .ok (installer.report application)) := by
  intro run succeeded
  rw [install, steps_ordered occupied ordered, Outcome.answer, succeeded]

theorem installsTo_ordered (occupied : packaged application ≠ [])
    (ordered : (packaged application).Pairwise fun left right => (directoryOrder left right).isLE) :
    let run := Step.runAll files (.makeDirectory installer.repository ::
      (packaged application).flatMap (installer.artifactSteps application))
    run.failure? = none → installer.InstallsTo application concurrency files
      (run.files, .ok (installer.report application)) := by
  intro run succeeded
  have installed : installer.InstallsTo application concurrency files
      (installer.install application files) :=
    install_installsTo
  rwa [install_ordered occupied ordered succeeded] at installed

/-- One after the other, nothing follows the companion of the last artifact. -/
theorem read_last_companion {front : List Artifact}
    (whole : packaged application = front ++ [artifact]) :
    let run := Step.runAll files (.makeDirectory installer.repository ::
      (packaged application).flatMap (installer.artifactSteps application))
    run.failure? = none →
      run.files.read? (installer.companionPath application artifact.coordinate) =
        some (installer.companionContent application artifact.coordinate) := by
  intro run succeeded
  obtain ⟨earlier, steps⟩ := installer.artifactSteps_eq application artifact
  have planned : .makeDirectory installer.repository ::
      (packaged application).flatMap (installer.artifactSteps application) =
        (.makeDirectory installer.repository ::
          (front.flatMap (installer.artifactSteps application) ++ earlier)) ++
            [installer.companionStep application artifact.coordinate] := by
    rw [whole, List.flatMap_append, List.flatMap_singleton, steps]
    simp
  have ran : run = .complete run.files := by
    rw [Outcome.complete, ← succeeded]
  generalize run.files = after at ran
  simp only [run, planned] at ran
  obtain ⟨_, later, _, here, ended⟩ := Step.runAll_at ran
  obtain rfl : later = after := congrArg Outcome.files ended
  exact (Step.run_write here).read?

theorem Lasts.not_mem (lasts : installer.Lasts application files.workingDirectory step)
    (writes : step.target? = some path) :
    files.destination path ∉ installer.placesBehind application files.workingDirectory step := by
  refine lasts _ ?_
  rw [Step.place?, writes]
  rfl

/-- A run of all steps that succeeded, the repository first. -/
structure Completes (installer : Installer) (application : Application) (concurrency : Nat)
    (files made after : FileSystem) (order : List Step) : Prop where
  opened : (Step.makeDirectory installer.repository).run files = .complete made
  interleaved : Interleaving (max concurrency 1) (installer.work application) order
  ran : Step.runAll made order = .complete after

theorem answer_ok {α : Type} {outcome : Outcome} {value result : α}
    (answered : outcome.answer value = .ok result) :
    outcome = .complete outcome.files ∧ result = value := by
  obtain ⟨files, failure⟩ := outcome
  cases failure with
  | none => exact ⟨rfl, (Except.ok.inj answered).symm⟩
  | some failure => cases answered

theorem InstallsTo.completes
    (installed : installer.InstallsTo application concurrency files (after, .ok reported)) :
    ∃ made order, installer.Completes application concurrency files made after order ∧
      ∀ entry, entry ∈ reported ↔
        ∃ artifact ∈ packaged application, installer.installedAs application artifact = entry := by
  obtain ⟨order, completed, interleaved, permuted, same⟩ := installed
  obtain ⟨left, answered⟩ := Prod.mk.inj same
  obtain ⟨finished, listed⟩ := answer_ok answered.symm
  rw [← left] at finished
  obtain ⟨made, opened, ran⟩ := Step.runAll_cons.mp finished
  refine ⟨made, order, ⟨opened, interleaved, ran⟩, fun entry => ?_⟩
  have all : completed.flatten.Perm (packaged application) :=
    permuted.flatten.trans batches_perm
  rw [listed, reportOf, List.mem_mergeSort, List.mem_map]
  simp only [all.mem_iff]

namespace Completes

variable {made : FileSystem} {order : List Step}
  (completes : installer.Completes application concurrency files made after order)

include completes

theorem expands : files.Expands made :=
  Step.expands_of_run completes.opened

theorem grows : files.Grows after :=
  completes.expands.grows.trans (Step.runAll_grows completes.ran)

theorem mem_places :
    location ∈ installer.places application files.workingDirectory ↔
      location ∈ Step.places made.workingDirectory order := by
  have permuted := completes.interleaved.perm.filterMap (Step.place? files.workingDirectory)
  rw [places, steps_eq_work, completes.expands.workingDirectory]
  exact permuted.symm.mem_iff

theorem untouched (elsewhere : location ∉ installer.places application files.workingDirectory) :
    after.contentAt? location = files.contentAt? location := by
  rw [Step.contentAt?_runAll completes.ran fun inside =>
    elsewhere (completes.mem_places.mpr inside)]
  exact completes.expands.contents location

theorem read_untouched
    (elsewhere : files.destination path ∉ installer.places application files.workingDirectory)
    (read : files.read? path = some content) : after.read? path = some content :=
  completes.grows.read?_kept read (completes.untouched elsewhere)

/-- Whatever a step was to write is there in the end. -/
theorem written (member : step ∈ order) (writes : step.target? = some path) :
    after.locate path = .ok (files.destination path) ∧ (after.read? path).isSome = true := by
  obtain ⟨first, rest, rfl⟩ := List.append_of_mem member
  obtain ⟨earlier, later, done, here, ended⟩ := Step.runAll_at completes.ran
  obtain ⟨content, wrote⟩ := Step.run_target here writes
  have before := completes.expands.grows.trans (Step.runAll_grows done)
  have behind := Step.runAll_grows ended
  refine ⟨?_, behind.read? (Option.isSome_iff_exists.mpr ⟨content, wrote.read?⟩)⟩
  rw [← before.destination]
  exact behind.locate wrote.located

/-- What is read from a written file is what lies at its place. -/
theorem read_written (member : step ∈ order) (writes : step.target? = some path)
    (found : after.contentAt? (files.destination path) = some content) :
    after.read? path = some content := by
  rw [FileSystem.read?_eq_some, completes.grows.destination]
  exact ⟨(completes.written member writes).1, found⟩

theorem read_at {other : Path} (member : step ∈ order) (writes : step.target? = some path)
    (same : files.destination other = files.destination path)
    (read : after.read? other = some content) : after.read? path = some content := by
  have found := (FileSystem.read?_eq_some.mp read).2
  rw [completes.grows.destination, same] at found
  exact completes.read_written member writes found

theorem stands (member : step ∈ order) :
    ∃ earlier later, files.Grows earlier ∧ step.run earlier = .complete later ∧
      (∀ location ∉ installer.placesBehind application files.workingDirectory step,
        after.contentAt? location = later.contentAt? location) ∧
      ∀ location ∉ installer.places application files.workingDirectory,
        earlier.contentAt? location = files.contentAt? location := by
  obtain ⟨earlier, later, before, here, kept, untouched⟩ :=
    completes.interleaved.stands completes.ran member
  rw [completes.expands.workingDirectory] at kept
  refine ⟨earlier, later, completes.expands.grows.trans before, here, kept, ?_⟩
  intro location elsewhere
  rw [untouched location fun inside => elsewhere (completes.mem_places.mpr inside),
    completes.expands.contents]

theorem write_stands (member : .write path content ∈ order)
    (lasts : installer.Lasts application files.workingDirectory (.write path content)) :
    after.read? path = some content := by
  obtain ⟨earlier, later, before, here, kept, _⟩ := completes.stands member
  have wrote := Step.run_write here
  refine completes.read_written member rfl ?_
  rw [kept _ (lasts.not_mem rfl), ← before.destination, wrote.toPuts.contentAt?, if_pos rfl]

theorem sublist (member : artifact ∈ packaged application) :
    (installer.artifactSteps application artifact).Sublist order := by
  obtain ⟨task, listed, inside⟩ : ∃ task ∈ installer.tasks application,
      (installer.artifactSteps application artifact).Sublist task := exists_task member
  rw [← work_of_packaged member] at listed
  exact inside.trans (completes.interleaved.sublist listed)

theorem copied (member : artifact ∈ packaged application) :
    ∃ source, artifact.locationPath = .ok source ∧
      .copy artifact.coordinate source (installer.payloadPath artifact.coordinate) ∈ order := by
  have listed : installer.payloadStep artifact ∈ order :=
    (completes.sublist member).subset (List.mem_cons_of_mem _ (List.mem_cons_self ..))
  unfold payloadStep at listed
  cases located : artifact.locationPath with
  | error failure =>
      rw [located] at listed
      exact absurd listed (Step.refuse_not_mem completes.ran)
  | ok source =>
      rw [located] at listed
      exact ⟨source, rfl, listed⟩

theorem checked (member : artifact ∈ packaged application) (checksums : installer.checksums = true) :
    .checksum (installer.payloadPath artifact.coordinate) ∈ order :=
  (completes.sublist member).subset (checksum_mem_artifactSteps checksums)

theorem accompanied (member : artifact ∈ packaged application) :
    installer.companionStep application artifact.coordinate ∈ order :=
  (completes.sublist member).subset companion_mem_artifactSteps

end Completes

end AppBundle.Installer
