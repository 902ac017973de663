import AppBundle.Proofs.Installation.Containment
import AppBundle.Proofs.Installation.Schedule

namespace AppBundle.Installer

/-! Installations agree. Under every schedule the same files are written and the same entries reported,
each file by one entry, unless a task has to begin with a directory whose last name stays.
-/

variable {installer : Installer} {application : Application} {artifact other : Artifact}
  {concurrency limit : Nat} {files made after : FileSystem} {reported : List Installed} {order order' : List Step}
  {path : Path} {location : Location} {completed completed' : List (List Artifact)}

theorem installedAs_injective
    (parsed : ∀ artifact ∈ packaged application, artifact.coordinate.Parsed)
    (member : artifact ∈ packaged application) (listed : other ∈ packaged application)
    (same : (installer.installedAs application artifact).coordinate =
      (installer.installedAs application other).coordinate) : artifact = other := by
  have identity : artifact.coordinate.identity = other.coordinate.identity :=
    (parsed artifact member).identity_of_text (parsed other listed) same
  exact eq_of_identity listed member identity

/-- In whatever order the batches complete, the report lists the same entries in one order. -/
theorem reportOf_perm (installer : Installer)
    (parsed : ∀ artifact ∈ packaged application, artifact.coordinate.Parsed)
    (permuted : completed.Perm (batches (packaged application))) :
    (installer.reportOf application completed).Perm
        ((packaged application).map (installer.installedAs application)) ∧
      (installer.reportOf application completed).Pairwise fun left right =>
        compare left.coordinate right.coordinate = .lt := by
  have all : completed.flatten.Perm (packaged application) := permuted.flatten.trans batches_perm
  have listed : (installer.reportOf application completed).Perm
      ((packaged application).map (installer.installedAs application)) :=
    (List.mergeSort_perm _ _).trans (all.map _)
  refine ⟨listed, ?_⟩
  have sorted : (installer.reportOf application completed).Pairwise fun left right =>
      (compareOn Installed.coordinate left right).isLE :=
    pairwise_sorted _
  have distinct : (installer.reportOf application completed).Pairwise fun left right =>
      left.coordinate ≠ right.coordinate := by
    rw [listed.pairwise_iff (fun different => different.symm), List.pairwise_map]
    refine packaged_nodup.pairwise_of_forall_ne fun artifact member other listed different same => ?_
    exact different (installedAs_injective parsed member listed same)
  refine (sorted.and distinct).imp fun {left right} both => ?_
  cases outcome : compare left.coordinate right.coordinate with
  | lt => rfl
  | eq => exact absurd (Std.LawfulEqCmp.eq_of_compare outcome) both.2
  | gt => simp [compareOn, outcome] at both

theorem reportOf_congr (parsed : ∀ artifact ∈ packaged application, artifact.coordinate.Parsed)
    (permuted : completed.Perm (batches (packaged application)))
    (permuted' : completed'.Perm (batches (packaged application))) :
    installer.reportOf application completed = installer.reportOf application completed' := by
  obtain ⟨listed, ascending⟩ := installer.reportOf_perm parsed permuted
  obtain ⟨listed', ascending'⟩ := installer.reportOf_perm parsed permuted'
  refine List.Perm.eq_of_pairwise ?_ ascending ascending' (listed.trans listed'.symm)
  intro left right _ _ before after
  exact absurd (Std.TransCmp.lt_trans before after) (by simp)

/-- The files that a report names: the payloads, with their digests where these are written, and the
companions. Where it is empty, that is the marker. -/
def reportedFiles (installer : Installer) (reported : List Installed) : List Path :=
  if reported.isEmpty then [installer.repository.join ⟨markerName⟩]
  else reported.flatMap fun entry =>
    [entry.payload] ++ (if installer.checksums then [checksumPath entry.payload] else []) ++
      [entry.companion]

theorem InstallsTo.answered
    (installed : installer.InstallsTo application concurrency files (after, .ok reported)) :
    ∃ completed, completed.Perm (batches (packaged application)) ∧
      reported = installer.reportOf application completed := by
  obtain ⟨order, completed, _, permuted, same⟩ := installed
  exact ⟨completed, permuted, (answer_ok (Prod.mk.inj same).2.symm).2⟩

theorem mem_reportedFiles
    (listed : reported.Perm ((packaged application).map (installer.installedAs application))) :
    path ∈ installer.reportedFiles reported ↔
      ∃ output ∈ installer.outputs application, installer.repository.join output = path := by
  have own (artifact : Artifact) : path ∈ [(installer.installedAs application artifact).payload] ++
      (if installer.checksums then
        [checksumPath (installer.installedAs application artifact).payload] else []) ++
      [(installer.installedAs application artifact).companion] ↔
        ∃ output ∈ installer.outputsOf application artifact.coordinate,
          installer.repository.join output = path := by
    have digest := checksumPath_join artifact.coordinate.nonempty_localPath installer.repository
    simp only [installedAs, payloadPath_eq, companionPath_eq, digest, outputsOf]
    split <;> simp [eq_comm]
  have empty : reported.isEmpty = (packaged application).isEmpty := by
    rw [listed.isEmpty_eq, List.isEmpty_map]
  rw [reportedFiles, outputs, empty]
  split
  · simp [eq_comm]
  · simp only [List.mem_flatMap, listed.mem_iff, List.mem_map]
    constructor
    · rintro ⟨_, ⟨artifact, member, rfl⟩, named⟩
      obtain ⟨output, inside, same⟩ := (own artifact).mp named
      exact ⟨output, ⟨artifact, member, inside⟩, same⟩
    · rintro ⟨output, ⟨artifact, member, inside⟩, same⟩
      exact ⟨_, ⟨artifact, member, rfl⟩, (own artifact).mpr ⟨output, inside, same⟩⟩

theorem Completes.same (fresh : installer.Fresh application files)
    (begins : ∀ batch ∈ batches (packaged application), ∀ first ∈ batch.head?,
      first.coordinate.version ≠ ".")
    (completes : installer.Completes application concurrency files made after order)
    (positive : 0 < limit) (interleaved : Interleaving limit (installer.work application) order') :
    ∃ twin, Step.runAll made order' = .complete twin ∧ twin.Same after := by
  have apart := fresh.work_apart
  rw [← completes.expands.workingDirectory] at apart
  refine Interleaving.same apart ?_ (by omega) completes.interleaved completes.ran positive interleaved
  intro limit order final positive interleaved ran
  have again : installer.Completes application limit files made final order :=
    ⟨completes.opened, by rwa [Nat.max_eq_left positive], ran⟩
  exact again.robust_work fresh begins

/-- What lies in the repository in the end are the files that are reported. -/
theorem InstallsTo.found_iff (fresh : installer.Fresh application files)
    (installed : installer.InstallsTo application concurrency files (after, .ok reported))
    (listed : reported.Perm ((packaged application).map (installer.installedAs application))) :
    (files.destination installer.repository <+: location ∧
        (after.contentAt? location).isSome = true) ↔
      ∃ path ∈ installer.reportedFiles reported, after.locate path = .ok location := by
  obtain ⟨made, order, completes, _⟩ := installed.completes
  simp only [mem_reportedFiles listed]
  constructor
  · rintro ⟨inside, found⟩
    have nothing : files.contentAt? location = none := by
      rw [FileSystem.contentAt?, fresh.vacant.2 location inside]
    have changed : after.contentAt? location ≠ files.contentAt? location := by
      rw [nothing]
      exact Option.isSome_iff_ne_none.mp found
    obtain ⟨output, written, rfl⟩ := installed.changed changed
    exact ⟨_, ⟨output, written, rfl⟩, (completes.output_written written).1⟩
  · rintro ⟨_, ⟨output, written, rfl⟩, located⟩
    obtain ⟨step, member, writes⟩ := completes.step_of_output written
    obtain ⟨led, there⟩ := completes.written member writes
    obtain rfl := Except.ok.inj (led.symm.trans located)
    have beneath := beneath_work fresh.inward (completes.interleaved.perm.subset member)
    obtain ⟨names, _, goesOn⟩ := beneath.target writes
    obtain ⟨content, read⟩ := Option.isSome_iff_exists.mp there
    have found := (FileSystem.read?_eq_some.mp read).2
    rw [completes.grows.destination] at found
    refine ⟨⟨names, (goesOn.placeFrom files.workingDirectory).symm⟩, ?_⟩
    rw [found]
    rfl

/-- Unless a batch begins with a directory whose last name stays: where one installation succeeds, all
of the same application do, however many tasks run at a time and in whatever order their steps come,
with the same files and the same report. The report has one entry for each packaged artifact, in the
order of the coordinates' texts, and the files in the repository are the reported ones. -/
theorem installed_alike (fresh : installer.Fresh application files)
    (begins : ∀ batch ∈ batches (packaged application), ∀ first ∈ batch.head?,
      first.coordinate.version ≠ ".")
    (installed : installer.InstallsTo application concurrency files (after, .ok reported)) :
    (∀ limit outcome, installer.InstallsTo application limit files outcome →
      outcome.2 = .ok reported ∧ outcome.1.Same after) ∧
    reported.Perm ((packaged application).map (installer.installedAs application)) ∧
    (reported.Pairwise fun left right => compare left.coordinate right.coordinate = .lt) ∧
    ∀ location, (files.destination installer.repository <+: location ∧
        (after.contentAt? location).isSome = true) ↔
      ∃ path ∈ installer.reportedFiles reported, after.locate path = .ok location := by
  obtain ⟨made, order, completes, _⟩ := installed.completes
  obtain ⟨completed, permuted, rfl⟩ := installed.answered
  obtain ⟨listed, ascending⟩ := installer.reportOf_perm fresh.parsed permuted
  refine ⟨fun limit outcome other => ?_, listed, ascending, fun location => installed.found_iff fresh listed⟩
  obtain ⟨order', completed', interleaved, permuted', rfl⟩ := other
  obtain ⟨twin, ran, same⟩ := completes.same fresh begins (by omega) interleaved
  have finished : Step.runAll files (.makeDirectory installer.repository :: order') = .complete twin :=
    Step.runAll_cons.mpr ⟨made, completes.opened, ran⟩
  simp only [finished]
  exact ⟨congrArg Except.ok (reportOf_congr fresh.parsed permuted' permuted), same⟩

theorem installed_alike_variants :
    let artifact : Artifact :=
      ⟨⟨"g", "a", "1.0", "jar", none, none⟩, some "a.jar", false, .empty, .empty⟩
    let variant : Artifact :=
      ⟨⟨"g", "a", "1.0", "jar", some "tests", none⟩, some "b.jar", false, .empty, .empty⟩
    let other : Artifact :=
      ⟨⟨"g", "b", "1.0", "jar", none, none⟩, some "b.jar", false, .empty, .empty⟩
    let application := Application.ofRoot <|
      .ofDependencies ⟨"g", "app", "1.0", "jar", none, none⟩ (.ofList [artifact, variant, other])
    let files := (FileSystem.empty.place ⟨"a.jar"⟩ ⟨#[1]⟩).place ⟨"b.jar"⟩ ⟨#[2]⟩
    let installer : Installer := ⟨⟨"out"⟩, .default, false, true⟩
    let digest : Location := ["work", "out", "g", "a", "1.0", "a-1.0-tests.jar.sha1"]
    ∃ after reported, installer.Fresh application files ∧
      installer.InstallsTo application 8 files (after, .ok reported) ∧
      (∀ limit outcome, installer.InstallsTo application limit files outcome →
        outcome.2 = .ok reported ∧ outcome.1.Same after) ∧
      (reported.map Installed.coordinate).Perm ["g:a:1.0:jar", "g:a:1.0:jar:tests", "g:b:1.0:jar"] ∧
      ∃ path ∈ installer.reportedFiles reported, after.locate path = .ok digest := by
  intro artifact variant other application files installer digest
  have listed : packaged application = [artifact, variant, other] := by decide +kernel
  have ordered : (packaged application).Pairwise fun left right =>
      (directoryOrder left right).isLE := by decide +kernel
  have fresh : installer.Fresh application files := by
    refine .of_listed listed ?_ (by decide +kernel)
    simp only [List.forall_mem_cons]
    exact ⟨⟨⟨"g:a:1.0", by decide +kernel⟩, by decide +kernel, _, rfl, by decide +kernel⟩,
      ⟨⟨"g:a:1.0:jar:tests", by decide +kernel⟩, by decide +kernel, _, rfl, by decide +kernel⟩,
      ⟨⟨"g:b:1.0", by decide +kernel⟩, by decide +kernel, _, rfl, by decide +kernel⟩,
      List.forall_mem_nil _⟩
  have begins : ∀ batch ∈ batches (packaged application), ∀ first ∈ batch.head?,
      first.coordinate.version ≠ "." := by
    rw [batches_ordered ordered]
    decide +kernel
  have installed : installer.InstallsTo application 8 files _ :=
    installsTo_ordered (by decide +kernel) ordered (by decide +kernel)
  obtain ⟨alike, entries, _, found⟩ := installed_alike fresh begins installed
  have coordinates := entries.map Installed.coordinate
  refine ⟨_, _, fresh, installed, alike, coordinates.trans ?_, (found digest).mp (by decide +kernel)⟩
  rw [listed]
  decide +kernel

/-- A directory whose last name stays is made only once the one around it is there, so that it takes
another task to have come first. -/
theorem installed_by_schedule :
    let artifact : Artifact :=
      ⟨⟨"g", "a", ".", "jar", none, none⟩, some "a.jar", false, .empty, .empty⟩
    let other : Artifact :=
      ⟨⟨"g", "a", "1.0", "jar", none, none⟩, some "b.jar", false, .empty, .empty⟩
    let application := Application.ofRoot <|
      .ofDependencies ⟨"g", "app", "1.0", "jar", none, none⟩ (.ofList [artifact, other])
    let files := (FileSystem.empty.place ⟨"a.jar"⟩ ⟨#[1]⟩).place ⟨"b.jar"⟩ ⟨#[2]⟩
    let installer : Installer := ⟨⟨"out"⟩, .default, true, false⟩
    installer.Fresh application files ∧
      (∃ after reported, installer.InstallsTo application 2 files (after, .ok reported)) ∧
      ∃ after, installer.InstallsTo application 1 files (after, .error (.file ⟨"out/g/a/."⟩)) := by
  intro artifact other application files installer
  have listed : packaged application = [artifact, other] := by decide +kernel
  have ordered : (packaged application).Pairwise fun left right =>
      (directoryOrder left right).isLE := by decide +kernel
  have fresh : installer.Fresh application files := by
    refine .of_listed listed ?_ (by decide +kernel)
    simp only [List.forall_mem_cons]
    exact ⟨⟨⟨"g:a:.", by decide +kernel⟩, by decide +kernel, _, rfl, by decide +kernel⟩,
      ⟨⟨"g:a:1.0", by decide +kernel⟩, by decide +kernel, _, rfl, by decide +kernel⟩,
      List.forall_mem_nil _⟩
  have apart : batches (packaged application) = [[artifact], [other]] := by
    rw [batches_ordered ordered]
    decide +kernel
  have planned : installer.work application =
      [installer.artifactSteps application artifact, installer.artifactSteps application other] := by
    have member : artifact ∈ packaged application := by simp [listed]
    rw [work_of_packaged member, tasks, apart]
    simp
  refine ⟨fresh, ?_, ?_⟩
  · -- the other task makes its directory first
    let order := .makeDirectory (installer.directoryOf other.coordinate) ::
      [installer.artifactSteps application artifact,
        (installer.artifactSteps application other).tail].flatten
    have interleaved : Interleaving (max 2 1) (installer.work application) order := by
      rw [planned]
      change Interleaving 2 ([installer.artifactSteps application artifact] ++
        (_ :: (installer.artifactSteps application other).tail) :: []) order
      exact .next (by decide) (.inOrder (by decide))
    have finished : (Step.runAll files (.makeDirectory installer.repository :: order)).failure? =
        none := by decide +kernel
    have installed : installer.InstallsTo application 2 files _ :=
      installsTo_of_interleaving interleaved rfl
    rw [Outcome.answer, finished] at installed
    exact ⟨_, _, installed⟩
  · let order := [installer.artifactSteps application artifact,
      installer.artifactSteps application other].flatten
    have interleaved : Interleaving (max 1 1) (installer.work application) order := by
      rw [planned]
      exact .inOrder (by decide)
    have stopped : (Step.runAll files (.makeDirectory installer.repository :: order)).failure? =
        some (.file ⟨"out/g/a/."⟩) := by decide +kernel
    have installed : installer.InstallsTo application 1 files _ :=
      installsTo_of_interleaving interleaved rfl
    rw [Outcome.answer, stopped] at installed
    exact ⟨_, installed⟩

end AppBundle.Installer
