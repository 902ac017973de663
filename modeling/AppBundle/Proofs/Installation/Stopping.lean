import AppBundle.Proofs.FileSystem.Stopping
import AppBundle.Proofs.Installation.Schedule

namespace AppBundle

/-! Installations that stop. The artifacts are installed in the order of their directories, and by their
coordinates' texts where they share one. An installation that finds a source missing has installed the
artifacts in front of that one, has made its directory, and has done nothing for those behind it.
-/

namespace Installer

variable {installer : Installer} {application : Application} {artifact other : Artifact}
  {artifacts : List Artifact} {files made middle after : FileSystem} {step : Step} {steps : List Step} {source : Path}
  {location : Location} {failure : Failure}

/-- One artifact comes before another by its directory, or by its coordinate's text where they share
one. -/
def InstalledBefore (left right : Artifact) : Prop :=
  directoryOrder left right = .lt ∨ (directoryOrder left right = .eq ∧ left.Precedes right)

/-- Artifacts that share a directory stay in their own order. -/
theorem filter_byDirectory (artifact : Artifact) (artifacts : List Artifact) :
    (byDirectory artifacts).filter (directoryOrder artifact · == .eq) =
      artifacts.filter (directoryOrder artifact · == .eq) := by
  have level : (artifacts.filter (directoryOrder artifact · == .eq)).Pairwise fun left right =>
      (directoryOrder left right).isLE := by
    refine List.pairwise_of_forall_mem_list fun left member right member' => ?_
    have here : directoryOrder artifact left = .eq := by simpa using (List.mem_filter.mp member).2
    have there : directoryOrder artifact right = .eq := by simpa using (List.mem_filter.mp member').2
    exact Ordering.isLE_of_eq_eq (Std.TransCmp.eq_trans (Std.OrientedCmp.eq_symm here) there)
  have among : (artifacts.filter (directoryOrder artifact · == .eq)).Sublist (byDirectory artifacts) :=
    List.sublist_mergeSort (fun _ _ _ => Std.TransCmp.isLE_trans) isLE_total level List.filter_sublist
  have kept := among.filter (directoryOrder artifact · == .eq)
  rw [List.filter_filter] at kept
  simp only [Bool.and_self] at kept
  exact (kept.eq_of_length ((List.mergeSort_perm _ _).filter _).length_eq.symm).symm

theorem byDirectory_ordered (ordered : artifacts.Pairwise Artifact.Precedes) :
    (byDirectory artifacts).Pairwise InstalledBefore := by
  have sorted : (byDirectory artifacts).Pairwise fun left right =>
      (directoryOrder left right).isLE :=
    pairwise_sorted artifacts
  refine List.pairwise_iff_forall_sublist.mpr fun {left right} among => ?_
  have ahead := List.pairwise_iff_forall_sublist.mp sorted among
  cases outcome : directoryOrder left right with
  | lt => exact .inl outcome
  | gt => simp [outcome] at ahead
  | eq =>
      refine .inr ⟨outcome, ?_⟩
      have self : directoryOrder left left = .eq := Std.ReflCmp.compare_self
      have shared := among.filter (directoryOrder left · == .eq)
      rw [filter_byDirectory] at shared
      simp only [List.filter_cons, self, outcome, beq_self_eq_true, if_true, List.filter_nil] at shared
      exact List.pairwise_iff_forall_sublist.mp (ordered.filter _) shared

/-- Artifacts in different directories have one order. -/
theorem byDirectory_eq {sorted : List Artifact} (permuted : sorted.Perm artifacts)
    (ascending : sorted.Pairwise fun left right => directoryOrder left right = .lt) :
    byDirectory artifacts = sorted := by
  let alone (left right : Artifact) : Prop := directoryOrder left right = .eq → left = right
  have symmetric : Std.Symm alone := ⟨fun _ _ alone same => (alone (Std.OrientedCmp.eq_symm same)).symm⟩
  have apart : sorted.Pairwise alone := ascending.imp fun before same => by simp [before] at same
  refine List.Perm.eq_of_pairwise ?_ (pairwise_sorted artifacts)
    (ascending.imp fun before => by simp [before]) ((List.mergeSort_perm _ _).trans permuted.symm)
  intro left right member member' ahead behind
  have listed : left ∈ sorted := permuted.mem_iff.mpr (mem_byDirectory.mp member)
  exact apart.forall_of_forall (fun _ _ _ => rfl) listed member'
    (Std.OrientedCmp.isLE_antisymm ahead behind)

/-- What an installation leaves for an artifact: the payload as its source was, the digest of that where
digests are written, and the companion. -/
structure Stands (installer : Installer) (application : Application) (files after : FileSystem)
    (artifact : Artifact) : Prop where
  payload : ∃ source content, artifact.locationPath = .ok source ∧
    files.contentAt? (files.destination source) = some content ∧ after.read? source = some content ∧
    after.read? (installer.payloadPath artifact.coordinate) = some content ∧
    (installer.checksums = true →
      after.read? (checksumPath (installer.payloadPath artifact.coordinate)) =
        some (Digest.sha1 content).toUTF8)
  companion : after.read? (installer.companionPath application artifact.coordinate) =
    some (installer.companionContent application artifact.coordinate)

theorem companion_written {coordinate : Coordinate}
    (ran : Step.runAll files (installer.companionSteps application coordinate) = .complete after) :
    after.read? (installer.companionPath application coordinate) =
      some (installer.companionContent application coordinate) := by
  obtain ⟨around, steps⟩ := installer.companionSteps_eq application coordinate
  rw [steps] at ran
  obtain ⟨_, later, _, here, ended⟩ := Step.runAll_at ran
  cases ended
  exact (Step.run_write here).read?

theorem digest_written {coordinate : Coordinate} {content : ByteArray}
    (ran : Step.runAll files (installer.checksumSteps coordinate ++
      installer.companionSteps application coordinate) = .complete after)
    (nodup : (Step.places files.workingDirectory (installer.checksumSteps coordinate ++
      installer.companionSteps application coordinate)).Nodup)
    (read : files.read? (installer.payloadPath coordinate) = some content)
    (checksums : installer.checksums = true) :
    after.read? (checksumPath (installer.payloadPath coordinate)) =
      some (Digest.sha1 content).toUTF8 := by
  rw [checksumSteps, if_pos checksums] at ran nodup
  obtain ⟨next, here, later⟩ := Step.runAll_cons.mp ran
  obtain ⟨content', read', wrote⟩ := Step.run_checksum here
  obtain rfl : content = content' := Option.some.inj (read.symm.trans read')
  refine (Step.runAll_grows later).read?_kept wrote.read? ?_
  rw [wrote.grows.destination]
  refine Step.contentAt?_runAll later ?_
  rw [wrote.grows.workingDirectory]
  exact (List.nodup_cons.mp nodup).1

theorem artifact_stands
    (ran : Step.runAll files (installer.artifactSteps application artifact) = .complete after)
    (nodup : (Step.places files.workingDirectory
      (installer.artifactSteps application artifact)).Nodup)
    (apart : ∀ source, artifact.locationPath = .ok source → files.destination source ∉
      Step.places files.workingDirectory (installer.artifactSteps application artifact)) :
    installer.Stands application files after artifact := by
  have listed {source : Path} (located : artifact.locationPath = .ok source) :
      Step.places files.workingDirectory (installer.artifactSteps application artifact) =
        files.destination (installer.payloadPath artifact.coordinate) ::
          Step.places files.workingDirectory (installer.checksumSteps artifact.coordinate ++
            installer.companionSteps application artifact.coordinate) := by
    rw [artifactSteps, payloadStep, located]
    rfl
  simp only [artifactSteps, payloadStep] at ran
  obtain ⟨opened, opens, ran⟩ := Step.runAll_cons.mp ran
  obtain ⟨copied, payload, ran⟩ := Step.runAll_cons.mp ran
  cases located : artifact.locationPath with
  | error failure =>
      rw [located] at payload
      cases payload
  | ok source =>
      rw [located] at payload
      have elsewhere := apart source located
      rw [listed located, List.mem_cons, not_or] at elsewhere
      rw [listed located, List.nodup_cons] at nodup
      have expands := Step.expands_of_run opens
      simp only [← expands.grows.destination, ← expands.workingDirectory] at elsewhere nodup
      obtain ⟨content, read, written, kept, stands⟩ :=
        Step.copy_stands payload ran elsewhere.1 elsewhere.2 nodup.1
      have workingDirectory := (Step.grows_of_run payload).workingDirectory
      refine ⟨⟨source, content, located, ?_, kept, stands, ?_⟩, ?_⟩
      · have found := (FileSystem.read?_eq_some.mp read).2
        rwa [expands.grows.destination, expands.contents] at found
      · exact digest_written ran (by rw [workingDirectory]; exact nodup.2) written
      · obtain ⟨_, _, later⟩ := Step.runAll_append.mp ran
        exact companion_written later

/-- What was left for an artifact stays while others are installed elsewhere. -/
theorem Stands.behind (stands : installer.Stands application files middle artifact)
    (workingDirectory : middle.workingDirectory = files.workingDirectory)
    (ran : Step.runAll middle steps = .complete after)
    (once : ∀ location ∈ Step.places files.workingDirectory
      (installer.artifactSteps application artifact),
        location ∉ Step.places files.workingDirectory steps)
    (apart : ∀ source, artifact.locationPath = .ok source →
      files.destination source ∉ Step.places files.workingDirectory steps) :
    installer.Stands application files after artifact := by
  obtain ⟨⟨source, content, located, held, read, payload, digest⟩, companion⟩ := stands
  rw [← workingDirectory] at once
  have grows := Step.runAll_grows ran
  have kept {step : Step} {path : Path} {content : ByteArray}
      (member : step ∈ installer.artifactSteps application artifact)
      (writes : step.target? = some path) (read : middle.read? path = some content) :
      after.read? path = some content :=
    grows.read?_kept read (Step.contentAt?_runAll ran (once _ (Step.mem_places member writes)))
  refine ⟨⟨source, content, located, held, ?_, ?_, fun checksums => ?_⟩, ?_⟩
  · refine grows.read?_kept read (Step.contentAt?_runAll ran ?_)
    rw [workingDirectory, FileSystem.destination_congr workingDirectory]
    exact apart source located
  · exact kept (copy_mem_artifactSteps located) rfl payload
  · exact kept (checksum_mem_artifactSteps checksums) rfl (digest checksums)
  · exact kept companion_mem_artifactSteps rfl companion

theorem Stands.of_source (stands : installer.Stands application middle after artifact)
    (workingDirectory : middle.workingDirectory = files.workingDirectory)
    (same : ∀ source, artifact.locationPath = .ok source →
      middle.contentAt? (files.destination source) = files.contentAt? (files.destination source)) :
    installer.Stands application files after artifact := by
  obtain ⟨⟨source, content, located, held, read⟩, companion⟩ := stands
  refine ⟨⟨source, content, located, ?_, read⟩, companion⟩
  rwa [FileSystem.destination_congr workingDirectory, same source located] at held

/-- Artifacts that are installed one after the other, each at places of its own, all stand in the end. -/
theorem artifacts_stand
    (ran : Step.runAll files (artifacts.flatMap (installer.artifactSteps application)) =
      .complete after)
    (nodup : (Step.places files.workingDirectory
      (artifacts.flatMap (installer.artifactSteps application))).Nodup)
    (apart : ∀ artifact ∈ artifacts, ∀ source, artifact.locationPath = .ok source →
      files.destination source ∉ Step.places files.workingDirectory
        (artifacts.flatMap (installer.artifactSteps application))) :
    ∀ artifact ∈ artifacts, installer.Stands application files after artifact := by
  induction artifacts generalizing files with
  | nil => exact List.forall_mem_nil _
  | cons first rest ih =>
      rw [List.flatMap_cons] at ran nodup apart
      simp only [Step.places_append, List.mem_append, not_or] at apart
      rw [Step.places_append] at nodup
      obtain ⟨middle, here, later⟩ := Step.runAll_append.mp ran
      obtain ⟨own, others, disjoint⟩ := List.nodup_append.mp nodup
      obtain ⟨apart, apart'⟩ := List.forall_mem_cons.mp apart
      have workingDirectory := (Step.runAll_grows here).workingDirectory
      refine List.forall_mem_cons.mpr ⟨?_, fun artifact member => ?_⟩
      · have stands := artifact_stands here own fun source located => (apart source located).1
        refine stands.behind workingDirectory later (fun location mine other => ?_) fun source located =>
          (apart source located).2
        exact disjoint location mine location other rfl
      · rw [← workingDirectory] at others
        refine (ih later others ?_ artifact member).of_source workingDirectory fun source located =>
          Step.contentAt?_runAll here (apart' artifact member source located).1
        intro artifact member source located
        rw [workingDirectory, FileSystem.destination_congr workingDirectory]
        exact (apart' artifact member source located).2

theorem copy_not_mem_behind {coordinate coordinate' : Coordinate} {source target : Path} :
    .copy coordinate' source target ∉ installer.checksumSteps coordinate ++
      installer.companionSteps application coordinate := by
  obtain ⟨around, steps⟩ := installer.companionSteps_eq application coordinate
  rw [steps, checksumSteps, companionStep]
  split <;> simp

/-- The steps of an artifact whose source is missing make its directory, and no more. -/
theorem artifact_stops
    (unhindered : Step.Unhindered files (installer.artifactSteps application artifact))
    (stopped : (Step.runAll files (installer.artifactSteps application artifact)).failure? ≠ none) :
    ∃ source opened, artifact.locationPath = .ok source ∧
      (Step.makeDirectory (installer.directoryOf artifact.coordinate)).run files = .complete opened ∧
      opened.read? source = none ∧
      Step.runAll files (installer.artifactSteps application artifact) =
        ⟨opened, some (.installation artifact.coordinate source
          (installer.payloadPath artifact.coordinate))⟩ := by
  simp only [artifactSteps, payloadStep] at unhindered stopped ⊢
  rcases unhindered.cons with ⟨opened, opens, unhindered⟩ | lacks
  · rcases unhindered.cons with ⟨copied, payload, unhindered⟩ | lacks
    · obtain ⟨after, ran⟩ := unhindered.completes fun _ _ _ => copy_not_mem_behind
      have complete := Step.runAll_cons.mpr ⟨opened, opens, Step.runAll_cons.mpr ⟨copied, payload, ran⟩⟩
      exact absurd (by rw [complete]; rfl) stopped
    · cases located : artifact.locationPath with
      | error failure =>
          rw [located] at lacks
          exact lacks.elim
      | ok source =>
          rw [located] at lacks
          refine ⟨source, opened, rfl, opens, lacks, ?_⟩
          rw [Step.runAll, opens]
          simp only [Outcome.complete, Step.runAll, Step.run_copy_missing lacks]
  · exact lacks.elim

/-- Artifacts that are installed one after the other stop at one whose source is missing. -/
theorem artifacts_stop
    (unhindered : Step.Unhindered files (artifacts.flatMap (installer.artifactSteps application)))
    (stopped : Step.runAll files (artifacts.flatMap (installer.artifactSteps application)) =
      ⟨after, some failure⟩) :
    ∃ before artifact later source middle, artifacts = before ++ artifact :: later ∧
      Step.runAll files (before.flatMap (installer.artifactSteps application)) = .complete middle ∧
      (Step.makeDirectory (installer.directoryOf artifact.coordinate)).run middle =
        .complete after ∧
      artifact.locationPath = .ok source ∧ after.read? source = none ∧
      failure =
        .installation artifact.coordinate source (installer.payloadPath artifact.coordinate) := by
  rcases Step.runAll_flatMap files (installer.artifactSteps application) artifacts with
    ⟨_, complete⟩ | ⟨before, artifact, later, middle, rfl, ran, halted, same⟩
  · rw [complete] at stopped
    cases stopped
  · rw [List.flatMap_append, List.flatMap_cons] at unhindered
    obtain ⟨source, opened, located, opens, missing, outcome⟩ :=
      artifact_stops (unhindered.behind ran).front halted
    rw [same, outcome] at stopped
    cases stopped
    exact ⟨before, artifact, later, source, middle, rfl, ran, opens, located, missing, rfl⟩

/-- An installation that stops once the repository is there has artifacts to install. -/
theorem occupied_of_stopped
    (unhindered : Step.Unhindered files (installer.work application).flatten)
    (stopped : Step.runAll files (installer.work application).flatten = ⟨after, some failure⟩) :
    packaged application ≠ [] := by
  intro empty
  have work : (installer.work application).flatten = [installer.markerStep] := by
    simp [Installer.work, empty, markerStep]
  rw [work] at unhindered stopped
  obtain ⟨_, complete⟩ := unhindered.completes fun _ _ _ => by simp [markerStep]
  rw [complete] at stopped
  cases stopped

theorem along_of_mem (inward : artifact.coordinate.Inward)
    (member : step ∈ installer.artifactSteps application artifact) :
    step.Along installer.repository fun front =>
      front ≠ [] ∧ front <+: artifact.coordinate.innerNames := by
  cases step with
  | makeDirectory path =>
      exact ⟨_, extends_of_mem inward member, fun front inner begins => ⟨inner, begins⟩⟩
  | _ => trivial

/-- Once the directory of an artifact was made, all those on the way to it are there. -/
theorem directories_made (inward : artifact.coordinate.Inward)
    (opens : (Step.makeDirectory (installer.directoryOf artifact.coordinate)).run files =
      .complete after) {front : List RawText} (inner : front ≠ [])
    (begins : front <+: artifact.coordinate.innerNames) :
    after.entryAt? (files.destination installer.repository ++ front) = some .directory := by
  have goesOn := extends_directoryOf installer inward
  have moves : (installer.directoryOf artifact.coordinate).moving ≠ [] := by
    rw [goesOn.moving]
    rintro nothing
    rw [(List.append_eq_nil_iff.mp nothing).2] at begins
    exact inner (List.prefix_nil.mp begins)
  have nonempty : (installer.directoryOf artifact.coordinate).text ≠ "" := by
    intro empty
    rw [Path.moving, empty] at moves
    exact moves rfl
  have around : (installer.directoryOf artifact.coordinate).parent?.isSome = true := by
    by_contra outermost
    exact moves (Path.root_of_parent?_none (by simpa using outermost) nonempty).2
  have isDirectory :=
    FileSystem.isDirectory_of_makeDirectories nonempty around (Step.makeDirectory_ok.mp opens)
  rw [← (Step.grows_of_run opens).destination]
  exact FileSystem.entryAt?_on_way isDirectory goesOn begins

/-- How far an installation came that stopped at an artifact: those before it are installed, of its own
there is the directory, and nothing was written for it and those behind it. -/
structure StopsAt (installer : Installer) (application : Application) (files after : FileSystem)
    (before : List Artifact) (artifact : Artifact) (later : List Artifact) : Prop where
  installed : ∀ other ∈ before, installer.Stands application files after other
  opened : (installer.directoryOf artifact.coordinate).text ≠ "" →
    after.entryAt? (files.destination (installer.directoryOf artifact.coordinate)) = some .directory
  unwritten : ∀ other ∈ artifact :: later,
    ∀ location ∈ Step.places files.workingDirectory (installer.artifactSteps application other),
      after.contentAt? location = files.contentAt? location
  directories : ∀ other ∈ before ++ [artifact], ∀ front, front ≠ [] →
    front <+: other.coordinate.innerNames →
      after.entryAt? (files.destination installer.repository ++ front) = some .directory
  untouched : ∀ location, location ∉ Step.places files.workingDirectory
      (before.flatMap (installer.artifactSteps application)) →
    (∀ other ∈ before ++ [artifact], ∀ front, front ≠ [] → front <+: other.coordinate.innerNames →
      location ≠ files.destination installer.repository ++ front) →
    after.entryAt? location = (files.makeDirectories installer.repository).1.entryAt? location

/-- What runs until an installation stops at an artifact, once the repository is there. -/
def stepsUntil (installer : Installer) (application : Application) (before : List Artifact)
    (artifact : Artifact) : List Step :=
  before.flatMap (installer.artifactSteps application) ++
    [.makeDirectory (installer.directoryOf artifact.coordinate)]

variable {before later : List Artifact}

theorem opening_mem_stepsUntil (member : other ∈ before ++ [artifact]) :
    .makeDirectory (installer.directoryOf other.coordinate) ∈
      installer.stepsUntil application before artifact := by
  rcases List.mem_append.mp member with earlier | last
  · exact List.mem_append_left _ (List.mem_flatMap.mpr ⟨other, earlier, List.mem_cons_self ..⟩)
  · rw [List.mem_singleton.mp last]
    exact List.mem_append_right _ (List.mem_singleton_self _)

theorem of_mem_stepsUntil (member : step ∈ installer.stepsUntil application before artifact) :
    ∃ other ∈ before ++ [artifact], step ∈ installer.artifactSteps application other := by
  rcases List.mem_append.mp member with earlier | last
  · obtain ⟨other, listed, planned⟩ := List.mem_flatMap.mp earlier
    exact ⟨other, List.mem_append_left _ listed, planned⟩
  · refine ⟨artifact, by simp, ?_⟩
    rw [List.mem_singleton.mp last]
    exact List.mem_cons_self ..

theorem places_stepsUntil {base : Location} :
    Step.places base (installer.stepsUntil application before artifact) =
      Step.places base (before.flatMap (installer.artifactSteps application)) :=
  Step.places_append.trans (List.append_nil _)

/-- A directory that some step of a run makes is there in the end. -/
theorem directories_stand (inward : other.coordinate.Inward)
    (ran : Step.runAll files steps = .complete after)
    (planned : .makeDirectory (installer.directoryOf other.coordinate) ∈ steps) {front : List RawText}
    (inner : front ≠ []) (begins : front <+: other.coordinate.innerNames) :
    after.entryAt? (files.destination installer.repository ++ front) = some .directory := by
  obtain ⟨first, rest, rfl⟩ := List.append_of_mem planned
  obtain ⟨start, next, first', here, ended⟩ := Step.runAll_at ran
  have there := directories_made inward here inner begins
  rw [(Step.runAll_grows first').destination] at there
  exact (Step.runAll_grows ended).directories _ there

/-- Apart from the files of the artifacts before it and the directories on the way, everything is as it
was when the repository was made. -/
theorem entryAt?_until (inward : ∀ other ∈ before ++ [artifact], other.coordinate.Inward)
    (rooted : files.Rooted installer.repository)
    (ran : Step.runAll files (installer.stepsUntil application before artifact) = .complete after)
    (elsewhere : location ∉ Step.places files.workingDirectory
      (before.flatMap (installer.artifactSteps application)))
    (off : ∀ other ∈ before ++ [artifact], ∀ front, front ≠ [] →
      front <+: other.coordinate.innerNames →
        location ≠ files.destination installer.repository ++ front) :
    after.entryAt? location = files.entryAt? location := by
  have along : ∀ step ∈ installer.stepsUntil application before artifact,
      step.Along installer.repository fun front =>
        ∃ other ∈ before ++ [artifact], front ≠ [] ∧ front <+: other.coordinate.innerNames := by
    intro step member
    obtain ⟨other, among, planned⟩ := of_mem_stepsUntil member
    exact (along_of_mem (inward other among) planned).mono fun front way => ⟨other, among, way⟩
  refine Step.runAll_along along rooted ran (by rwa [places_stepsUntil]) ?_
  rintro front ⟨other, among, inner, begins⟩
  exact off other among front inner begins

theorem stopsAt_of_runs (inward : ∀ other ∈ before ++ [artifact], other.coordinate.Inward)
    (nodup : (Step.places files.workingDirectory
      ((before ++ artifact :: later).flatMap (installer.artifactSteps application))).Nodup)
    (apart : ∀ other ∈ before, ∀ source, other.locationPath = .ok source →
      files.destination source ∉ Step.places files.workingDirectory
        (before.flatMap (installer.artifactSteps application)))
    (repository : (Step.makeDirectory installer.repository).run files = .complete made)
    (ran : Step.runAll made (before.flatMap (installer.artifactSteps application)) = .complete middle)
    (opens : (Step.makeDirectory (installer.directoryOf artifact.coordinate)).run middle =
      .complete after) :
    installer.StopsAt application files after before artifact later := by
  have expands := Step.expands_of_run repository
  have expands' := Step.expands_of_run opens
  have workingDirectory : middle.workingDirectory = files.workingDirectory :=
    (Step.runAll_grows ran).workingDirectory.trans expands.workingDirectory
  have last : Step.runAll middle [.makeDirectory (installer.directoryOf artifact.coordinate)] =
      .complete after :=
    Step.runAll_cons.mpr ⟨after, opens, rfl⟩
  have whole : Step.runAll made (installer.stepsUntil application before artifact) =
      .complete after :=
    Step.runAll_append.mpr ⟨middle, ran, last⟩
  rw [List.flatMap_append, Step.places_append] at nodup
  obtain ⟨early, _, disjoint⟩ := List.nodup_append.mp nodup
  refine ⟨fun other member => ?_, fun nonempty => ?_, fun other member location mine => ?_,
    fun other member front inner begins => ?_, fun location elsewhere off => ?_⟩
  · have stands : installer.Stands application made middle other := by
      refine artifacts_stand ran ?_ ?_ other member
      · rwa [expands.workingDirectory]
      · intro other member source located
        rw [expands.workingDirectory, expands.grows.destination]
        exact apart other member source located
    refine (stands.of_source expands.workingDirectory fun source located => ?_).behind workingDirectory
      last (fun _ _ => List.not_mem_nil) fun _ _ => List.not_mem_nil
    exact expands.contents _
  · have there := FileSystem.entryAt?_of_makeDirectories nonempty (Step.makeDirectory_ok.mp opens)
    rwa [expands'.grows.destination, FileSystem.destination_congr workingDirectory] at there
  · have elsewhere : location ∉ Step.places made.workingDirectory
        (installer.stepsUntil application before artifact) := by
      rw [places_stepsUntil, expands.workingDirectory]
      intro taken
      refine disjoint location taken location ?_ rfl
      obtain ⟨step, planned, place⟩ := List.mem_filterMap.mp mine
      exact List.mem_filterMap.mpr ⟨step, List.mem_flatMap.mpr ⟨other, member, planned⟩, place⟩
    rw [Step.contentAt?_runAll whole elsewhere, expands.contents]
  · rw [← expands.grows.destination]
    exact directories_stand (inward other member) whole (opening_mem_stepsUntil member) inner begins
  · have done := Step.makeDirectory_ok.mp repository
    rw [done]
    refine entryAt?_until inward (FileSystem.rooted_of_makeDirectories done) whole ?_ ?_
    · rwa [expands.workingDirectory]
    · rwa [expands.grows.destination]

theorem apart_of_outside (inward : ∀ other ∈ artifacts, other.coordinate.Inward)
    (outside : ¬(files.destination installer.repository).Below location) :
    location ∉ Step.places files.workingDirectory
      (artifacts.flatMap (installer.artifactSteps application)) := by
  intro taken
  obtain ⟨step, member, place⟩ := List.mem_filterMap.mp taken
  obtain ⟨other, listed, planned⟩ := List.mem_flatMap.mp member
  exact outside ((beneath_of_mem (inward other listed) planned).below _ place)

theorem stops_of_failure
    (inward : ∀ artifact ∈ packaged application, artifact.coordinate.Inward)
    (distinct : (installer.places application files.workingDirectory).Nodup)
    (outside : ∀ artifact ∈ packaged application, ∀ source, artifact.locationPath = .ok source →
      ¬(files.destination installer.repository).Below (files.destination source))
    (unhindered : Step.Unhindered files (installer.steps application))
    (stopped : Step.runAll files (installer.steps application) = ⟨after, some failure⟩) :
    ∃ before artifact later source,
      byDirectory (packaged application) = before ++ artifact :: later ∧
      artifact.locationPath = .ok source ∧ after.read? source = none ∧
      failure =
        .installation artifact.coordinate source (installer.payloadPath artifact.coordinate) ∧
      installer.StopsAt application files after before artifact later := by
  unfold places at distinct
  rw [steps_eq_work] at distinct unhindered stopped
  rcases unhindered.cons with ⟨made, repository, unhindered⟩ | lacks
  · rw [Step.runAll, repository] at stopped
    change Step.runAll made (installer.work application).flatten = _ at stopped
    have occupied := occupied_of_stopped unhindered stopped
    rw [work_flatten occupied] at distinct unhindered stopped
    obtain ⟨before, artifact, later, source, middle, split, ran, opens, located, missing, rfl⟩ :=
      artifacts_stop unhindered stopped
    refine ⟨before, artifact, later, source, split, located, missing, rfl, ?_⟩
    have among : ∀ other ∈ before ++ [artifact], other ∈ packaged application := by
      intro other member
      rw [← mem_byDirectory, split, List.append_cons]
      exact List.mem_append_left _ member
    have early : ∀ other ∈ before, other ∈ packaged application := fun other member =>
      among other (List.mem_append_left _ member)
    refine stopsAt_of_runs (fun other member => inward other (among other member)) ?_ ?_
      repository ran opens
    · rw [← split]
      exact distinct
    · intro other member source located
      refine apart_of_outside (fun other member => inward other (early other member)) ?_
      exact outside other (early other member) source located
  · exact lacks.elim

/-- Where coordinates lead inward, sources lie outside of the repository, each file has a place of its
own, and nothing but a missing source can stop it: an installation fails if and only if a source is
missing in the end, at the first such artifact. -/
theorem install_stopped {answer : Except Failure (List Installed)}
    (inward : ∀ artifact ∈ packaged application, artifact.coordinate.Inward)
    (distinct : (installer.places application files.workingDirectory).Nodup)
    (outside : ∀ artifact ∈ packaged application, ∀ source, artifact.locationPath = .ok source →
      ¬(files.destination installer.repository).Below (files.destination source))
    (unhindered : Step.Unhindered files (installer.steps application))
    (installed : installer.install application files = (after, answer)) :
    ((∃ reported, answer = .ok reported) ↔ ∀ artifact ∈ packaged application, ∃ source,
      artifact.locationPath = .ok source ∧ (after.read? source).isSome = true) ∧
    ∀ failure, answer = .error failure → ∃ before artifact later source,
      byDirectory (packaged application) = before ++ artifact :: later ∧
      (byDirectory (packaged application)).Pairwise InstalledBefore ∧
      artifact.locationPath = .ok source ∧ after.read? source = none ∧
      failure =
        .installation artifact.coordinate source (installer.payloadPath artifact.coordinate) ∧
      installer.StopsAt application files after before artifact later := by
  obtain ⟨left, answered⟩ := Prod.mk.inj installed
  have stopped : ∀ failure, answer = .error failure →
      Step.runAll files (installer.steps application) = ⟨after, some failure⟩ := by
    rintro failure rfl
    rw [← left, ← Outcome.answer_error answered]
  have ordered : (packaged application).Pairwise Artifact.Precedes :=
    application.allArtifacts.ordered.filter _
  refine ⟨⟨?_, fun readable => ?_⟩, fun failure failed => ?_⟩
  · rintro ⟨reported, rfl⟩ artifact member
    obtain ⟨ran, _⟩ := answer_ok answered
    rw [left] at ran
    exact readable_of_complete ran member
  · cases answer with
    | ok reported => exact ⟨reported, rfl⟩
    | error failure =>
        obtain ⟨before, artifact, later, source, split, located, missing, _⟩ :=
          stops_of_failure inward distinct outside unhindered (stopped failure rfl)
        have member : artifact ∈ packaged application := by
          rw [← mem_byDirectory, split]
          simp
        obtain ⟨source', located', read⟩ := readable artifact member
        obtain rfl := Except.ok.inj (located.symm.trans located')
        rw [missing] at read
        cases read
  · obtain ⟨before, artifact, later, source, split, stops⟩ :=
      stops_of_failure inward distinct outside unhindered (stopped failure failed)
    exact ⟨before, artifact, later, source, split, byDirectory_ordered ordered, stops⟩

/-- The second artifact has no source. By its directory it comes second, by its text first. -/
theorem install_stopped_second :
    let first : Artifact :=
      ⟨⟨"g", "lib", "1.0", "jar", none, none⟩, some "a.jar", false, .empty, .empty⟩
    let second : Artifact :=
      ⟨⟨"g-x", "lib", "1.0", "jar", none, none⟩, some "b.jar", false, .empty, .empty⟩
    let third : Artifact :=
      ⟨⟨"h", "lib", "1.0", "jar", none, none⟩, some "a.jar", false, .empty, .empty⟩
    let application := Application.ofRoot <|
      .ofDependencies ⟨"g", "app", "1.0", "jar", none, none⟩ (.ofList [first, second, third])
    let files := FileSystem.empty.place ⟨"a.jar"⟩ ⟨#[1]⟩
    let installer : Installer := ⟨⟨"out"⟩, .default, true, true⟩
    packaged application = [second, first, third] ∧
      ∃ after, installer.install application files = (after, .error <|
          .installation second.coordinate ⟨"b.jar"⟩ (installer.payloadPath second.coordinate)) ∧
        installer.StopsAt application files after [first] second [third] := by
  intro first second third application files installer
  have listed : packaged application = [second, first, third] := by decide +kernel
  have sorted : byDirectory (packaged application) = [first, second, third] := by
    rw [listed]
    exact byDirectory_eq (.swap ..) (by decide +kernel)
  have planned : installer.steps application = .makeDirectory installer.repository ::
      [first, second, third].flatMap (installer.artifactSteps application) := by
    rw [steps_eq_work, work_flatten (by simp [listed]), sorted]
  have stopped : (Step.runAll files (installer.steps application)).failure? = some
      (.installation second.coordinate ⟨"b.jar"⟩ (installer.payloadPath second.coordinate)) := by
    rw [planned]
    decide +kernel
  have installed : installer.install application files = (_, _) := rfl
  rw [Outcome.answer, stopped] at installed
  have distinct : (installer.places application files.workingDirectory).Nodup := by
    rw [places, planned]
    decide +kernel
  have unhindered : Step.Unhindered files (installer.steps application) := by
    rw [planned]
    decide +kernel
  have inward : ∀ artifact ∈ packaged application, artifact.coordinate.Inward := by decide +kernel
  have outside : ∀ artifact ∈ packaged application, ∀ source, artifact.locationPath = .ok source →
      ¬(files.destination installer.repository).Below (files.destination source) := by
    rw [listed]
    simp only [List.forall_mem_cons]
    refine ⟨fun source located => ?_, fun source located => ?_, fun source located => ?_,
      List.forall_mem_nil _⟩
    all_goals
      cases located
      decide +kernel
  obtain ⟨before, artifact, later, source, split, _, located, _, failed, stops⟩ :=
    (install_stopped inward distinct outside unhindered installed).2 _ rfl
  have same : second.coordinate = artifact.coordinate := (Failure.installation.inj failed).1
  have others : first.coordinate ≠ second.coordinate ∧ third.coordinate ≠ second.coordinate := by
    decide
  rw [sorted] at split
  refine ⟨listed, _, installed, ?_⟩
  rcases before with _ | ⟨head, _ | ⟨next, _ | ⟨last, rest⟩⟩⟩
  · cases split
    exact absurd same.symm others.1
  · cases split
    exact stops
  · cases split
    exact absurd same.symm others.2
  · simpa using congrArg List.length split

end Installer

end AppBundle
