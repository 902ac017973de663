import AppBundle.Proofs.FileSystem.Schedule
import AppBundle.Proofs.Installation.Batches

namespace AppBundle

/-! Installing under every schedule. Each task writes beneath the directory of its batch and reads what
it has written itself or what lies outside of the repository. So where one schedule succeeds all of them
do, with the same files, as long as no batch has to begin with a directory whose last name stays.
-/

namespace Installer

variable {installer : Installer} {application : Application} {artifact other : Artifact}
  {artifacts batch : List Artifact} {coordinate : Coordinate} {concurrency : Nat}
  {files made before after : FileSystem} {order rest : List Step}
  {step step' : Step} {path source : Path} {base location : Location}

theorem extends_directoryOf (installer : Installer) (inward : coordinate.Inward) :
    installer.repository.Extends coordinate.innerNames (installer.directoryOf coordinate) :=
  inward.extends_join installer.repository

/-- Each file of an artifact has a name in the directory of the coordinate. -/
theorem name_of_mem (clean : ∀ piece ∈ artifact.coordinate.pieces, '/' ∉ piece.toList)
    (member : step ∈ installer.artifactSteps application artifact)
    (writes : step.target? = some path) :
    ∃ text, Path.IsName text ∧ path = (installer.directoryOf artifact.coordinate).join ⟨text⟩ := by
  have payload := Coordinate.isName_fileName clean
  rcases writes_of_mem member writes with ⟨source, _, rfl⟩ | ⟨_, rfl⟩ | rfl
  · cases writes
    exact ⟨_, payload, rfl⟩
  · cases writes
    exact ⟨_, payload.digest, checksumPath_name payload _⟩
  · cases writes
    exact ⟨_, isName_companionName clean, rfl⟩

/-- The directories that are made for an artifact are its own, however they are written. -/
theorem extends_of_mem (inward : artifact.coordinate.Inward)
    (member : .makeDirectory path ∈ installer.artifactSteps application artifact) :
    installer.repository.Extends artifact.coordinate.innerNames path := by
  have directory := extends_directoryOf installer inward
  rcases directory_of_mem member with rfl | parent
  · exact directory
  · rw [companionPath, Path.parent?_join (isName_companionName inward.clean)] at parent
    obtain rfl := Option.some.inj parent
    exact directory.trimmed

theorem beneath_of_mem (inward : artifact.coordinate.Inward)
    (member : step ∈ installer.artifactSteps application artifact) :
    step.Beneath installer.repository := by
  have directory := extends_directoryOf installer inward
  cases writes : step.target? with
  | some path =>
      obtain ⟨text, name, rfl⟩ := name_of_mem inward.clean member writes
      exact .of_target writes (by simp) (directory.join name)
  | none =>
      cases step with
      | makeDirectory path => exact ⟨_, extends_of_mem inward member⟩
      | refuse failure => simp [Step.Beneath, Step.target?]
      | _ => cases writes

theorem beneath_work (inward : ∀ artifact ∈ packaged application, artifact.coordinate.Inward)
    (member : step ∈ (installer.work application).flatten) : step.Beneath installer.repository := by
  rcases mem_work.mp member with ⟨_, rfl⟩ | ⟨artifact, listed, inside⟩
  · have marker : installer.repository.Extends [markerName] _ :=
      (Path.Extends.refl installer.repository).join isName_markerName
    exact .of_target rfl (List.cons_ne_nil _ _) marker
  · exact beneath_of_mem (inward artifact listed) inside

/-- Coordinates that are read from texts and lead inward, to be installed where nothing lies yet from
sources that lie elsewhere. -/
structure Fresh (installer : Installer) (application : Application) (files : FileSystem) : Prop where
  parsed : ∀ artifact ∈ packaged application, artifact.coordinate.Parsed
  inward : ∀ artifact ∈ packaged application, artifact.coordinate.Inward
  vacant : files.Vacant installer.repository
  outside : ∀ artifact ∈ packaged application, ∀ source, artifact.locationPath = .ok source →
    files.StaysOutside installer.repository source

theorem Fresh.of_listed (listed : packaged application = artifacts)
    (each : ∀ artifact ∈ artifacts, artifact.coordinate.Parsed ∧ artifact.coordinate.Inward ∧
      ∃ source, artifact.locationPath = .ok source ∧
        files.StaysOutside installer.repository source)
    (vacant : files.Vacant installer.repository) : installer.Fresh application files := by
  subst listed
  refine ⟨fun artifact member => (each artifact member).1,
    fun artifact member => (each artifact member).2.1, vacant, fun artifact member source located => ?_⟩
  obtain ⟨source', located', outside⟩ := (each artifact member).2.2
  obtain rfl := Except.ok.inj (located'.symm.trans located)
  exact outside

theorem Fresh.sameComponents_iff (fresh : installer.Fresh application files)
    (member : artifact ∈ packaged application) (listed : other ∈ packaged application) :
    artifact.coordinate.directory.SameComponents other.coordinate.directory ↔
      artifact.coordinate.innerNames = other.coordinate.innerNames := by
  have grouped (artifact : Artifact) (member : artifact ∈ packaged application) :
      artifact.coordinate.group ≠ "" :=
    (fresh.parsed artifact member).nonempty _ (by simp [Coordinate.pieces])
  exact Coordinate.sameComponents_directory (fresh.inward artifact member) (grouped artifact member)
    (fresh.inward other listed) (grouped other listed)

namespace Completes

variable (fresh : installer.Fresh application files)
  (completes : installer.Completes application concurrency files made after order)

include fresh completes

theorem opens : made.isDirectory installer.repository = true :=
  fresh.vacant.isDirectory (Step.makeDirectory_ok.mp completes.opened)

theorem readable (member : artifact ∈ packaged application)
    (located : artifact.locationPath = .ok source) : (made.read? source).isSome = true := by
  obtain ⟨source', located', copied⟩ := completes.copied member
  obtain rfl : source' = source := Except.ok.inj (located'.symm.trans located)
  obtain ⟨first, rest, rfl⟩ := List.append_of_mem copied
  obtain ⟨earlier, later, done, here, _⟩ := Step.runAll_at completes.ran
  obtain ⟨content, read, _⟩ := Step.run_copy here
  have beneath : ∀ step ∈ first, step.Beneath installer.repository := fun step early =>
    beneath_work fresh.inward (completes.interleaved.perm.subset (List.mem_append_left _ early))
  have outside : made.StaysOutside installer.repository source' :=
    (FileSystem.staysOutside_congr completes.expands.workingDirectory).mpr
      (fresh.outside artifact member source' located)
  have same : earlier.read? source' = made.read? source' :=
    outside.read? (Step.runAll_grows done).workingDirectory fun location elsewhere =>
      Step.runAll_below beneath (completes.opens fresh) done elsewhere
  rw [← same, read]
  rfl

theorem isDirectory_directoryOf (member : artifact ∈ packaged application) :
    after.isDirectory (installer.directoryOf artifact.coordinate) = true := by
  obtain ⟨source, _, copied⟩ := completes.copied member
  have version : artifact.coordinate.version ≠ "" :=
    (fresh.parsed artifact member).nonempty _ (by simp [Coordinate.pieces])
  have nonempty : (installer.directoryOf artifact.coordinate).text ≠ "" :=
    Path.nonempty_join (Path.nonempty_join (Path.nonempty_mk version) _) _
  exact FileSystem.isDirectory_of_read?
    (Coordinate.isName_fileName (fresh.inward artifact member).clean) nonempty
    (completes.written copied rfl).2

theorem robust_companion (member : artifact ∈ packaged application)
    (opened : before.isDirectory (installer.directoryOf artifact.coordinate) = true)
    (next : ∀ later, before.Grows later → Step.Robust after later rest) :
    Step.Robust after before
      (installer.companionSteps application artifact.coordinate ++ rest) := by
  have name : Path.IsName (companionName application artifact.coordinate) :=
    isName_companionName (fresh.inward artifact member).clean
  have there := completes.isDirectory_directoryOf fresh member
  obtain ⟨around, steps, parent⟩ :=
    installer.companionSteps_around application artifact.coordinate
  rw [steps]
  clear steps
  induction around generalizing before with
  | nil => exact .write opened name (completes.written (completes.accompanied member) rfl).2 next
  | cons path around ih =>
      -- a directory around the companion is the same one as that of the coordinate
      have trimmed : (installer.directoryOf artifact.coordinate).trimmed = path := by
        have found := parent path (List.mem_cons_self ..)
        rw [companionPath, Path.parent?_join name] at found
        exact Option.some.inj found
      subst trimmed
      refine .makeDirectory opened (Path.Extends.refl _).trimmed (.inl (by simp))
        (FileSystem.isDirectory_trimmed there) fun later grown _ => ?_
      exact ih (grown.isDirectory opened) (fun last behind => next last (grown.trans behind))
        fun path listed => parent path (List.mem_cons_of_mem _ listed)

/-- The steps of an artifact are robust where its directory is there or can be made. -/
theorem robust_artifact (member : artifact ∈ packaged application) (grown : made.Grows before)
    (ends : (∀ name ∈ artifact.coordinate.innerNames.getLast?, ∃ base : Path,
        installer.directoryOf artifact.coordinate = base.join ⟨name⟩) ∨
      before.isDirectory (installer.directoryOf artifact.coordinate) = true)
    (next : ∀ later, before.Grows later →
      later.isDirectory (installer.directoryOf artifact.coordinate) = true →
        Step.Robust after later rest) :
    Step.Robust after before (installer.artifactSteps application artifact ++ rest) := by
  have inward := fresh.inward artifact member
  have payload := Coordinate.isName_fileName inward.clean
  have there := completes.isDirectory_directoryOf fresh member
  obtain ⟨source, located, copied⟩ := completes.copied member
  have readable := grown.read? (completes.readable fresh member located)
  rw [artifactSteps, payloadStep, located, List.cons_append, List.cons_append, List.append_assoc,
    checksumSteps]
  refine .makeDirectory (grown.isDirectory (completes.opens fresh)) (extends_directoryOf installer inward) ends there
    fun opened grown opened' => ?_
  refine .copy opened' payload (grown.read? readable) (completes.written copied rfl).2
    fun filled grown' stored => ?_
  have isDirectory := grown'.isDirectory opened'
  have closing (last : FileSystem) (grown'' : filled.Grows last) : Step.Robust after last
      (installer.companionSteps application artifact.coordinate ++ rest) :=
    completes.robust_companion fresh member (grown''.isDirectory isDirectory)
      fun later behind => next later (grown.trans (grown'.trans (grown''.trans behind)))
        ((grown''.trans behind).isDirectory isDirectory)
  split
  · next enabled =>
      have beside := checksumPath_name payload (installer.directoryOf artifact.coordinate)
      have digest := (completes.written (completes.checked member enabled) rfl).2
      exact .checksum isDirectory payload.digest stored beside (beside ▸ digest) closing
  · exact closing filled (.refl filled)

theorem robust_artifacts (members : ∀ artifact ∈ artifacts, artifact ∈ packaged application)
    (grown : made.Grows before)
    (there : ∀ artifact ∈ artifacts,
      before.isDirectory (installer.directoryOf artifact.coordinate) = true) :
    Step.Robust after before (artifacts.flatMap (installer.artifactSteps application)) := by
  induction artifacts generalizing before with
  | nil => trivial
  | cons artifact rest ih =>
      obtain ⟨member, members⟩ := List.forall_mem_cons.mp members
      obtain ⟨here, there⟩ := List.forall_mem_cons.mp there
      rw [List.flatMap_cons]
      refine completes.robust_artifact fresh member grown (.inr here) fun later grown' _ => ?_
      exact ih members (grown.trans grown') fun other listed => grown'.isDirectory (there other listed)

/-- A batch is robust unless its first directory ends with a name that stays. -/
theorem robust_batch (listed : batch ∈ batches (packaged application))
    (begins : ∀ first ∈ batch.head?, first.coordinate.version ≠ ".") :
    Step.Robust after made (batch.flatMap (installer.artifactSteps application)) := by
  cases batch with
  | nil => trivial
  | cons first others =>
      have members (artifact : Artifact) (inside : artifact ∈ first :: others) :
          artifact ∈ packaged application :=
        mem_batches.mp ⟨_, listed, inside⟩
      have member := members first (List.mem_cons_self ..)
      have inward := fresh.inward first member
      have nonempty : first.coordinate.version ≠ "" :=
        (fresh.parsed first member).nonempty _ (by simp [Coordinate.pieces])
      have version : Path.IsName first.coordinate.version :=
        ⟨inward.versionClean, RawText.ofText_ne nonempty, RawText.ofText_ne (begins first rfl),
          RawText.ofText_ne inward.version⟩
      obtain ⟨ends, last⟩ := Coordinate.directory_ends version installer.repository
      rw [List.flatMap_cons]
      refine completes.robust_artifact fresh member (.refl made) (.inl ?_) fun later grown opened => ?_
      · rw [last]
        rintro _ ⟨⟩
        exact ends
      · refine completes.robust_artifacts fresh (fun artifact inside => members artifact (by simp [inside]))
          grown fun artifact inside => ?_
        -- the others of the batch share the directory that the first one made
        have member' := members artifact (List.mem_cons_of_mem _ inside)
        have shared := batch_directory listed (List.mem_cons_of_mem _ inside) (List.mem_cons_self ..)
        rw [fresh.sameComponents_iff member' member] at shared
        have there := completes.isDirectory_directoryOf fresh member'
        obtain ⟨admitted, nonempty', _⟩ := FileSystem.isDirectory_iff.mp there
        have here := extends_directoryOf installer (fresh.inward artifact member')
        have beside := extends_directoryOf installer inward
        refine FileSystem.isDirectory_of_moving opened (here.absolute.trans beside.absolute.symm) ?_
          admitted nonempty'
        rw [here.moving, beside.moving, shared]

/-- Wherever a run of an installation ended, its tasks lead there under every schedule. -/
theorem robust_work
    (begins : ∀ batch ∈ batches (packaged application), ∀ first ∈ batch.head?,
      first.coordinate.version ≠ ".") :
    ∀ task ∈ installer.work application, Step.Robust after made task := by
  intro task listed
  by_cases nothing : packaged application = []
  · have marker : installer.work application = [[installer.markerStep]] := by
      rw [work, nothing]
      rfl
    have planned : installer.markerStep ∈ (installer.work application).flatten := by simp [marker]
    have written := completes.written (completes.interleaved.perm.symm.subset planned) rfl
    obtain rfl := List.mem_singleton.mp (marker ▸ listed)
    exact .write (completes.opens fresh) isName_markerName written.2 fun _ _ => trivial
  · obtain ⟨artifact, member⟩ := List.exists_mem_of_ne_nil _ nothing
    rw [work_of_packaged member] at listed
    obtain ⟨batch, batched, rfl⟩ := List.mem_map.mp listed
    exact completes.robust_batch fresh batched (begins batch batched)

end Completes

theorem place_of_mem (inward : artifact.coordinate.Inward)
    (member : step ∈ installer.artifactSteps application artifact)
    (place : step.place? base = some location) :
    ∃ text, location =
      installer.repository.placeFrom base ++ (artifact.coordinate.innerNames ++ [text]) := by
  obtain ⟨path, writes, rfl⟩ := Option.map_eq_some_iff.mp place
  obtain ⟨text, name, rfl⟩ := name_of_mem inward.clean member writes
  exact ⟨text, ((extends_directoryOf installer inward).join name).placeFrom base⟩

/-- What is read below the repository is a file of the artifact itself. -/
theorem source_of_mem (inward : artifact.coordinate.Inward)
    (outside : ∀ source, artifact.locationPath = .ok source →
      ¬(installer.repository.placeFrom base).Below (source.placeFrom base))
    (member : step ∈ installer.artifactSteps application artifact)
    (reads : step.source? base = some location)
    (below : (installer.repository.placeFrom base).Below location) :
    ∃ text, location =
      installer.repository.placeFrom base ++ (artifact.coordinate.innerNames ++ [text]) := by
  cases step with
  | copy coordinate source target =>
      cases reads
      rcases writes_of_mem member rfl with ⟨_, located, same⟩ | ⟨_, same⟩ | same
      · cases same
        exact absurd below (outside source located)
      · cases same
      · cases same
  | checksum path =>
      cases reads
      rcases writes_of_mem member rfl with ⟨_, _, same⟩ | ⟨_, same⟩ | same
      · cases same
      · cases same
        have name := Coordinate.isName_fileName inward.clean
        exact ⟨_, ((extends_directoryOf installer inward).join name).placeFrom base⟩
      · cases same
  | _ => cases reads

namespace Fresh

variable (fresh : installer.Fresh application files) (member : artifact ∈ packaged application)
  (listed : other ∈ packaged application)
  (different : artifact.coordinate.innerNames ≠ other.coordinate.innerNames)
  (inside : step ∈ installer.artifactSteps application artifact)
  (inside' : step' ∈ installer.artifactSteps application other)

include fresh member listed different inside inside'

theorem unread (place : step.place? files.workingDirectory = some location) :
    step'.source? files.workingDirectory ≠ some location := by
  intro reads
  obtain ⟨text, rfl⟩ := place_of_mem (fresh.inward artifact member) inside place
  obtain ⟨text', same⟩ := source_of_mem (fresh.inward other listed)
    (fun source located => (fresh.outside other listed source located).destination) inside' reads
    ⟨_, by simp, rfl⟩
  exact different (List.append_inj' (List.append_cancel_left same) rfl).1

theorem apart : Step.Apart files.workingDirectory step step' where
  places location place place' := by
    obtain ⟨text, rfl⟩ := place_of_mem (fresh.inward artifact member) inside place
    obtain ⟨text', same⟩ := place_of_mem (fresh.inward other listed) inside' place'
    exact different (List.append_inj' (List.append_cancel_left same) rfl).1
  behind _ place := fresh.unread member listed different inside inside' place
  before _ place := fresh.unread listed member different.symm inside' inside place

omit member listed different inside inside'

theorem work_apart : TasksApart files.workingDirectory (installer.work application) := by
  rw [work]
  split
  · exact List.pairwise_singleton _ _
  · rw [TasksApart, tasks, List.pairwise_map]
    refine batches_apart.imp_of_mem ?_
    intro left right batch batch' apart step inside step' inside'
    obtain ⟨artifact, here, inside⟩ := List.mem_flatMap.mp inside
    obtain ⟨other, there, inside'⟩ := List.mem_flatMap.mp inside'
    have member : artifact ∈ packaged application := mem_batches.mp ⟨left, batch, here⟩
    have listed : other ∈ packaged application := mem_batches.mp ⟨right, batch', there⟩
    have different := apart artifact here other there
    rw [fresh.sameComponents_iff member listed] at different
    exact fresh.apart member listed different inside inside'

end Fresh

end Installer

end AppBundle
