import AppBundle.Descriptor.File
import AppBundle.Pom

namespace AppBundle

/-!
Installing an application's artifacts into a repository. Each payload is copied into the directory
of its coordinate and gets a companion: the descriptor of its nested model if that has dependencies,
and a small XML document else. Artifacts that share a directory form one batch, so that batches do
not write the same files.
-/

/-- Where artifacts are installed, and what is written beside them. -/
structure Installer where
  repository : Path
  placeholder : Placeholder
  pretty : Bool
  checksums : Bool
deriving DecidableEq

structure Installed where
  coordinate : String
  payload : Path
  companion : Path
deriving DecidableEq

namespace Installer

/-- Name of the file that is written where nothing is installed. -/
def markerName : String := ".marker"

def packaged (application : Application) : List Artifact :=
  application.allArtifacts.artifacts.filter (·.isPackaged)

def directoryOrder (left right : Artifact) : Ordering :=
  left.coordinate.directory.order right.coordinate.directory

/-- The artifacts by their directories, and in their own order where they share one. -/
def byDirectory (artifacts : List Artifact) : List Artifact :=
  artifacts.mergeSort fun left right => (directoryOrder left right).isLE

def batches (artifacts : List Artifact) : List (List Artifact) :=
  (byDirectory artifacts).splitBy fun left right => directoryOrder left right == .eq

variable (installer : Installer)

def directoryOf (coordinate : Coordinate) : Path :=
  installer.repository.join coordinate.directory

def payloadPath (coordinate : Coordinate) : Path :=
  (installer.directoryOf coordinate).join ⟨coordinate.fileName⟩

/-- The nested model that is written beside an artifact. -/
def companionModel? (application : Application) (coordinate : Coordinate) : Option Model :=
  (application.nested? coordinate).filter fun model => !model.dependencies.isEmpty

def companionName (application : Application) (coordinate : Coordinate) : String :=
  match companionModel? application coordinate with
  | some _ => Model.descriptorName
  | none => Pom.fileName coordinate

def companionPath (application : Application) (coordinate : Coordinate) : Path :=
  (installer.directoryOf coordinate).join ⟨companionName application coordinate⟩

def companionSteps (application : Application) (coordinate : Coordinate) : List Step :=
  let path := installer.companionPath application coordinate
  match companionModel? application coordinate with
  | some model =>
      model.descriptorSteps path installer.placeholder.parameterize installer.pretty
  | none => [.write path (Pom.minimal coordinate).toXml.toUTF8]

def payloadStep (artifact : Artifact) : Step :=
  match artifact.locationPath with
  | .ok source =>
      .copy artifact.coordinate source (installer.payloadPath artifact.coordinate)
  | .error failure => .refuse failure

def checksumSteps (coordinate : Coordinate) : List Step :=
  if installer.checksums then [.checksum (installer.payloadPath coordinate)] else []

def artifactSteps (application : Application) (artifact : Artifact) : List Step :=
  let coordinate := artifact.coordinate
  .makeDirectory (installer.directoryOf coordinate) :: installer.payloadStep artifact ::
    (installer.checksumSteps coordinate ++ installer.companionSteps application coordinate)

/-- One task for each directory. -/
def tasks (application : Application) : List (List Step) :=
  (batches (packaged application)).map fun batch =>
    batch.flatMap (installer.artifactSteps application)

/-- All steps of an installation, one task after the other. -/
def steps (application : Application) : List Step :=
  let work :=
    if (packaged application).isEmpty then
      [.write (installer.repository.join ⟨markerName⟩) ByteArray.empty]
    else (installer.tasks application).flatten
  .makeDirectory installer.repository :: work

def installedAs (application : Application) (artifact : Artifact) : Installed :=
  ⟨artifact.key, installer.payloadPath artifact.coordinate,
    installer.companionPath application artifact.coordinate⟩

/-- What an installation reports, in the order of the coordinates' texts. -/
def report (application : Application) : List Installed :=
  ((batches (packaged application)).flatten.map (installer.installedAs application)).mergeSort
    fun left right => (compare left.coordinate right.coordinate).isLE

def install (application : Application) (files : FileSystem) :
    FileSystem × Except Failure (List Installed) :=
  let outcome := Step.runAll files (installer.steps application)
  (outcome.files, outcome.answer (installer.report application))

/-- What an installation runs once the repository is there: its tasks, or else the marker. -/
def work (application : Application) : List (List Step) :=
  if (packaged application).isEmpty then
    [[.write (installer.repository.join ⟨markerName⟩) ByteArray.empty]]
  else installer.tasks application

/-- What is reported when the batches complete in some order. -/
def reportOf (application : Application) (completed : List (List Artifact)) : List Installed :=
  (completed.flatten.map (installer.installedAs application)).mergeSort
    fun left right => (compare left.coordinate right.coordinate).isLE

/-- An outcome of installing with a number of tasks at a time, at least one. -/
def InstallsTo (application : Application) (concurrency : Nat) (files : FileSystem)
    (outcome : FileSystem × Except Failure (List Installed)) : Prop :=
  ∃ order completed, Interleaving (max concurrency 1) (installer.work application) order ∧
    completed.Perm (batches (packaged application)) ∧
      let run := Step.runAll files (.makeDirectory installer.repository :: order)
      outcome = (run.files, run.answer (installer.reportOf application completed))

end Installer

end AppBundle
