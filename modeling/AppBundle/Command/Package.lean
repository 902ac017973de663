import AppBundle.Packaging

namespace AppBundle

/-!
The command that packages an application: where it finds its inputs, and how a request overrides
the configuration file.
-/

structure PackageRequest where
  graph : Path
  output : Path
  configuration : Option Path
  policy : Option MergePolicy
  compact : Bool
  localRepository : Option Path
  concurrency : Option Nat
  checksums : Bool
deriving DecidableEq

/-- Where artifacts lie on a machine, below the user's own directory. -/
def defaultLocalRepository (home : Path) : Path :=
  (home.join ⟨".m2"⟩).join ⟨"repository"⟩

def Snapshot.load (files : FileSystem) (path localRepository : Path) : Except Failure Snapshot :=
  match files.readText? path with
  | none => .error (.file path)
  | some text => ofText text localRepository

def Report.toJson (report : Report) : Json :=
  .object
    [("owner", report.owner.toJson), ("dependencies", .natural report.dependencies),
      ("shared", .natural report.shared), ("nested_models", .natural report.nestedModels),
      ("installed", .natural report.installed), ("descriptor", .text report.descriptor.shown),
      ("repository", .text report.repository.shown)]

/-- A report is printed only where both of its paths are texts. -/
def Report.printable (report : Report) : Except Failure Report :=
  if report.descriptor.isText && report.repository.isText then .ok report
  else .error .unwritablePath

namespace PackageRequest

def configurationPath (request : PackageRequest) : Path :=
  request.configuration.getD ⟨Configuration.fileName⟩

/-- The settings of a request stand above those of the file. -/
def override (request : PackageRequest) (configuration : Configuration) : Configuration :=
  { configuration with
    mergePolicy := request.policy.getD configuration.mergePolicy
    prettyPrint := configuration.prettyPrint && !request.compact
    localRepository := request.localRepository <|> configuration.localRepository
    concurrency := request.concurrency.getD configuration.concurrency
    writeChecksums := configuration.writeChecksums || request.checksums }

def packager (request : PackageRequest) (home : Path) (files : FileSystem) :
    Except Failure Packager := do
  let configuration := request.override (← Configuration.load files request.configurationPath)
  configuration.validate
  let localRepository := configuration.localRepository.getD (defaultLocalRepository home)
  let snapshot ← Snapshot.load files request.graph localRepository
  return ⟨snapshot.resolver, configuration⟩

def run (request : PackageRequest) (home : Path) (files : FileSystem) :
    FileSystem × Except Failure Report :=
  match request.packager home files with
  | .error failure => (files, .error failure)
  | .ok packager => packager.package request.output files

/-- An outcome of a request. -/
def RunsTo (request : PackageRequest) (home : Path) (files : FileSystem)
    (outcome : FileSystem × Except Failure Report) : Prop :=
  match request.packager home files with
  | .error failure => outcome = (files, .error failure)
  | .ok packager => packager.PackagesTo request.output files outcome

end PackageRequest

end AppBundle
