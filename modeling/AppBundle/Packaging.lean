import AppBundle.Application.Build
import AppBundle.Application.Extend
import AppBundle.Configuration.Json
import AppBundle.Contents
import AppBundle.Installation

namespace AppBundle

/-!
Packaging an application into a bundle. Everything is worked out first: the graph is resolved and
marked, models are built, introspected, extended and merged. Only then is the bundle written, the
root descriptor before the repository, so that no failure but one of writing leaves anything behind.
-/

structure Packager where
  resolver : Resolver
  configuration : Configuration

structure Report where
  owner : Coordinate
  dependencies : Nat
  shared : Nat
  nestedModels : Nat
  installed : Nat
  descriptor : Path
  repository : Path
deriving DecidableEq

namespace Packager

def repositoryName : Path := ⟨"repository"⟩

/-- Additional dependencies with everything they lead to. -/
def resolveAddition (resolver : Resolver) (request : AdditionRequest) :
    Except Failure Addition := do
  let graphs ← request.dependencies.mapM fun text => do
    resolver.artifact (← Coordinate.parse text)
  let dependencies := DependencySet.ofList (graphs.flatMap (·.flatten))
  return ⟨request.group, request.name, dependencies.artifacts⟩

/-- A model that was built elsewhere, with the file paths of its locations. -/
def loadNested (files : FileSystem) (placeholder : Placeholder) (path : Path) :
    Except Failure Model := do
  let model ← Model.load files path
  return placeholder.localizeModel (Model.bundleRoot path) model

variable (packager : Packager)

/-- The application as its resolved graph gives it. -/
def build : Except Failure Application := do
  let graph ← packager.resolver.application
  let graph ← graph.propagateShared packager.configuration.sharedLibraries
  Application.build packager.resolver graph

def inputs : List Path :=
  let locations :=
    match packager.build with
    | .ok application =>
        application.allArtifacts.artifacts.filterMap fun artifact =>
          artifact.location.map fun location : String => ⟨location⟩
    | .error _ => []
  packager.configuration.applicationOutput.toList ++ locations ++
    packager.configuration.nestedModels

def introspect (files : FileSystem) (application : Application) : Except Failure Application :=
  if packager.configuration.introspect then
    application.introspect files packager.configuration.applicationOutput
  else .ok application

def extend (application : Application) : Except Failure Application := do
  let additions ← packager.configuration.additions.mapM (resolveAddition packager.resolver)
  application.extendAll additions

def merge (files : FileSystem) (application : Application) : Except Failure Application := do
  let models ← packager.configuration.nestedModels.mapM
    (loadNested files packager.configuration.placeholder)
  application.mergeAll packager.configuration.mergePolicy models

def assemble (files : FileSystem) : Except Failure Application := do
  let built ← packager.build
  let introspected ← packager.introspect files built
  let extended ← packager.extend introspected
  packager.merge files extended

def installer (output : Path) : Installer where
  repository := output.join repositoryName
  placeholder := packager.configuration.placeholder
  pretty := packager.configuration.prettyPrint
  checksums := packager.configuration.writeChecksums

def steps (output : Path) (application : Application) : List Step :=
  application.root.descriptorSteps (Model.rootDescriptorPath output)
      packager.configuration.placeholder.parameterize packager.configuration.prettyPrint ++
    (packager.installer output).steps application

def report (output : Path) (application : Application) : Report where
  owner := application.root.owner
  dependencies := application.root.dependencies.size
  shared := application.root.dependencies.artifacts.countP (·.shared)
  nestedModels := application.nested.length
  installed := ((packager.installer output).report application).length
  descriptor := Model.rootDescriptorPath output
  repository := output.join repositoryName

def package (output : Path) (files : FileSystem) : FileSystem × Except Failure Report :=
  match packager.assemble files with
  | .error failure => (files, .error failure)
  | .ok application =>
      let outcome := Step.runAll files (packager.steps output application)
      (outcome.files, outcome.answer (packager.report output application))

/-- The graph that is built from: the application's, with the shared libraries marked. -/
def rootGraph : Except Failure Graph := do
  let graph ← packager.resolver.application
  graph.propagateShared packager.configuration.sharedLibraries

/-- An outcome of building with the configured number of queries at a time. -/
def BuildsTo (outcome : Except Failure Application) : Prop :=
  match packager.rootGraph with
  | .ok graph =>
      Application.BuildsTo packager.resolver graph packager.configuration.concurrency outcome
  | .error failure => outcome = .error failure

/-- What a built application is completed to. -/
def complete (files : FileSystem) (application : Application) : Except Failure Application := do
  let introspected ← packager.introspect files application
  let extended ← packager.extend introspected
  packager.merge files extended

/-- An outcome of working everything out. -/
def AssemblesTo (files : FileSystem) (outcome : Except Failure Application) : Prop :=
  ∃ built, packager.BuildsTo built ∧ outcome = built >>= packager.complete files

/-- How far writing the root descriptor comes. -/
def describe (output : Path) (application : Application) (files : FileSystem) : Outcome :=
  Step.runAll files (application.root.descriptorSteps (Model.rootDescriptorPath output)
    packager.configuration.placeholder.parameterize packager.configuration.prettyPrint)

/-- An outcome of writing a bundle with the configured number of tasks at a time. -/
def WritesTo (output : Path) (application : Application) (files : FileSystem)
    (outcome : FileSystem × Except Failure Report) : Prop :=
  ∃ described failure?, packager.describe output application files = ⟨described, failure?⟩ ∧
    match failure? with
    | some failure => outcome = (described, .error failure)
    | none =>
        ∃ after reported,
          (packager.installer output).InstallsTo application packager.configuration.concurrency
            described (after, reported) ∧
          outcome = (after, reported.map fun installed =>
            { packager.report output application with installed := installed.length })

/-- An outcome of packaging. -/
def PackagesTo (output : Path) (files : FileSystem)
    (outcome : FileSystem × Except Failure Report) : Prop :=
  ∃ assembled, packager.AssemblesTo files assembled ∧
    match assembled with
    | .error failure => outcome = (files, .error failure)
    | .ok application => packager.WritesTo output application files outcome

end Packager

end AppBundle
