import AppBundle.Application.Merge
import AppBundle.FileSystem.Basic
import AppBundle.Graph.Sharing
import AppBundle.Portable

namespace AppBundle

/-!
Packaging settings: which libraries are shared, which modules get additional dependencies, which
models are merged and how, and how the bundle is written.
-/

/-- Additional dependencies of a module as coordinates in text form. -/
structure AdditionRequest where
  group : String
  name : String
  dependencies : List String
deriving DecidableEq

structure Configuration where
  sharedLibraries : List SharedLibrary
  additions : List AdditionRequest
  mergePolicy : MergePolicy
  nestedModels : List Path
  prettyPrint : Bool
  /-- Number of tasks that may run side by side. -/
  concurrency : Nat
  repositoryPlaceholder : String
  localRepository : Option Path
  introspect : Bool
  /-- The compiled output of the application itself. -/
  applicationOutput : Option Path
  writeChecksums : Bool
deriving DecidableEq

namespace Configuration

def fileName : String := "packager.json"

def defaultConcurrency : Nat := 8

def default : Configuration where
  sharedLibraries := []
  additions := []
  mergePolicy := .default
  nestedModels := []
  prettyPrint := true
  concurrency := defaultConcurrency
  repositoryPlaceholder := Placeholder.defaultName
  localRepository := none
  introspect := true
  applicationOutput := none
  writeChecksums := false

/-- All paths that settings have. -/
def paths (configuration : Configuration) : List Path :=
  configuration.nestedModels ++ configuration.localRepository.toList ++
    configuration.applicationOutput.toList

def placeholder (configuration : Configuration) : Placeholder :=
  .ofText configuration.repositoryPlaceholder

def incompleteLibrary? (configuration : Configuration) : Option SharedLibrary :=
  configuration.sharedLibraries.find? fun library => library.group = "" ∨ library.name = ""

def validate (configuration : Configuration) : Except Failure Unit :=
  if configuration.concurrency = 0 then .error (.configuration .noConcurrency)
  else if configuration.repositoryPlaceholder.toList.all (· = '/') then
    .error (.configuration .emptyPlaceholder)
  else
    match configuration.incompleteLibrary? with
    | some library =>
        .error (.configuration (.incompleteSharedLibrary library.group library.name))
    | none => .ok ()

/-- A path in a configuration is meant relative to the directory of its file. -/
def rebasePath (base path : Path) : Path :=
  if path.isRelative then base.join path else path

def rebase (base : Path) (configuration : Configuration) : Configuration :=
  { configuration with
    nestedModels := configuration.nestedModels.map (rebasePath base)
    localRepository := configuration.localRepository.map (rebasePath base)
    applicationOutput := configuration.applicationOutput.map (rebasePath base) }

end Configuration

end AppBundle
