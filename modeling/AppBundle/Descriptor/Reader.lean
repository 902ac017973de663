import AppBundle.Json.Reader
import AppBundle.Model

namespace AppBundle

/-!
Reading descriptors. Each record has a draft that collects the fields in whatever order they come;
fields that may be absent have the values that the writer leaves out.
-/

open Json

structure CoordinateDraft where
  group : Option String
  name : Option String
  version : Option String
  kind : Option String
  classifier : Option String
  scope : Option String

def Coordinate.record : RecordReader CoordinateDraft Coordinate where
  name := "PackageCoordinate"
  fields := ["groupId", "artifactId", "version", "type", "classifier", "scope"]
  empty := ⟨none, none, none, none, none, none⟩
  read draft field value :=
    match field with
    | "groupId" => do return { draft with group := some (← readString value) }
    | "artifactId" => do return { draft with name := some (← readString value) }
    | "version" => do return { draft with version := some (← readString value) }
    | "type" => do return { draft with kind := some (← readString value) }
    | "classifier" => do return { draft with classifier := ← readOptional readString value }
    | "scope" => do return { draft with scope := ← readOptional readString value }
    | _ => .ok draft
  finish missing draft := do
    let group ← required missing "groupId" draft.group
    let name ← required missing "artifactId" draft.name
    let version ← required missing "version" draft.version
    return ⟨group, name, version, draft.kind.getD defaultKind, draft.classifier, draft.scope⟩

def NameSet.read : Reader NameSet := fun document =>
  (readList readString document).map NameSet.ofList

structure ArtifactDraft where
  coordinate : Option Coordinate
  location : Option String
  shared : Bool
  namespaces : NameSet
  resources : NameSet

def Artifact.record : RecordReader ArtifactDraft Artifact where
  name := "RawResolvedArtifact"
  fields := ["artifactCoordinates", "uri", "shared", "packages", "resources"]
  empty := ⟨none, none, false, .empty, .empty⟩
  read draft field value :=
    match field with
    | "artifactCoordinates" => do
        return { draft with coordinate := some (← Coordinate.record.reader value) }
    | "uri" => do return { draft with location := ← readOptional readString value }
    | "shared" => do return { draft with shared := ← readBoolean value }
    | "packages" => do return { draft with namespaces := ← NameSet.read value }
    | "resources" => do return { draft with resources := ← NameSet.read value }
    | _ => .ok draft
  finish missing draft := do
    let coordinate ← required missing "artifactCoordinates" draft.coordinate
    return ⟨coordinate, draft.location, draft.shared, draft.namespaces, draft.resources⟩

/-- Reads an artifact; one without a location must be a domain reference. -/
def Artifact.read : Reader Artifact := fun document => do
  let artifact ← Artifact.record.reader document
  match Artifact.resolved artifact.coordinate artifact.location with
  | .error failure => throw (.mistaken (.refused failure.message))
  | .ok _ => return artifact

def DependencySet.read : Reader DependencySet := fun document =>
  (readList Artifact.read document).map DependencySet.ofList

structure AdditionDraft where
  group : Option String
  name : Option String
  dependencies : List Artifact

def Addition.record : RecordReader AdditionDraft Addition where
  name := "AdditionalModuleDependency"
  fields := ["groupId", "artifactId", "additionalDependencies"]
  empty := ⟨none, none, []⟩
  read draft field value :=
    match field with
    | "groupId" => do return { draft with group := some (← readString value) }
    | "artifactId" => do return { draft with name := some (← readString value) }
    | "additionalDependencies" => do
        return { draft with dependencies := ← readList Artifact.read value }
    | _ => .ok draft
  finish missing draft := do
    let group ← required missing "groupId" draft.group
    let name ← required missing "artifactId" draft.name
    return ⟨group, name, draft.dependencies⟩

structure ModelDraft where
  formatVersion : String
  owner : Option Coordinate
  dependencies : DependencySet
  namespaces : NameSet
  resources : NameSet
  additions : List Addition

def Model.record : RecordReader ModelDraft Model where
  name := "ClassLoaderModel"
  fields :=
    ["version", "artifactCoordinates", "dependencies", "packages", "resources",
      "additionalPluginDependencies"]
  empty := ⟨currentFormat, none, .empty, .empty, .empty, []⟩
  read draft field value :=
    match field with
    | "version" => do return { draft with formatVersion := ← readString value }
    | "artifactCoordinates" => do
        return { draft with owner := some (← Coordinate.record.reader value) }
    | "dependencies" => do return { draft with dependencies := ← DependencySet.read value }
    | "packages" => do return { draft with namespaces := ← NameSet.read value }
    | "resources" => do return { draft with resources := ← NameSet.read value }
    | "additionalPluginDependencies" => do
        return { draft with additions := ← readList Addition.record.reader value }
    | _ => .ok draft
  finish missing draft := do
    let owner ← required missing "artifactCoordinates" draft.owner
    return ⟨draft.formatVersion, owner, draft.dependencies, draft.namespaces, draft.resources,
      draft.additions⟩

/-- Turns an objection of a reader into a failure. -/
def readFailure {α : Type} (result : Except ReadError α) : Except Failure α :=
  result.mapError .json

def Model.ofDescriptor (content : ByteArray) : Except Failure Model :=
  readFailure (readFromContent Model.record.reader content)

end AppBundle
