import AppBundle.Configuration.Basic
import AppBundle.Descriptor.Reader
import AppBundle.Json.Value
import AppBundle.Resolver

namespace AppBundle

/-!
The JSON forms of settings and of recorded resolutions. A setting that is absent has its default
value.
-/

open Json

structure NameDraft where
  group : Option String
  name : Option String

def SharedLibrary.record : RecordReader NameDraft SharedLibrary where
  name := "SharedDependencyDeclaration"
  fields := ["group", "name"]
  empty := ⟨none, none⟩
  read draft field value :=
    match field with
    | "group" => do return { draft with group := some (← readString value) }
    | "name" => do return { draft with name := some (← readString value) }
    | _ => .ok draft
  finish missing draft := do
    let group ← required missing "group" draft.group
    let name ← required missing "name" draft.name
    return ⟨group, name⟩

structure AdditionRequestDraft extends NameDraft where
  dependencies : List String

def AdditionRequest.record : RecordReader AdditionRequestDraft AdditionRequest where
  name := "AdditionalDependencyConfig"
  fields := ["group", "name", "dependencies"]
  empty := ⟨⟨none, none⟩, []⟩
  read draft field value :=
    match field with
    | "group" => do return { draft with group := some (← readString value) }
    | "name" => do return { draft with name := some (← readString value) }
    | "dependencies" => do
        return { draft with dependencies := ← readList readString value }
    | _ => .ok draft
  finish missing draft := do
    let group ← required missing "group" draft.group
    let name ← required missing "name" draft.name
    return ⟨group, name, draft.dependencies⟩

def MergePolicy.read : Reader MergePolicy := readVariant MergePolicy.named

def Path.read : Reader Path := fun document =>
  (readText "path string" document).map fun text : String => ⟨text⟩

def Configuration.record : RecordReader Configuration Configuration where
  name := "PackagerConfig"
  fields :=
    ["shared_libraries", "additional_module_dependencies", "merge_policy", "nested_models",
      "pretty_print", "concurrency", "repository_placeholder", "local_repository", "introspect",
      "application_output", "write_checksums"]
  empty := .default
  read draft field value :=
    match field with
    | "shared_libraries" => do
        return { draft with sharedLibraries := ← readList SharedLibrary.record.reader value }
    | "additional_module_dependencies" => do
        return { draft with additions := ← readList AdditionRequest.record.reader value }
    | "merge_policy" => do return { draft with mergePolicy := ← MergePolicy.read value }
    | "nested_models" => do return { draft with nestedModels := ← readList Path.read value }
    | "pretty_print" => do return { draft with prettyPrint := ← readBoolean value }
    | "concurrency" => do return { draft with concurrency := ← readCount value }
    | "repository_placeholder" => do
        return { draft with repositoryPlaceholder := ← readString value }
    | "local_repository" => do
        return { draft with localRepository := ← readOptional Path.read value }
    | "introspect" => do return { draft with introspect := ← readBoolean value }
    | "application_output" => do
        return { draft with applicationOutput := ← readOptional Path.read value }
    | "write_checksums" => do return { draft with writeChecksums := ← readBoolean value }
    | _ => .ok draft
  finish _ draft := .ok draft

structure SnapshotEntryDraft where
  coordinate : Option String
  location : Option String
  scope : Option String
  dependencies : List String

def SnapshotEntry.record : RecordReader SnapshotEntryDraft SnapshotEntry where
  name := "SnapshotNode"
  fields := ["coordinate", "location", "scope", "dependencies"]
  empty := ⟨none, none, none, []⟩
  read draft field value :=
    match field with
    | "coordinate" => do return { draft with coordinate := some (← readString value) }
    | "location" => do return { draft with location := ← readOptional readString value }
    | "scope" => do return { draft with scope := ← readOptional readString value }
    | "dependencies" => do
        return { draft with dependencies := ← readList readString value }
    | _ => .ok draft
  finish missing draft := do
    let coordinate ← required missing "coordinate" draft.coordinate
    return ⟨coordinate, draft.location, draft.scope, draft.dependencies⟩

structure SnapshotDraft where
  root : Option String
  dependencies : List String
  nodes : List SnapshotEntry

def SnapshotRecord.record : RecordReader SnapshotDraft SnapshotRecord where
  name := "ResolvedGraphSnapshot"
  fields := ["root", "dependencies", "nodes"]
  empty := ⟨none, [], []⟩
  read draft field value :=
    match field with
    | "root" => do return { draft with root := some (← readString value) }
    | "dependencies" => do
        return { draft with dependencies := ← readList readString value }
    | "nodes" => do
        return { draft with nodes := ← readList SnapshotEntry.record.reader value }
    | _ => .ok draft
  finish missing draft := do
    let root ← required missing "root" draft.root
    return ⟨root, draft.dependencies, draft.nodes⟩

def Snapshot.ofText (text : String) (localRepository : Path) : Except Failure Snapshot := do
  let record ← readFailure (readFromText SnapshotRecord.record.reader text)
  ofRecord record localRepository

def SharedLibrary.toJson (library : SharedLibrary) : Json :=
  .object [("group", .text library.group), ("name", .text library.name)]

def AdditionRequest.toJson (request : AdditionRequest) : Json :=
  .object
    [("group", .text request.group), ("name", .text request.name),
      ("dependencies", .texts request.dependencies)]

def MergePolicy.toJson (policy : MergePolicy) : Json :=
  .text policy.name

def Configuration.toJson (configuration : Configuration) : Json :=
  .object
    [("shared_libraries", .array (configuration.sharedLibraries.map (·.toJson))),
      ("additional_module_dependencies", .array (configuration.additions.map (·.toJson))),
      ("merge_policy", configuration.mergePolicy.toJson),
      ("nested_models", .texts (configuration.nestedModels.map (·.shown))),
      ("pretty_print", .boolean configuration.prettyPrint),
      ("concurrency", .natural configuration.concurrency),
      ("repository_placeholder", .text configuration.repositoryPlaceholder),
      ("local_repository", .optionalText (configuration.localRepository.map (·.shown))),
      ("introspect", .boolean configuration.introspect),
      ("application_output", .optionalText (configuration.applicationOutput.map (·.shown))),
      ("write_checksums", .boolean configuration.writeChecksums)]

namespace Configuration

/-- Loads settings. A file that does not exist stands for the defaults; the paths in one that
does are meant relative to its directory. -/
def load (files : FileSystem) (path : Path) : Except Failure Configuration :=
  if !files.exists path then .ok default
  else
    match files.readText? path with
    | none => .error (.file path)
    | some content =>
        match readFromSoundText Configuration.record.reader content with
        | .error reason => .error (.configuration (.unreadable path reason))
        | .ok configuration => do
            let rebased := configuration.rebase (path.parent?.getD ⟨"."⟩)
            rebased.validate
            return rebased

/-- Saves settings, all of whose paths have to be texts. -/
def save (files : FileSystem) (path : Path) (configuration : Configuration) :
    Except Failure FileSystem :=
  if !configuration.paths.all Path.isText then .error .unwritablePath
  else
    match files.write? path (configuration.toJson.render true).toUTF8 with
    | some saved => .ok saved
    | none => .error (.file path)

end Configuration

end AppBundle
