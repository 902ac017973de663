import AppBundle.Model
import AppBundle.FileSystem.Basic
import AppBundle.Archive.Directory

namespace AppBundle

/-!
What a compiled output exports. Every file name below a directory or in an archive is either code,
which makes its directory a namespace, or a resource; the build tool's own records are neither.
-/

inductive Classification where
  | ignored
  | namespace (name : String)
  | resource (name : String)
deriving DecidableEq

structure Contents where
  namespaces : NameSet
  resources : NameSet
deriving DecidableEq

/-- The names with `/` between them, repaired where they are no text. -/
def Location.shown (names : Location) : String :=
  Text.joined '/' (names.map RawText.shown)

namespace Contents

def codeSuffix : List Char := ['.', 'c', 'l', 'a', 's', 's']

/-- Where the build tool keeps its records. -/
def recordsDirectory : List Char :=
  ['M', 'E', 'T', 'A', '-', 'I', 'N', 'F', '/', 'm', 'a', 'v', 'e', 'n', '/']

/-- The namespace of a code file: the directories before its own name, with dots between them. -/
def namespaceOf (name : List Char) : Classification :=
  match name.reverse.dropWhile (· ≠ '/') with
  | [] => .ignored
  | _ :: directory =>
      .namespace (Text.replaceChar '/' '.' (String.ofList directory.reverse))

def classify (entry : String) : Classification :=
  let name := entry.toList.dropWhile (· = '/')
  if name = [] ∨ name.getLast? = some '/' then .ignored
  else if codeSuffix.isSuffixOf name then namespaceOf name
  else if recordsDirectory.isPrefixOf name then .ignored
  else .resource (String.ofList name)

def empty : Contents := ⟨.empty, .empty⟩

def record (contents : Contents) (entry : String) : Contents :=
  match classify entry with
  | .ignored => contents
  | .namespace name => { contents with namespaces := contents.namespaces.insert name }
  | .resource name => { contents with resources := contents.resources.insert name }

def ofNames (names : List String) : Contents :=
  names.foldl record empty

def ofDirectory (files : List Location) : Contents :=
  ofNames (files.map Location.shown)

def ofArchive (names : List String) : Contents :=
  ofNames (names.filter fun name => !Archive.isDirectoryName name)

/-- Archives are told by the end of their file name. -/
def isArchive (path : Path) : Bool :=
  match path.extension?.bind RawText.text? with
  | none => false
  | some suffix => Text.lowerAscii suffix == "jar" || Text.lowerAscii suffix == "zip"

/-- The contents of a directory or an archive; any other file exports nothing. -/
def inspect (files : FileSystem) (path : Path) : Except Failure Contents :=
  if files.isDirectory path then
    match files.walkStop? path with
    | some stop => .error (.file stop)
    | none => .ok (ofDirectory (files.fileNamesBelow path))
  else if isArchive path then
    match files.read? path with
    | none => .error (.file path)
    | some content =>
        match Archive.entryNames? content with
        | none => .error .archive
        | some names => .ok (ofArchive names)
  else .ok empty

end Contents

/-- The artifact with what its payload exports; one whose payload is not there stays as it is. -/
def Artifact.introspect (files : FileSystem) (artifact : Artifact) : Except Failure Artifact :=
  match artifact.location with
  | none => .ok artifact
  | some location =>
      if files.exists ⟨location⟩ then do
        let contents ← Contents.inspect files ⟨location⟩
        return { artifact with
          namespaces := contents.namespaces
          resources := contents.resources }
      else .ok artifact

/-- The model with what its dependencies export, and its owner's own output if that is known. -/
def Model.introspect (files : FileSystem) (ownOutput : Option Path) (model : Model) :
    Except Failure Model := do
  let dependencies ← model.dependencies.artifacts.mapM (·.introspect files)
  let introspected := { model with dependencies := .ofList dependencies }
  match ownOutput with
  | none => return introspected
  | some output =>
      let contents ← Contents.inspect files output
      return { introspected with
        namespaces := contents.namespaces
        resources := contents.resources }

/-- Introspects the nested models in the order of their keys. -/
def Application.introspect (files : FileSystem) (ownOutput : Option Path)
    (application : Application) : Except Failure Application := do
  let root ← application.root.introspect files ownOutput
  application.nested.foldlM
    (fun introspected entry => do
      let model ← entry.2.introspect files none
      introspected.insertNested entry.1 model)
    (.ofRoot root)

end AppBundle
