import AppBundle.Coordinate
import AppBundle.Json.Reader

namespace AppBundle

/-!
What can go wrong while an application is packaged, as causes; `Failure.message` words them.
-/

def quotedLocation : Option String → String
  | none => "None"
  | some location => "Some(" ++ Text.quoted location ++ ")"

/-- How a resolved graph can contradict itself or an earlier answer. -/
inductive Inconsistency where
  /-- A direct dependency has no node. -/
  | ownerDangles (target : Coordinate)
  /-- A node has an edge to no node. -/
  | nodeDangles (source target : Coordinate)
  /-- The whole resolution has no node for a coordinate that it refers to. -/
  | neverResolved (target : Coordinate)
  /-- The query for a module was answered for another owner. -/
  | answeredFor (owner : Coordinate)
  | dependsOnItself
  /-- A module and the application found one artifact at different places. -/
  | relocated (module : Coordinate) (inModule inApplication : Option String)
deriving DecidableEq

def Inconsistency.message : Inconsistency → String
  | ownerDangles target => "owner references unresolved dependency " ++ target.text
  | nodeDangles source target =>
      source.text ++ " references unresolved dependency " ++ target.text
  | neverResolved target => target.text ++ " is referenced but was never resolved"
  | answeredFor owner => "module query answered for " ++ owner.text
  | dependsOnItself => "module depends on itself"
  | relocated module inModule inApplication =>
      "module " ++ module.text ++ " resolved it at " ++ quotedLocation inModule ++
        " but the application resolved it at " ++ quotedLocation inApplication

/-- What was looked up in vain. -/
inductive Absence where
  | moduleNode (module : Coordinate)
  | artifactNode (artifact : Coordinate)
  /-- The module that additional dependencies are declared for. -/
  | additionTarget (group name : String)
  /-- The application's own dependency on a model that is merged into it. -/
  | mergeTarget (owner : Coordinate)
deriving DecidableEq

def Absence.message : Absence → String
  | moduleNode module =>
      module.text ++ " not found: module is not part of the resolved graph"
  | artifactNode artifact =>
      artifact.text ++ " not found: artifact is not part of the resolved graph"
  | additionTarget group name =>
      group ++ ":" ++ name ++ " not found: additional dependencies are configured for a module " ++
        "the application does not depend on"
  | mergeTarget owner =>
      owner.text ++ " not found: nested model has no matching application dependency"

inductive Misconfiguration where
  | unknownPolicy (name : String)
  | unreadable (file : Path) (reason : Json.ReadError)
  | noConcurrency
  | emptyPlaceholder
  | incompleteSharedLibrary (group name : String)
deriving DecidableEq

def Misconfiguration.message : Misconfiguration → String
  | unknownPolicy name => "unknown merge policy '" ++ name ++ "'"
  | unreadable file reason => file.shown ++ ": " ++ reason.message
  | noConcurrency => "concurrency must be at least 1"
  | emptyPlaceholder => "repository_placeholder must not be empty"
  | incompleteSharedLibrary group name =>
      "shared library '" ++ group ++ ":" ++ name ++ "' needs both group and name"

inductive Failure where
  | inconsistentResolution (subject : Coordinate) (cause : Inconsistency)
  | duplicateDefinition (coordinate : Coordinate)
  | missingCoordinate (absence : Absence)
  | missingSharedLibrary (group name : String)
  | missingLocation (coordinate : Coordinate)
  | invalidCoordinate (text : String)
  | file (path : Path)
  | installation (coordinate : Coordinate) (source target : Path)
  | json (cause : Json.ReadError)
  /-- A path that is no text was to be written in JSON. -/
  | unwritablePath
  | pom
  | archive
  | configuration (cause : Misconfiguration)
deriving DecidableEq

def Failure.message : Failure → String
  | inconsistentResolution subject cause =>
      "Resolver returned inconsistent results for " ++ subject.text ++ ": " ++ cause.message
  | duplicateDefinition coordinate =>
      "Classloader model for " ++ coordinate.text ++ " is defined more than once"
  | missingCoordinate absence => "Coordinate " ++ absence.message
  | missingSharedLibrary group name =>
      "Shared library " ++ group ++ ":" ++ name ++ " is not a dependency of the application"
  | missingLocation coordinate => "Artifact " ++ coordinate.text ++ " has no resolved location"
  | invalidCoordinate text => "Invalid package coordinate: " ++ text
  | file path => "IO error at " ++ path.quoted
  | installation coordinate source target =>
      "Failed to install " ++ coordinate.text ++ " from " ++ source.quoted ++ " to " ++
        target.quoted
  | json cause => "JSON error: " ++ cause.message
  | unwritablePath => "JSON error: path contains invalid UTF-8 characters"
  | pom => "POM parse error"
  | archive => "Zip read error"
  | configuration cause => "Configuration error: " ++ cause.message

/-- Reads a coordinate, or refuses the text as it was given. -/
def Coordinate.parse (text : String) : Except Failure Coordinate :=
  match Coordinate.parse? text with
  | some coordinate => .ok coordinate
  | none => .error (.invalidCoordinate text)

end AppBundle
