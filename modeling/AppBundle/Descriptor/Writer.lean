import AppBundle.Json.Value
import AppBundle.Portable

namespace AppBundle

/-!
Descriptors, the written form of models. Empty sets of namespaces and resources are left out, a
mark of sharing is written only where it is set, and the additional dependencies come last, if
there are any. `Presentation` says which location is written for an artifact.
-/

def fieldIf (condition : Bool) (name : String) (value : Json) : List (String × Json) :=
  if condition then [(name, value)] else []

def optionalField (name : String) : Option String → List (String × Json)
  | none => []
  | some value => [(name, .text value)]

/-- A field for a set of names, which is left out where it is empty. -/
def namesField (name : String) (names : NameSet) : List (String × Json) :=
  fieldIf (!names.isEmpty) name (.texts names.names)

def Coordinate.toJson (coordinate : Coordinate) : Json :=
  .object
    ([("groupId", .text coordinate.group), ("artifactId", .text coordinate.name),
      ("version", .text coordinate.version), ("type", .text coordinate.kind)] ++
      optionalField "classifier" coordinate.classifier ++
        optionalField "scope" coordinate.scope)

def Artifact.toJson (artifact : Artifact) : Json :=
  .object
    ([("artifactCoordinates", artifact.coordinate.toJson)] ++
      optionalField "uri" artifact.location ++
        fieldIf artifact.shared "shared" (.boolean true) ++
          namesField "packages" artifact.namespaces ++
            namesField "resources" artifact.resources)

/-- How an artifact shows in a descriptor. -/
abbrev Presentation := Artifact → Artifact

def artifactsJson (present : Presentation) (artifacts : List Artifact) : Json :=
  .array (artifacts.map fun artifact => (present artifact).toJson)

def DependencySet.toJson (set : DependencySet) : Json :=
  artifactsJson id set.artifacts

def Addition.toJson (present : Presentation) (addition : Addition) : Json :=
  .object
    [("groupId", .text addition.group), ("artifactId", .text addition.name),
      ("additionalDependencies", artifactsJson present addition.dependencies)]

namespace Model

def toJson (present : Presentation) (model : Model) : Json :=
  .object
    ([("version", .text model.formatVersion), ("artifactCoordinates", model.owner.toJson),
      ("dependencies", artifactsJson present model.dependencies.artifacts)] ++
        namesField "packages" model.namespaces ++ namesField "resources" model.resources ++
          fieldIf (!model.additions.isEmpty) "additionalPluginDependencies"
            (.array (model.additions.map (·.toJson present))))

def descriptor (present : Presentation) (pretty : Bool) (model : Model) : String :=
  (model.toJson present).render pretty

end Model

end AppBundle
