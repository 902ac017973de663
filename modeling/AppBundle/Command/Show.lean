import AppBundle.Descriptor.File

namespace AppBundle

/-!
The command that sums up a descriptor.
-/

structure Summary where
  owner : String
  formatVersion : String
  dependencies : Nat
  shared : List String
  modules : List String
  namespaces : Nat
  resources : Nat
  additions : List String
deriving DecidableEq

def Addition.summary (addition : Addition) : String :=
  addition.group ++ ":" ++ addition.name ++ " (+" ++ toString addition.dependencies.length ++ ")"

def Model.summary (model : Model) : Summary where
  owner := model.owner.text
  formatVersion := model.formatVersion
  dependencies := model.dependencies.size
  shared := (model.dependencies.artifacts.filter (·.shared)).map (·.key)
  modules := (model.dependencies.artifacts.filter (·.coordinate.isModule)).map (·.key)
  namespaces := model.namespaces.size
  resources := model.resources.size
  additions := model.additions.map (·.summary)

def Summary.toJson (summary : Summary) : Json :=
  .object
    [("owner", .text summary.owner), ("version", .text summary.formatVersion),
      ("dependencies", .natural summary.dependencies), ("shared", .texts summary.shared),
      ("modules", .texts summary.modules), ("packages", .natural summary.namespaces),
      ("resources", .natural summary.resources),
      ("additional_module_dependencies", .texts summary.additions)]

def showDescriptor (files : FileSystem) (path : Path) : Except Failure Summary :=
  (Model.load files path).map Model.summary

end AppBundle
