import AppBundle.Model

namespace AppBundle

/-!
Merging models that were built elsewhere into an application. The application must depend on a
model's owner already, and each model is merged once. A policy decides whether the dependencies of
a merged model also join the root.
-/

inductive MergePolicy where
  /-- Dependencies of merged models join the root, for readers that know no nesting. -/
  | inlined
  | legacy
deriving DecidableEq

namespace MergePolicy

def default : MergePolicy := legacy

def name : MergePolicy → String
  | inlined => "inline"
  | legacy => "legacy"

def named : List (String × MergePolicy) :=
  [(inlined.name, inlined), (legacy.name, legacy)]

/-- Reads a policy's name; blanks around it and the case of its letters do not matter. -/
def parse (text : String) : Except Failure MergePolicy :=
  let name := Text.lowerAscii (Text.trim text)
  match named.lookup name with
  | some policy => .ok policy
  | none => .error (.configuration (.unknownPolicy name))

def joinsRoot : MergePolicy → Model → List Artifact
  | inlined, model => model.dependencies.artifacts
  | legacy, _ => []

end MergePolicy

namespace Application

/-- Adds artifacts to the root; what is there already stays. -/
def insertAtRoot (application : Application) (artifacts : List Artifact) : Application :=
  { application with
    root := { application.root with
      dependencies := application.root.dependencies.insertAll artifacts } }

/-- Merges one model, under the coordinate by which the root depends on it. -/
def merge (policy : MergePolicy) (application : Application) (model : Model) :
    Except Failure Application :=
  match application.root.dependencies.find? model.owner with
  | none => .error (.missingCoordinate (.mergeTarget model.owner))
  | some target => do
      let merged ← application.insertNested target.coordinate model
      return merged.insertAtRoot (policy.joinsRoot model)

def mergeAll (policy : MergePolicy) (application : Application) (models : List Model) :
    Except Failure Application :=
  models.foldlM (merge policy) application

end Application

end AppBundle
