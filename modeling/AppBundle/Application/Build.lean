import AppBundle.Model
import AppBundle.Resolver

namespace AppBundle

/-!
Building an application from its resolved graph. The root model lists everything the graph leads
to. Each module among it is resolved on its own and becomes a nested model, one level deep.
-/

/-- A module may not depend on itself, and may not have found an artifact elsewhere than the
application did. -/
def checkConsistent (module : Coordinate) (rootDependencies : DependencySet)
    (artifact : Artifact) : Except Failure Unit :=
  if artifact.identity = module.identity then
    .error (.inconsistentResolution module .dependsOnItself)
  else
    match rootDependencies.find? artifact.coordinate with
    | none => .ok ()
    | some known =>
        if known.location = artifact.location then .ok ()
        else
          .error (.inconsistentResolution artifact.coordinate
            (.relocated module artifact.location known.location))

/-- The model of a module from the answer to its query. -/
def Model.ofModuleGraph (module : Coordinate) (rootDependencies : DependencySet) (graph : Graph) :
    Except Failure Model := do
  if graph.owner.identity ≠ module.identity then
    throw (.inconsistentResolution module (.answeredFor graph.owner))
  graph.validate
  let dependencies := graph.flatten
  dependencies.forM (checkConsistent module rootDependencies)
  return .ofDependencies module (.ofList dependencies)

/-- The orders in which queries complete when at most `limit` of them run at a time. They start in
the order of the list, so that the next one to complete is among the first `limit` left. -/
inductive CompletionOrder (limit : Nat) : List Coordinate → List Coordinate → Prop where
  | done : CompletionOrder limit [] []
  | next {before after order : List Coordinate} {module : Coordinate}
      (running : before.length < limit) (rest : CompletionOrder limit (before ++ after) order) :
      CompletionOrder limit (before ++ module :: after) (module :: order)

namespace Application

/-- Resolves a module and gives its entry among the nested models. -/
def moduleEntry (resolver : Resolver) (rootDependencies : DependencySet) (module : Coordinate) :
    Except Failure (Coordinate × Model) := do
  let graph ← resolver.module module
  let model ← Model.ofModuleGraph module rootDependencies graph
  return (module, model)

def insertEntries (application : Application) (entries : List (Coordinate × Model)) :
    Except Failure Application :=
  entries.foldlM (fun application entry => application.insertNested entry.1 entry.2) application

def modulesOf (artifacts : List Artifact) : List Coordinate :=
  (artifacts.map (·.coordinate)).filter (·.isModule)

/-- Builds from a root graph whose modules are resolved in a given order. The first query that
fails ends the build. -/
def buildInOrder (resolver : Resolver) (root : Graph) (order : List Coordinate) :
    Except Failure Application := do
  root.validate
  let rootDependencies := DependencySet.ofList root.flatten
  let entries ← order.mapM (moduleEntry resolver rootDependencies)
  (ofRoot (.ofDependencies root.owner (.ofList rootDependencies.artifacts))).insertEntries entries

def build (resolver : Resolver) (root : Graph) : Except Failure Application :=
  buildInOrder resolver root (modulesOf root.flatten)

/-- An outcome of building with a number of module queries at a time, at least one. -/
def BuildsTo (resolver : Resolver) (root : Graph) (concurrency : Nat)
    (outcome : Except Failure Application) : Prop :=
  ∃ order, CompletionOrder (max concurrency 1) (modulesOf root.flatten) order ∧
    outcome = buildInOrder resolver root order

end Application

end AppBundle
