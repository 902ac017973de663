import AppBundle.Graph.Basic

namespace AppBundle

/-!
Answers of dependency resolution. A `Resolver` is what packaging asks; a `Snapshot` is a recorded
resolution that answers from its nodes.
-/

structure Resolver where
  /-- The application's graph, in which modules have no edges. -/
  application : Except Failure Graph
  /-- The graph of one module, owned by it. -/
  module : Coordinate → Except Failure Graph
  /-- An artifact with everything it leads to. -/
  artifact : Coordinate → Except Failure Graph

structure SnapshotEntry where
  coordinate : String
  location : Option String
  scope : Option String
  dependencies : List String
deriving DecidableEq

structure SnapshotRecord where
  root : String
  dependencies : List String
  nodes : List SnapshotEntry
deriving DecidableEq

structure Snapshot where
  root : Coordinate
  direct : List Coordinate
  nodes : Nodes
deriving DecidableEq

/-- The place of a node's payload. Relative places, and those that follow from the coordinate, lie
in the local repository, and are repaired where its path is no text. -/
def SnapshotEntry.locate (entry : SnapshotEntry) (coordinate : Coordinate)
    (localRepository : Path) : Option String :=
  match entry.location with
  | some location =>
      if (Path.mk location).isAbsolute then some location
      else some (localRepository.join ⟨location⟩).shown
  | none =>
      if coordinate.isDomain then none
      else some (localRepository.join coordinate.localPath).shown

def SnapshotEntry.resolve (entry : SnapshotEntry) (localRepository : Path) :
    Except Failure (Artifact × List Coordinate) := do
  let coordinate ← Coordinate.parse entry.coordinate
  let coordinate := { coordinate with scope := entry.scope }
  let location := entry.locate coordinate localRepository
  let children ← entry.dependencies.mapM Coordinate.parse
  let artifact ← Artifact.resolved coordinate location
  return (artifact, children)

namespace Snapshot

/-- Reads a record. Of several nodes with one identity the last one counts. -/
def ofRecord (record : SnapshotRecord) (localRepository : Path) : Except Failure Snapshot := do
  let root ← Coordinate.parse record.root
  let direct ← record.dependencies.mapM Coordinate.parse
  let entries ← record.nodes.mapM (·.resolve localRepository)
  return ⟨root, direct, .ofList entries⟩

/-- The graph of everything that some nodes lead to. Every coordinate on the way must have a node. -/
def closure (nodes : Nodes) (owner : Coordinate) (starts : List Coordinate) :
    Except Failure Graph :=
  match nodes.firstUnresolved? starts with
  | some target => .error (.inconsistentResolution owner (.neverResolved target))
  | none =>
      .ok
        { owner
          direct := starts
          nodes := .ofList ((nodes.reachable starts).map fun (_, node) =>
            (node.artifact, node.children)) }

def application (snapshot : Snapshot) : Except Failure Graph :=
  closure snapshot.nodes.stopAtModules snapshot.root snapshot.direct

def module (snapshot : Snapshot) (coordinate : Coordinate) : Except Failure Graph :=
  match snapshot.nodes.find? coordinate with
  | some node => closure snapshot.nodes node.artifact.coordinate node.children
  | none => .error (.missingCoordinate (.moduleNode coordinate))

def artifact (snapshot : Snapshot) (coordinate : Coordinate) : Except Failure Graph :=
  if snapshot.nodes.contains coordinate then closure snapshot.nodes coordinate [coordinate]
  else .error (.missingCoordinate (.artifactNode coordinate))

def resolver (snapshot : Snapshot) : Resolver :=
  ⟨snapshot.application, snapshot.module, snapshot.artifact⟩

end Snapshot

end AppBundle
