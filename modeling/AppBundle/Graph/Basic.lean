import AppBundle.Graph.Nodes
import AppBundle.DependencySet

namespace AppBundle

/-!
Resolved dependency graphs: an owner, its direct dependencies in order, and the nodes that they and
the nodes' own edges refer to.
-/

structure Graph where
  owner : Coordinate
  direct : List Coordinate
  nodes : Nodes
deriving DecidableEq

namespace Graph

def empty (owner : Coordinate) : Graph :=
  ⟨owner, [], .empty⟩

def addNode (graph : Graph) (artifact : Artifact) (children : List Coordinate) : Graph :=
  { graph with nodes := graph.nodes.insert artifact children }

def danglingEdge? (graph : Graph) : Option (Coordinate × Coordinate) :=
  graph.nodes.entries.findSome? fun node =>
    (node.children.find? fun child => !graph.nodes.contains child).map (node.key, ·)

/-- Every edge must lead to a node. -/
def validate (graph : Graph) : Except Failure Unit :=
  match graph.direct.find? fun target => !graph.nodes.contains target with
  | some target => .error (.inconsistentResolution graph.owner (.ownerDangles target))
  | none =>
      match graph.danglingEdge? with
      | some (source, target) =>
          .error (.inconsistentResolution graph.owner (.nodeDangles source target))
      | none => .ok ()

def findDirect? (graph : Graph) (group name : String) : Option Coordinate :=
  graph.direct.find? (·.isNamed group name)

/-- The coordinates that a breadth-first walk reaches, the start included. -/
def reachableFrom (graph : Graph) (start : Coordinate) : List Coordinate :=
  (graph.nodes.reachable [start]).map (·.1)

/-- The artifacts that the direct dependencies lead to, in breadth-first order. -/
def flatten (graph : Graph) : List Artifact :=
  (graph.nodes.reachable graph.direct).map (·.2.artifact)

def setShared (graph : Graph) (reference : Coordinate) (shared : Bool) : Graph :=
  { graph with nodes := graph.nodes.setShared reference shared }

end Graph

end AppBundle
