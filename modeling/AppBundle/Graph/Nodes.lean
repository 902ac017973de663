import AppBundle.Artifact

namespace AppBundle

/-!
The nodes of a dependency graph, one for each identity, and the breadth-first walk over them. The
walk keeps the nodes it has not visited yet; visiting one takes it away together with its edges,
which is why every node is visited once and why the walk ends, whatever cycles there are.
-/

/-- A resolved artifact with its outgoing edges. The key is the coordinate it was first added by. -/
structure Node where
  key : Coordinate
  artifact : Artifact
  children : List Coordinate
  keyed : key.identity = artifact.identity
deriving DecidableEq

namespace Node

def ofArtifact (artifact : Artifact) (children : List Coordinate) : Node :=
  ⟨artifact.coordinate, artifact, children, rfl⟩

def answers (node : Node) (reference : Coordinate) : Bool :=
  node.key.identity = reference.identity

/-- A new artifact and new edges under the old key. -/
def replace (node : Node) (artifact : Artifact) (children : List Coordinate)
    (same : node.key.identity = artifact.identity) : Node :=
  ⟨node.key, artifact, children, same⟩

def setShared (node : Node) (shared : Bool) : Node :=
  node.replace { node.artifact with shared } node.children node.keyed

def leaf (node : Node) : Node :=
  node.replace node.artifact [] node.keyed

end Node

abbrev DistinctNodes (nodes : List Node) : Prop :=
  nodes.Pairwise (·.key.identity ≠ ·.key.identity)

/-- Adds a node, or gives the node of the same identity a new artifact and new edges. -/
def putNode (artifact : Artifact) (children : List Coordinate) : List Node → List Node
  | [] => [.ofArtifact artifact children]
  | node :: rest =>
      if same : node.key.identity = artifact.identity then
        node.replace artifact children same :: rest
      else node :: putNode artifact children rest

theorem identity_of_mem_putNode {artifact : Artifact} {children : List Coordinate}
    {nodes : List Node} {node : Node} (member : node ∈ putNode artifact children nodes) :
    node.key.identity = artifact.identity ∨ node ∈ nodes := by
  induction nodes with
  | nil =>
      rw [putNode, List.mem_singleton] at member
      subst node
      exact .inl rfl
  | cons first rest ih =>
      simp only [putNode] at member
      split at member
      · next same =>
          rcases List.mem_cons.mp member with rfl | later
          · exact .inl same
          · exact .inr (List.mem_cons_of_mem _ later)
      · rcases List.mem_cons.mp member with rfl | later
        · exact .inr (List.mem_cons_self ..)
        · exact (ih later).imp_right (List.mem_cons_of_mem _)

theorem putNode_distinct {artifact : Artifact} {children : List Coordinate} {nodes : List Node}
    (distinct : DistinctNodes nodes) : DistinctNodes (putNode artifact children nodes) := by
  induction nodes with
  | nil => simp [putNode]
  | cons first rest ih =>
      obtain ⟨different, others⟩ := List.pairwise_cons.mp distinct
      simp only [putNode]
      split
      · exact List.pairwise_cons.mpr ⟨different, others⟩
      · next other =>
          refine List.pairwise_cons.mpr ⟨fun node member => ?_, ih others⟩
          rcases identity_of_mem_putNode member with same | later
          · exact fun equal => other (equal.trans same)
          · exact different node later

structure Nodes where
  entries : List Node
  distinct : DistinctNodes entries
deriving DecidableEq

/-- What a walk meets. -/
inductive Visit where
  /-- A node, and the coordinate that led to it. -/
  | reached (reference : Coordinate) (node : Node)
  | unresolved (reference : Coordinate)
deriving DecidableEq

def withoutNode (reference : Coordinate) (nodes : List Node) : List Node :=
  nodes.filter fun node => !node.answers reference

/-- The edges out of some nodes, counted with one more for each node. -/
def edgeCount : List Node → Nat
  | [] => 0
  | node :: rest => node.children.length + 1 + edgeCount rest

@[simp]
theorem edgeCount_cons (node : Node) (rest : List Node) :
    edgeCount (node :: rest) = node.children.length + 1 + edgeCount rest :=
  rfl

theorem withoutNode_cons (reference : Coordinate) (node : Node) (rest : List Node) :
    withoutNode reference (node :: rest) =
      if node.answers reference then withoutNode reference rest
      else node :: withoutNode reference rest := by
  cases answered : node.answers reference <;> simp [withoutNode, answered]

theorem edgeCount_withoutNode_le (reference : Coordinate) (nodes : List Node) :
    edgeCount (withoutNode reference nodes) ≤ edgeCount nodes := by
  induction nodes with
  | nil => exact Nat.le_refl _
  | cons node rest ih =>
      rw [withoutNode_cons]
      split
      · rw [edgeCount_cons]
        omega
      · simpa only [edgeCount_cons] using Nat.add_le_add_left ih _

theorem edgeCount_withoutNode_lt {reference : Coordinate} {nodes : List Node} {node : Node}
    (found : nodes.find? (·.answers reference) = some node) :
    edgeCount (withoutNode reference nodes) + node.children.length < edgeCount nodes := by
  induction nodes with
  | nil => simp at found
  | cons next rest ih =>
      rw [List.find?_cons] at found
      rw [withoutNode_cons, edgeCount_cons]
      cases answered : next.answers reference with
      | true =>
          have same : next = node := by simpa [answered] using found
          have smaller := edgeCount_withoutNode_le reference rest
          subst same
          simp only [if_true]
          omega
      | false =>
          have later : edgeCount (withoutNode reference rest) + node.children.length <
              edgeCount rest :=
            ih (by simpa [answered] using found)
          simp only [Bool.false_eq_true, if_false, edgeCount_cons]
          omega

namespace Nodes

def empty : Nodes :=
  ⟨[], .nil⟩

def insert (nodes : Nodes) (artifact : Artifact) (children : List Coordinate) : Nodes :=
  ⟨putNode artifact children nodes.entries, putNode_distinct nodes.distinct⟩

/-- Collects nodes; a later one replaces an earlier one of its identity. -/
def ofList (entries : List (Artifact × List Coordinate)) : Nodes :=
  entries.foldl (fun nodes entry => nodes.insert entry.1 entry.2) empty

def find? (nodes : Nodes) (reference : Coordinate) : Option Node :=
  nodes.entries.find? (·.answers reference)

def contains (nodes : Nodes) (reference : Coordinate) : Bool :=
  nodes.entries.any (·.answers reference)

def size (nodes : Nodes) : Nat :=
  nodes.entries.length

def map (change : Node → Node) (keeps : ∀ node, (change node).key = node.key) (nodes : Nodes) :
    Nodes :=
  { entries := nodes.entries.map change
    distinct := by
      rw [DistinctNodes, List.pairwise_map]
      simpa only [keeps] using nodes.distinct }

def setShared (nodes : Nodes) (reference : Coordinate) (shared : Bool) : Nodes :=
  nodes.map (fun node => if node.answers reference then node.setShared shared else node)
    (by intro node; split <;> rfl)

/-- The same nodes, with no edges out of modules. -/
def stopAtModules (nodes : Nodes) : Nodes :=
  nodes.map (fun node => if node.artifact.coordinate.isModule then node.leaf else node)
    (by intro node; split <;> rfl)

/-- Walks on with a queue of coordinates and the nodes that are not visited yet. -/
def walkOn (nodes : Nodes) (unvisited : List Node) : List Coordinate → List Visit
  | [] => []
  | reference :: queue =>
      match _found : unvisited.find? (·.answers reference) with
      | some node =>
          .reached reference node ::
            nodes.walkOn (withoutNode reference unvisited) (queue ++ node.children)
      | none =>
          if nodes.contains reference then nodes.walkOn unvisited queue
          else .unresolved reference :: nodes.walkOn unvisited queue
termination_by queue => edgeCount unvisited + queue.length
decreasing_by
  · have fewer := edgeCount_withoutNode_lt _found
    simp only [List.length_append, List.length_cons]
    omega
  · exact Nat.lt_succ_self _
  · exact Nat.lt_succ_self _

def walk (nodes : Nodes) (starts : List Coordinate) : List Visit :=
  nodes.walkOn nodes.entries starts

end Nodes

/-- The nodes that a walk reaches, each with the coordinate that led to it. -/
def Visit.reachedNode? : Visit → Option (Coordinate × Node)
  | reached reference node => some (reference, node)
  | unresolved _ => none

def Visit.unresolved? : Visit → Option Coordinate
  | reached _ _ => none
  | unresolved reference => some reference

namespace Nodes

/-- The nodes that can be reached, in breadth-first order. -/
def reachable (nodes : Nodes) (starts : List Coordinate) : List (Coordinate × Node) :=
  (nodes.walk starts).filterMap Visit.reachedNode?

/-- The first coordinate without a node that the walk comes to. -/
def firstUnresolved? (nodes : Nodes) (starts : List Coordinate) : Option Coordinate :=
  (nodes.walk starts).findSome? Visit.unresolved?

end Nodes

end AppBundle
