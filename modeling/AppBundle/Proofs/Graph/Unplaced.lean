import AppBundle.Proofs.Graph.Sharing
import AppBundle.Proofs.Graph.Snapshot

namespace AppBundle

/-! Graphs without the places of their artifacts. A place is where a payload lies on one machine; only
a domain reference is written with the place that it has. Taking the other places away changes no key
and no edge, so that it may be done before a graph is closed or marked as well as afterwards, and what
is left of a record's graphs is the same over every local repository.
-/

/-- The artifact without its place, unless that is a part of it. -/
def Artifact.unplaced (artifact : Artifact) : Artifact :=
  { artifact with
    location := if artifact.coordinate.isDomain then artifact.location else none }

def Node.unplaced (node : Node) : Node :=
  node.replace node.artifact.unplaced node.children node.keyed

theorem Node.key_unplaced (node : Node) : node.unplaced.key = node.key :=
  rfl

def Nodes.unplaced (nodes : Nodes) : Nodes :=
  nodes.map Node.unplaced Node.key_unplaced

def Graph.unplaced (graph : Graph) : Graph :=
  { graph with nodes := graph.nodes.unplaced }

def Snapshot.unplaced (snapshot : Snapshot) : Snapshot :=
  { snapshot with nodes := snapshot.nodes.unplaced }

def Resolver.unplaced (resolver : Resolver) : Resolver where
  application := resolver.application.map Graph.unplaced
  module coordinate := (resolver.module coordinate).map Graph.unplaced
  artifact coordinate := (resolver.artifact coordinate).map Graph.unplaced

section Walk

variable {change : Node → Node} {nodes : Nodes} {unvisited : List Node}
  {queue starts : List Coordinate} {reference : Coordinate}
  {keeps : ∀ node, (change node).key = node.key}

def Visit.onNode (change : Node → Node) : Visit → Visit
  | reached reference node => reached reference (change node)
  | unresolved reference => unresolved reference

theorem withoutNode_map (keeps : ∀ node, (change node).key = node.key) :
    withoutNode reference (unvisited.map change) = (withoutNode reference unvisited).map change := by
  rw [withoutNode, withoutNode, List.filter_map]
  have unchanged : (fun node => !(change node).answers reference) = fun node =>
      !node.answers reference := by
    funext node
    rw [Node.answers, keeps, ← Node.answers]
  exact congrArg (fun test => (unvisited.filter test).map change) unchanged

theorem Nodes.contains_map : (nodes.map change keeps).contains reference = nodes.contains reference := by
  rw [Bool.eq_iff_iff, contains_iff, contains_iff, find?_map]
  simp

/-- A walk does not see a change of its nodes that keeps keys and edges. -/
theorem Nodes.walkOn_map (same : ∀ node, (change node).children = node.children) :
    (nodes.map change keeps).walkOn (unvisited.map change) queue =
      (nodes.walkOn unvisited queue).map (Visit.onNode change) := by
  induction unvisited, queue using walkOn_induction nodes with
  | nil unvisited => rw [walkOn_nil, walkOn_nil, List.map_nil]
  | cons unvisited first queue ih =>
      have met : (nodes.map change keeps).visit? (unvisited.map change) first =
          (nodes.visit? unvisited first).map (Visit.onNode change) := by
        rw [visit?, visit?, nodeFor?_map keeps, contains_map]
        cases nodeFor? unvisited first with
        | some node => rfl
        | none => cases nodes.contains first <;> rfl
      rw [walkOn_cons, walkOn_cons, withoutNode_map keeps, edgesOf_map keeps same, ih, met,
        List.map_append]
      cases nodes.visit? unvisited first <;> rfl

theorem Nodes.reachable_map (same : ∀ node, (change node).children = node.children) :
    (nodes.map change keeps).reachable starts =
      (nodes.reachable starts).map fun reached => (reached.1, change reached.2) := by
  have walked : (nodes.map change keeps).walk starts =
      (nodes.walk starts).map (Visit.onNode change) := walkOn_map same
  rw [reachable, walked, reachable, List.filterMap_map, List.map_filterMap]
  refine List.filterMap_congr fun visit _ => ?_
  cases visit <;> rfl

theorem Nodes.firstUnresolved?_map (same : ∀ node, (change node).children = node.children) :
    (nodes.map change keeps).firstUnresolved? starts = nodes.firstUnresolved? starts := by
  have walked : (nodes.map change keeps).walk starts =
      (nodes.walk starts).map (Visit.onNode change) := walkOn_map same
  rw [firstUnresolved?, walked, firstUnresolved?, List.findSome?_map]
  refine congrArg (fun search => (nodes.walk starts).findSome? search) (funext fun visit => ?_)
  cases visit <;> rfl

end Walk

section Unplaced

variable {nodes : Nodes} {artifact : Artifact} {children starts : List Coordinate}
  {entries : List (Artifact × List Coordinate)} {graph : Graph} {owner coordinate : Coordinate}
  {libraries : List SharedLibrary} {snapshot : Snapshot}

theorem Nodes.eq_of_entries {left right : Nodes} (same : left.entries = right.entries) :
    left = right := by
  obtain ⟨_, _⟩ := left
  obtain ⟨_, _⟩ := right
  cases same
  rfl

theorem putNode_unplaced {nodes : List Node} :
    putNode artifact.unplaced children (nodes.map Node.unplaced) =
      (putNode artifact children nodes).map Node.unplaced := by
  induction nodes with
  | nil => rfl
  | cons node rest ih =>
      rw [List.map_cons, putNode, putNode]
      by_cases same : node.key.identity = artifact.identity
      · rw [dif_pos same, dif_pos (show node.unplaced.key.identity = artifact.unplaced.identity from same)]
        rfl
      · rw [dif_neg same,
          dif_neg (show node.unplaced.key.identity ≠ artifact.unplaced.identity from same), ih,
          List.map_cons]

theorem Nodes.insert_unplaced :
    (nodes.insert artifact children).unplaced = nodes.unplaced.insert artifact.unplaced children :=
  eq_of_entries putNode_unplaced.symm

theorem Nodes.ofList_unplaced :
    (ofList entries).unplaced = ofList (entries.map fun entry => (entry.1.unplaced, entry.2)) := by
  have collected (nodes : Nodes) :
      (entries.foldl (fun nodes entry => nodes.insert entry.1 entry.2) nodes).unplaced =
        entries.foldl (fun nodes entry => nodes.insert entry.1.unplaced entry.2) nodes.unplaced := by
    induction entries generalizing nodes with
    | nil => rfl
    | cons entry rest ih => rw [List.foldl_cons, List.foldl_cons, ih, insert_unplaced]
  rw [ofList, collected, ofList, List.foldl_map]
  rfl

theorem Nodes.find?_unplaced :
    nodes.unplaced.find? coordinate = (nodes.find? coordinate).map Node.unplaced :=
  find?_map

theorem Nodes.contains_unplaced : nodes.unplaced.contains = nodes.contains :=
  funext fun _ => contains_map

theorem Nodes.reachable_unplaced :
    nodes.unplaced.reachable starts =
      (nodes.reachable starts).map fun reached => (reached.1, reached.2.unplaced) :=
  reachable_map fun _ => rfl

theorem Nodes.firstUnresolved?_unplaced :
    nodes.unplaced.firstUnresolved? starts = nodes.firstUnresolved? starts :=
  firstUnresolved?_map fun _ => rfl

theorem Nodes.stopAtModules_unplaced : nodes.unplaced.stopAtModules = nodes.stopAtModules.unplaced := by
  refine eq_of_entries ?_
  change (nodes.entries.map _).map _ = (nodes.entries.map _).map _
  rw [List.map_map, List.map_map]
  refine List.map_congr_left fun node _ => ?_
  change (if node.artifact.coordinate.isModule then node.unplaced.leaf else node.unplaced) =
    Node.unplaced (if node.artifact.coordinate.isModule then node.leaf else node)
  split <;> rfl

theorem Snapshot.closure_unplaced :
    (closure nodes owner starts).map Graph.unplaced = closure nodes.unplaced owner starts := by
  unfold closure
  rw [Nodes.firstUnresolved?_unplaced, Nodes.reachable_unplaced]
  cases nodes.firstUnresolved? starts with
  | some target => rfl
  | none =>
      rw [List.map_map]
      refine congrArg (fun nodes => Except.ok (Graph.mk owner starts nodes)) ?_
      rw [Nodes.ofList_unplaced, List.map_map]
      rfl

theorem Snapshot.resolver_unplaced : snapshot.resolver.unplaced = snapshot.unplaced.resolver := by
  have application : snapshot.application.map Graph.unplaced = snapshot.unplaced.application := by
    rw [Snapshot.application, closure_unplaced, ← Nodes.stopAtModules_unplaced]
    rfl
  have module (coordinate : Coordinate) :
      (snapshot.module coordinate).map Graph.unplaced = snapshot.unplaced.module coordinate := by
    have found : snapshot.unplaced.nodes.find? coordinate = _ := Nodes.find?_unplaced
    rw [Snapshot.module, Snapshot.module, found]
    cases snapshot.nodes.find? coordinate with
    | none => rfl
    | some node => exact closure_unplaced
  have artifact (coordinate : Coordinate) :
      (snapshot.artifact coordinate).map Graph.unplaced = snapshot.unplaced.artifact coordinate := by
    have known : snapshot.unplaced.nodes.contains = _ := Nodes.contains_unplaced
    rw [Snapshot.artifact, Snapshot.artifact, known]
    cases snapshot.nodes.contains coordinate with
    | false => rfl
    | true => exact closure_unplaced
  unfold Resolver.unplaced Snapshot.resolver
  rw [application, funext module, funext artifact]

namespace Graph

theorem reachableFrom_unplaced (coordinate : Coordinate) :
    graph.unplaced.reachableFrom coordinate = graph.reachableFrom coordinate := by
  have reached : graph.unplaced.nodes.reachable [coordinate] = _ := Nodes.reachable_unplaced
  rw [reachableFrom, reached, List.map_map]
  rfl

theorem flatten_unplaced : graph.unplaced.flatten = graph.flatten.map Artifact.unplaced := by
  have reached : graph.unplaced.nodes.reachable graph.direct = _ := Nodes.reachable_unplaced
  change (graph.unplaced.nodes.reachable graph.direct).map _ = _
  rw [reached, flatten, List.map_map, List.map_map]
  rfl

theorem validate_unplaced : graph.unplaced.validate = graph.validate := by
  have known : graph.unplaced.nodes.contains = _ := Nodes.contains_unplaced
  have dangling : graph.unplaced.danglingEdge? = graph.danglingEdge? := by
    unfold danglingEdge?
    rw [known]
    change (graph.nodes.entries.map _).findSome? _ = _
    rw [List.findSome?_map]
    rfl
  unfold validate
  rw [dangling, known]
  rfl

theorem setShared_unplaced {shared : Bool} :
    (graph.setShared coordinate shared).unplaced = graph.unplaced.setShared coordinate shared := by
  refine congrArg (Graph.mk graph.owner graph.direct) (Nodes.eq_of_entries ?_)
  change (graph.nodes.entries.map _).map _ = (graph.nodes.entries.map _).map _
  rw [List.map_map, List.map_map]
  refine List.map_congr_left fun node _ => ?_
  change Node.unplaced (if node.answers coordinate then node.setShared shared else node) =
    if node.answers coordinate then node.unplaced.setShared shared else node.unplaced
  split <;> rfl

theorem shareAll_unplaced : (graph.shareAll starts).unplaced = graph.unplaced.shareAll starts := by
  unfold shareAll
  rw [funext graph.reachableFrom_unplaced]
  generalize starts.flatMap graph.reachableFrom = references
  induction references generalizing graph with
  | nil => rfl
  | cons first rest ih => rw [List.foldl_cons, List.foldl_cons, ih, setShared_unplaced]

theorem propagateShared_unplaced :
    (graph.propagateShared libraries).map Graph.unplaced =
      graph.unplaced.propagateShared libraries := by
  have named : graph.unplaced.sharedStarts libraries = graph.sharedStarts libraries := rfl
  unfold propagateShared
  rw [named]
  cases graph.sharedStarts libraries with
  | error failure => rfl
  | ok starts => exact congrArg Except.ok shareAll_unplaced

end Graph

end Unplaced

section Records

variable {record : SnapshotRecord} {entry : SnapshotEntry} {left right : Path}

/-- A domain reference is recorded without a place, or with one that depends on no repository. -/
def SnapshotEntry.Anchored (entry : SnapshotEntry) : Prop :=
  ∀ coordinate location, Coordinate.parse? entry.coordinate = some coordinate →
    coordinate.isDomain = true → entry.location = some location →
      (Path.mk location).isAbsolute = true

theorem SnapshotEntry.locate_some {coordinate : Coordinate} {repository : Path}
    (other : coordinate.isDomain = false) :
    (entry.locate coordinate repository).isNone = false := by
  unfold locate
  split
  · split <;> rfl
  · rw [other]
    rfl

/-- What an anchored entry resolves to is the same over all repositories, but for its place. -/
theorem SnapshotEntry.resolve_unplaced (anchored : entry.Anchored) :
    (entry.resolve left).map (fun entry => (entry.1.unplaced, entry.2)) =
      (entry.resolve right).map fun entry => (entry.1.unplaced, entry.2) := by
  unfold resolve
  rw [map_bind, map_bind]
  cases parsed : Coordinate.parse entry.coordinate with
  | error failure => rfl
  | ok coordinate =>
      change Except.map _ (entry.dependencies.mapM Coordinate.parse >>= _) =
        Except.map _ (entry.dependencies.mapM Coordinate.parse >>= _)
      rw [map_bind, map_bind]
      refine congrArg (entry.dependencies.mapM Coordinate.parse >>= ·) (funext fun children => ?_)
      cases domain : coordinate.isDomain with
      | true =>
          have fixed : entry.locate { coordinate with scope := entry.scope } left =
              entry.locate { coordinate with scope := entry.scope } right := by
            unfold locate
            cases stated : entry.location with
            | none => simp only [Coordinate.isDomain] at domain ⊢; simp [domain]
            | some location =>
                have absolute := anchored coordinate location
                  (Coordinate.parse_ok.mp parsed) domain stated
                simp [absolute]
          rw [fixed]
      | false =>
          have other : ({ coordinate with scope := entry.scope } : Coordinate).isDomain = false :=
            domain
          simp only [Artifact.resolved, locate_some other, Bool.false_and, Bool.false_eq_true,
            if_false]
          simp [Artifact.unplaced, other, bind, Except.bind, pure, Except.pure, Except.map]

/-- What a record loads to is the same over all repositories, but for places. -/
theorem Snapshot.ofRecord_unplaced (anchored : ∀ entry ∈ record.nodes, entry.Anchored)
    (left right : Path) :
    (ofRecord record left).map unplaced = (ofRecord record right).map unplaced := by
  have entries : (record.nodes.mapM (SnapshotEntry.resolve · left)).map
      (List.map fun entry => (entry.1.unplaced, entry.2)) =
        (record.nodes.mapM (SnapshotEntry.resolve · right)).map
          (List.map fun entry => (entry.1.unplaced, entry.2)) := by
    rw [map_mapM fun entry member => SnapshotEntry.resolve_unplaced (anchored entry member)]
    exact (map_mapM fun _ _ => rfl).symm
  unfold ofRecord
  simp only [map_bind]
  refine congrArg (Coordinate.parse record.root >>= ·) (funext fun root => ?_)
  refine congrArg (record.dependencies.mapM Coordinate.parse >>= ·) (funext fun direct => ?_)
  have rebuilt (found : List (Artifact × List Coordinate)) :
      Except.map unplaced (pure ⟨root, direct, .ofList found⟩ : Except Failure Snapshot) =
        pure ⟨root, direct, .ofList (found.map fun entry => (entry.1.unplaced, entry.2))⟩ :=
    congrArg (fun nodes => Except.ok (Snapshot.mk root direct nodes)) Nodes.ofList_unplaced
  have loaded := congrArg (fun found : Except Failure _ => found >>= fun entries =>
    (pure ⟨root, direct, .ofList entries⟩ : Except Failure Snapshot)) entries
  simpa only [rebuilt, bind_of_map] using loaded

end Records

end AppBundle
