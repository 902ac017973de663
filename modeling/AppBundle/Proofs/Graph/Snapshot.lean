import Mathlib.Data.List.Induction
import AppBundle.Resolver
import AppBundle.Proofs.Graph.Walk
import AppBundle.Proofs.Traversal

namespace AppBundle

/-! The graphs that a recorded resolution answers with. Each holds exactly the nodes that its direct
dependencies lead to, with the edges of the record; the application's graph has no edges out of
modules.
-/

/-- What a node says under any key of its identity. -/
def Node.content (node : Node) : Artifact × List Coordinate :=
  (node.artifact, node.children)

namespace Nodes

variable {nodes : Nodes} {artifact : Artifact} {children : List Coordinate} {reference : Coordinate}
  {entries : List (Artifact × List Coordinate)}

theorem edges_eq_content :
    nodes.edges reference = ((nodes.find? reference).map Node.content).elim [] Prod.snd := by
  cases found : nodes.find? reference with
  | none => exact edgesOf_absent found
  | some node => exact edgesOf_found found

theorem nodeFor?_putNode_content {nodes : List Node} :
    (nodeFor? (putNode artifact children nodes) reference).map Node.content =
      if artifact.identity = reference.identity then some (artifact, children)
      else (nodeFor? nodes reference).map Node.content := by
  induction nodes with
  | nil =>
      rw [putNode, nodeFor?_cons]
      change (if artifact.identity = reference.identity then _ else _ : Option Node).map _ = _
      split <;> rfl
  | cons node rest ih =>
      rw [putNode]
      split
      · next same =>
          rw [nodeFor?_cons, nodeFor?_cons]
          change (if node.key.identity = reference.identity then _ else _ : Option Node).map _ = _
          rw [same]
          split <;> rfl
      · next different =>
          rw [nodeFor?_cons, nodeFor?_cons]
          split
          · next here =>
              have other : artifact.identity ≠ reference.identity := fun same =>
                different (here.trans same.symm)
              rw [if_neg other]
          · exact ih

theorem find?_insert_content :
    ((nodes.insert artifact children).find? reference).map Node.content =
      if artifact.identity = reference.identity then some (artifact, children)
      else (nodes.find? reference).map Node.content :=
  nodeFor?_putNode_content

theorem find?_artifact {node : Node} (member : node ∈ nodes.entries) :
    nodes.find? node.artifact.coordinate = some node :=
  find?_iff_mem.mpr ⟨member, node.keyed⟩

/-- Of several entries with one identity the last one counts. -/
theorem find?_ofList_content :
    ((ofList entries).find? reference).map Node.content =
      entries.reverse.find? fun entry => entry.1.identity = reference.identity := by
  induction entries using List.reverseRecOn with
  | nil => rfl
  | append_singleton entries entry ih =>
      rw [ofList, List.foldl_append, List.foldl_cons, List.foldl_nil, ← ofList,
        find?_insert_content, ih, List.reverse_append, List.reverse_singleton, List.singleton_append, List.find?_cons]
      by_cases same : entry.1.identity = reference.identity <;> simp [same]

theorem find?_map {change : Node → Node} {keeps : ∀ node, (change node).key = node.key} :
    (nodes.map change keeps).find? reference = (nodes.find? reference).map change :=
  nodeFor?_map keeps

/-- The artifacts that are reached follow from the edges and from what the nodes say. -/
theorem reached_iff_content {starts : List Coordinate} :
    (∃ node, nodes.Reached starts node ∧ node.artifact = artifact) ↔
      ∃ reference, Leads nodes.edges starts reference ∧
        ∃ children, (nodes.find? reference).map Node.content = some (artifact, children) := by
  simp only [reached_iff, Option.map_eq_some_iff, Node.content, Prod.mk.injEq]
  constructor
  · intro reached
    obtain ⟨node, ⟨reference, led, found⟩, same⟩ := reached
    exact ⟨reference, led, node.children, node, found, same, rfl⟩
  · intro reached
    obtain ⟨reference, led, _, node, found, same, _⟩ := reached
    exact ⟨node, ⟨reference, led, found⟩, same⟩

theorem of_mem_stopAtModules {node : Node} (member : node ∈ nodes.stopAtModules.entries) :
    ∃ whole ∈ nodes.entries, whole.artifact = node.artifact := by
  obtain ⟨whole, listed, rfl⟩ := List.mem_map.mp member
  refine ⟨whole, listed, ?_⟩
  split <;> rfl

theorem children_of_mem_stopAtModules {node : Node} (member : node ∈ nodes.stopAtModules.entries)
    (isolated : node.artifact.coordinate.isModule = true) : node.children = [] := by
  obtain ⟨old, _, rfl⟩ := List.mem_map.mp member
  split at isolated
  · next stopped =>
      rw [if_pos stopped]
      rfl
  · next apart => exact absurd isolated apart

end Nodes

namespace Snapshot

variable {nodes : Nodes} {owner reference : Coordinate} {starts : List Coordinate} {graph : Graph}
  {artifact : Artifact}

theorem closure_ok :
    closure nodes owner starts = .ok graph ↔
      (∀ reference, Leads nodes.edges starts reference → nodes.contains reference = true) ∧
        graph =
          { owner
            direct := starts
            nodes := .ofList ((nodes.reachable starts).map fun visited => visited.2.content) } := by
  rw [← Nodes.firstUnresolved?_eq_none, closure]
  cases nodes.firstUnresolved? starts with
  | some target => simp
  | none => simp [Node.content, eq_comm]

theorem closure_error {failure : Failure}
    (failed : closure nodes owner starts = .error failure) :
    ∃ target, failure = .inconsistentResolution owner (.neverResolved target) ∧
      Leads nodes.edges starts target ∧ nodes.contains target = false := by
  unfold closure at failed
  split at failed
  · next target found =>
      cases failed
      exact ⟨target, rfl, Nodes.of_firstUnresolved? found⟩
  · contradiction

theorem direct_of_closure (closed : closure nodes owner starts = .ok graph) :
    graph.direct = starts := by
  obtain ⟨_, rfl⟩ := closure_ok.mp closed
  rfl

/-- A closure repeats what its nodes say about every coordinate on the way. -/
theorem closure_content (closed : closure nodes owner starts = .ok graph)
    (led : Leads nodes.edges starts reference) :
    (graph.nodes.find? reference).map Node.content =
      (nodes.find? reference).map Node.content := by
  obtain ⟨resolved, rfl⟩ := closure_ok.mp closed
  obtain ⟨node, found⟩ := Nodes.contains_iff.mp (resolved reference led)
  obtain ⟨other, member⟩ := Nodes.mem_reachable_of_reached ⟨reference, led, found⟩
  have distinct :
      ((nodes.reachable starts).map fun visited => visited.2.content).reverse.Pairwise
        (·.1.identity ≠ ·.1.identity) := by
    rw [List.pairwise_reverse, List.pairwise_map]
    refine Nodes.reachable_distinct.imp ?_
    intro left right different
    rw [left.2.keyed, right.2.keyed] at different
    exact different.symm
  have listed : node.content ∈
      ((nodes.reachable starts).map fun visited => visited.2.content).reverse :=
    List.mem_reverse.mpr (List.mem_map.mpr ⟨_, member, rfl⟩)
  have same : node.content.1.identity = reference.identity :=
    node.keyed.symm.trans (identity_of_nodeFor? found)
  rw [Nodes.find?_ofList_content, found, Option.map_some]
  exact (find?_key_iff_mem (fun entry => entry.1.identity) distinct).mpr ⟨listed, same⟩

theorem closure_leads (closed : closure nodes owner starts = .ok graph) :
    Leads graph.nodes.edges starts reference ↔ Leads nodes.edges starts reference :=
  leads_congr fun source led => by
    rw [Nodes.edges_eq_content, Nodes.edges_eq_content, closure_content closed led]

/-- The nodes of a closure are those that its starts lead to. -/
theorem mem_of_closure (closed : closure nodes owner starts = .ok graph) {node : Node}
    (member : node ∈ graph.nodes.entries) :
    ∃ visited, nodes.Reached starts visited ∧ visited.content = node.content := by
  obtain ⟨_, rfl⟩ := closure_ok.mp closed
  have found : (Nodes.ofList ((nodes.reachable starts).map (·.2.content))).find? node.key =
      some node :=
    Nodes.find?_iff_mem.mpr ⟨member, rfl⟩
  have listed := Nodes.find?_ofList_content.symm.trans (congrArg (·.map Node.content) found)
  obtain ⟨⟨reference, visited⟩, reached, same⟩ :=
    List.mem_map.mp (List.mem_reverse.mp (List.mem_of_find?_eq_some listed))
  exact ⟨visited, ⟨reference, Nodes.of_mem_reachable reached⟩, same⟩

/-- Every edge of a closure leads to one of its nodes. -/
theorem closure_valid (closed : closure nodes owner starts = .ok graph) : graph.Valid := by
  have contained {reference : Coordinate} (led : Leads nodes.edges starts reference) :
      graph.nodes.contains reference = true := by
    obtain ⟨node, found⟩ := Nodes.contains_iff.mp ((closure_ok.mp closed).1 reference led)
    have content := closure_content closed led
    rw [found] at content
    obtain ⟨other, known, _⟩ := Option.map_eq_some_iff.mp content
    exact Nodes.contains_iff.mpr ⟨other, known⟩
  refine ⟨fun target member => ?_, fun node member child edge => ?_⟩
  · rw [direct_of_closure closed] at member
    exact contained (.start member)
  · obtain ⟨visited, ⟨reference, led, found⟩, same⟩ := mem_of_closure closed member
    have children : visited.children = node.children := congrArg Prod.snd same
    rw [← children, ← edgesOf_found found] at edge
    exact contained (.edge led edge)

/-- The artifacts of a closure are those of the nodes that its starts lead to. -/
theorem closure_reaches (closed : closure nodes owner starts = .ok graph) :
    graph.Reaches artifact ↔ ∃ node, nodes.Reached starts node ∧ node.artifact = artifact := by
  rw [Graph.Reaches, direct_of_closure closed, Nodes.reached_iff_content, Nodes.reached_iff_content]
  constructor
  · intro reached
    obtain ⟨reference, led, children, found⟩ := reached
    have led := (closure_leads closed).mp led
    exact ⟨reference, led, children, closure_content closed led ▸ found⟩
  · intro reached
    obtain ⟨reference, led, children, found⟩ := reached
    exact ⟨reference, (closure_leads closed).mpr led, children, closure_content closed led ▸ found⟩

/-- Every artifact of a closure is that of a node. -/
theorem node_of_closure (closed : closure nodes owner starts = .ok graph)
    (reached : graph.Reaches artifact) :
    ∃ node, nodes.find? artifact.coordinate = some node ∧ node.artifact = artifact := by
  obtain ⟨node, ⟨_, _, found⟩, rfl⟩ := (closure_reaches closed).mp reached
  exact ⟨node, Nodes.find?_artifact (Nodes.find?_iff_mem.mp found).1, rfl⟩

end Snapshot

namespace SnapshotRecord

def coordinatesOf (texts : List String) : List Coordinate :=
  texts.filterMap Coordinate.parse?

/-- The last entry that a record has for a coordinate. -/
def entryFor? (record : SnapshotRecord) (reference : Coordinate) : Option SnapshotEntry :=
  record.nodes.reverse.find? fun entry =>
    (Coordinate.parse? entry.coordinate).map Coordinate.identity = some reference.identity

def edges (record : SnapshotRecord) (reference : Coordinate) : List Coordinate :=
  match record.entryFor? reference with
  | some entry => coordinatesOf entry.dependencies
  | none => []

end SnapshotRecord

section Loading

open SnapshotRecord

variable {record : SnapshotRecord} {entry : SnapshotEntry} {repository : Path} {snapshot : Snapshot}
  {texts : List String} {coordinates : List Coordinate} {coordinate : Coordinate}
  {artifact : Artifact}

theorem Coordinate.parse_ok {text : String} :
    Coordinate.parse text = .ok coordinate ↔ Coordinate.parse? text = some coordinate := by
  rw [Coordinate.parse]
  cases Coordinate.parse? text <;> simp

theorem coordinatesOf_parsed (parsed : texts.mapM Coordinate.parse = .ok coordinates) :
    coordinates = coordinatesOf texts := by
  induction mapM_ok.mp parsed with
  | nil => rfl
  | cons here pairs ih =>
      rw [coordinatesOf, List.filterMap_cons_some (Coordinate.parse_ok.mp here), ← coordinatesOf,
        ih (mapM_ok.mpr pairs)]

theorem Artifact.resolved_coordinate {location : Option String}
    (resolved : Artifact.resolved coordinate location = .ok artifact) :
    artifact.coordinate = coordinate := by
  unfold Artifact.resolved at resolved
  split at resolved
  · contradiction
  · cases resolved
    rfl

theorem SnapshotEntry.of_resolve {result : Artifact × List Coordinate}
    (resolved : entry.resolve repository = .ok result) :
    ((Coordinate.parse? entry.coordinate).map Coordinate.identity = some result.1.identity) ∧
      result.2 = coordinatesOf entry.dependencies := by
  obtain ⟨coordinate, parsed, resolved⟩ := bind_ok.mp resolved
  obtain ⟨children, parsedChildren, resolved⟩ := bind_ok.mp resolved
  obtain ⟨artifact, made, resolved⟩ := bind_ok.mp resolved
  cases resolved
  have located := Artifact.resolved_coordinate made
  refine ⟨?_, coordinatesOf_parsed parsedChildren⟩
  rw [Coordinate.parse_ok.mp parsed, Option.map_some, Artifact.identity, located]
  rfl

theorem Snapshot.direct_of_record (loaded : Snapshot.ofRecord record repository = .ok snapshot) :
    snapshot.direct = coordinatesOf record.dependencies := by
  obtain ⟨_, _, loaded⟩ := bind_ok.mp loaded
  obtain ⟨direct, parsed, loaded⟩ := bind_ok.mp loaded
  obtain ⟨_, _, loaded⟩ := bind_ok.mp loaded
  cases loaded
  exact coordinatesOf_parsed parsed

/-- A loaded snapshot has a node for a coordinate exactly where its record has an entry, and it is
what the last such entry resolves to. -/
theorem Snapshot.node_of_record (loaded : Snapshot.ofRecord record repository = .ok snapshot)
    (reference : Coordinate) :
    snapshot.nodes.find? reference = none ∧ record.entryFor? reference = none ∨
      ∃ node entry, snapshot.nodes.find? reference = some node ∧
        record.entryFor? reference = some entry ∧ entry.resolve repository = .ok node.content := by
  obtain ⟨_, _, loaded⟩ := bind_ok.mp loaded
  obtain ⟨_, _, loaded⟩ := bind_ok.mp loaded
  obtain ⟨entries, resolved, loaded⟩ := bind_ok.mp loaded
  cases loaded
  have pairs := List.forall₂_reverse_iff.mpr (mapM_ok.mp resolved)
  have agree : ∀ (entry : SnapshotEntry) (result : Artifact × List Coordinate),
      entry.resolve repository = .ok result →
        decide ((Coordinate.parse? entry.coordinate).map Coordinate.identity =
          some reference.identity) = decide (result.1.identity = reference.identity) := by
    intro entry result here
    rw [decide_eq_decide, (SnapshotEntry.of_resolve here).1, Option.some_inj]
  have content : ((Nodes.ofList entries).find? reference).map Node.content = _ :=
    Nodes.find?_ofList_content
  rcases find?_forall₂ pairs agree with ⟨absent, unlisted⟩ | ⟨entry, result, here, found, listed⟩
  · rw [unlisted] at content
    exact .inl ⟨Option.map_eq_none_iff.mp content, absent⟩
  · rw [listed] at content
    obtain ⟨node, known, same⟩ := Option.map_eq_some_iff.mp content
    exact .inr ⟨node, entry, known, found, same ▸ here⟩

/-- The edges of a loaded snapshot are those of its record. -/
theorem Snapshot.edges_of_record (loaded : Snapshot.ofRecord record repository = .ok snapshot) :
    snapshot.nodes.edges = record.edges := by
  funext reference
  rw [SnapshotRecord.edges]
  rcases Snapshot.node_of_record loaded reference with ⟨unknown, unlisted⟩ |
    ⟨node, entry, found, listed, resolved⟩
  · rw [unlisted]
    exact edgesOf_absent unknown
  · rw [listed]
    exact (edgesOf_found found).trans (SnapshotEntry.of_resolve resolved).2

theorem Snapshot.contains_of_record
    (loaded : Snapshot.ofRecord record repository = .ok snapshot) {reference : Coordinate} :
    snapshot.nodes.contains reference = true ↔ record.entryFor? reference ≠ none := by
  rw [Nodes.contains_iff]
  rcases Snapshot.node_of_record loaded reference with ⟨unknown, unlisted⟩ |
    ⟨node, entry, found, listed, _⟩
  · simp [unknown, unlisted]
  · simp [found, listed]

end Loading

end AppBundle
