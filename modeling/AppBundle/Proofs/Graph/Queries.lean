import AppBundle.Proofs.Application.Failures
import AppBundle.Proofs.DependencyOrder
import AppBundle.Proofs.Graph.BreadthFirst

namespace AppBundle

/-! The answers of a recorded resolution to the three queries. Each is the part of the record that its
starts lead to, or names the first coordinate in breadth-first order that the record has no entry for.
-/

namespace SnapshotRecord

variable (record : SnapshotRecord) (repository : Path) (edges : Coordinate → List Coordinate)
  (owner : Coordinate) (starts : List Coordinate)

def lacks (reference : Coordinate) : Bool :=
  (record.entryFor? reference).isNone

/-- The artifact that the last entry for a coordinate resolves to. -/
def Gives (reference : Coordinate) (artifact : Artifact) : Prop :=
  ∃ entry, record.entryFor? reference = some entry ∧
    entry.resolve repository = .ok (artifact, record.edges reference)

/-- A graph of what some starts lead to along some edges. -/
structure Spans (graph : Graph) : Prop where
  owner : graph.owner = owner
  direct : graph.direct = starts
  nodes : ∀ artifact children,
    (∃ node ∈ graph.nodes.entries, node.artifact = artifact ∧ node.children = children) ↔
      ∃ reference, Leads edges starts reference ∧ record.Gives repository reference artifact ∧
        children = edges reference
  valid : graph.validate = .ok ()
  flattened : graph.flatten.Perm (graph.nodes.entries.map (·.artifact))
  size : graph.flatten.length = graph.nodes.size

/-- The answer to a query for what some starts lead to along some edges. -/
structure Answers (answer : Except Failure Graph) : Prop where
  succeeds : (∃ graph, answer = .ok graph) ↔
    ∀ reference, Leads edges starts reference → record.entryFor? reference ≠ none
  fails : ∀ failure, answer = .error failure ↔
    ∃ target, FirstReached edges starts record.lacks target ∧
      failure = .inconsistentResolution owner (.neverResolved target)
  spans : ∀ graph, answer = .ok graph → record.Spans repository edges owner starts graph

end SnapshotRecord

namespace Snapshot

variable {nodes : Nodes} {owner reference : Coordinate} {starts : List Coordinate} {graph : Graph}
  {artifact : Artifact} {failure : Failure}

/-- A closure fails with the first coordinate in breadth-first order that has no node. -/
theorem closure_failure :
    closure nodes owner starts = .error failure ↔
      ∃ target, FirstReached nodes.edges starts nodes.isUnresolved target ∧
        failure = .inconsistentResolution owner (.neverResolved target) := by
  unfold closure
  cases met : nodes.firstUnresolved? starts with
  | some target =>
      have first := Nodes.firstReached_of_firstUnresolved? met
      constructor
      · intro failed
        exact ⟨target, first, (Except.error.inj failed).symm⟩
      · intro failed
        obtain ⟨other, there, rfl⟩ := failed
        rw [first.unique there]
  | none =>
      constructor
      · intro failed
        cases failed
      · intro failed
        obtain ⟨target, there, _⟩ := failed
        obtain ⟨led, unknown⟩ := there.leads
        have known := Nodes.firstUnresolved?_eq_none.mp met target led
        simp [Nodes.isUnresolved, known] at unknown

theorem closure_owner (closed : closure nodes owner starts = .ok graph) : graph.owner = owner := by
  obtain ⟨_, rfl⟩ := closure_ok.mp closed
  rfl

/-- The nodes of a closure say what those say that its starts lead to. -/
theorem closure_nodes (closed : closure nodes owner starts = .ok graph) (artifact : Artifact)
    (children : List Coordinate) :
    (∃ node ∈ graph.nodes.entries, node.content = (artifact, children)) ↔
      ∃ reference, Leads nodes.edges starts reference ∧
        (nodes.find? reference).map Node.content = some (artifact, children) := by
  constructor
  · intro listed
    obtain ⟨node, member, said⟩ := listed
    obtain ⟨visited, ⟨reference, led, found⟩, same⟩ := mem_of_closure closed member
    refine ⟨reference, led, ?_⟩
    have known : nodes.find? reference = some visited := found
    rw [known, Option.map_some, same, said]
  · intro reached
    obtain ⟨reference, led, said⟩ := reached
    rw [← closure_content closed led] at said
    obtain ⟨node, found, same⟩ := Option.map_eq_some_iff.mp said
    exact ⟨node, (Nodes.find?_iff_mem.mp found).1, same⟩

/-- Nothing in a closure is out of reach, so that flattening it lists every node. -/
theorem closure_flatten (closed : closure nodes owner starts = .ok graph) :
    graph.flatten.Perm (graph.nodes.entries.map (·.artifact)) := by
  have distinct : (graph.nodes.entries.map (·.artifact)).Pairwise (·.identity ≠ ·.identity) := by
    rw [List.pairwise_map]
    refine graph.nodes.distinct.imp ?_
    intro left right different
    rwa [left.keyed, right.keyed] at different
  rw [List.perm_ext_iff_of_nodup (DependencySet.nodup_of_distinct Graph.flatten_distinct)
    (DependencySet.nodup_of_distinct distinct)]
  intro artifact
  rw [Graph.mem_flatten, List.mem_map]
  constructor
  · intro reached
    obtain ⟨node, ⟨_, _, found⟩, same⟩ := reached
    exact ⟨node, (Nodes.find?_iff_mem.mp found).1, same⟩
  · intro listed
    obtain ⟨node, member, same⟩ := listed
    obtain ⟨visited, reached, content⟩ := mem_of_closure closed member
    have alike : visited.artifact = node.artifact := congrArg Prod.fst content
    exact (closure_reaches closed).mpr ⟨visited, reached, alike.trans same⟩

section Queries

open SnapshotRecord

variable {record : SnapshotRecord} {repository : Path} {snapshot : Snapshot}
  {edges : Coordinate → List Coordinate}

/-- A closure answers from a record whose entries its nodes stand for. -/
theorem closure_answers (followed : nodes.edges = edges)
    (known : ∀ reference, nodes.contains reference = true ↔ record.entryFor? reference ≠ none)
    (given : ∀ reference artifact, record.Gives repository reference artifact ↔
      ∃ node, nodes.find? reference = some node ∧ node.artifact = artifact) :
    record.Answers repository edges owner starts (closure nodes owner starts) := by
  subst followed
  have lacking : nodes.isUnresolved = record.lacks := by
    funext reference
    rw [Nodes.isUnresolved, lacks, Bool.eq_iff_iff, Bool.not_eq_true', ← Bool.not_eq_true, known,
      ne_eq, not_not, Option.isNone_iff_eq_none]
  refine ⟨?_, fun failure => ?_, fun graph closed => ?_⟩
  · simp only [closure_ok, exists_and_left, exists_eq, and_true, known]
  · rw [closure_failure, lacking]
  · have flattened := closure_flatten closed
    refine ⟨closure_owner closed, direct_of_closure closed, fun artifact children => ?_,
      Graph.validate_ok.mpr (closure_valid closed), flattened, ?_⟩
    · have listed := closure_nodes closed artifact children
      simp only [Node.content, Prod.mk.injEq] at listed
      rw [listed]
      refine exists_congr fun reference => and_congr_right fun _ => ?_
      rw [given]
      constructor
      · intro said
        obtain ⟨node, found, same⟩ := Option.map_eq_some_iff.mp said
        obtain ⟨rfl, rfl⟩ := Prod.mk.inj same
        exact ⟨⟨node, found, rfl⟩, (edgesOf_found found).symm⟩
      · intro said
        obtain ⟨⟨node, found, rfl⟩, rfl⟩ := said
        rw [found, Nodes.edges, edgesOf_found found]
        rfl
    · rw [flattened.length_eq, List.length_map]
      rfl

theorem gives_iff (loaded : Snapshot.ofRecord record repository = .ok snapshot) :
    record.Gives repository reference artifact ↔
      ∃ node, snapshot.nodes.find? reference = some node ∧ node.artifact = artifact := by
  have followed : snapshot.nodes.edges reference = record.edges reference := by
    rw [edges_of_record loaded]
  rcases node_of_record loaded reference with ⟨unknown, unlisted⟩ |
    ⟨node, entry, found, listed, resolved⟩
  · simp [Gives, unknown, unlisted]
  · rw [Nodes.edges, edgesOf_found found] at followed
    simp only [Gives, found, listed, Option.some.injEq, exists_eq_left', resolved, Except.ok.injEq,
      Node.content, followed, Prod.mk.injEq, and_true]

/-- Cutting the edges out of modules loses no node. -/
theorem find?_stopAtModules :
    (∃ node, nodes.stopAtModules.find? reference = some node ∧ node.artifact = artifact) ↔
      ∃ node, nodes.find? reference = some node ∧ node.artifact = artifact := by
  rw [Nodes.stopAtModules, Nodes.find?_map]
  cases nodes.find? reference with
  | none => exact Iff.rfl
  | some node =>
      simp only [Option.map_some, Option.some.injEq, exists_eq_left']
      split <;> exact Iff.rfl

theorem contains_stopAtModules :
    nodes.stopAtModules.contains reference = nodes.contains reference := by
  rw [Bool.eq_iff_iff, Nodes.contains_iff, Nodes.contains_iff, Nodes.stopAtModules, Nodes.find?_map]
  simp

/-- Every query of a loaded snapshot answers with exactly what its starts lead to in the record, below
no module in the query for the application. -/
theorem queries_of_record (loaded : Snapshot.ofRecord record repository = .ok snapshot) :
    (∃ root, Coordinate.parse? record.root = some root ∧
      record.Answers repository (cutAtModules record.edges) root
        (coordinatesOf record.dependencies) snapshot.application) ∧
    ∀ coordinate, record.entryFor? coordinate ≠ none →
      (∃ module, record.Gives repository coordinate module ∧
        record.Answers repository record.edges module.coordinate (record.edges coordinate)
          (snapshot.module coordinate)) ∧
      record.Answers repository record.edges coordinate [coordinate]
        (snapshot.artifact coordinate) := by
  have followed := edges_of_record loaded
  have known (reference : Coordinate) : snapshot.nodes.contains reference = true ↔
      record.entryFor? reference ≠ none := contains_of_record loaded
  have given (reference : Coordinate) (artifact : Artifact) :
      record.Gives repository reference artifact ↔
        ∃ node, snapshot.nodes.find? reference = some node ∧ node.artifact = artifact :=
    gives_iff loaded
  refine ⟨⟨snapshot.root, ?_, ?_⟩, fun coordinate listed => ⟨?_, ?_⟩⟩
  · obtain ⟨root, parsed, loaded⟩ := bind_ok.mp loaded
    obtain ⟨_, _, loaded⟩ := bind_ok.mp loaded
    obtain ⟨_, _, loaded⟩ := bind_ok.mp loaded
    cases loaded
    exact Coordinate.parse_ok.mp parsed
  · rw [← direct_of_record loaded, Snapshot.application]
    refine closure_answers ?_ (fun reference => ?_) fun reference artifact => ?_
    · rw [Nodes.edges_stopAtModules, followed]
    · rw [contains_stopAtModules, known]
    · rw [find?_stopAtModules, given]
  · obtain ⟨node, found⟩ := Nodes.contains_iff.mp ((known coordinate).mpr listed)
    refine ⟨node.artifact, (given _ _).mpr ⟨node, found, rfl⟩, ?_⟩
    rw [module_of_found found, followed]
    exact closure_answers followed known given
  · rw [Snapshot.artifact, if_pos ((known coordinate).mpr listed)]
    exact closure_answers followed known given

/-- A module on a cycle that is recorded twice, and an artifact above two gaps, of which the query names
the one that is nearer. -/
theorem queries_of_record_cycle :
    let record : SnapshotRecord :=
      { root := "g:app:1"
        dependencies := ["g:p:1:jar:mule-plugin"]
        nodes :=
          [⟨"g:p:1:jar:mule-plugin", none, none, []⟩,
            ⟨"g:p:1:jar:mule-plugin", none, none, ["g:lib:1"]⟩,
            ⟨"g:lib:1", none, none, ["g:p:1:jar:mule-plugin"]⟩,
            ⟨"g:loose:1", none, none, ["g:part:1", "g:near:1"]⟩,
            ⟨"g:part:1", none, none, ["g:far:1"]⟩] }
    let module : Coordinate := ⟨"g", "p", "1", "jar", some "mule-plugin", none⟩
    let loose : Coordinate := ⟨"g", "loose", "1", "jar", none, none⟩
    let near : Coordinate := ⟨"g", "near", "1", "jar", none, none⟩
    ∃ snapshot root graph inner, Snapshot.ofRecord record ⟨"/m2"⟩ = .ok snapshot ∧
      snapshot.application = .ok graph ∧
        record.Spans ⟨"/m2"⟩ (cutAtModules record.edges) root [module] graph ∧
          graph.nodes.size = 1 ∧ record.entryFor? module ≠ none ∧ snapshot.module module = .ok inner ∧
            (∃ owner, record.Spans ⟨"/m2"⟩ record.edges owner (record.edges module) inner) ∧
              inner.nodes.size = 2 ∧ record.entryFor? loose ≠ none ∧
                snapshot.artifact loose =
                  .error (.inconsistentResolution loose (.neverResolved near)) ∧
                    FirstReached record.edges [loose] record.lacks near := by
  intro record module loose near
  have ran : (do
      let snapshot ← Snapshot.ofRecord record ⟨"/m2"⟩
      let graph ← snapshot.application
      let inner ← snapshot.module module
      return (snapshot, graph.nodes.size, inner.nodes.size) :
        Except Failure (Snapshot × Nat × Nat)).map (fun result =>
          (result.2, result.1.artifact loose)) =
        .ok ((1, 2), .error (.inconsistentResolution loose (.neverResolved near))) := by
    decide +kernel
  have listed : record.entryFor? module ≠ none ∧ record.entryFor? loose ≠ none := by
    decide +kernel
  have starts : coordinatesOf record.dependencies = [module] := by
    decide +kernel
  obtain ⟨_, ran, answers⟩ := map_ok.mp ran
  obtain ⟨snapshot, loaded, ran⟩ := bind_ok.mp ran
  obtain ⟨graph, resolved, ran⟩ := bind_ok.mp ran
  obtain ⟨inner, answered, same⟩ := bind_ok.mp ran
  cases same
  obtain ⟨sizes, failed⟩ := Prod.mk.inj answers
  obtain ⟨size, within⟩ := Prod.mk.inj sizes
  obtain ⟨⟨root, _, application⟩, queries⟩ := queries_of_record loaded
  obtain ⟨⟨_, _, beneath⟩, _⟩ := queries module listed.1
  obtain ⟨target, first, named⟩ := ((queries loose listed.2).2.fails _).mp failed
  cases named
  rw [starts] at application
  exact ⟨snapshot, root, graph, inner, loaded, resolved, application.spans graph resolved, size,
    listed.1, answered, ⟨_, beneath.spans inner answered⟩, within, listed.2, failed, first⟩

end Queries

end Snapshot

end AppBundle
