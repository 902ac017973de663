import AppBundle.Proofs.Application.Coverage

namespace AppBundle

/-! Why an application cannot be built from a recorded resolution. The application's graph and those
of its modules repeat the nodes of one record, so that they agree on every artifact's place and have
no edge to nowhere. What is left to go wrong lies beneath a module, in the record itself.
-/

/-- What keeps a module from being resolved: its own dependencies lead back to it, or to a
coordinate without an entry. -/
inductive SnapshotRecord.Obstructs (record : SnapshotRecord) (module : Coordinate) :
    Inconsistency → Prop where
  | cycle {target : Coordinate} (led : Leads record.edges (record.edges module) target)
      (same : target.identity = module.identity) : Obstructs record module .dependsOnItself
  | gap {target : Coordinate} (led : Leads record.edges (record.edges module) target)
      (absent : record.entryFor? target = none) : Obstructs record module (.neverResolved target)

theorem SnapshotRecord.obstructs_iff {record : SnapshotRecord} {module : Coordinate} :
    (∃ cause, record.Obstructs module cause) ↔
      ∃ target, Leads record.edges (record.edges module) target ∧
        (target.identity = module.identity ∨ record.entryFor? target = none) := by
  constructor
  · intro obstructed
    obtain ⟨_, obstructed⟩ := obstructed
    cases obstructed with
    | cycle led same => exact ⟨_, led, .inl same⟩
    | gap led absent => exact ⟨_, led, .inr absent⟩
  · intro blocked
    obtain ⟨target, led, same | absent⟩ := blocked
    · exact ⟨_, .cycle led same⟩
    · exact ⟨_, .gap led absent⟩

namespace Snapshot

variable {snapshot : Snapshot} {graph marked answer : Graph} {libraries : List SharedLibrary}
  {artifact : Artifact} {module : Coordinate} {node : Node}

theorem node_of_marked (resolved : snapshot.application = .ok graph)
    (shared : graph.propagateShared libraries = .ok marked) (reached : marked.Reaches artifact) :
    ∃ node, snapshot.nodes.find? artifact.coordinate = some node ∧
      artifact = { node.artifact with shared := artifact.shared } := by
  obtain ⟨starts, _, rfl⟩ := Graph.propagateShared_ok.mp shared
  obtain ⟨before, within, rfl⟩ := Graph.reaches_shareAll.mp reached
  have unmarked : graph.Reaches before.artifact := ⟨before, within, rfl⟩
  obtain ⟨cut, found, same⟩ := node_of_closure resolved unmarked
  obtain ⟨whole, listed, sameWhole⟩ :=
    Nodes.of_mem_stopAtModules (Nodes.find?_iff_mem.mp found).1
  have content : whole.artifact = before.artifact := sameWhole.trans same
  refine ⟨whole, ?_, ?_⟩
  · rw [Graph.mark_artifact, ← content]
    exact Nodes.find?_artifact listed
  · rw [content, Graph.mark_artifact]

/-- Sharing changes no coordinate. -/
theorem marked_reaches (shared : graph.propagateShared libraries = .ok marked) :
    (∃ artifact, marked.Reaches artifact ∧ artifact.coordinate = module) ↔
      ∃ artifact, graph.Reaches artifact ∧ artifact.coordinate = module := by
  obtain ⟨starts, _, rfl⟩ := Graph.propagateShared_ok.mp shared
  simp only [Graph.reaches_shareAll]
  constructor
  · intro reached
    obtain ⟨_, ⟨before, reached, rfl⟩, same⟩ := reached
    rw [Graph.mark_artifact] at same
    exact ⟨before.artifact, ⟨before, reached, rfl⟩, same⟩
  · intro reached
    obtain ⟨_, ⟨before, reached, rfl⟩, same⟩ := reached
    refine ⟨_, ⟨before, reached, rfl⟩, ?_⟩
    rw [Graph.mark_artifact]
    exact same

theorem marked_valid (resolved : snapshot.application = .ok graph)
    (shared : graph.propagateShared libraries = .ok marked) : marked.Valid :=
  (closure_valid resolved).propagateShared shared

theorem module_of_found (found : snapshot.nodes.find? module = some node) :
    snapshot.module module =
      closure snapshot.nodes node.artifact.coordinate (snapshot.nodes.edges module) := by
  rw [Snapshot.module, found, Nodes.edges, edgesOf_found found]

/-- A module and the application find an artifact at the same place, that of its node. -/
theorem located_alike (resolved : snapshot.application = .ok graph)
    (shared : graph.propagateShared libraries = .ok marked)
    (found : snapshot.nodes.find? module = some node)
    (answered : snapshot.module module = .ok answer) (artifact known : Artifact)
    (reached : answer.Reaches artifact) (rooted : marked.Reaches known)
    (same : known.identity = artifact.identity) : known.location = artifact.location := by
  rw [module_of_found found] at answered
  obtain ⟨inside, foundInside, rfl⟩ := node_of_closure answered reached
  obtain ⟨outside, foundOutside, content⟩ := node_of_marked resolved shared rooted
  have one : some inside = some outside :=
    foundInside.symm.trans ((nodeFor?_congr same.symm).trans foundOutside)
  rw [content, Option.some.inj one]

end Snapshot

namespace Application

open SnapshotRecord

variable {record : SnapshotRecord} {repository : Path} {snapshot : Snapshot}
  {graph marked : Graph} {libraries : List SharedLibrary} {module : Artifact}

/-- A module of the application fails to be resolved only where its record obstructs it. -/
theorem resolveEntry_obstructed (loaded : Snapshot.ofRecord record repository = .ok snapshot)
    (resolved : snapshot.application = .ok graph)
    (shared : graph.propagateShared libraries = .ok marked) (reached : marked.Reaches module)
    {failure : Failure}
    (failed : resolveEntry snapshot.resolver marked module.coordinate = .error failure) :
    ∃ cause, record.Obstructs module.coordinate cause ∧
      failure = .inconsistentResolution module.coordinate cause := by
  obtain ⟨node, found, content⟩ := Snapshot.node_of_marked resolved shared reached
  have same : node.artifact.coordinate = module.coordinate := by rw [content]
  have closed := Snapshot.module_of_found found
  rw [same] at closed
  rcases bind_error.mp failed with unanswered | ⟨answer, answered, later⟩
  · -- the query of the module finds a gap beneath it
    obtain ⟨target, rfl, led, unknown⟩ := Snapshot.closure_error (closed.symm.trans unanswered)
    rw [Snapshot.edges_of_record loaded] at led
    refine ⟨_, .gap led ?_, rfl⟩
    by_contra listed
    rw [(Snapshot.contains_of_record loaded).mpr listed] at unknown
    cases unknown
  · rcases bind_error.mp later with unfit | ⟨_, _, made⟩
    · -- the answer is closed, owned and located as it should be, so that only a cycle is left
      have valid := Snapshot.closure_valid (closed.symm.trans answered)
      have owned : answer.owner = module.coordinate := by
        obtain ⟨_, rfl⟩ := Snapshot.closure_ok.mp (closed.symm.trans answered)
        rfl
      obtain ⟨rfl, artifact, inside, back⟩ :=
        ofModuleGraph_dependent (congrArg _ owned) valid
          (Snapshot.located_alike resolved shared found answered) unfit
      obtain ⟨target, led, sameTarget⟩ :=
        (Snapshot.module_reaches answered valid).mp ⟨artifact, inside, rfl⟩
      rw [Snapshot.edges_of_record loaded] at led
      exact ⟨_, .cycle led (sameTarget.trans back), rfl⟩
    · cases made

theorem not_obstructed (loaded : Snapshot.ofRecord record repository = .ok snapshot)
    (resolved : snapshot.application = .ok graph)
    (shared : graph.propagateShared libraries = .ok marked) (reached : marked.Reaches module)
    {entry : Coordinate × Model}
    (succeeded : resolveEntry snapshot.resolver marked module.coordinate = .ok entry)
    (cause : Inconsistency) : ¬record.Obstructs module.coordinate cause := by
  obtain ⟨node, found, _⟩ := Snapshot.node_of_marked resolved shared reached
  obtain ⟨answer, answered, answers, _⟩ := resolveEntry_ok.mp succeeded
  have closed := (Snapshot.module_of_found found).symm.trans answered
  intro obstructed
  cases obstructed with
  | cycle led same =>
      rw [← Snapshot.edges_of_record loaded] at led
      obtain ⟨artifact, inside, sameArtifact⟩ :=
        (Snapshot.module_reaches answered answers.valid).mpr ⟨_, led, rfl⟩
      exact answers.independent artifact inside (sameArtifact.trans same)
  | gap led absent =>
      rw [← Snapshot.edges_of_record loaded] at led
      have known := (Snapshot.closure_ok.mp closed).1 _ led
      exact (Snapshot.contains_of_record loaded).mp known absent

theorem buildInOrder_obstructed (loaded : Snapshot.ofRecord record repository = .ok snapshot)
    (resolved : snapshot.application = .ok graph)
    (shared : graph.propagateShared libraries = .ok marked) {order : List Coordinate}
    (permuted : order.Perm (modulesOf marked.flatten)) :
    (∃ failure, buildInOrder snapshot.resolver marked order = .error failure) ↔
      ∃ module, marked.Reaches module ∧ module.coordinate.isModule = true ∧
        ∃ cause, record.Obstructs module.coordinate cause := by
  have succeeds : (∃ application, buildInOrder snapshot.resolver marked order = .ok application) ↔
      Buildable snapshot.resolver marked :=
    buildInOrder_succeeds permuted
  rw [buildable_iff] at succeeds
  constructor
  · intro failed
    by_contra free
    have buildable : marked.Valid ∧ ∀ module ∈ modulesOf marked.flatten,
        ∃ entry, resolveEntry snapshot.resolver marked module = .ok entry := by
      refine ⟨Snapshot.marked_valid resolved shared, fun coordinate member => ?_⟩
      obtain ⟨module, reached, isolated, rfl⟩ := mem_modulesOf.mp member
      cases attempt : resolveEntry snapshot.resolver marked module.coordinate with
      | ok entry => exact ⟨entry, rfl⟩
      | error failure =>
          obtain ⟨cause, obstructed, _⟩ :=
            resolveEntry_obstructed loaded resolved shared reached attempt
          exact absurd ⟨module, reached, isolated, cause, obstructed⟩ free
    obtain ⟨application, built⟩ := succeeds.mpr buildable
    obtain ⟨failure, failed⟩ := failed
    rw [built] at failed
    cases failed
  · intro obstructed
    obtain ⟨module, reached, isolated, cause, obstructed⟩ := obstructed
    cases attempt : buildInOrder snapshot.resolver marked order with
    | error failure => exact ⟨failure, rfl⟩
    | ok application =>
        obtain ⟨_, resolvable⟩ := succeeds.mp ⟨application, attempt⟩
        obtain ⟨entry, succeeded⟩ :=
          resolvable _ (mem_modulesOf.mpr ⟨module, reached, isolated, rfl⟩)
        exact absurd obstructed (not_obstructed loaded resolved shared reached succeeded cause)

/-- Exactly when a loaded record cannot be built, however many queries run at a time: when the
dependencies of a module of the application lead back to that module or to a coordinate without an
entry. The failure names such a module and says which of the two it is, so that the graphs never
contradict each other, no query is answered for another module or not at all, and no module is
defined twice. -/
theorem build_of_record (loaded : Snapshot.ofRecord record repository = .ok snapshot)
    (resolved : snapshot.resolver.application = .ok graph)
    (shared : graph.propagateShared libraries = .ok marked) {concurrency : Nat}
    {outcome : Except Failure Application}
    (builds : BuildsTo snapshot.resolver marked concurrency outcome) :
    ((∃ failure, outcome = .error failure) ↔
      ∃ module, graph.Reaches module ∧ module.coordinate.isModule = true ∧
        ∃ target, Leads record.edges (record.edges module.coordinate) target ∧
          (target.identity = module.identity ∨ record.entryFor? target = none)) ∧
    ∀ failure, outcome = .error failure →
      ∃ module cause, graph.Reaches module ∧ module.coordinate.isModule = true ∧
        record.Obstructs module.coordinate cause ∧
          failure = .inconsistentResolution module.coordinate cause := by
  obtain ⟨order, completed, rfl⟩ := builds
  have permuted := completed.perm
  constructor
  · rw [buildInOrder_obstructed loaded resolved shared permuted]
    constructor
    · intro obstructed
      obtain ⟨module, reached, isolated, obstructed⟩ := obstructed
      obtain ⟨original, unmarked, same⟩ :=
        (Snapshot.marked_reaches shared).mp ⟨module, reached, rfl⟩
      rw [← same] at isolated obstructed
      exact ⟨original, unmarked, isolated, obstructs_iff.mp obstructed⟩
    · intro blocked
      obtain ⟨original, unmarked, isolated, blocked⟩ := blocked
      obtain ⟨module, reached, same⟩ :=
        (Snapshot.marked_reaches shared).mpr ⟨original, unmarked, rfl⟩
      rw [← same] at isolated
      refine ⟨module, reached, isolated, obstructs_iff.mpr ?_⟩
      rwa [same]
  · intro failure failed
    rcases buildInOrder_stops permuted failed with invalid | ⟨coordinate, member, stopped⟩
    · rw [Graph.validate_ok.mpr (Snapshot.marked_valid resolved shared)] at invalid
      cases invalid
    · obtain ⟨module, reached, isolated, rfl⟩ := mem_modulesOf.mp member
      obtain ⟨cause, obstructed, rfl⟩ :=
        resolveEntry_obstructed loaded resolved shared reached stopped
      obtain ⟨original, unmarked, same⟩ :=
        (Snapshot.marked_reaches shared).mp ⟨module, reached, rfl⟩
      rw [← same] at isolated obstructed
      exact ⟨original, cause, unmarked, isolated, obstructed, by rw [same]⟩

/-- A library leads back to its module, which the application's own graph does not show. -/
theorem build_of_record_cycle :
    let record : SnapshotRecord :=
      { root := "g:app:1"
        dependencies := ["g:a:1", "g:p:1:jar:mule-plugin"]
        nodes :=
          [⟨"g:a:1", none, none, []⟩, ⟨"g:p:1:jar:mule-plugin", none, none, ["g:b:1"]⟩,
            ⟨"g:b:1", none, none, ["g:p:1:jar:mule-plugin"]⟩] }
    ∃ snapshot graph marked,
      Snapshot.ofRecord record ⟨"/m2"⟩ = .ok snapshot ∧
        snapshot.resolver.application = .ok graph ∧
        graph.propagateShared [⟨"g", "a"⟩] = .ok marked ∧
        ∀ outcome, BuildsTo snapshot.resolver marked 2 outcome →
          ∃ failure, outcome = .error failure := by
  intro record
  let module : Coordinate := ⟨"g", "p", "1", "jar", some "mule-plugin", none⟩
  have succeeds : (do
      let snapshot ← Snapshot.ofRecord record ⟨"/m2"⟩
      let graph ← snapshot.resolver.application
      let _ ← graph.propagateShared [⟨"g", "a"⟩]
      return graph.flatten.any (·.coordinate = module) : Except Failure Bool) = .ok true := by
    decide +kernel
  obtain ⟨snapshot, loaded, ran⟩ := bind_ok.mp succeeds
  obtain ⟨graph, resolved, ran⟩ := bind_ok.mp ran
  obtain ⟨marked, shared, ran⟩ := bind_ok.mp ran
  refine ⟨snapshot, graph, marked, loaded, resolved, shared, fun outcome builds => ?_⟩
  rw [(build_of_record loaded resolved shared builds).1]
  obtain ⟨artifact, member, same⟩ := List.any_eq_true.mp (Except.ok.inj ran)
  have named : artifact.coordinate = module := of_decide_eq_true same
  let between : Coordinate := ⟨"g", "b", "1", "jar", none, none⟩
  have led : Leads record.edges (record.edges module) between := .start (by decide)
  have back : Leads record.edges (record.edges module) module := .edge led (by decide)
  refine ⟨artifact, Graph.mem_flatten.mp member, by rw [named]; rfl, module, ?_, .inl ?_⟩
  · rwa [named]
  · exact congrArg Coordinate.identity named.symm

end Application

end AppBundle
