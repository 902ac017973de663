import AppBundle.Proofs.Application.Build
import AppBundle.Proofs.Graph.Sharing
import AppBundle.Proofs.Graph.Snapshot

namespace AppBundle

/-! An application that is built from a recorded resolution has exactly the artifacts that the
record leads to. Its root graph stops beneath modules, so that a path is followed there up to its
first module, and from then on in that module's own graph.
-/

section Cut

variable {edges : Coordinate → List Coordinate} {starts : List Coordinate}
  {left right reference target : Coordinate}

theorem isModule_congr (same : left.identity = right.identity) : left.isModule = right.isModule :=
  congrArg (fun identity : Identity => identity.classifier == some Coordinate.moduleClassifier) same

/-- Edges with none out of modules. -/
def cutAtModules (edges : Coordinate → List Coordinate) (source : Coordinate) : List Coordinate :=
  if source.isModule then [] else edges source

theorem mem_of_cutAtModules (child : target ∈ cutAtModules edges reference) :
    target ∈ edges reference := by
  unfold cutAtModules at child
  split at child
  · contradiction
  · exact child

/-- A path stays outside of modules or goes on from the first module it comes to. -/
theorem leads_iff_cutAtModules :
    Leads edges starts target ↔
      Leads (cutAtModules edges) starts target ∨
        ∃ module, Leads (cutAtModules edges) starts module ∧ module.isModule = true ∧
          Leads edges (edges module) target := by
  have whole {reference : Coordinate} (led : Leads (cutAtModules edges) starts reference) :
      Leads edges starts reference :=
    led.mono fun _ _ => mem_of_cutAtModules
  constructor
  · intro led
    induction led with
    | start member => exact .inl (.start member)
    | @edge source target _ child ih =>
        rcases ih with outside | ⟨module, outside, isolated, inside⟩
        -- an edge out of a module is where the path enters that module's own graph
        · cases isolated : source.isModule with
          | true => exact .inr ⟨source, outside, isolated, .start child⟩
          | false =>
              refine .inl (.edge outside ?_)
              simpa [cutAtModules, isolated] using child
        · exact .inr ⟨module, outside, isolated, .edge inside child⟩
  · intro led
    rcases led with outside | ⟨module, outside, _, inside⟩
    · exact whole outside
    · exact (whole outside).trans inside

theorem Nodes.edges_stopAtModules {nodes : Nodes} :
    nodes.stopAtModules.edges = cutAtModules nodes.edges := by
  funext reference
  rw [cutAtModules, edges_eq_content, edges_eq_content, stopAtModules, find?_map]
  cases found : nodes.find? reference with
  | none => exact (ite_self _).symm
  | some node =>
      have same : node.artifact.coordinate.isModule = reference.isModule :=
        isModule_congr (node.keyed.symm.trans (identity_of_nodeFor? found))
      change (if node.artifact.coordinate.isModule then node.leaf else node).children = _
      rw [same]
      split <;> rfl

end Cut

section Answers

variable {snapshot : Snapshot} {graph marked answer : Graph} {libraries : List SharedLibrary}
  {module : Coordinate} {identity : Identity}

theorem Snapshot.application_reaches (resolved : snapshot.application = .ok graph)
    (shared : graph.propagateShared libraries = .ok marked) (valid : marked.Valid)
    (identity : Identity) :
    (∃ artifact, marked.Reaches artifact ∧ artifact.identity = identity) ↔
      ∃ coordinate, Leads (cutAtModules snapshot.nodes.edges) snapshot.direct coordinate ∧
        coordinate.identity = identity := by
  rw [valid.reaches_identity]
  obtain ⟨starts, _, rfl⟩ := Graph.propagateShared_ok.mp shared
  simp only [Graph.edges_shareAll, Graph.direct_shareAll, direct_of_closure resolved,
    closure_leads resolved, Nodes.edges_stopAtModules]

theorem Snapshot.module_reaches (answered : snapshot.module module = .ok answer)
    (valid : answer.Valid) :
    (∃ artifact, answer.Reaches artifact ∧ artifact.identity = identity) ↔
      ∃ coordinate, Leads snapshot.nodes.edges (snapshot.nodes.edges module) coordinate ∧
        coordinate.identity = identity := by
  rw [valid.reaches_identity]
  unfold Snapshot.module at answered
  split at answered
  · next node found =>
      have children : snapshot.nodes.edges module = node.children := edgesOf_found found
      simp only [direct_of_closure answered, closure_leads answered, children]
  · contradiction

end Answers

namespace Application

variable {resolver : Resolver} {root graph marked : Graph} {application : Application}
  {identity : Identity} {snapshot : Snapshot} {libraries : List SharedLibrary}

/-- What is built has the artifacts of the root graph and those of the answer for each module. -/
theorem allArtifacts_of_builtFrom (buildable : Buildable resolver root)
    (content : BuiltFrom resolver root application) :
    application.allArtifacts.Holds identity ↔
      (∃ artifact, root.Reaches artifact ∧ artifact.identity = identity) ∨
        ∃ module answer, root.Reaches module ∧ module.coordinate.isModule = true ∧
          resolver.module module.coordinate = .ok answer ∧ answer.Valid ∧
            ∃ artifact, answer.Reaches artifact ∧ artifact.identity = identity := by
  rw [allArtifacts_holds]
  refine or_congr ?_ ?_
  · simp only [DependencySet.Holds, content.dependencies]
  · constructor
    · intro held
      obtain ⟨⟨key, model⟩, nested, artifact, member, same⟩ := held
      obtain ⟨module, reached, isolated, rfl⟩ := (content.keys key).mp ⟨model, nested⟩
      obtain ⟨answer, answered, _, artifacts⟩ := content.models _ model nested
      obtain ⟨fitting, alsoAnswered, answers⟩ := buildable.answered module reached isolated
      rw [answered] at alsoAnswered
      cases alsoAnswered
      exact ⟨module, answer, reached, isolated, answered, answers.valid, artifact,
        (artifacts artifact).mp member, same⟩
    · intro answering
      obtain ⟨module, answer, reached, isolated, answered, _, artifact, member, same⟩ := answering
      obtain ⟨model, nested⟩ := (content.keys _).mpr ⟨module, reached, isolated, rfl⟩
      obtain ⟨other, alsoAnswered, _, artifacts⟩ := content.models _ model nested
      rw [answered] at alsoAnswered
      cases alsoAnswered
      exact ⟨_, nested, artifact, (artifacts artifact).mpr member, same⟩

theorem allArtifacts_of_snapshot (resolved : snapshot.application = .ok graph)
    (shared : graph.propagateShared libraries = .ok marked)
    (buildable : Buildable snapshot.resolver marked)
    (content : BuiltFrom snapshot.resolver marked application) :
    application.allArtifacts.Holds identity ↔
      ∃ coordinate, Leads snapshot.nodes.edges snapshot.direct coordinate ∧
        coordinate.identity = identity := by
  have rooted := Snapshot.application_reaches resolved shared buildable.valid
  rw [allArtifacts_of_builtFrom buildable content, rooted]
  constructor
  · intro held
    rcases held with ⟨coordinate, outside, same⟩ |
      ⟨module, answer, reached, isolated, answered, valid, inside⟩
    · exact ⟨coordinate, leads_iff_cutAtModules.mpr (.inl outside), same⟩
    · obtain ⟨source, outside, sameModule⟩ := (rooted _).mp ⟨module, reached, rfl⟩
      obtain ⟨coordinate, within, same⟩ := (Snapshot.module_reaches answered valid).mp inside
      rw [← Nodes.edges_congr sameModule] at within
      rw [← isModule_congr sameModule] at isolated
      exact ⟨coordinate,
        leads_iff_cutAtModules.mpr (.inr ⟨source, outside, isolated, within⟩), same⟩
  · intro led
    obtain ⟨coordinate, led, same⟩ := led
    rcases leads_iff_cutAtModules.mp led with outside | ⟨source, outside, isolated, within⟩
    · exact .inl ⟨coordinate, outside, same⟩
    · obtain ⟨module, reached, sameModule⟩ := (rooted _).mpr ⟨source, outside, rfl⟩
      rw [← isModule_congr sameModule] at isolated
      rw [← Nodes.edges_congr sameModule] at within
      obtain ⟨answer, answered, answers⟩ := buildable.answered module reached isolated
      exact .inr ⟨module, answer, reached, isolated, answered, answers.valid,
        (Snapshot.module_reaches answered answers.valid).mpr ⟨coordinate, within, same⟩⟩

/-- No artifact is lost or invented: whatever is shared, and however the queries complete, the
artifacts of the built application are those that the record's direct dependencies lead to, although
the application's own graph has no edges out of modules. -/
theorem allArtifacts_of_record {record : SnapshotRecord} {repository : Path} {concurrency : Nat}
    (loaded : Snapshot.ofRecord record repository = .ok snapshot)
    (resolved : snapshot.resolver.application = .ok graph)
    (shared : graph.propagateShared libraries = .ok marked)
    (built : BuildsTo snapshot.resolver marked concurrency (.ok application)) :
    (∀ identity, application.allArtifacts.Holds identity ↔
      ∃ coordinate,
        Leads record.edges (SnapshotRecord.coordinatesOf record.dependencies) coordinate ∧
          coordinate.identity = identity) ∧
    ∀ node ∈ graph.nodes.entries, node.artifact.coordinate.isModule = true →
      node.children = [] := by
  obtain ⟨order, completed, done⟩ := built
  have permuted := completed.perm
  have buildable := (buildInOrder_succeeds permuted).mp ⟨application, done.symm⟩
  have content := builtFrom permuted done.symm
  refine ⟨fun identity => ?_, fun node member isolated => ?_⟩
  · rw [allArtifacts_of_snapshot resolved shared buildable content,
      Snapshot.direct_of_record loaded, Snapshot.edges_of_record loaded]
  · obtain ⟨visited, ⟨_, _, found⟩, same⟩ := Snapshot.mem_of_closure resolved member
    obtain ⟨sameArtifact, sameChildren⟩ := Prod.mk.inj same
    rw [← sameChildren]
    refine Nodes.children_of_mem_stopAtModules (Nodes.find?_iff_mem.mp found).1 ?_
    rw [sameArtifact, isolated]

/-- An artifact that only a module leads to, next to a cycle that is shared. -/
theorem allArtifacts_beneath_module :
    let record : SnapshotRecord :=
      { root := "g:app:1"
        dependencies := ["g:a:1", "g:p:1:jar:mule-plugin"]
        nodes :=
          [⟨"g:a:1", none, none, ["g:b:1"]⟩, ⟨"g:b:1", none, none, ["g:a:1"]⟩,
            ⟨"g:p:1:jar:mule-plugin", none, none, ["g:b:1", "g:c:1"]⟩,
            ⟨"g:c:1", some "/c.jar", none, []⟩] }
    ∃ snapshot graph marked application,
      Snapshot.ofRecord record ⟨"/m2"⟩ = .ok snapshot ∧
        snapshot.resolver.application = .ok graph ∧
        graph.propagateShared [⟨"g", "a"⟩] = .ok marked ∧
        BuildsTo snapshot.resolver marked 2 (.ok application) ∧
        application.allArtifacts.Holds ⟨"g", "c", "1", none⟩ := by
  intro record
  have succeeds : (do
      let snapshot ← Snapshot.ofRecord record ⟨"/m2"⟩
      let graph ← snapshot.resolver.application
      let marked ← graph.propagateShared [⟨"g", "a"⟩]
      build snapshot.resolver marked : Except Failure Application).isOk = true := by
    decide +kernel
  obtain ⟨application, ran⟩ := exists_ok succeeds
  obtain ⟨snapshot, loaded, ran⟩ := bind_ok.mp ran
  obtain ⟨graph, resolved, ran⟩ := bind_ok.mp ran
  obtain ⟨marked, shared, ran⟩ := bind_ok.mp ran
  have built : BuildsTo snapshot.resolver marked 2 (.ok application) :=
    ⟨_, .inOrder (by decide), ran.symm⟩
  have module : Leads record.edges (SnapshotRecord.coordinatesOf record.dependencies)
      ⟨"g", "p", "1", "jar", some "mule-plugin", none⟩ :=
    .start (by decide)
  refine ⟨snapshot, graph, marked, application, loaded, resolved, shared, built, ?_⟩
  rw [(allArtifacts_of_record loaded resolved shared built).1]
  exact ⟨⟨"g", "c", "1", "jar", none, none⟩, .edge module (by decide), rfl⟩

end Application

end AppBundle
