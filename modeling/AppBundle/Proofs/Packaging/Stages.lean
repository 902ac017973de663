import AppBundle.Packaging
import AppBundle.Proofs.Application.Failures
import AppBundle.Proofs.Application.Soundness

namespace AppBundle

/-! The stages of packaging a recorded resolution. Artifacts come from two sources, the record and the
descriptors of models that are merged. Both refuse an artifact without a location, so that a built
application is sound, and stays sound over all that is done to it before it is installed.
-/

section Sources

variable {record : SnapshotRecord} {repository : Path} {snapshot : Snapshot} {answer : Graph}
  {owner module reference : Coordinate} {starts : List Coordinate} {artifact : Artifact}
  {graph marked : Graph} {libraries : List SharedLibrary}

theorem Artifact.located_of_resolved {coordinate : Coordinate} {location : Option String}
    (resolved : Artifact.resolved coordinate location = .ok artifact) : artifact.Located := by
  unfold Artifact.resolved at resolved
  split at resolved
  · cases resolved
  · next known =>
      cases resolved
      have located : location = none → coordinate.isDomain = true := by simpa using known
      exact located

namespace Snapshot

theorem located_of_found (loaded : Snapshot.ofRecord record repository = .ok snapshot) {node : Node}
    (found : snapshot.nodes.find? reference = some node) : node.artifact.Located := by
  rcases Snapshot.node_of_record loaded reference with ⟨unknown, _⟩ |
    ⟨other, entry, known, _, resolved⟩
  · rw [unknown] at found
    cases found
  · rw [known] at found
    cases found
    obtain ⟨_, _, resolved⟩ := bind_ok.mp resolved
    obtain ⟨_, _, resolved⟩ := bind_ok.mp resolved
    obtain ⟨artifact, made, same⟩ := bind_ok.mp resolved
    have content : artifact = node.artifact := congrArg Prod.fst (Except.ok.inj same)
    exact content ▸ Artifact.located_of_resolved made

theorem located_of_closure (loaded : Snapshot.ofRecord record repository = .ok snapshot)
    (closed : closure snapshot.nodes owner starts = .ok answer) (reached : answer.Reaches artifact) :
    artifact.Located := by
  obtain ⟨node, found, rfl⟩ := node_of_closure closed reached
  exact located_of_found loaded found

theorem located_of_marked (loaded : Snapshot.ofRecord record repository = .ok snapshot)
    (resolved : snapshot.application = .ok graph)
    (shared : graph.propagateShared libraries = .ok marked) (reached : marked.Reaches artifact) :
    artifact.Located := by
  obtain ⟨node, found, content⟩ := node_of_marked resolved shared reached
  have located : node.artifact.Located := located_of_found loaded found
  rw [content]
  exact located

theorem module_closure (answered : snapshot.module module = .ok answer) :
    ∃ owner starts, closure snapshot.nodes owner starts = .ok answer := by
  unfold Snapshot.module at answered
  split at answered
  · exact ⟨_, _, answered⟩
  · cases answered

theorem artifact_closure (answered : snapshot.artifact reference = .ok answer) :
    closure snapshot.nodes reference [reference] = .ok answer := by
  unfold Snapshot.artifact at answered
  split at answered
  · exact answered
  · cases answered

end Snapshot

/-- What is built from a record is sound. -/
theorem Application.sound_of_record {application : Application} {concurrency : Nat}
    (loaded : Snapshot.ofRecord record repository = .ok snapshot)
    (resolved : snapshot.application = .ok graph)
    (shared : graph.propagateShared libraries = .ok marked)
    (builds : BuildsTo snapshot.resolver marked concurrency (.ok application)) :
    application.Sound := by
  obtain ⟨order, completed, built⟩ := builds
  have permuted := completed.perm
  obtain ⟨root, nested⟩ := of_buildInOrder_ok permuted built.symm
  have content := builtFrom permuted built.symm
  refine .of_entries ⟨fun artifact member => ?_, ?_⟩ fun key model member => ?_
  · exact Snapshot.located_of_marked loaded resolved shared
      ((content.dependencies artifact).mp member)
  · rw [root]
    exact fun _ none => absurd none List.not_mem_nil
  · obtain ⟨module, listed, entry⟩ := (nested _).mp member
    obtain ⟨answer, answered, _, same⟩ := resolveEntry_ok.mp entry
    cases same
    obtain ⟨artifact, reached, _, rfl⟩ := mem_modulesOf.mp listed
    obtain ⟨owner, starts, closed⟩ := Snapshot.module_closure answered
    refine ⟨⟨artifact, (content.dependencies artifact).mpr reached, rfl⟩, rfl, ?_, ?_⟩
    · intro dependency inside
      exact Snapshot.located_of_closure loaded closed
        (Graph.mem_flatten.mp (DependencySet.of_mem_ofList inside))
    · exact fun _ none => absurd none List.not_mem_nil

end Sources

namespace Packager

variable {record : SnapshotRecord} {repository : Path} {snapshot : Snapshot} {packager : Packager}
  {files : FileSystem} {application result : Application}

theorem rootGraph_ok {graph : Graph} :
    packager.rootGraph = .ok graph ↔ ∃ whole, packager.resolver.application = .ok whole ∧
      whole.propagateShared packager.configuration.sharedLibraries = .ok graph :=
  bind_ok

/-- A built application comes from the application's graph with the shared libraries marked. -/
theorem BuildsTo.ok (builds : packager.BuildsTo (.ok application)) :
    ∃ graph marked, packager.resolver.application = .ok graph ∧
      graph.propagateShared packager.configuration.sharedLibraries = .ok marked ∧
      Application.BuildsTo packager.resolver marked packager.configuration.concurrency
        (.ok application) := by
  unfold BuildsTo at builds
  split at builds
  · next marked rooted =>
      obtain ⟨graph, resolved, shared⟩ := rootGraph_ok.mp rooted
      exact ⟨graph, marked, resolved, shared, builds⟩
  · cases builds

theorem build_eq : packager.build = packager.rootGraph >>= Application.build packager.resolver := by
  unfold build rootGraph
  cases packager.resolver.application <;> rfl

/-- One query after the other is one way to build. -/
theorem build_buildsTo : packager.BuildsTo packager.build := by
  rw [build_eq]
  unfold BuildsTo
  split
  · next graph rooted =>
      rw [rooted]
      exact ⟨_, .inOrder (by omega), rfl⟩
  · next failure rooted =>
      rw [rooted]
      rfl

/-- In whatever order modules are built, what is packaged in the end is one application. -/
theorem AssemblesTo.assemble (assembles : packager.AssemblesTo files (.ok application)) :
    packager.assemble files = .ok application := by
  obtain ⟨built, builds, reached⟩ := assembles
  obtain ⟨started, rfl, completed⟩ := bind_ok.mp reached.symm
  obtain ⟨graph, marked, resolved, shared, builds⟩ := builds.ok
  obtain ⟨order, scheduled, here⟩ := builds
  have rooted : packager.rootGraph = .ok marked := rootGraph_ok.mpr ⟨graph, resolved, shared⟩
  have same : packager.build = .ok started := by
    rw [build_eq, rooted]
    exact Application.buildInOrder_eq_build scheduled.perm here.symm
  unfold Packager.assemble
  rw [same]
  exact completed

/-- One step after the other is one way to package. -/
theorem package_packagesTo {output : Path} :
    packager.PackagesTo output files (packager.package output files) := by
  refine ⟨packager.assemble files, ⟨packager.build, build_buildsTo, rfl⟩, ?_⟩
  unfold package
  cases packager.assemble files with
  | error failure => rfl
  | ok application =>
      -- the installation runs behind the descriptor
      have parted : Step.runAll files (packager.steps output application) =
          if (packager.describe output application files).failure? = none then
            Step.runAll (packager.describe output application files).files
              ((packager.installer output).steps application)
          else packager.describe output application files := by
        unfold steps describe
        exact Step.runAll_behind
      dsimp only
      rw [parted]
      cases ran : packager.describe output application files with
      | mk described stopped =>
          refine ⟨described, stopped, ran, ?_⟩
          cases stopped with
          | some failure => rfl
          | none =>
              refine ⟨_, _, Installer.install_installsTo, ?_⟩
              rw [Outcome.map_answer, if_pos rfl]
              rfl

theorem package_succeeds {output : Path}
    (succeeds : (packager.package output files).2.isOk = true) :
    ∃ report, packager.PackagesTo output files ((packager.package output files).1, .ok report) := by
  obtain ⟨report, answered⟩ := exists_ok succeeds
  refine ⟨report, ?_⟩
  rw [← answered]
  exact package_packagesTo

theorem located_of_addition (loaded : Snapshot.ofRecord record repository = .ok snapshot)
    {request : AdditionRequest} {addition : Addition}
    (resolved : resolveAddition snapshot.resolver request = .ok addition) :
    ∀ artifact ∈ addition.dependencies, artifact.Located := by
  obtain ⟨graphs, mapped, done⟩ := bind_ok.mp resolved
  cases done
  intro artifact member
  obtain ⟨graph, listed, inside⟩ := List.mem_flatMap.mp (DependencySet.of_mem_ofList member)
  obtain ⟨_, _, here⟩ := (mem_of_mapM_ok mapped).mp listed
  obtain ⟨_, _, answered⟩ := bind_ok.mp here
  exact Snapshot.located_of_closure loaded (Snapshot.artifact_closure answered)
    (Graph.mem_flatten.mp inside)

theorem located_of_nested {placeholder : Placeholder} {path : Path} {model : Model}
    (read : loadNested files placeholder path = .ok model) : model.Located := by
  obtain ⟨written, loaded, done⟩ := bind_ok.mp read
  cases done
  unfold Model.load at loaded
  split at loaded
  · cases loaded
  · exact (Model.located_of_ofDescriptor loaded).presented (placeholder.faithful_localize _)

theorem sound_introspect (sound : application.Sound)
    (introspected : packager.introspect files application = .ok result) : result.Sound := by
  unfold Packager.introspect at introspected
  split at introspected
  · exact sound.introspect introspected
  · cases introspected
    exact sound

theorem sound_extend (loaded : Snapshot.ofRecord record repository = .ok snapshot)
    (answering : packager.resolver = snapshot.resolver) (sound : application.Sound)
    (extended : packager.extend application = .ok result) : result.Sound := by
  obtain ⟨additions, mapped, extended⟩ := bind_ok.mp extended
  rw [answering] at mapped
  refine sound.extendAll (fun addition member => ?_) extended
  obtain ⟨request, _, here⟩ := (mem_of_mapM_ok mapped).mp member
  exact located_of_addition loaded here

theorem sound_merge (sound : application.Sound)
    (merged : packager.merge files application = .ok result) : result.Sound := by
  obtain ⟨models, mapped, merged⟩ := bind_ok.mp merged
  refine sound.mergeAll (fun model member => ?_) merged
  obtain ⟨path, _, here⟩ := (mem_of_mapM_ok mapped).mp member
  exact located_of_nested here

/-- At every stage of packaging a record, under every configuration and with whatever descriptors of
merged models, the application is sound. Hence its installation fails for no missing location, in
whatever order its tasks run. -/
theorem stages_sound (loaded : Snapshot.ofRecord record repository = .ok snapshot)
    (configuration : Configuration) (files : FileSystem) :
    let packager : Packager := ⟨snapshot.resolver, configuration⟩
    ∀ built, packager.BuildsTo (.ok built) → built.Sound ∧
      ∀ introspected, packager.introspect files built = .ok introspected → introspected.Sound ∧
        ∀ extended, packager.extend introspected = .ok extended → extended.Sound ∧
          ∀ merged, packager.merge files extended = .ok merged → merged.Sound ∧
            ∀ (installer : Installer) concurrency before after failure coordinate,
              installer.InstallsTo merged concurrency before (after, .error failure) →
                failure ≠ .missingLocation coordinate := by
  intro packager built builds
  obtain ⟨graph, marked, resolved, shared, builds⟩ := builds.ok
  have soundBuilt : built.Sound := Application.sound_of_record loaded resolved shared builds
  refine ⟨soundBuilt, fun introspected here => ?_⟩
  have soundIntrospected := sound_introspect soundBuilt here
  refine ⟨soundIntrospected, fun extended here => ?_⟩
  have soundExtended := sound_extend loaded rfl soundIntrospected here
  refine ⟨soundExtended, fun merged here => ?_⟩
  have soundMerged := sound_merge soundExtended here
  exact ⟨soundMerged, fun installer concurrency before after failure coordinate failed =>
    soundMerged.installs failed coordinate⟩

/-- A module gets a driver that it does not state, and a model that was built elsewhere is merged. -/
theorem stages_sound_merged :
    let record : SnapshotRecord :=
      { root := "g:app:1"
        dependencies := ["g:p:1:jar:mule-plugin", "g:sub:1"]
        nodes :=
          [⟨"g:p:1:jar:mule-plugin", none, none, []⟩, ⟨"g:sub:1", none, none, []⟩,
            ⟨"g:driver:1", none, none, []⟩] }
    let descriptor := "\x7b\"artifactCoordinates\":\x7b\"groupId\":\"g\"," ++
      "\"artifactId\":\"sub\",\"version\":\"1\"\x7d\x7d"
    let configuration : Configuration :=
      { Configuration.default with
        additions := [⟨"g", "p", ["g:driver:1"]⟩]
        mergePolicy := .inlined
        nestedModels := [⟨"sub/model.json"⟩] }
    let files := FileSystem.empty.place ⟨"sub/model.json"⟩ descriptor.toUTF8
    ∃ snapshot built introspected extended merged,
      Snapshot.ofRecord record ⟨"/m2"⟩ = .ok snapshot ∧
        let packager : Packager := ⟨snapshot.resolver, configuration⟩
        packager.BuildsTo (.ok built) ∧ packager.introspect files built = .ok introspected ∧
          packager.extend introspected = .ok extended ∧ packager.merge files extended = .ok merged ∧
            merged.Sound ∧ merged.models.length = 3 := by
  intro record descriptor configuration files
  have succeeds : (do
      let snapshot ← Snapshot.ofRecord record ⟨"/m2"⟩
      let packager : Packager := ⟨snapshot.resolver, configuration⟩
      let built ← packager.build
      let introspected ← packager.introspect files built
      let extended ← packager.extend introspected
      let merged ← packager.merge files extended
      return merged.models.length : Except Failure Nat) = .ok 3 := by
    decide +kernel
  obtain ⟨snapshot, loaded, ran⟩ := bind_ok.mp succeeds
  obtain ⟨built, builds, ran⟩ := bind_ok.mp ran
  obtain ⟨introspected, here, ran⟩ := bind_ok.mp ran
  obtain ⟨extended, there, ran⟩ := bind_ok.mp ran
  obtain ⟨merged, merges, ran⟩ := bind_ok.mp ran
  have started : Packager.BuildsTo ⟨snapshot.resolver, configuration⟩ (.ok built) :=
    builds ▸ build_buildsTo
  have stages := (stages_sound loaded configuration files built started).2 introspected here
  exact ⟨snapshot, built, introspected, extended, merged, loaded, started, here, there, merges,
    ((stages.2 extended there).2 merged merges).1, Except.ok.inj ran⟩

end Packager

end AppBundle
