import AppBundle.Proofs.Application.Unplaced
import AppBundle.Proofs.Packaging.Stages

namespace AppBundle

/-! What a bundle says about the machine it was packaged on. Over two local repositories one record
gives graphs that differ in places only, which no failure and no portable descriptor shows: the places
that a build compares are those of one node, and so they agree in either repository.
-/

/-- Attempts that fail alike, or succeed with related results. -/
inductive Agree {ε α β : Type} (related : α → β → Prop) : Except ε α → Except ε β → Prop where
  | failed (failure : ε) : Agree related (.error failure) (.error failure)
  | succeeded {left : α} {right : β} (holds : related left right) :
      Agree related (.ok left) (.ok right)

section Agreement

variable {ε α β γ : Type} {related other : α → β → Prop} {left : Except ε α} {right : Except ε β}

theorem Agree.of_map {change : α → γ} {otherChange : β → γ}
    (same : left.map change = right.map otherChange) :
    Agree (fun left right => change left = otherChange right) left right := by
  cases left with
  | error failure =>
      cases right with
      | error cause =>
          cases same
          exact .failed failure
      | ok value => cases same
  | ok value =>
      cases right with
      | error cause => cases same
      | ok result => exact .succeeded (Except.ok.inj same)

theorem Agree.outcomes (agree : Agree related left right) :
    (∃ failure, left = .error failure ∧ right = .error failure) ∨
      ∃ value result, left = .ok value ∧ right = .ok result ∧ related value result := by
  cases agree with
  | failed failure => exact .inl ⟨failure, rfl, rfl⟩
  | succeeded holds => exact .inr ⟨_, _, rfl, rfl, holds⟩

theorem Agree.imp (agree : Agree related left right)
    (weaker : ∀ value result, left = .ok value → right = .ok result → related value result →
      other value result) : Agree other left right := by
  cases agree with
  | failed failure => exact .failed failure
  | succeeded holds => exact .succeeded (weaker _ _ rfl rfl holds)

end Agreement

/-- Graphs that differ in the places of artifacts only. -/
def Graph.Alike (left right : Graph) : Prop :=
  left.unplaced = right.unplaced

/-- Applications whose descriptors in a bundle are the same, whatever its repository is called. -/
structure Application.SameDescriptors (left right : Application) : Prop where
  keys : left.nested.map (·.1) = right.nested.map (·.1)
  root : ∀ placeholder pretty, left.root.descriptor (Placeholder.parameterize placeholder) pretty =
    right.root.descriptor placeholder.parameterize pretty
  nested : ∀ placeholder pretty,
    left.nested.map (·.2.descriptor (Placeholder.parameterize placeholder) pretty) =
      right.nested.map (·.2.descriptor placeholder.parameterize pretty)

/-- Models that differ in the places of artifacts only have one portable descriptor. -/
theorem Model.descriptor_alike {left right : Model} (alike : left.unplaced = right.unplaced)
    (placeholder : Placeholder) (pretty : Bool) :
    left.descriptor placeholder.parameterize pretty =
      right.descriptor placeholder.parameterize pretty := by
  rw [← left.descriptor_unplaced, alike, descriptor_unplaced]

theorem Application.sameDescriptors_of_unplaced {left right : Application}
    (alike : left.unplaced = right.unplaced) : left.SameDescriptors right := by
  have root : left.root.unplaced = right.root.unplaced := congrArg Application.root alike
  have nested : left.nested.map (fun entry => (entry.1, entry.2.unplaced)) =
      right.nested.map fun entry => (entry.1, entry.2.unplaced) := congrArg Application.nested alike
  refine ⟨?_, fun placeholder pretty => Model.descriptor_alike root placeholder pretty, ?_⟩
  · simpa only [List.map_map, Function.comp_def] using congrArg (List.map Prod.fst) nested
  · intro placeholder pretty
    have written := congrArg (List.map fun entry : Coordinate × Model =>
      entry.2.descriptor placeholder.parameterize pretty) nested
    simpa only [List.map_map, Function.comp_def, Model.descriptor_unplaced] using written

namespace Packager

variable {here there : Snapshot} {graph marked otherMarked : Graph} {configuration : Configuration}
  {order : List Coordinate} {outcome result : Except Failure Application}

theorem locatedAlike_of_marked (resolved : here.application = .ok graph)
    (shared : graph.propagateShared configuration.sharedLibraries = .ok marked)
    (module : Coordinate) : LocatedAlike here.resolver marked module := by
  intro answer answered artifact known reached rooted same
  obtain ⟨node, found⟩ : ∃ node, here.nodes.find? module = some node := by
    cases found : here.nodes.find? module with
    | some node => exact ⟨node, rfl⟩
    | none =>
        change here.module module = .ok answer at answered
        rw [Snapshot.module, found] at answered
        cases answered
  exact Snapshot.located_alike resolved shared found answered artifact known reached rooted same

theorem application_alike (alike : here.unplaced = there.unplaced) :
    here.application.map Graph.unplaced = there.application.map Graph.unplaced := by
  have resolved : here.resolver.unplaced = there.resolver.unplaced := by
    rw [Snapshot.resolver_unplaced, alike, Snapshot.resolver_unplaced]
  exact congrArg Resolver.application resolved

theorem rootGraph_alike (configuration : Configuration)
    (alike : here.unplaced = there.unplaced) :
    (rootGraph ⟨here.resolver, configuration⟩).map Graph.unplaced =
      (rootGraph ⟨there.resolver, configuration⟩).map Graph.unplaced := by
  have marking (snapshot : Snapshot) :
      (rootGraph ⟨snapshot.resolver, configuration⟩).map Graph.unplaced =
        snapshot.application.map Graph.unplaced >>= fun graph =>
          graph.propagateShared configuration.sharedLibraries := by
    have commutes (graph : Graph) :
        graph.unplaced.propagateShared configuration.sharedLibraries =
          (graph.propagateShared configuration.sharedLibraries).map Graph.unplaced :=
      graph.propagateShared_unplaced.symm
    rw [bind_of_map, funext commutes]
    exact map_bind
  rw [marking, application_alike alike, ← marking]

/-- The same build over two repositories, its queries completing in the same order. -/
theorem buildInOrder_alike (alike : here.unplaced = there.unplaced)
    (rooted : rootGraph ⟨here.resolver, configuration⟩ = .ok marked)
    (otherRooted : rootGraph ⟨there.resolver, configuration⟩ = .ok otherMarked)
    (order : List Coordinate) :
    (Application.buildInOrder here.resolver marked order).map Application.unplaced =
      (Application.buildInOrder there.resolver otherMarked order).map Application.unplaced := by
  obtain ⟨graph, resolved, shared⟩ := rootGraph_ok.mp rooted
  obtain ⟨otherGraph, otherResolved, otherShared⟩ := rootGraph_ok.mp otherRooted
  have roots : marked.unplaced = otherMarked.unplaced := by
    have same := rootGraph_alike configuration alike
    rw [rooted, otherRooted] at same
    exact Except.ok.inj same
  rw [Application.buildInOrder_unplaced fun module _ =>
      locatedAlike_of_marked resolved shared module,
    Application.buildInOrder_unplaced fun module _ =>
      locatedAlike_of_marked otherResolved otherShared module,
    roots, Snapshot.resolver_unplaced, Snapshot.resolver_unplaced, alike]

theorem modulesOf_alike (roots : marked.unplaced = otherMarked.unplaced) :
    Application.modulesOf marked.flatten = Application.modulesOf otherMarked.flatten := by
  rw [← modulesOf_unplaced, ← Graph.flatten_unplaced, roots, Graph.flatten_unplaced,
    modulesOf_unplaced]

theorem build_alike (alike : here.unplaced = there.unplaced) :
    Agree Application.SameDescriptors (build ⟨here.resolver, configuration⟩)
      (build ⟨there.resolver, configuration⟩) := by
  rw [build_eq, build_eq]
  rcases (Agree.of_map (rootGraph_alike configuration alike)).outcomes with
    ⟨failure, rooted, otherRooted⟩ | ⟨marked, otherMarked, rooted, otherRooted, roots⟩
  · rw [rooted, otherRooted]
    exact .failed failure
  · rw [rooted, otherRooted]
    have same := buildInOrder_alike alike rooted otherRooted (Application.modulesOf marked.flatten)
    refine (Agree.of_map ?_).imp fun _ _ _ _ => Application.sameDescriptors_of_unplaced
    change (Application.build here.resolver marked).map Application.unplaced =
      (Application.build there.resolver otherMarked).map Application.unplaced
    rw [Application.build, same, modulesOf_alike roots, Application.build]

/-- Every outcome over one repository has its like over the other. -/
theorem BuildsTo.alike (alike : here.unplaced = there.unplaced)
    (builds : BuildsTo ⟨here.resolver, configuration⟩ outcome) :
    ∃ result, BuildsTo ⟨there.resolver, configuration⟩ result ∧
      Agree Application.SameDescriptors outcome result := by
  rcases (Agree.of_map (rootGraph_alike configuration alike)).outcomes with
    ⟨failure, rooted, otherRooted⟩ | ⟨marked, otherMarked, rooted, otherRooted, roots⟩
  · rw [BuildsTo, rooted] at builds
    subst builds
    refine ⟨.error failure, ?_, .failed failure⟩
    rw [BuildsTo, otherRooted]
  · rw [BuildsTo, rooted] at builds
    obtain ⟨order, completed, rfl⟩ := builds
    have same := buildInOrder_alike alike rooted otherRooted order
    refine ⟨Application.buildInOrder there.resolver otherMarked order, ?_,
      (Agree.of_map same).imp fun _ _ _ _ => Application.sameDescriptors_of_unplaced⟩
    rw [BuildsTo, otherRooted]
    rw [modulesOf_alike roots] at completed
    exact ⟨order, completed, rfl⟩

/-- However its queries complete, a build succeeds or fails as one that asks one after the other. -/
theorem BuildsTo.build_ok (packager : Packager) (builds : packager.BuildsTo outcome)
    (application : Application) :
    outcome = .ok application ↔ packager.build = .ok application := by
  rw [build_eq]
  unfold BuildsTo at builds
  cases rooted : packager.rootGraph with
  | error failure =>
      rw [rooted] at builds
      rw [builds]
      exact Iff.rfl
  | ok marked =>
      rw [rooted] at builds
      obtain ⟨order, completed, rfl⟩ := builds
      change _ ↔ Application.build packager.resolver marked = .ok application
      constructor
      · exact Application.buildInOrder_eq_build completed.perm
      · intro built
        have buildable := (Application.buildInOrder_succeeds (.refl _)).mp ⟨application, built⟩
        obtain ⟨other, builtInOrder⟩ :=
          (Application.buildInOrder_succeeds completed.perm).mpr buildable
        have same := Application.buildInOrder_eq_build completed.perm builtInOrder
        rw [builtInOrder, ← same, built]

/-- Nothing that is decided or written depends on where the artifacts of a record lie, but for domain
references: over any two local repositories loading, resolving, marking and building fail alike or end
with the same portable descriptors, in whatever order module queries complete. -/
theorem portable_of_record :
    (∀ left right : Model, left.unplaced = right.unplaced → ∀ placeholder pretty,
      left.descriptor (Placeholder.parameterize placeholder) pretty =
        right.descriptor placeholder.parameterize pretty) ∧
    ∀ record : SnapshotRecord, (∀ entry ∈ record.nodes, entry.Anchored) → ∀ left right : Path,
      Agree (fun here there : Snapshot =>
        Agree Graph.Alike here.application there.application ∧
          ∀ configuration,
            let packager : Packager := ⟨here.resolver, configuration⟩
            let other : Packager := ⟨there.resolver, configuration⟩
            Agree Graph.Alike packager.rootGraph other.rootGraph ∧
              Agree Application.SameDescriptors packager.build other.build ∧
                (∀ outcome, packager.BuildsTo outcome → ∃ result, other.BuildsTo result ∧
                  Agree Application.SameDescriptors outcome result) ∧
                  ∀ outcome result, packager.BuildsTo outcome → other.BuildsTo result →
                    ((∃ application, outcome = .ok application) ↔
                      ∃ application, result = .ok application) ∧
                    ∀ application twin, outcome = .ok application → result = .ok twin →
                      application.SameDescriptors twin)
        (Snapshot.ofRecord record left) (Snapshot.ofRecord record right) := by
  refine ⟨fun left right => Model.descriptor_alike, fun record anchored left right => ?_⟩
  refine (Agree.of_map (Snapshot.ofRecord_unplaced anchored left right)).imp ?_
  intro here there _ _ alike
  refine ⟨Agree.of_map (application_alike alike), fun configuration => ?_⟩
  have built : Agree Application.SameDescriptors (build ⟨here.resolver, configuration⟩)
      (build ⟨there.resolver, configuration⟩) := build_alike alike
  refine ⟨Agree.of_map (rootGraph_alike _ alike), built, fun outcome builds => builds.alike alike, ?_⟩
  intro outcome result builds otherBuilds
  simp only [builds.build_ok, otherBuilds.build_ok]
  rcases built.outcomes with ⟨failure, failed, otherFailed⟩ | ⟨value, twin, ok, otherOk, same⟩
  · rw [failed, otherFailed]
    exact ⟨Iff.rfl, nofun⟩
  · rw [ok, otherOk]
    refine ⟨⟨fun _ => ⟨twin, rfl⟩, fun _ => ⟨value, rfl⟩⟩, ?_⟩
    rintro _ _ ⟨⟩ ⟨⟩
    exact same

/-- A module, a library and a domain reference of a fixed place over two repositories: the applications
differ, and no descriptor shows it. -/
theorem portable_of_record_domain :
    let record : SnapshotRecord :=
      { root := "g:app:1"
        dependencies := ["g:p:1:jar:mule-plugin", "g:d:1:jar:mule-domain"]
        nodes :=
          [⟨"g:p:1:jar:mule-plugin", none, none, ["g:lib:1"]⟩, ⟨"g:lib:1", some "x.jar", none, []⟩,
            ⟨"g:d:1:jar:mule-domain", some "/domains/d.jar", none, []⟩] }
    let library (place : String) : Model :=
      .ofDependencies ⟨"g", "m", "1", "jar", none, none⟩
        (.ofList [⟨⟨"g", "lib", "1", "jar", none, none⟩, some place, false, .empty, .empty⟩])
    (∀ entry ∈ record.nodes, entry.Anchored) ∧
      (library "/x.jar").unplaced = (library "y.jar").unplaced ∧
        (library "/x.jar").descriptor Placeholder.default.parameterize true =
          (library "y.jar").descriptor Placeholder.default.parameterize true ∧
    ∃ here there application twin, Snapshot.ofRecord record ⟨"/home/.m2"⟩ = .ok here ∧
      Snapshot.ofRecord record ⟨"m2"⟩ = .ok there ∧
        build ⟨here.resolver, .default⟩ = .ok application ∧
          build ⟨there.resolver, .default⟩ = .ok twin ∧ application ≠ twin ∧
            application.SameDescriptors twin := by
  intro record library
  have anchored : ∀ entry ∈ record.nodes, entry.Anchored := by
    intro entry member coordinate location parsed domain stated
    simp only [record, List.mem_cons, List.not_mem_nil, or_false] at member
    rcases member with rfl | rfl | rfl
    · cases stated
    · have plain : (Coordinate.parse? "g:lib:1").map (·.isDomain) = some false := by
        decide +kernel
      rw [parsed, Option.map_some, domain] at plain
      cases plain
    · cases stated
      decide
  have ran : (do
      let here ← Snapshot.ofRecord record ⟨"/home/.m2"⟩
      let there ← Snapshot.ofRecord record ⟨"m2"⟩
      let application ← build ⟨here.resolver, .default⟩
      let twin ← build ⟨there.resolver, .default⟩
      return decide (application = twin) : Except Failure Bool) = .ok false := by
    decide +kernel
  have differ : (library "/x.jar").unplaced = (library "y.jar").unplaced := by
    decide +kernel
  obtain ⟨here, loaded, ran⟩ := bind_ok.mp ran
  obtain ⟨there, otherLoaded, ran⟩ := bind_ok.mp ran
  obtain ⟨application, built, ran⟩ := bind_ok.mp ran
  obtain ⟨twin, otherBuilt, ran⟩ := bind_ok.mp ran
  obtain ⟨descriptors, environments⟩ := portable_of_record
  refine ⟨anchored, differ, descriptors _ _ differ .default true, here, there, application, twin,
    loaded, otherLoaded, built, otherBuilt, of_decide_eq_false (Except.ok.inj ran), ?_⟩
  have agree := environments record anchored ⟨"/home/.m2"⟩ ⟨"m2"⟩
  rw [loaded, otherLoaded] at agree
  cases agree with
  | succeeded holds =>
      have same := (holds.2 .default).2.1
      rw [built, otherBuilt] at same
      cases same with
      | succeeded alike => exact alike

end Packager

end AppBundle
