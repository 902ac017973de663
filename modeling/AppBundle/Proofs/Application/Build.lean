import AppBundle.Proofs.Application.Nested
import AppBundle.Proofs.Graph.Walk

namespace AppBundle

/-! When building succeeds and what it builds, for any answers to the module queries and any order
in which they complete. The order decides only which failure is reported first.
-/

section Completion

variable {limit : Nat} {tasks order : List Coordinate}

theorem CompletionOrder.perm (completed : CompletionOrder limit tasks order) :
    order.Perm tasks := by
  induction completed with
  | done => exact .refl _
  | next _ _ ih => exact (ih.cons _).trans List.perm_middle.symm

theorem CompletionOrder.inOrder (positive : 0 < limit) : CompletionOrder limit tasks tasks := by
  induction tasks with
  | nil => exact .done
  | cons task rest ih =>
      change CompletionOrder limit ([] ++ task :: rest) (task :: rest)
      exact .next positive ih

/-- When all queries run at once they complete in any order. -/
theorem CompletionOrder.ofPerm (permuted : order.Perm tasks) (room : tasks.length ≤ limit) :
    CompletionOrder limit tasks order := by
  induction order generalizing tasks with
  | nil =>
      rw [List.nil_perm.mp permuted]
      exact .done
  | cons task rest ih =>
      obtain ⟨before, after, rfl⟩ := List.append_of_mem (permuted.subset (List.mem_cons_self ..))
      rw [List.length_append, List.length_cons] at room
      have others : rest.Perm (before ++ after) := (permuted.trans List.perm_middle).cons_inv
      refine .next (by omega) (ih others ?_)
      rw [List.length_append]
      omega

end Completion

/-- A graph that may stand for a module in an application with the given root graph. -/
structure Graph.Answers (answer : Graph) (module : Coordinate) (root : Graph) : Prop where
  owned : answer.owner.identity = module.identity
  valid : answer.Valid
  independent : ∀ artifact, answer.Reaches artifact → artifact.identity ≠ module.identity
  located : ∀ artifact known, answer.Reaches artifact → root.Reaches known →
    known.identity = artifact.identity → known.location = artifact.location

section Module

variable {root answer : Graph} {module : Coordinate} {artifact : Artifact} {model : Model}
  {set : DependencySet} {failure : Failure}

theorem find?_flatten {known : Artifact} {coordinate : Coordinate} :
    (DependencySet.ofList root.flatten).find? coordinate = some known ↔
      root.Reaches known ∧ known.identity = coordinate.identity := by
  rw [DependencySet.find?_iff_mem, DependencySet.mem_ofList Graph.flatten_distinct,
    Graph.mem_flatten]

theorem checkConsistent_ok :
    checkConsistent module set artifact = .ok () ↔
      artifact.identity ≠ module.identity ∧
        ∀ known, set.find? artifact.coordinate = some known →
          known.location = artifact.location := by
  unfold checkConsistent
  split
  · next same => simp [same]
  · next different =>
      cases found : set.find? artifact.coordinate with
      | none => simp [different]
      | some known => by_cases same : known.location = artifact.location <;> simp [same, different]

theorem checkConsistent_error (failed : checkConsistent module set artifact = .error failure) :
    ∃ subject cause, failure = .inconsistentResolution subject cause := by
  unfold checkConsistent at failed
  split at failed
  · cases failed
    exact ⟨_, _, rfl⟩
  · split at failed
    · contradiction
    · split at failed
      · contradiction
      · cases failed
        exact ⟨_, _, rfl⟩

theorem Graph.validate_error (failed : root.validate = .error failure) :
    ∃ cause, failure = .inconsistentResolution root.owner cause := by
  unfold validate at failed
  split at failed
  · cases failed
    exact ⟨_, rfl⟩
  · split at failed
    · cases failed
      exact ⟨_, rfl⟩
    · contradiction

theorem forM_checkConsistent :
    answer.flatten.forM (checkConsistent module (.ofList root.flatten)) = .ok () ↔
      (∀ artifact, answer.Reaches artifact → artifact.identity ≠ module.identity) ∧
        ∀ artifact known, answer.Reaches artifact → root.Reaches known →
          known.identity = artifact.identity → known.location = artifact.location := by
  simp only [forM_ok, Graph.mem_flatten, checkConsistent_ok, find?_flatten]
  constructor
  · intro checked
    refine ⟨fun artifact reached => (checked artifact reached).1, ?_⟩
    intro artifact known reached rooted same
    exact (checked artifact reached).2 known ⟨rooted, same⟩
  · intro sound artifact reached
    refine ⟨sound.1 artifact reached, fun known found => ?_⟩
    exact sound.2 artifact known reached found.1 found.2

theorem ofModuleGraph_ok :
    Model.ofModuleGraph module (.ofList root.flatten) answer = .ok model ↔
      answer.Answers module root ∧ model = .ofDependencies module (.ofList answer.flatten) := by
  unfold Model.ofModuleGraph
  by_cases owned : answer.owner.identity = module.identity
  · simp only [owned, ne_eq, not_true_eq_false, if_false, bind_ok]
    constructor
    · intro built
      obtain ⟨_, valid, _, checked, made⟩ := built
      obtain ⟨independent, located⟩ := forM_checkConsistent.mp checked
      exact ⟨⟨owned, Graph.validate_ok.mp valid, independent, located⟩, (Except.ok.inj made).symm⟩
    · intro sound
      obtain ⟨answers, rfl⟩ := sound
      have checked := forM_checkConsistent.mpr ⟨answers.independent, answers.located⟩
      exact ⟨(), Graph.validate_ok.mpr answers.valid, (), checked, rfl⟩
  · simp only [owned, ne_eq, not_false_eq_true, if_true]
    constructor
    · intro built
      cases built
    · intro sound
      exact absurd sound.1.owned owned

theorem ofModuleGraph_error (failed : Model.ofModuleGraph module set answer = .error failure) :
    ∃ subject cause, failure = .inconsistentResolution subject cause := by
  unfold Model.ofModuleGraph at failed
  by_cases owned : answer.owner.identity = module.identity
  · simp only [owned, ne_eq, not_true_eq_false, if_false] at failed
    rcases bind_error.mp failed with invalid | ⟨_, _, later⟩
    · obtain ⟨cause, rfl⟩ := Graph.validate_error invalid
      exact ⟨_, cause, rfl⟩
    · rcases bind_error.mp later with inconsistent | ⟨_, _, made⟩
      · obtain ⟨artifact, _, stopped⟩ := forM_error inconsistent
        exact checkConsistent_error stopped
      · cases made
  · simp only [owned, ne_eq, not_false_eq_true, if_true] at failed
    cases failed
    exact ⟨_, _, rfl⟩

/-- A fitting answer in all but one respect is refused for that one. -/
theorem ofModuleGraph_dependent (owned : answer.owner.identity = module.identity)
    (valid : answer.Valid)
    (located : ∀ artifact known, answer.Reaches artifact → root.Reaches known →
      known.identity = artifact.identity → known.location = artifact.location)
    (failed : Model.ofModuleGraph module (.ofList root.flatten) answer = .error failure) :
    failure = .inconsistentResolution module .dependsOnItself ∧
      ∃ artifact, answer.Reaches artifact ∧ artifact.identity = module.identity := by
  unfold Model.ofModuleGraph at failed
  simp only [owned, ne_eq, not_true_eq_false, if_false] at failed
  rcases bind_error.mp failed with invalid | ⟨_, _, later⟩
  · rw [Graph.validate_ok.mpr valid] at invalid
    contradiction
  · rcases bind_error.mp later with inconsistent | ⟨_, _, made⟩
    · obtain ⟨artifact, member, stopped⟩ := forM_error inconsistent
      have reached := Graph.mem_flatten.mp member
      by_cases same : artifact.identity = module.identity
      · rw [checkConsistent, if_pos same] at stopped
        exact ⟨(Except.error.inj stopped).symm, artifact, reached, same⟩
      · have passed : checkConsistent module (.ofList root.flatten) artifact = .ok () := by
          refine checkConsistent_ok.mpr ⟨same, fun known found => ?_⟩
          obtain ⟨rooted, sameKnown⟩ := find?_flatten.mp found
          exact located artifact known reached rooted sameKnown
        rw [passed] at stopped
        contradiction
    · cases made

theorem modulesOf_distinct :
    (Application.modulesOf root.flatten).Pairwise (·.identity ≠ ·.identity) := by
  refine List.Pairwise.filter _ ?_
  rw [List.pairwise_map]
  exact Graph.flatten_distinct

theorem mem_modulesOf :
    module ∈ Application.modulesOf root.flatten ↔
      ∃ artifact, root.Reaches artifact ∧ artifact.coordinate.isModule = true ∧
        artifact.coordinate = module := by
  rw [Application.modulesOf, List.mem_filter, List.mem_map]
  constructor
  · intro found
    obtain ⟨⟨artifact, member, rfl⟩, isolated⟩ := found
    exact ⟨artifact, Graph.mem_flatten.mp member, isolated, rfl⟩
  · intro found
    obtain ⟨artifact, reached, isolated, rfl⟩ := found
    exact ⟨⟨artifact, Graph.mem_flatten.mpr reached, rfl⟩, isolated⟩

end Module

namespace Application

variable {resolver : Resolver} {root : Graph} {order : List Coordinate} {module : Coordinate}
  {application : Application} {entry : Coordinate × Model} {concurrency : Nat}

abbrev resolveEntry (resolver : Resolver) (root : Graph) (module : Coordinate) :
    Except Failure (Coordinate × Model) :=
  moduleEntry resolver (.ofList root.flatten) module

theorem resolveEntry_ok :
    resolveEntry resolver root module = .ok entry ↔
      ∃ answer, resolver.module module = .ok answer ∧ answer.Answers module root ∧
        entry = (module, .ofDependencies module (.ofList answer.flatten)) := by
  simp only [resolveEntry, moduleEntry, bind_ok, ofModuleGraph_ok]
  constructor
  · intro resolved
    obtain ⟨answer, answered, model, ⟨answers, rfl⟩, made⟩ := resolved
    exact ⟨answer, answered, answers, (Except.ok.inj made).symm⟩
  · intro resolved
    obtain ⟨answer, answered, answers, rfl⟩ := resolved
    exact ⟨answer, answered, _, ⟨answers, rfl⟩, rfl⟩

theorem resolveEntry_key (resolved : resolveEntry resolver root module = .ok entry) :
    entry.1 = module := by
  obtain ⟨_, _, _, rfl⟩ := resolveEntry_ok.mp resolved
  rfl

theorem resolveEntry_error {failure : Failure}
    (failed : resolveEntry resolver root module = .error failure) :
    resolver.module module = .error failure ∨
      ∃ subject cause, failure = .inconsistentResolution subject cause := by
  rcases bind_error.mp failed with unanswered | ⟨answer, _, later⟩
  · exact .inl unanswered
  · rcases bind_error.mp later with unfit | ⟨_, _, made⟩
    · exact .inr (ofModuleGraph_error unfit)
    · cases made

/-- The root model of an application that is built from a graph. -/
def rootModelOf (root : Graph) : Model :=
  .ofDependencies root.owner (.ofList (DependencySet.ofList root.flatten).artifacts)

theorem buildInOrder_ok :
    buildInOrder resolver root order = .ok application ↔
      root.Valid ∧ ∃ entries, order.mapM (resolveEntry resolver root) = .ok entries ∧
        (ofRoot (rootModelOf root)).insertEntries entries = .ok application := by
  rw [← Graph.validate_ok]
  simp only [buildInOrder, bind_ok]
  exact ⟨fun ⟨_, valid, built⟩ => ⟨valid, built⟩, fun ⟨valid, built⟩ => ⟨(), valid, built⟩⟩

/-- Entries of all modules go into an application, whatever order their queries completed in. -/
theorem insertEntries_resolved {entries : List (Coordinate × Model)}
    (permuted : order.Perm (modulesOf root.flatten))
    (mapped : order.mapM (resolveEntry resolver root) = .ok entries) :
    ∃ application, (ofRoot (rootModelOf root)).insertEntries entries = .ok application ∧
      application.root = rootModelOf root ∧
      ∀ entry, entry ∈ application.nested ↔
        ∃ module ∈ modulesOf root.flatten, resolveEntry resolver root module = .ok entry := by
  have keys : entries.map (·.1) = order := map_of_mapM_ok mapped fun _ _ => resolveEntry_key
  have distinct : entries.Pairwise fun left right => left.1.identity ≠ right.1.identity := by
    have ordered : order.Pairwise (·.identity ≠ ·.identity) :=
      permuted.symm.pairwise modulesOf_distinct Ne.symm
    rwa [← keys, List.pairwise_map] at ordered
  have fresh : ∀ entry ∈ entries, (ofRoot (rootModelOf root)).hasNested entry.1 = false :=
    fun _ _ => rfl
  obtain ⟨application, inserted, rooted, nested⟩ := insertEntries_distinct fresh distinct
  refine ⟨application, inserted, rooted, fun entry => ?_⟩
  rw [nested, mem_of_mapM_ok mapped]
  have none : entry ∉ (ofRoot (rootModelOf root)).nested := List.not_mem_nil
  simp only [none, false_or, permuted.mem_iff]

/-- What building needs: a valid root graph and a fitting answer for every module in it. -/
structure Buildable (resolver : Resolver) (root : Graph) : Prop where
  valid : root.Valid
  answered : ∀ module, root.Reaches module → module.coordinate.isModule = true →
    ∃ answer, resolver.module module.coordinate = .ok answer ∧
      answer.Answers module.coordinate root

/-- What was built holds all artifacts of the root graph, and under each module among them all
artifacts of the module's own graph. -/
structure BuiltFrom (resolver : Resolver) (root : Graph) (application : Application) : Prop where
  owner : application.root.owner = root.owner
  dependencies : ∀ artifact,
    artifact ∈ application.root.dependencies.artifacts ↔ root.Reaches artifact
  keys : ∀ key, (∃ model, (key, model) ∈ application.nested) ↔
    ∃ module, root.Reaches module ∧ module.coordinate.isModule = true ∧ module.coordinate = key
  models : ∀ key model, (key, model) ∈ application.nested →
    ∃ answer, resolver.module key = .ok answer ∧ model.owner = key ∧
      ∀ artifact, artifact ∈ model.dependencies.artifacts ↔ answer.Reaches artifact

theorem buildable_iff :
    Buildable resolver root ↔
      root.Valid ∧ ∀ module ∈ modulesOf root.flatten,
        ∃ entry, resolveEntry resolver root module = .ok entry := by
  constructor
  · intro buildable
    refine ⟨buildable.valid, fun module member => ?_⟩
    obtain ⟨artifact, reached, isolated, rfl⟩ := mem_modulesOf.mp member
    obtain ⟨answer, answered, answers⟩ := buildable.answered artifact reached isolated
    exact ⟨_, resolveEntry_ok.mpr ⟨answer, answered, answers, rfl⟩⟩
  · intro resolved
    refine ⟨resolved.1, fun artifact reached isolated => ?_⟩
    obtain ⟨_, entry⟩ := resolved.2 _ (mem_modulesOf.mpr ⟨artifact, reached, isolated, rfl⟩)
    obtain ⟨answer, answered, answers, _⟩ := resolveEntry_ok.mp entry
    exact ⟨answer, answered, answers⟩

theorem buildInOrder_succeeds (permuted : order.Perm (modulesOf root.flatten)) :
    (∃ application, buildInOrder resolver root order = .ok application) ↔
      Buildable resolver root := by
  rw [buildable_iff]
  constructor
  · intro built
    obtain ⟨application, built⟩ := built
    obtain ⟨valid, entries, mapped, _⟩ := buildInOrder_ok.mp built
    have resolved := mapM_succeeds.mp ⟨entries, mapped⟩
    exact ⟨valid, fun module member => resolved module (permuted.symm.subset member)⟩
  · intro buildable
    obtain ⟨entries, mapped⟩ := mapM_succeeds.mpr fun module member =>
      buildable.2 module (permuted.subset member)
    obtain ⟨application, inserted, _⟩ := insertEntries_resolved permuted mapped
    exact ⟨application, buildInOrder_ok.mpr ⟨buildable.1, entries, mapped, inserted⟩⟩

/-- The content of what is built does not mention the order of completion. -/
theorem of_buildInOrder_ok (permuted : order.Perm (modulesOf root.flatten))
    (built : buildInOrder resolver root order = .ok application) :
    application.root = rootModelOf root ∧
      ∀ entry, entry ∈ application.nested ↔
        ∃ module ∈ modulesOf root.flatten, resolveEntry resolver root module = .ok entry := by
  obtain ⟨_, entries, mapped, inserted⟩ := buildInOrder_ok.mp built
  obtain ⟨other, same, content⟩ := insertEntries_resolved permuted mapped
  rw [inserted] at same
  cases same
  exact content

theorem buildInOrder_eq_build (permuted : order.Perm (modulesOf root.flatten))
    (built : buildInOrder resolver root order = .ok application) :
    build resolver root = .ok application := by
  have buildable := (buildInOrder_succeeds permuted).mp ⟨application, built⟩
  obtain ⟨other, builtInOrder⟩ := (buildInOrder_succeeds (.refl _)).mpr buildable
  obtain ⟨rooted, nested⟩ := of_buildInOrder_ok permuted built
  obtain ⟨otherRooted, otherNested⟩ := of_buildInOrder_ok (.refl _) builtInOrder
  have same : other = application :=
    eq_of_mem_iff (otherRooted.trans rooted.symm) fun entry =>
      (otherNested entry).trans (nested entry).symm
  rw [build, builtInOrder, same]

theorem builtFrom (permuted : order.Perm (modulesOf root.flatten))
    (built : buildInOrder resolver root order = .ok application) :
    BuiltFrom resolver root application := by
  obtain ⟨rooted, nested⟩ := of_buildInOrder_ok permuted built
  have buildable := buildable_iff.mp ((buildInOrder_succeeds permuted).mp ⟨application, built⟩)
  refine ⟨by rw [rooted]; rfl, fun artifact => ?_, fun key => ?_, fun key model member => ?_⟩
  · rw [rooted]
    change artifact ∈
      (DependencySet.ofList (DependencySet.ofList root.flatten).artifacts).artifacts ↔ _
    rw [DependencySet.mem_ofList (DependencySet.distinct _),
      DependencySet.mem_ofList Graph.flatten_distinct, Graph.mem_flatten]
  · rw [← mem_modulesOf]
    constructor
    · intro keyed
      obtain ⟨model, member⟩ := keyed
      obtain ⟨module, listed, resolved⟩ := (nested _).mp member
      have same : key = module := resolveEntry_key resolved
      rwa [same]
    · intro listed
      obtain ⟨entry, resolved⟩ := buildable.2 key listed
      cases resolveEntry_key resolved
      exact ⟨entry.2, (nested entry).mpr ⟨entry.1, listed, resolved⟩⟩
  · obtain ⟨module, _, resolved⟩ := (nested _).mp member
    obtain ⟨answer, answered, _, same⟩ := resolveEntry_ok.mp resolved
    cases same
    refine ⟨answer, answered, rfl, fun artifact => ?_⟩
    exact (DependencySet.mem_ofList Graph.flatten_distinct).trans Graph.mem_flatten

/-- A build fails at its root graph or at one of the modules, never when their entries are put
together. -/
theorem buildInOrder_stops {failure : Failure} (permuted : order.Perm (modulesOf root.flatten))
    (failed : buildInOrder resolver root order = .error failure) :
    root.validate = .error failure ∨
      ∃ module ∈ modulesOf root.flatten, resolveEntry resolver root module = .error failure := by
  rcases bind_error.mp failed with invalid | ⟨_, _, later⟩
  · exact .inl invalid
  · rcases bind_error.mp later with unresolved | ⟨entries, mapped, inserting⟩
    · obtain ⟨before, module, after, rfl, _, stopped⟩ := mapM_error.mp unresolved
      have listed := permuted.subset (List.mem_append_right before (List.mem_cons_self ..))
      exact .inr ⟨module, listed, stopped⟩
    · obtain ⟨application, inserted, _⟩ := insertEntries_resolved permuted mapped
      rw [rootModelOf] at inserted
      rw [inserted] at inserting
      contradiction

/-- A failed build reports an inconsistency or what the resolver answered, never a module that was
defined twice. -/
theorem buildInOrder_error {failure : Failure} (permuted : order.Perm (modulesOf root.flatten))
    (failed : buildInOrder resolver root order = .error failure) :
    (∃ subject cause, failure = .inconsistentResolution subject cause) ∨
      ∃ module ∈ modulesOf root.flatten, resolver.module module = .error failure := by
  rcases buildInOrder_stops permuted failed with invalid | ⟨module, listed, stopped⟩
  · obtain ⟨cause, same⟩ := Graph.validate_error invalid
    exact .inl ⟨_, cause, same⟩
  · rcases resolveEntry_error stopped with unanswered | inconsistent
    · exact .inr ⟨module, listed, unanswered⟩
    · exact .inl inconsistent

/-- Whatever the resolver answers, however many queries run at a time and in whatever order they
complete: building succeeds exactly when the root graph is valid and every module in it has a
fitting answer, and then it builds the one application that those answers describe. -/
theorem build_specification (resolver : Resolver) (root : Graph) (concurrency : Nat) :
    BuildsTo resolver root concurrency (build resolver root) ∧
    ∀ outcome, BuildsTo resolver root concurrency outcome →
      ((∃ application, outcome = .ok application) ↔ Buildable resolver root) ∧
      (∀ application, outcome = .ok application →
        BuiltFrom resolver root application ∧ build resolver root = .ok application) ∧
      ∀ key, outcome = .error (.duplicateDefinition key) →
        ∃ module, root.Reaches module ∧ module.coordinate.isModule = true ∧
          resolver.module module.coordinate = .error (.duplicateDefinition key) := by
  refine ⟨⟨_, .inOrder (by omega), rfl⟩, ?_⟩
  intro outcome builds
  obtain ⟨order, completed, rfl⟩ := builds
  have permuted := completed.perm
  refine ⟨buildInOrder_succeeds permuted, fun application built => ?_, fun key failed => ?_⟩
  · exact ⟨builtFrom permuted built, buildInOrder_eq_build permuted built⟩
  · rcases buildInOrder_error permuted failed with ⟨_, _, different⟩ | ⟨module, listed, answered⟩
    · contradiction
    · obtain ⟨artifact, reached, isolated, rfl⟩ := mem_modulesOf.mp listed
      exact ⟨artifact, reached, isolated, answered⟩

end Application

end AppBundle
