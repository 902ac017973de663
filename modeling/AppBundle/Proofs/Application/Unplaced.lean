import AppBundle.Descriptor.Writer
import AppBundle.Proofs.Application.Failures
import AppBundle.Proofs.DependencyOrder
import AppBundle.Proofs.Graph.Unplaced

namespace AppBundle

/-! Applications without the places of their artifacts. A portable descriptor shows nothing else of a
model. The one decision that looks at places is whether a module and the application found an artifact
at the same one, so that building may be done over a graph without places wherever that check passes.
-/

def DependencySet.unplaced (set : DependencySet) : DependencySet where
  artifacts := set.artifacts.map Artifact.unplaced
  distinct := List.pairwise_map.mpr set.distinct
  ordered := List.pairwise_map.mpr set.ordered

def Addition.unplaced (addition : Addition) : Addition :=
  { addition with dependencies := addition.dependencies.map Artifact.unplaced }

def Model.unplaced (model : Model) : Model :=
  { model with
    dependencies := model.dependencies.unplaced
    additions := model.additions.map Addition.unplaced }

def Application.unplaced (application : Application) : Application :=
  { application.mapNested fun _ model => model.unplaced with root := application.root.unplaced }

section Descriptors

variable {placeholder : Placeholder} {model : Model} {addition : Addition} {artifact : Artifact}
  {artifacts : List Artifact} {pretty : Bool}

theorem Placeholder.parameterize_unplaced :
    placeholder.parameterize artifact.unplaced = placeholder.parameterize artifact := by
  have kept : artifact.unplaced.coordinate = artifact.coordinate := rfl
  rw [parameterize, parameterize, kept]
  split
  · next domain =>
      rw [Artifact.unplaced, if_pos domain]
  · rfl

theorem artifactsJson_unplaced :
    artifactsJson placeholder.parameterize (artifacts.map Artifact.unplaced) =
      artifactsJson placeholder.parameterize artifacts := by
  rw [artifactsJson, List.map_map, artifactsJson]
  refine congrArg Json.array (List.map_congr_left fun artifact _ => ?_)
  rw [Function.comp_apply, Placeholder.parameterize_unplaced]

theorem Addition.toJson_unplaced :
    addition.unplaced.toJson placeholder.parameterize = addition.toJson placeholder.parameterize := by
  unfold toJson unplaced
  rw [artifactsJson_unplaced]

theorem Model.descriptor_unplaced (model : Model) :
    model.unplaced.descriptor placeholder.parameterize pretty =
      model.descriptor placeholder.parameterize pretty := by
  have dependencies : artifactsJson placeholder.parameterize model.unplaced.dependencies.artifacts =
      artifactsJson placeholder.parameterize model.dependencies.artifacts := artifactsJson_unplaced
  have additions : model.unplaced.additions.map (·.toJson placeholder.parameterize) =
      model.additions.map (·.toJson placeholder.parameterize) := by
    change (model.additions.map Addition.unplaced).map _ = _
    rw [List.map_map]
    exact List.map_congr_left fun addition _ => Addition.toJson_unplaced
  have written : model.unplaced.additions.isEmpty = model.additions.isEmpty := List.isEmpty_map
  rw [descriptor, descriptor, toJson, toJson, dependencies, additions, written]
  rfl

end Descriptors

section Dependencies

variable {set : DependencySet} {artifact : Artifact} {artifacts : List Artifact}
  {coordinate module : Coordinate}

namespace DependencySet

theorem insertArtifact_unplaced :
    insertArtifact artifact.unplaced (artifacts.map Artifact.unplaced) =
      (insertArtifact artifact artifacts).map Artifact.unplaced := by
  induction artifacts with
  | nil => rfl
  | cons next rest ih =>
      rw [List.map_cons, insertArtifact, insertArtifact, ih]
      change (if compare next.key artifact.key = .lt then _ else _) = _
      split <;> rfl

theorem contains_unplaced : set.unplaced.contains coordinate = set.contains coordinate := by
  change (set.artifacts.map Artifact.unplaced).any _ = _
  rw [List.any_map]
  rfl

theorem find?_unplaced :
    set.unplaced.find? coordinate = (set.find? coordinate).map Artifact.unplaced := by
  change (set.artifacts.map Artifact.unplaced).find? _ = _
  rw [List.find?_map]
  rfl

theorem insert_unplaced : (set.insert artifact).unplaced = set.unplaced.insert artifact.unplaced := by
  cases known : set.contains artifact.coordinate with
  | true =>
      rw [insert_known known, insert_known]
      exact contains_unplaced.trans known
  | false =>
      have absent : set.unplaced.contains artifact.unplaced.coordinate = false :=
        contains_unplaced.trans known
      refine eq_of_artifacts ?_
      rw [insert_artifacts absent]
      change (set.insert artifact).artifacts.map Artifact.unplaced = _
      rw [insert_artifacts known]
      exact insertArtifact_unplaced.symm

theorem ofList_unplaced : (ofList artifacts).unplaced = ofList (artifacts.map Artifact.unplaced) := by
  have collected (set : DependencySet) :
      (artifacts.foldl insert set).unplaced =
        artifacts.foldl (fun set artifact => set.insert artifact.unplaced) set.unplaced := by
    induction artifacts generalizing set with
    | nil => rfl
    | cons artifact rest ih => rw [List.foldl_cons, List.foldl_cons, ih, insert_unplaced]
  rw [ofList, insertAll, collected, ofList, insertAll, List.foldl_map]
  rfl

end DependencySet

theorem modulesOf_unplaced :
    Application.modulesOf (artifacts.map Artifact.unplaced) = Application.modulesOf artifacts := by
  rw [Application.modulesOf, List.map_map, Application.modulesOf]
  rfl

/-- Where an artifact is found at one place only, the check without places is the same. -/
theorem checkConsistent_unplaced
    (located : ∀ known, set.find? artifact.coordinate = some known →
      known.location = artifact.location) :
    checkConsistent module set.unplaced artifact.unplaced = checkConsistent module set artifact := by
  by_cases itself : artifact.identity = module.identity
  · have itselfToo : artifact.unplaced.identity = module.identity := itself
    rw [checkConsistent, if_pos itselfToo, checkConsistent, if_pos itself]
  · have passed : checkConsistent module set artifact = .ok () :=
      checkConsistent_ok.mpr ⟨itself, located⟩
    rw [passed, checkConsistent_ok]
    refine ⟨itself, fun known found => ?_⟩
    rw [DependencySet.find?_unplaced] at found
    obtain ⟨before, here, rfl⟩ := Option.map_eq_some_iff.mp found
    have here : set.find? artifact.coordinate = some before := here
    have same : before.coordinate.isDomain = artifact.coordinate.isDomain :=
      congrArg (fun identity : Identity =>
        identity.classifier == some Coordinate.domainClassifier)
        (DependencySet.find?_iff_mem.mp here).2
    simp only [Artifact.unplaced, same, located before here]

end Dependencies

section Building

variable {resolver : Resolver} {root answer : Graph} {module key : Coordinate} {model : Model}
  {order : List Coordinate} {application : Application} {entries : List (Coordinate × Model)}

/-- A module and the application found every artifact at the same place. -/
def LocatedAlike (resolver : Resolver) (root : Graph) (module : Coordinate) : Prop :=
  ∀ answer, resolver.module module = .ok answer → ∀ artifact known, answer.Reaches artifact →
    root.Reaches known → known.identity = artifact.identity → known.location = artifact.location

theorem ofModuleGraph_unplaced
    (located : ∀ artifact known, answer.Reaches artifact → root.Reaches known →
      known.identity = artifact.identity → known.location = artifact.location) :
    (Model.ofModuleGraph module (.ofList root.flatten) answer).map Model.unplaced =
      Model.ofModuleGraph module (.ofList root.unplaced.flatten) answer.unplaced := by
  have checked : answer.unplaced.flatten.forM
      (checkConsistent module (.ofList root.unplaced.flatten)) =
        answer.flatten.forM (checkConsistent module (.ofList root.flatten)) := by
    rw [Graph.flatten_unplaced, Graph.flatten_unplaced, ← DependencySet.ofList_unplaced]
    refine forM_map fun artifact member => checkConsistent_unplaced fun known found => ?_
    obtain ⟨rooted, same⟩ := find?_flatten.mp found
    exact located artifact known (Graph.mem_flatten.mp member) rooted same
  have made : Model.ofDependencies module (.ofList answer.unplaced.flatten) =
      (Model.ofDependencies module (.ofList answer.flatten)).unplaced := by
    rw [Graph.flatten_unplaced, ← DependencySet.ofList_unplaced]
    rfl
  have owned : answer.unplaced.owner = answer.owner := rfl
  unfold Model.ofModuleGraph
  simp only [checked, made, Graph.validate_unplaced, owned]
  split
  · rfl
  · cases answer.validate with
    | error failure => rfl
    | ok _ => cases answer.flatten.forM (checkConsistent module (.ofList root.flatten)) <;> rfl

namespace Application

theorem resolveEntry_unplaced (located : LocatedAlike resolver root module) :
    (resolveEntry resolver root module).map (fun entry => (entry.1, entry.2.unplaced)) =
      resolveEntry resolver.unplaced root.unplaced module := by
  have answered : resolver.unplaced.module module = (resolver.module module).map Graph.unplaced := rfl
  unfold resolveEntry moduleEntry
  rw [answered]
  cases asked : resolver.module module with
  | error failure => rfl
  | ok answer =>
      change Except.map _ (Model.ofModuleGraph module (.ofList root.flatten) answer >>= _) =
        (Model.ofModuleGraph module (.ofList root.unplaced.flatten) answer.unplaced >>= _)
      rw [← ofModuleGraph_unplaced (located answer asked), bind_of_map, map_bind]
      rfl

theorem insertNested_unplaced :
    (application.insertNested key model).map unplaced =
      application.unplaced.insertNested key model.unplaced := by
  have known : application.unplaced.hasNested key = application.hasNested key := by
    change (application.nested.map _).any _ = _
    rw [List.any_map]
    rfl
  have inserted (entries : List (Coordinate × Model)) :
      insertEntry key model.unplaced (entries.map fun entry => (entry.1, entry.2.unplaced)) =
        (insertEntry key model entries).map fun entry => (entry.1, entry.2.unplaced) := by
    induction entries with
    | nil => rfl
    | cons next rest ih =>
        rw [List.map_cons, insertEntry, insertEntry, ih]
        split <;> rfl
  cases held : application.hasNested key with
  | true =>
      rw [insertNested_known held, insertNested_known (known.trans held)]
      rfl
  | false =>
      obtain ⟨before, put, root, nested⟩ := insertNested_absent model held
      obtain ⟨after, putToo, rootToo, nestedToo⟩ :=
        insertNested_absent model.unplaced (known.trans held)
      rw [put, putToo]
      refine congrArg Except.ok (eq_of_parts ?_ ?_)
      · rw [rootToo]
        exact congrArg Model.unplaced root
      · rw [nestedToo]
        change before.nested.map _ = insertEntry key model.unplaced (application.nested.map _)
        rw [nested, inserted]

theorem insertEntries_unplaced :
    (application.insertEntries entries).map unplaced =
      application.unplaced.insertEntries
        (entries.map fun entry => (entry.1, entry.2.unplaced)) := by
  unfold insertEntries
  rw [List.foldlM_map]
  induction entries generalizing application with
  | nil => rfl
  | cons entry rest ih =>
      rw [List.foldlM_cons, List.foldlM_cons, map_bind, ← insertNested_unplaced, bind_of_map]
      exact congrArg (application.insertNested entry.1 entry.2 >>= ·) (funext fun next => ih)

/-- Building without places is building and then forgetting the places. -/
theorem buildInOrder_unplaced (located : ∀ module ∈ order, LocatedAlike resolver root module) :
    (buildInOrder resolver root order).map unplaced =
      buildInOrder resolver.unplaced root.unplaced order := by
  have resolved : (order.mapM (resolveEntry resolver root)).map
      (List.map fun entry => (entry.1, entry.2.unplaced)) =
        order.mapM (resolveEntry resolver.unplaced root.unplaced) :=
    map_mapM fun module member => resolveEntry_unplaced (located module member)
  have started : ofRoot (rootModelOf root.unplaced) = (ofRoot (rootModelOf root)).unplaced := by
    have collected : DependencySet.ofList (DependencySet.ofList root.unplaced.flatten).artifacts =
        (DependencySet.ofList (DependencySet.ofList root.flatten).artifacts).unplaced := by
      rw [DependencySet.ofList_unplaced, Graph.flatten_unplaced, ← DependencySet.ofList_unplaced]
      rfl
    rw [rootModelOf, collected]
    rfl
  unfold resolveEntry at resolved
  unfold rootModelOf at started
  unfold buildInOrder
  dsimp only
  rw [Graph.validate_unplaced, map_bind, started, ← resolved, bind_of_map]
  refine congrArg (root.validate >>= ·) (funext fun _ => ?_)
  rw [map_bind]
  exact congrArg (order.mapM (moduleEntry resolver (.ofList root.flatten)) >>= ·)
    (funext fun found => insertEntries_unplaced)

end Application

end Building

end AppBundle
