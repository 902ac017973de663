import AppBundle.Proofs.Application.Operations

namespace AppBundle

/-! Additional dependencies, many at a time. An addition changes no key, so every addition goes to the
module that its name meant at the start, whatever was added before, and a model gains what the
additions for it bring along, the first of each identity.
-/

/-- A model that gained artifacts: what it had stays, and of each new identity the first is added. -/
structure Model.Gains (before : Model) (artifacts : List Artifact) (after : Model) : Prop where
  unchanged : after = { before with dependencies := after.dependencies }
  collected : after.dependencies = before.dependencies.insertAll artifacts
  gained : ∀ artifact, artifact ∈ after.dependencies.artifacts ↔
    artifact ∈ before.dependencies.artifacts ∨
      before.dependencies.find? artifact.coordinate = none ∧
        artifacts.find? (fun other => other.identity = artifact.identity) = some artifact

/-- The record of an addition lists its artifacts in order, the first of each identity. -/
structure Addition.RecordedAs (addition record : Addition) : Prop where
  group : record.group = addition.group
  name : record.name = addition.name
  distinct : record.dependencies.Pairwise (·.identity ≠ ·.identity)
  ordered : record.dependencies.Pairwise Artifact.Precedes
  first : ∀ artifact, artifact ∈ record.dependencies ↔
    addition.dependencies.find? (fun other => other.identity = artifact.identity) = some artifact

theorem DependencySet.mem_insertAll {set : DependencySet} {artifacts : List Artifact}
    {artifact : Artifact} :
    artifact ∈ (set.insertAll artifacts).artifacts ↔
      artifact ∈ set.artifacts ∨ set.find? artifact.coordinate = none ∧
        artifacts.find? (fun other => other.identity = artifact.identity) = some artifact := by
  rw [mem_iff_find?, find?_insertAll, Option.or_eq_some_iff, ← mem_iff_find?]
  exact Iff.rfl

/-- The record that an application keeps of an addition. -/
def Addition.recorded (addition : Addition) : Addition :=
  { addition with dependencies := (DependencySet.ofList addition.dependencies).artifacts }

theorem Addition.recordedAs_recorded (addition : Addition) : addition.RecordedAs addition.recorded := by
  refine ⟨rfl, rfl, (DependencySet.ofList _).distinct, (DependencySet.ofList _).ordered,
    fun artifact => ?_⟩
  change artifact ∈ (DependencySet.ofList addition.dependencies).artifacts ↔ _
  rw [DependencySet.mem_iff_find?, DependencySet.find?_ofList]
  exact Iff.rfl

namespace Application

variable {application next result : Application} {key other : Coordinate} {group name : String}
  {addition : Addition} {additions : List Addition} {failure : Failure}

def keys (application : Application) : List Coordinate :=
  application.nested.map Prod.fst

/-- Some nested model is for a module of the addition's name. -/
def Names (application : Application) (addition : Addition) : Prop :=
  ∃ key ∈ application.keys, key.isNamed addition.group addition.name = true

/-- Of the keys with a group and a name, the one that comes first. -/
def FirstNamed (application : Application) (group name : String) (key : Coordinate) : Prop :=
  key ∈ application.keys ∧ key.isNamed group name = true ∧
    ∀ other ∈ application.keys, other.isNamed group name = true →
      other = key ∨ key.order other = .lt

instance : Decidable (application.FirstNamed group name key) :=
  inferInstanceAs (Decidable (_ ∧ _ ∧ _))

/-- What additions bring along for the module of a key. -/
def addedTo (application : Application) (key : Coordinate) (additions : List Addition) :
    List Artifact :=
  (additions.filter fun addition =>
    application.FirstNamed addition.group addition.name key).flatMap (·.dependencies)

/-- The application after some additions. -/
structure Extension (application : Application) (additions : List Addition)
    (result : Application) : Prop where
  root : ∃ records, result.root =
      { application.root with additions := application.root.additions ++ records } ∧
    List.Forall₂ (fun addition record =>
      addition.RecordedAs record ∧
        ∃ key model, application.FirstNamed addition.group addition.name key ∧
          (key, model) ∈ result.nested ∧
            ∀ artifact ∈ record.dependencies, model.dependencies.Holds artifact.identity)
      additions records
  nested : List.Forall₂ (fun before after =>
      after.1 = before.1 ∧ before.2.Gains (application.addedTo before.1 additions) after.2)
    application.nested result.nested

theorem keys_ascending : application.keys.Pairwise fun left right => left.order right = .lt := by
  rw [keys, List.pairwise_map]
  exact application.ascending

theorem keyNamed?_eq_find? :
    application.keyNamed? group name = application.keys.find? (·.isNamed group name) := by
  rw [keyNamed?, keys, List.find?_map]
  rfl

theorem keyNamed?_eq_none_iff :
    application.keyNamed? addition.group addition.name = none ↔ ¬application.Names addition := by
  rw [keyNamed?_eq_find?, List.find?_eq_none, Names]
  simp

theorem FirstNamed.unique (first : application.FirstNamed group name key)
    (second : application.FirstNamed group name other) : other = key := by
  rcases first.2.2 other second.1 second.2.1 with same | before
  · exact same
  · rcases second.2.2 key first.1 first.2.1 with same | after
    · exact same.symm
    · exact absurd (Std.TransCmp.lt_trans before after) order_irrefl

theorem firstNamed_of_keyNamed? (found : application.keyNamed? group name = some key) :
    application.FirstNamed group name key := by
  rw [keyNamed?_eq_find?] at found
  obtain ⟨named, front, behind, keys, unnamed⟩ := List.find?_eq_some_iff_append.mp found
  have ascending := application.keys_ascending
  rw [keys, List.pairwise_append] at ascending
  refine ⟨List.mem_of_find?_eq_some found, named, fun other member also => ?_⟩
  rw [keys, List.mem_append, List.mem_cons] at member
  rcases member with early | same | late
  · have not := unnamed other early
    rw [also] at not
    contradiction
  · exact .inl same
  · exact .inr ((List.pairwise_cons.mp ascending.2.1).1 other late)

theorem extend_error :
    application.extend addition = .error failure ↔
      ¬application.Names addition ∧
        failure = .missingCoordinate (.additionTarget addition.group addition.name) := by
  rw [← keyNamed?_eq_none_iff]
  unfold extend
  cases application.keyNamed? addition.group addition.name with
  | none =>
      simp only [Except.error.injEq, true_and]
      exact eq_comm
  | some target => simp

theorem extend_succeeds :
    (∃ result, application.extend addition = .ok result) ↔ application.Names addition := by
  cases ran : application.extend addition with
  | ok result =>
      simp only [Except.ok.injEq, exists_eq', true_iff]
      by_contra unnamed
      have failed := extend_error.mpr ⟨unnamed, rfl⟩
      rw [ran] at failed
      contradiction
  | error failure => simp [(extend_error.mp ran).1]

theorem addedTo_singleton (application : Application) (key : Coordinate) (addition : Addition) :
    application.addedTo key [addition] =
      if application.FirstNamed addition.group addition.name key then addition.dependencies
      else [] := by
  rw [addedTo, List.filter_singleton]
  by_cases first : application.FirstNamed addition.group addition.name key <;> simp [first]

theorem addedTo_cons (application : Application) (key : Coordinate) (addition : Addition)
    (additions : List Addition) :
    application.addedTo key (addition :: additions) =
      application.addedTo key [addition] ++ application.addedTo key additions := by
  simp only [addedTo, ← List.flatMap_append, ← List.filter_append, List.singleton_append]

theorem firstNamed_congr (same : next.keys = application.keys) :
    next.FirstNamed group name key ↔ application.FirstNamed group name key := by
  rw [FirstNamed, FirstNamed, same]

theorem addedTo_congr (same : next.keys = application.keys) :
    next.addedTo key additions = application.addedTo key additions := by
  rw [addedTo, addedTo]
  refine congrArg (List.flatMap _) (List.filter_congr fun addition _ => ?_)
  exact decide_eq_decide.mpr (firstNamed_congr same)

theorem mem_addedTo {artifact : Artifact}
    (first : application.FirstNamed addition.group addition.name key) (listed : addition ∈ additions)
    (member : artifact ∈ addition.dependencies) : artifact ∈ application.addedTo key additions :=
  List.mem_flatMap.mpr ⟨addition, List.mem_filter.mpr ⟨listed, decide_eq_true first⟩, member⟩

/-- What an entry of the nested models is after some additions. -/
def withAdditions (application : Application) (additions : List Addition)
    (entry : Coordinate × Model) : Coordinate × Model :=
  (entry.1, { entry.2 with
    dependencies := entry.2.dependencies.insertAll (application.addedTo entry.1 additions) })

theorem eq_of_identity_keys (left : key ∈ application.keys) (right : other ∈ application.keys)
    (same : key.identity = other.identity) : key = other := by
  refine List.inj_on_of_nodup_map ?_ left right same
  rw [List.Nodup, List.pairwise_map]
  refine keys_ascending.imp fun {first second} before equal => ?_
  rw [Coordinate.order, equal] at before
  exact order_irrefl before

theorem nested_extend (extended : application.extend addition = .ok result) :
    result.nested = application.nested.map (application.withAdditions [addition]) := by
  obtain ⟨target, found, nested, _⟩ := extend_ok.mp extended
  have first := firstNamed_of_keyNamed? found
  rw [nested, insertInto, mapNested]
  refine List.map_congr_left fun entry member => ?_
  have meant : entry.1.identity = target.identity ↔
      application.FirstNamed addition.group addition.name entry.1 := by
    constructor
    · intro same
      rwa [eq_of_identity_keys (List.mem_map_of_mem member) first.1 same]
    · intro also
      rw [first.unique also]
  rw [withAdditions, addedTo_singleton]
  by_cases here : application.FirstNamed addition.group addition.name entry.1
  · rw [if_pos (meant.mpr here), if_pos here]
  · rw [if_neg fun same => here (meant.mp same), if_neg here]
    rfl

theorem keys_extend (extended : application.extend addition = .ok result) :
    result.keys = application.keys := by
  rw [keys, nested_extend extended, List.map_map]
  rfl

theorem extendAll_cons :
    application.extendAll (addition :: additions) = .ok result ↔
      ∃ next, application.extend addition = .ok next ∧ next.extendAll additions = .ok result := by
  rw [extendAll, List.foldlM_cons]
  exact bind_ok

theorem keys_extendAll (extended : application.extendAll additions = .ok result) :
    result.keys = application.keys := by
  let kept (state : Application) : Prop := state.keys = application.keys
  have keeps : kept result := by
    refine foldlM_keeps ?_ rfl extended
    intro state before addition _ next stepped
    exact (keys_extend stepped).trans before
  exact keeps

theorem names_congr (same : next.keys = application.keys) :
    next.Names addition ↔ application.Names addition := by
  rw [Names, Names, same]

theorem extendAll_succeeds :
    (∃ result, application.extendAll additions = .ok result) ↔
      ∀ addition ∈ additions, application.Names addition := by
  induction additions generalizing application with
  | nil => exact ⟨fun _ _ member => absurd member List.not_mem_nil, fun _ => ⟨application, rfl⟩⟩
  | cons addition rest ih =>
      simp only [extendAll_cons, List.forall_mem_cons]
      constructor
      · intro extended
        obtain ⟨result, next, here, later⟩ := extended
        refine ⟨extend_succeeds.mp ⟨next, here⟩, fun other member => ?_⟩
        exact (names_congr (keys_extend here)).mp (ih.mp ⟨result, later⟩ other member)
      · intro named
        obtain ⟨next, here⟩ := extend_succeeds.mpr named.1
        obtain ⟨result, later⟩ := ih.mpr fun other member =>
          (names_congr (keys_extend here)).mpr (named.2 other member)
        exact ⟨result, next, here, later⟩

theorem extendAll_error :
    application.extendAll additions = .error failure ↔
      ∃ before addition after, additions = before ++ addition :: after ∧
        (∀ earlier ∈ before, application.Names earlier) ∧ ¬application.Names addition ∧
          failure = .missingCoordinate (.additionTarget addition.group addition.name) := by
  rw [extendAll, foldlM_error]
  constructor
  · intro failed
    obtain ⟨before, addition, after, state, same, passed, stopped⟩ := failed
    obtain ⟨unnamed, rfl⟩ := extend_error.mp stopped
    rw [names_congr (keys_extendAll passed)] at unnamed
    exact ⟨before, addition, after, same, extendAll_succeeds.mp ⟨state, passed⟩, unnamed, rfl⟩
  · intro stops
    obtain ⟨before, addition, after, same, named, unnamed, rfl⟩ := stops
    obtain ⟨state, passed⟩ := extendAll_succeeds.mpr named
    rw [← names_congr (keys_extendAll passed)] at unnamed
    exact ⟨before, addition, after, state, same, passed, extend_error.mpr ⟨unnamed, rfl⟩⟩

/-- A later addition finds what the earlier ones brought along. -/
theorem withAdditions_cons (same : next.keys = application.keys) (entry : Coordinate × Model) :
    next.withAdditions additions (application.withAdditions [addition] entry) =
      application.withAdditions (addition :: additions) entry := by
  have joined := application.addedTo_cons entry.1 addition additions
  simp only [withAdditions, joined, addedTo_congr same, DependencySet.insertAll,
    List.foldl_append]

theorem nested_extendAll (extended : application.extendAll additions = .ok result) :
    result.nested = application.nested.map (application.withAdditions additions) := by
  induction additions generalizing application with
  | nil =>
      cases extended
      exact (List.map_id _).symm
  | cons addition rest ih =>
      obtain ⟨next, here, later⟩ := extendAll_cons.mp extended
      rw [ih later, nested_extend here, List.map_map]
      exact List.map_congr_left fun entry _ => withAdditions_cons (keys_extend here) entry

theorem root_extendAll (extended : application.extendAll additions = .ok result) :
    result.root = { application.root with
      additions := application.root.additions ++ additions.map Addition.recorded } := by
  induction additions generalizing application with
  | nil =>
      cases extended
      rw [List.map_nil, List.append_nil]
  | cons addition rest ih =>
      obtain ⟨next, here, later⟩ := extendAll_cons.mp extended
      obtain ⟨_, _, _, root⟩ := extend_ok.mp here
      rw [ih later, root]
      simp only [List.append_assoc, List.singleton_append, List.map_cons, Addition.recorded]

theorem present_extendAll (extended : application.extendAll additions = .ok result)
    (listed : addition ∈ additions) :
    ∃ key model, application.FirstNamed addition.group addition.name key ∧
      (key, model) ∈ result.nested ∧
        ∀ artifact ∈ addition.recorded.dependencies, model.dependencies.Holds artifact.identity := by
  have named := extendAll_succeeds.mp ⟨result, extended⟩ addition listed
  cases found : application.keyNamed? addition.group addition.name with
  | none => exact absurd named (keyNamed?_eq_none_iff.mp found)
  | some key =>
      have first := firstNamed_of_keyNamed? found
      obtain ⟨entry, member, rfl⟩ := List.mem_map.mp first.1
      refine ⟨entry.1, (application.withAdditions additions entry).2, first, ?_,
        fun artifact recorded => ?_⟩
      · rw [nested_extendAll extended]
        exact List.mem_map_of_mem member
      · have given := DependencySet.of_mem_ofList recorded
        exact DependencySet.holds_insertAll.mpr (.inr ⟨artifact, mem_addedTo first listed given, rfl⟩)

theorem extension_extendAll (extended : application.extendAll additions = .ok result) :
    Extension application additions result := by
  refine ⟨⟨additions.map Addition.recorded, root_extendAll extended, ?_⟩, ?_⟩
  · rw [List.forall₂_map_right_iff, List.forall₂_same]
    intro addition listed
    exact ⟨addition.recordedAs_recorded, present_extendAll extended listed⟩
  · rw [nested_extendAll extended, List.forall₂_map_right_iff, List.forall₂_same]
    intro entry _
    exact ⟨rfl, rfl, rfl, fun artifact => DependencySet.mem_insertAll⟩

/-- Additions fail exactly at the first one for a module that is not there. Else each model gains what
is added for its key, where that comes first of those with the name, every addition is recorded at the
root, and nothing else changes. -/
theorem extendAll_specification (application : Application) (additions : List Addition) :
    (∀ failure, application.extendAll additions = .error failure ↔
      ∃ before addition after, additions = before ++ addition :: after ∧
        (∀ earlier ∈ before, application.Names earlier) ∧ ¬application.Names addition ∧
          failure = .missingCoordinate (.additionTarget addition.group addition.name)) ∧
    ((∃ result, application.extendAll additions = .ok result) ↔
      ∀ addition ∈ additions, application.Names addition) ∧
    ∀ result, application.extendAll additions = .ok result →
      Extension application additions result :=
  ⟨fun _ => extendAll_error, extendAll_succeeds, fun _ extended => extension_extendAll extended⟩

/-- Two versions of a module have the name; both additions go to the one that comes first. -/
theorem extendAll_versions :
    let coordinate (name version : String) : Coordinate := ⟨"g", name, version, "jar", none, none⟩
    let artifact (name : String) : Artifact :=
      ⟨coordinate name "1.0", some ("/" ++ name ++ ".jar"), false, .empty, .empty⟩
    let entry (version : String) : Coordinate × Model :=
      (coordinate "p" version, .empty (coordinate "p" version))
    let application : Application :=
      ⟨.empty (coordinate "app" "1.0"), [entry "1.0", entry "2.0"], by decide⟩
    let additions : List Addition :=
      [⟨"g", "p", [artifact "b", artifact "a"]⟩, ⟨"g", "p", [artifact "c"]⟩]
    ∃ result, application.extendAll additions = .ok result ∧
      Extension application additions result ∧
        application.addedTo (coordinate "p" "1.0") additions =
          [artifact "b", artifact "a", artifact "c"] ∧
        application.addedTo (coordinate "p" "2.0") additions = [] := by
  intro coordinate artifact entry application additions
  have named : ∀ addition ∈ additions, application.Names addition := by
    unfold Names
    decide +kernel
  obtain ⟨_, succeeds, extension⟩ := extendAll_specification application additions
  obtain ⟨result, extended⟩ := succeeds.mpr named
  exact ⟨result, extended, extension result extended, by decide +kernel, by decide +kernel⟩

end Application

end AppBundle
