import AppBundle.Installation
import AppBundle.Proofs.Application.Merge

namespace AppBundle

/-! What a merged model refers to. Its dependencies end up among the application's artifacts under
either policy. The dependencies that it declares for modules in addition travel with the model and
with the descriptor that is written for it, but merging adds no artifact for them: they are there
only where something else brings them along.
-/

/-- A model names an artifact among the dependencies that it declares for modules. -/
def Model.Adds (model : Model) (identity : Identity) : Prop :=
  ∃ addition ∈ model.additions, ∃ artifact ∈ addition.dependencies, artifact.identity = identity

/-- A model names an artifact in either of the places where a descriptor lists artifacts. -/
def Model.Lists (model : Model) (identity : Identity) : Prop :=
  model.dependencies.Holds identity ∨ model.Adds identity

namespace Application

variable {application result : Application} {policy : MergePolicy} {model : Model}
  {models : List Model} {identity : Identity} {entry : Coordinate × Model}

/-- Every artifact that a model names is one of the application's. -/
def Provides (application : Application) (model : Model) : Prop :=
  ∀ identity, model.Lists identity → application.allArtifacts.Holds identity

/-- What models declare for modules is there anyway: in the application before the merge, or among
the dependencies of one of the models. -/
def AdditionsCovered (application : Application) (models : List Model) : Prop :=
  ∀ model ∈ models, ∀ identity, model.Adds identity →
    application.allArtifacts.Holds identity ∨
      ∃ other ∈ models, other.dependencies.Holds identity

theorem holds_of_merged (merged : mergeAll policy application models = .ok result)
    (member : model ∈ models) (held : model.dependencies.Holds identity) :
    result.allArtifacts.Holds identity :=
  (covers_mergeAll merged identity).mpr (.inr ⟨model, member, held⟩)

/-- A nested model of the result was nested before, or it is one of those merged. -/
theorem mem_nested_mergeAll (merged : mergeAll policy application models = .ok result)
    (member : entry ∈ result.nested) : entry ∈ application.nested ∨ entry.2 ∈ models := by
  induction models generalizing application with
  | nil =>
      cases merged
      exact .inl member
  | cons model rest ih =>
      obtain ⟨next, here, later⟩ := mergeAll_cons.mp merged
      obtain ⟨target, _, _, nested, _⟩ := merge_ok.mp here
      rcases ih later with old | new
      · rw [nested, mem_insertEntry] at old
        rcases old with rfl | old
        · exact .inr (List.mem_cons_self ..)
        · exact .inl old
      · exact .inr (List.mem_cons_of_mem _ new)

theorem provides_iff (merged : mergeAll policy application models = .ok result) :
    (∀ model ∈ models, result.Provides model) ↔ application.AdditionsCovered models := by
  constructor
  · intro provides model member identity adds
    exact (covers_mergeAll merged identity).mp (provides model member identity (.inr adds))
  · intro covered model member identity lists
    rcases lists with held | adds
    · exact holds_of_merged merged member held
    · exact (covers_mergeAll merged identity).mpr (covered model member identity adds)

theorem Provides.mergeAll (provides : application.Provides model)
    (merged : mergeAll policy application models = .ok result) : result.Provides model :=
  fun identity lists => (covers_mergeAll merged identity).mpr (.inl (provides identity lists))

theorem mem_nested_of_companion {coordinate : Coordinate}
    (written : Installer.companionModel? application coordinate = some model) :
    ∃ key, (key, model) ∈ application.nested := by
  rw [Installer.companionModel?, Option.filter_eq_some_iff] at written
  obtain ⟨nested, _⟩ := written
  obtain ⟨⟨key, other⟩, found, same⟩ := Option.map_eq_some_iff.mp nested
  cases same
  exact ⟨key, List.mem_of_find?_eq_some found⟩

/-- Under either policy the dependencies of merged models are packaged. Everything that they name is
packaged exactly when their additions are covered, and then so is everything that a companion
descriptor refers to, unless it was missing before. -/
theorem mergeAll_provision (merged : mergeAll policy application models = .ok result) :
    (∀ model ∈ models, ∀ identity, model.dependencies.Holds identity →
        result.allArtifacts.Holds identity) ∧
      ((∀ model ∈ models, result.Provides model) ↔ application.AdditionsCovered models) ∧
        (application.AdditionsCovered models →
          (∀ entry ∈ application.nested, application.Provides entry.2) →
            ∀ coordinate model, Installer.companionModel? result coordinate = some model →
              result.Provides model) := by
  refine ⟨fun model member identity held => holds_of_merged merged member held,
    provides_iff merged, ?_⟩
  intro covered complete coordinate model written
  obtain ⟨key, member⟩ := mem_nested_of_companion written
  rcases mem_nested_mergeAll merged member with old | new
  · exact (complete _ old).mergeAll merged
  · exact (provides_iff merged).mpr covered model new

/-- A model declares a driver for its module on which the application depends as well. -/
theorem mergeAll_driver_provided :
    let artifact (name : String) : Artifact :=
      ⟨⟨"g", name, "1.0", "jar", none, none⟩, some ("/" ++ name ++ ".jar"), false, .empty, .empty⟩
    let application := ofRoot (.ofDependencies ⟨"g", "bundle", "1.0", "jar", none, none⟩
      (.ofList [artifact "sub", artifact "driver"]))
    let model := { Model.ofDependencies (artifact "sub").coordinate (.ofList [artifact "lib"]) with
      additions := [⟨"g", "module", [artifact "driver"]⟩] }
    ∃ merged, mergeAll .inlined application [model] = .ok merged ∧
      model.Adds (artifact "driver").identity ∧ merged.Provides model := by
  intro artifact application model
  have succeeds : (mergeAll .inlined application [model]).isOk = true := by
    decide +kernel
  obtain ⟨merged, joined⟩ := exists_ok succeeds
  have adds : model.Adds (artifact "driver").identity :=
    ⟨_, List.mem_singleton_self _, _, List.mem_singleton_self _, rfl⟩
  have covered : application.AdditionsCovered [model] := by
    intro other member identity named
    obtain rfl := List.mem_singleton.mp member
    obtain ⟨addition, declared, driver, listed, rfl⟩ := named
    obtain rfl := List.mem_singleton.mp declared
    obtain rfl := List.mem_singleton.mp listed
    exact .inl (by decide +kernel)
  exact ⟨merged, joined, adds,
    (mergeAll_provision joined).2.1.mpr covered model (List.mem_singleton_self _)⟩

/-- Nothing else brings the driver along, and it is not packaged. -/
theorem mergeAll_driver_dropped :
    let artifact (name : String) : Artifact :=
      ⟨⟨"g", name, "1.0", "jar", none, none⟩, some ("/" ++ name ++ ".jar"), false, .empty, .empty⟩
    let application := ofRoot (.ofDependencies ⟨"g", "bundle", "1.0", "jar", none, none⟩
      (.ofList [artifact "sub"]))
    let model := { Model.ofDependencies (artifact "sub").coordinate (.ofList [artifact "lib"]) with
      additions := [⟨"g", "module", [artifact "driver"]⟩] }
    model.Lists (artifact "driver").identity ∧
      ∀ policy, ∃ merged, mergeAll policy application [model] = .ok merged ∧
        ¬merged.allArtifacts.Holds (artifact "driver").identity := by
  intro artifact application model
  refine ⟨.inr ⟨_, List.mem_singleton_self _, _, List.mem_singleton_self _, rfl⟩, ?_⟩
  intro policy
  have succeeds : (mergeAll policy application [model]).isOk = true := by
    cases policy <;> decide +kernel
  obtain ⟨merged, joined⟩ := exists_ok succeeds
  refine ⟨merged, joined, ?_⟩
  rw [covers_mergeAll joined]
  rintro (old | ⟨other, member, new⟩)
  · revert old
    decide +kernel
  · obtain rfl := List.mem_singleton.mp member
    revert new
    decide +kernel

end Application

end AppBundle
