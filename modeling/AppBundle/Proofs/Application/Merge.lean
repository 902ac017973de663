import AppBundle.Application.Merge
import AppBundle.Proofs.Application.Nested
import AppBundle.Proofs.Traversal

namespace AppBundle.Application

/-! Merging under the two policies. The policies differ in what joins the root, which is also where
the next model's owner is looked up. What is in the root stays, so that wherever the one run finds
an owner the other finds the same.
-/

variable {application result narrow wide next : Application} {policy : MergePolicy} {model : Model}
  {models : List Model} {identity : Identity} {coordinate : Coordinate}

/-- The result has exactly the artifacts of the application and of the models. -/
def Covers (application : Application) (models : List Model) (result : Application) : Prop :=
  ∀ identity, result.allArtifacts.Holds identity ↔
    application.allArtifacts.Holds identity ∨
      ∃ model ∈ models, model.dependencies.Holds identity

/-- The dependencies of models in addition to some that are there first. -/
def joinAll (dependencies : DependencySet) (models : List Model) : DependencySet :=
  models.foldl (fun all model => all.insertAll model.dependencies.artifacts) dependencies

/-- What merging a model does, and when it does. -/
theorem merge_ok :
    merge policy application model = .ok result ↔
      ∃ target, application.root.dependencies.find? model.owner = some target ∧
        application.hasNested target.coordinate = false ∧
        result.nested = insertEntry target.coordinate model application.nested ∧
        result.root = { application.root with
          dependencies := application.root.dependencies.insertAll (policy.joinsRoot model) } := by
  unfold merge
  cases application.root.dependencies.find? model.owner with
  | none => simp
  | some target =>
      simp only [bind_ok, Option.some.injEq, exists_eq_left']
      constructor
      · intro merged
        obtain ⟨inserted, known, done⟩ := merged
        obtain ⟨absent, root, nested⟩ := insertNested_ok known
        cases done
        refine ⟨absent, nested, ?_⟩
        rw [insertAtRoot, root]
      · intro parts
        obtain ⟨absent, nested, root⟩ := parts
        obtain ⟨inserted, known, sameRoot, sameNested⟩ :=
          insertNested_absent model absent
        refine ⟨inserted, known, congrArg Except.ok (eq_of_parts ?_ ?_)⟩
        · rw [root, insertAtRoot, sameRoot]
        · rw [nested, insertAtRoot, sameNested]

theorem merge_succeeds :
    (∃ result, merge policy application model = .ok result) ↔
      ∃ target, application.root.dependencies.find? model.owner = some target ∧
        application.hasNested target.coordinate = false := by
  constructor
  · intro merged
    obtain ⟨result, merged⟩ := merged
    obtain ⟨target, found, absent, _⟩ := merge_ok.mp merged
    exact ⟨target, found, absent⟩
  · intro mergeable
    obtain ⟨target, found, absent⟩ := mergeable
    obtain ⟨inserted, known, root, nested⟩ := insertNested_absent model absent
    refine ⟨inserted.insertAtRoot (policy.joinsRoot model), merge_ok.mpr
      ⟨target, found, absent, nested, ?_⟩⟩
    rw [insertAtRoot, root]

/-- Under both policies a model adds its dependencies to what the application covers. -/
theorem allArtifacts_merge (merged : merge policy application model = .ok result) :
    result.allArtifacts.Holds identity ↔
      application.allArtifacts.Holds identity ∨ model.dependencies.Holds identity := by
  obtain ⟨target, _, _, nested, root⟩ := merge_ok.mp merged
  have joined : (∃ artifact ∈ policy.joinsRoot model, artifact.identity = identity) →
      model.dependencies.Holds identity := by
    cases policy with
    | inlined => exact id
    | legacy => simp [MergePolicy.joinsRoot]
  rw [allArtifacts_holds, allArtifacts_holds, root, nested, DependencySet.holds_insertAll]
  simp only [mem_insertEntry]
  constructor
  · intro held
    rcases held with (old | new) | ⟨entry, rfl | old, held⟩
    · exact .inl (.inl old)
    · exact .inr (joined new)
    · exact .inr held
    · exact .inl (.inr ⟨entry, old, held⟩)
  · intro held
    rcases held with (old | ⟨entry, old, held⟩) | new
    · exact .inl (.inl old)
    · exact .inr ⟨entry, .inr old, held⟩
    · exact .inr ⟨(target.coordinate, model), .inl rfl, new⟩

/-- An application with more in its root: the nested models agree, and what one root holds is found
in the other. -/
structure Widens (narrow wide : Application) : Prop where
  nested : wide.nested = narrow.nested
  kept : ∀ coordinate known, narrow.root.dependencies.find? coordinate = some known →
    wide.root.dependencies.find? coordinate = some known

theorem Widens.refl : Widens application application :=
  ⟨rfl, fun _ _ found => found⟩

theorem Widens.merge (widens : Widens narrow wide)
    (merged : merge .legacy narrow model = .ok next) :
    ∃ other, Application.merge .inlined wide model = .ok other ∧ Widens next other := by
  obtain ⟨target, found, absent, nested, root⟩ := merge_ok.mp merged
  -- the owner's entry is kept, so that both runs insert under the same key
  have foundWide := widens.kept _ _ found
  have absentWide : wide.hasNested target.coordinate = false := by
    rw [hasNested, widens.nested]
    exact absent
  obtain ⟨other, mergedWide⟩ := merge_succeeds.mpr ⟨target, foundWide, absentWide⟩
  obtain ⟨same, sameFound, _, nestedWide, rootWide⟩ := merge_ok.mp mergedWide
  rw [foundWide] at sameFound
  cases sameFound
  refine ⟨other, mergedWide, ?_, fun coordinate known old => ?_⟩
  · rw [nested, nestedWide, widens.nested]
  · rw [root] at old
    rw [rootWide, DependencySet.find?_insertAll, widens.kept coordinate known old, Option.some_or]

theorem mergeAll_cons :
    mergeAll policy application (model :: models) = .ok result ↔
      ∃ next, merge policy application model = .ok next ∧
        mergeAll policy next models = .ok result := by
  rw [mergeAll, List.foldlM_cons]
  exact bind_ok

theorem Widens.mergeAll (widens : Widens narrow wide)
    (merged : mergeAll .legacy narrow models = .ok result) :
    ∃ other, Application.mergeAll .inlined wide models = .ok other ∧ Widens result other := by
  induction models generalizing narrow wide with
  | nil =>
      cases merged
      exact ⟨wide, rfl, widens⟩
  | cons model rest ih =>
      obtain ⟨next, here, later⟩ := mergeAll_cons.mp merged
      obtain ⟨nextWide, hereWide, nextWidens⟩ := widens.merge here
      obtain ⟨other, laterWide, otherWidens⟩ := ih nextWidens later
      exact ⟨other, mergeAll_cons.mpr ⟨nextWide, hereWide, laterWide⟩, otherWidens⟩

theorem covers_mergeAll (merged : mergeAll policy application models = .ok result) :
    Covers application models result := by
  intro identity
  induction models generalizing application with
  | nil =>
      cases merged
      simp
  | cons model rest ih =>
      obtain ⟨next, here, later⟩ := mergeAll_cons.mp merged
      rw [ih later, allArtifacts_merge here, List.exists_mem_cons_iff, or_assoc]

theorem find?_joinAll {dependencies : DependencySet} :
    (joinAll dependencies models).find? coordinate =
      (dependencies.find? coordinate).or (models.findSome? (·.dependencies.find? coordinate)) := by
  induction models generalizing dependencies with
  | nil => exact Option.or_none.symm
  | cons model rest ih =>
      rw [joinAll, List.foldl_cons, ← joinAll, ih, DependencySet.find?_insertAll_set,
        Option.or_assoc, List.findSome?_cons]
      cases model.dependencies.find? coordinate with
      | none => rw [Option.none_or]
      | some artifact => rw [Option.some_or]

theorem root_mergeAll_legacy (merged : mergeAll .legacy application models = .ok result) :
    result.root = application.root := by
  induction models generalizing application with
  | nil =>
      cases merged
      rfl
  | cons model rest ih =>
      obtain ⟨next, here, later⟩ := mergeAll_cons.mp merged
      obtain ⟨_, _, _, _, root⟩ := merge_ok.mp here
      rw [ih later, root]
      rfl

theorem root_mergeAll_inlined (merged : mergeAll .inlined application models = .ok result) :
    result.root =
      { application.root with
        dependencies := joinAll application.root.dependencies models } := by
  induction models generalizing application with
  | nil =>
      cases merged
      rfl
  | cons model rest ih =>
      obtain ⟨next, here, later⟩ := mergeAll_cons.mp merged
      obtain ⟨_, _, _, _, root⟩ := merge_ok.mp here
      rw [ih later, root]
      rfl

/-- Whatever can be merged for readers that know nesting can be merged for those that do not, with
the same nested models. Both results cover the application and every merged model and nothing else;
only inlining changes the root, where old entries stay and of new ones the first. -/
theorem mergeAll_specification {merged : Application}
    (legacy : mergeAll .legacy application models = .ok merged) :
    ∃ inlined, mergeAll .inlined application models = .ok inlined ∧
      inlined.nested = merged.nested ∧
      Covers application models merged ∧ Covers application models inlined ∧
      merged.root = application.root ∧
      inlined.root =
        { application.root with dependencies := joinAll application.root.dependencies models } ∧
      (∀ artifact ∈ application.root.dependencies.artifacts,
        artifact ∈ inlined.root.dependencies.artifacts) ∧
      ∀ coordinate, inlined.root.dependencies.find? coordinate =
        (application.root.dependencies.find? coordinate).or
          (models.findSome? (·.dependencies.find? coordinate)) := by
  obtain ⟨inlined, joined, widens⟩ := Widens.refl.mergeAll legacy
  have root := root_mergeAll_inlined joined
  refine ⟨inlined, joined, widens.nested, covers_mergeAll legacy, covers_mergeAll joined,
    root_mergeAll_legacy legacy, root, ?_, fun coordinate => ?_⟩
  · intro artifact member
    rw [DependencySet.mem_iff_find?] at member ⊢
    exact widens.kept _ _ (root_mergeAll_legacy legacy ▸ member)
  · rw [root]
    exact find?_joinAll

/-- A model whose dependencies overlap with the root's. -/
theorem mergeAll_overlap :
    let artifact (name location : String) : Artifact :=
      ⟨⟨"g", name, "1.0", "jar", none, none⟩, some location, false, .empty, .empty⟩
    let application := ofRoot (.ofDependencies ⟨"g", "bundle", "1.0", "jar", none, none⟩
      (.ofList [artifact "sub" "/sub.jar", artifact "common" "/common.jar"]))
    let model := Model.ofDependencies (artifact "sub" "/sub.jar").coordinate
      (.ofList [artifact "common" "/other.jar", artifact "lib" "/lib.jar"])
    ∃ merged inlined, mergeAll .legacy application [model] = .ok merged ∧
      mergeAll .inlined application [model] = .ok inlined ∧
      artifact "common" "/common.jar" ∈ inlined.root.dependencies.artifacts ∧
      merged.allArtifacts.Holds ⟨"g", "lib", "1.0", none⟩ := by
  intro artifact application model
  have succeeds : (mergeAll .legacy application [model]).isOk = true := by
    decide +kernel
  obtain ⟨merged, legacy⟩ := exists_ok succeeds
  obtain ⟨inlined, joined, _, covers, _, _, _, kept, _⟩ := mergeAll_specification legacy
  refine ⟨merged, inlined, legacy, joined, kept _ (by decide +kernel), ?_⟩
  exact (covers _).mpr (.inr ⟨model, List.mem_singleton_self _,
    artifact "lib" "/lib.jar", by decide +kernel, rfl⟩)

end AppBundle.Application
