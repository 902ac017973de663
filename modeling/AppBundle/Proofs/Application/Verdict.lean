import AppBundle.Proofs.Application.Merge

namespace AppBundle.Application

/-! The verdict of merging: whether it succeeds, and else with which failure. Without inlining the
owners are looked up in a root that stays as it was, so the verdict depends on the models alone.
With inlining an owner is also found among what earlier models brought along, and this is the only
way in which the policies come to different verdicts.
-/

variable {application result narrow wide : Application} {policy : MergePolicy} {model : Model}
  {models before after : List Model} {failure : Failure} {coordinate : Coordinate}

/-- Both attempts succeed, or both fail alike. -/
def SameVerdict (left right : Except Failure Application) : Prop :=
  (∃ result, left = .ok result) ∧ (∃ result, right = .ok result) ∨
    ∃ failure, left = .error failure ∧ right = .error failure

/-- The application depends on every owner, none has a nested model yet, and none comes twice. -/
structure Mergeable (application : Application) (models : List Model) : Prop where
  owned : ∀ model ∈ models, application.root.dependencies.contains model.owner = true
  fresh : ∀ model ∈ models, application.hasNested model.owner = false
  distinct : models.Pairwise (·.owner.identity ≠ ·.owner.identity)

/-- After models that can be merged comes one whose owner the application does not depend on, but
one of those models does. -/
def BorrowsOwner (application : Application) (models : List Model) : Prop :=
  ∃ before model after, models = before ++ model :: after ∧ application.Mergeable before ∧
    application.root.dependencies.find? model.owner = none ∧
      ∃ lender ∈ before, lender.dependencies.contains model.owner = true

theorem hasNested_congr {left right : Coordinate} (same : left.identity = right.identity) :
    application.hasNested left = application.hasNested right := by
  rw [hasNested, hasNested, same]

theorem merge_error :
    merge policy application model = .error failure ↔
      application.root.dependencies.find? model.owner = none ∧
          failure = .missingCoordinate (.mergeTarget model.owner) ∨
        ∃ target, application.root.dependencies.find? model.owner = some target ∧
          application.hasNested target.coordinate = true ∧
            failure = .duplicateDefinition target.coordinate := by
  unfold merge
  cases application.root.dependencies.find? model.owner with
  | none =>
      simp only [true_and, reduceCtorEq, false_and, exists_false, or_false, Except.error.injEq]
      exact eq_comm
  | some target =>
      simp only [reduceCtorEq, false_and, false_or, Option.some.injEq, exists_eq_left']
      cases known : application.hasNested target.coordinate with
      | true =>
          rw [insertNested_known known, bind_error]
          simp only [Except.error.injEq, reduceCtorEq, false_and, exists_false, or_false, true_and]
          exact eq_comm
      | false =>
          obtain ⟨inserted, done, _⟩ := insertNested_absent model known
          rw [done, bind_error]
          simp [pure, Except.pure]

theorem merge_legacy_succeeds :
    (∃ next, merge .legacy application model = .ok next) ↔
      application.root.dependencies.contains model.owner = true ∧
        application.hasNested model.owner = false := by
  rw [merge_succeeds, DependencySet.contains_eq_isSome, Option.isSome_iff_exists]
  constructor
  · intro mergeable
    obtain ⟨target, found, absent⟩ := mergeable
    have same := (DependencySet.find?_iff_mem.mp found).2
    exact ⟨⟨target, found⟩, hasNested_congr same ▸ absent⟩
  · intro mergeable
    obtain ⟨⟨target, found⟩, absent⟩ := mergeable
    have same := (DependencySet.find?_iff_mem.mp found).2
    exact ⟨target, found, (hasNested_congr same).trans absent⟩

theorem hasNested_merge (merged : merge policy application model = .ok result) :
    result.hasNested coordinate = true ↔
      coordinate.identity = model.owner.identity ∨ application.hasNested coordinate = true := by
  obtain ⟨target, found, _, nested, _⟩ := merge_ok.mp merged
  have same := (DependencySet.find?_iff_mem.mp found).2
  rw [hasNested_iff, hasNested_iff, nested]
  simp only [mem_insertEntry, exists_eq_or_imp]
  rw [show target.coordinate.identity = model.owner.identity from same, eq_comm]

theorem find?_merge (merged : merge policy application model = .ok result) {known : Artifact}
    (found : application.root.dependencies.find? coordinate = some known) :
    result.root.dependencies.find? coordinate = some known := by
  obtain ⟨_, _, _, _, root⟩ := merge_ok.mp merged
  rw [root, DependencySet.find?_insertAll, found, Option.some_or]

theorem mergeAll_append :
    mergeAll policy application (before ++ after) =
      mergeAll policy application before >>= fun merged => mergeAll policy merged after := by
  simp only [mergeAll, List.foldlM_append]

/-- A run fails at a first model, with that model's failure. -/
theorem mergeAll_error (failed : mergeAll policy application models = .error failure) :
    ∃ before model after merged, models = before ++ model :: after ∧
      mergeAll policy application before = .ok merged ∧
        merge policy merged model = .error failure :=
  foldlM_error.mp failed

theorem mergeAll_stopped {merged : Application}
    (passed : mergeAll policy application before = .ok merged)
    (stopped : merge policy merged model = .error failure) :
    mergeAll policy application (before ++ model :: after) = .error failure :=
  foldlM_error.mpr ⟨before, model, after, merged, rfl, passed, stopped⟩

/-- Merging one model without inlining takes its owner out of those that can still be merged. -/
theorem mergeable_merge (merged : merge .legacy application model = .ok result) :
    result.Mergeable models ↔ application.Mergeable (model :: models) := by
  obtain ⟨owned, fresh⟩ := merge_legacy_succeeds.mp ⟨result, merged⟩
  obtain ⟨_, _, _, _, root⟩ := merge_ok.mp merged
  have known (other : Model) : result.root.dependencies.contains other.owner =
      application.root.dependencies.contains other.owner := by
    rw [root]
    rfl
  have free (other : Model) : result.hasNested other.owner = false ↔
      model.owner.identity ≠ other.owner.identity ∧ application.hasNested other.owner = false := by
    rw [← Bool.not_eq_true, hasNested_merge merged, not_or, Bool.not_eq_true, ne_comm]
  constructor
  · intro mergeable
    refine ⟨List.forall_mem_cons.mpr ⟨owned, fun other member => ?_⟩,
      List.forall_mem_cons.mpr ⟨fresh, fun other member => ?_⟩,
      List.pairwise_cons.mpr ⟨fun other member => ?_, mergeable.distinct⟩⟩
    · rw [← known]
      exact mergeable.owned other member
    · exact ((free other).mp (mergeable.fresh other member)).2
    · exact ((free other).mp (mergeable.fresh other member)).1
  · intro mergeable
    obtain ⟨different, distinct⟩ := List.pairwise_cons.mp mergeable.distinct
    refine ⟨fun other member => ?_, fun other member => ?_, distinct⟩
    · rw [known]
      exact mergeable.owned other (List.mem_cons_of_mem _ member)
    · exact (free other).mpr
        ⟨different other member, mergeable.fresh other (List.mem_cons_of_mem _ member)⟩

theorem mergeAll_legacy_succeeds :
    (∃ result, mergeAll .legacy application models = .ok result) ↔
      application.Mergeable models := by
  induction models generalizing application with
  | nil =>
      constructor
      · intro _
        exact ⟨by simp, by simp, .nil⟩
      · intro _
        exact ⟨application, rfl⟩
  | cons model rest ih =>
      constructor
      · intro succeeded
        obtain ⟨result, merged⟩ := succeeded
        obtain ⟨next, here, later⟩ := mergeAll_cons.mp merged
        exact (mergeable_merge here).mp (ih.mp ⟨result, later⟩)
      · intro mergeable
        have owned := mergeable.owned model (List.mem_cons_self ..)
        have fresh := mergeable.fresh model (List.mem_cons_self ..)
        obtain ⟨next, here⟩ := merge_legacy_succeeds.mpr ⟨owned, fresh⟩
        obtain ⟨result, later⟩ := ih.mpr ((mergeable_merge here).mpr mergeable)
        exact ⟨result, mergeAll_cons.mpr ⟨next, here, later⟩⟩

theorem mergeAll_ne_missing {owner : Coordinate} {known : Artifact}
    (found : application.root.dependencies.find? owner = some known) :
    mergeAll policy application models ≠ .error (.missingCoordinate (.mergeTarget owner)) := by
  intro failed
  induction models generalizing application with
  | nil => cases failed
  | cons model rest ih =>
      rw [mergeAll, List.foldlM_cons, bind_error] at failed
      rcases failed with here | ⟨next, here, later⟩
      · rcases merge_error.mp here with ⟨missing, same⟩ | ⟨_, _, _, same⟩
        · cases same
          rw [found] at missing
          cases missing
        · cases same
      · exact ih (find?_merge here found) later

/-- With inlining an owner is found in the root or among the dependencies of an earlier model. -/
theorem find?_mergeAll_inlined (merged : mergeAll .inlined application models = .ok result) :
    result.root.dependencies.find? coordinate =
      (application.root.dependencies.find? coordinate).or
        (models.findSome? (·.dependencies.find? coordinate)) := by
  rw [root_mergeAll_inlined merged]
  exact find?_joinAll

theorem verdicts_differ (borrows : application.BorrowsOwner models) :
    ¬SameVerdict (mergeAll .inlined application models) (mergeAll .legacy application models) := by
  obtain ⟨before, model, after, rfl, mergeable, missing, lender, member, lends⟩ := borrows
  obtain ⟨merged, passed⟩ := mergeAll_legacy_succeeds.mpr mergeable
  have refused : mergeAll .legacy application (before ++ model :: after) =
      .error (.missingCoordinate (.mergeTarget model.owner)) := by
    refine mergeAll_stopped passed (merge_error.mpr (.inl ⟨?_, rfl⟩))
    rw [root_mergeAll_legacy passed]
    exact missing
  obtain ⟨other, joined, _⟩ := Widens.refl.mergeAll passed
  -- with inlining, what the lender depends on is in the root by now
  have lent : ∃ known, other.root.dependencies.find? model.owner = some known := by
    rw [find?_mergeAll_inlined joined, missing, Option.none_or, ← Option.isSome_iff_exists,
      List.findSome?_isSome_iff]
    exact ⟨lender, member, by rwa [← DependencySet.contains_eq_isSome]⟩
  obtain ⟨known, found⟩ := lent
  intro same
  rcases same with ⟨_, result, succeeded⟩ | ⟨failure, failed, alike⟩
  · rw [refused] at succeeded
    cases succeeded
  · rw [refused] at alike
    cases alike
    rw [mergeAll_append, joined] at failed
    exact mergeAll_ne_missing found failed

theorem verdicts_agree (borrowsNone : ¬application.BorrowsOwner models) :
    SameVerdict (mergeAll .inlined application models) (mergeAll .legacy application models) := by
  cases ran : mergeAll .legacy application models with
  | ok merged =>
      obtain ⟨other, joined, _⟩ := Widens.refl.mergeAll ran
      exact .inl ⟨⟨other, joined⟩, merged, rfl⟩
  | error failure =>
      -- the models before the refused one pass under both policies
      obtain ⟨before, model, after, merged, rfl, passed, stopped⟩ := mergeAll_error ran
      obtain ⟨other, joined, widens⟩ := Widens.refl.mergeAll passed
      refine .inr ⟨failure, mergeAll_stopped joined (merge_error.mpr ?_), rfl⟩
      rcases merge_error.mp stopped with ⟨missing, same⟩ | ⟨target, found, known, same⟩
      · rw [root_mergeAll_legacy passed] at missing
        refine .inl ⟨?_, same⟩
        rw [find?_mergeAll_inlined joined, missing, Option.none_or, List.findSome?_eq_none_iff]
        intro lender member
        rw [← DependencySet.contains_eq_false, ← Bool.not_eq_true]
        intro lends
        exact borrowsNone ⟨before, model, after, rfl, mergeAll_legacy_succeeds.mp ⟨merged, passed⟩,
          missing, lender, member, lends⟩
      · refine .inr ⟨target, widens.kept _ _ found, ?_, same⟩
        rw [hasNested, widens.nested]
        exact known

/-- The policies come to the same verdict unless a model borrows its owner from an earlier one. -/
theorem sameVerdict_iff :
    SameVerdict (mergeAll .inlined application models) (mergeAll .legacy application models) ↔
      ¬application.BorrowsOwner models :=
  ⟨fun same borrows => verdicts_differ borrows same, verdicts_agree⟩

/-- The second model belongs to a library that only the first one depends on. -/
theorem sameVerdict_borrowed :
    let coordinate (name : String) : Coordinate := ⟨"g", name, "1.0", "jar", none, none⟩
    let artifact (name : String) : Artifact :=
      ⟨coordinate name, some ("/" ++ name ++ ".jar"), false, .empty, .empty⟩
    let application := ofRoot (.ofDependencies (coordinate "bundle") (.ofList [artifact "sub"]))
    let models := [Model.ofDependencies (coordinate "sub") (.ofList [artifact "lib"]),
      Model.empty (coordinate "lib")]
    mergeAll .legacy application models =
        .error (.missingCoordinate (.mergeTarget (coordinate "lib"))) ∧
      (mergeAll .inlined application models).isOk = true ∧
        ¬SameVerdict (mergeAll .inlined application models)
          (mergeAll .legacy application models) := by
  intro coordinate artifact application models
  have legacy : mergeAll .legacy application models =
      .error (.missingCoordinate (.mergeTarget (coordinate "lib"))) := by
    decide +kernel
  have inlined : (mergeAll .inlined application models).isOk = true := by
    decide +kernel
  refine ⟨legacy, inlined, ?_⟩
  rintro (⟨_, _, succeeded⟩ | ⟨failure, failed, _⟩)
  · rw [legacy] at succeeded
    cases succeeded
  · rw [failed] at inlined
    contradiction

end AppBundle.Application
